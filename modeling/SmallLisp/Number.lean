import SmallLisp.Error
import SmallLisp.Integer

/-!
# Numbers

A number is an exact integer or a double. Two integers are combined exactly, and a result out of
range is an error; as soon as one operand is a double, both are taken as doubles.
-/

namespace SmallLisp

inductive Number where
  | int (n : Int64)
  | double (x : Double)
  deriving DecidableEq

namespace Number

def ofValue? : Value → Option Number
  | .int n => some (int n)
  | .double x => some (double x)
  | _ => none

def toValue : Number → Value
  | int n => .int n
  | double x => .double x

theorem ofValue?_toValue (a : Number) : ofValue? a.toValue = some a := by cases a <;> rfl

/-- The number that an argument of a function is. -/
def ofArgument (function : String) (v : Value) : Except EvalError Number :=
  match ofValue? v with
  | some a => .ok a
  | none => .error (.typeMismatch function .number v)

def toDouble : Number → Double
  | int n => .ofInt n.toInt
  | double x => x

def isZero : Number → Bool
  | int n => n == 0
  | double x => x.isZero

/-- The order of two numbers; there is none with NaN. -/
def compare : Number → Number → Option Ordering
  | int m, int n => some (Ord.compare m.toInt n.toInt)
  | a, b => a.toDouble.compare b.toDouble

/-- How a number compares with zero; NaN counts as equal to it. -/
def sign (a : Number) : Ordering := (a.compare (int 0)).getD .eq

def neg : Number → Except EvalError Number
  | int n =>
    match Integer.ofInt? (-n.toInt) with
    | some r => .ok (int r)
    | none => .error (.overflow .sub)
  | double x => .ok (double x.neg)

end Number

namespace Operator

/-- The operator fails if its second operand is zero. -/
def divides : Operator → Bool
  | add | sub | mul => false
  | div | rem | mod => true

/-- The operator on integers, the divisor not being zero. Quotients are truncated, a remainder is
out of range together with its quotient, and a modulus is the remainder on the divisor's side of
zero. -/
def onInt (op : Operator) (m n : Int64) : Option Int64 :=
  let a := m.toInt
  let b := n.toInt
  match op with
  | add => Integer.ofInt? (a + b)
  | sub => Integer.ofInt? (a - b)
  | mul => Integer.ofInt? (a * b)
  | div => Integer.ofInt? (a.tdiv b)
  | rem => if Integer.InRange (a.tdiv b) then Integer.ofInt? (a.tmod b) else none
  | mod =>
    if Integer.InRange (a.tdiv b) then (Integer.ofInt? (a.tmod b)).map (Integer.floored · n)
    else none

def onDouble : Operator → Double → Double → Double
  | add => .add
  | sub => .sub
  | mul => .mul
  | div => .div
  | rem => .rem
  | mod => .mod

/-- The operator on numbers. -/
def apply (op : Operator) (a b : Number) : Except EvalError Number :=
  if op.divides && b.isZero then .error .divisionByZero
  else
    match a, b with
    | .int m, .int n =>
      match op.onInt m n with
      | some r => .ok (.int r)
      | none => .error (.overflow op)
    | a, b => .ok (.double (op.onDouble a.toDouble b.toDouble))

end Operator

end SmallLisp
