/-!
# Built-in functions

The functions that a fresh global environment binds, by family, with the names they are bound to
and the number of arguments each takes. What they compute is in `SmallLisp.Builtin.Call`.
-/

namespace SmallLisp

/-- How many arguments a function takes. -/
inductive Arity where
  | exactly (count : Nat)
  | atLeast (count : Nat)
  deriving DecidableEq, Repr

namespace Arity

def admits : Arity → Nat → Bool
  | exactly n, k => k == n
  | atLeast n, k => n ≤ k

def text : Arity → String
  | exactly n => n.repr
  | atLeast n => "at least " ++ n.repr

end Arity

/-- An operation on two numbers. -/
inductive Operator where
  | add | sub | mul | div | rem | mod
  deriving DecidableEq, Repr

def Operator.name : Operator → String
  | add => "+"
  | sub => "-"
  | mul => "*"
  | div => "/"
  | rem => "rem"
  | mod => "mod"

/-- An order relation between two numbers. -/
inductive Relation where
  | less | lessEqual | greater | greaterEqual
  deriving DecidableEq, Repr

namespace Relation

def name : Relation → String
  | less => "<"
  | lessEqual => "<="
  | greater => ">"
  | greaterEqual => ">="

/-- The relation holds of two numbers compared so. -/
def holds : Relation → Ordering → Bool
  | less, o => o == .lt
  | lessEqual, o => o != .gt
  | greater, o => o == .gt
  | greaterEqual, o => o != .lt

end Relation

/-- A kind of values that a predicate recognises. -/
inductive TypeTest where
  | nil | int | number | double | bool | string | list | symbol
  deriving DecidableEq, Repr

def TypeTest.name : TypeTest → String
  | nil => "nil?"
  | int => "int?"
  | number => "number?"
  | double => "double?"
  | bool => "bool?"
  | string => "string?"
  | list => "list?"
  | symbol => "symbol?"

/-- A built-in function. `sign` asks how its argument compares with zero. -/
inductive Builtin where
  | arith (op : Operator)
  | inc
  | dec
  | order (relation : Relation)
  | equal
  | notEqual
  | not
  | test (kind : TypeTest)
  | sign (expected : Ordering)
  | parity (odd : Bool)
  | empty
  | first
  | next
  | cons
  | print
  | println
  | newline
  deriving DecidableEq, Repr

namespace Builtin

def name : Builtin → String
  | arith op => op.name
  | inc => "inc"
  | dec => "dec"
  | order r => r.name
  | equal => "="
  | notEqual => "!="
  | not => "not"
  | test k => k.name
  | sign .eq => "zero?"
  | sign .gt => "pos?"
  | sign .lt => "neg?"
  | parity false => "even?"
  | parity true => "odd?"
  | empty => "empty?"
  | first => "first"
  | next => "next"
  | cons => "cons"
  | print => "print"
  | println => "println"
  | newline => "newline"

def arity : Builtin → Arity
  | arith .rem | arith .mod | cons => .exactly 2
  | arith _ => .atLeast 1
  | order _ | equal | notEqual | print | println => .atLeast 0
  | newline => .exactly 0
  | inc | dec | not | test _ | sign _ | parity _ | empty | first | next => .exactly 1

/-- Every built-in function, once. -/
def all : List Builtin :=
  [arith .add, arith .sub, arith .mul, arith .div, arith .mod, arith .rem, inc, dec,
    order .greater, order .greaterEqual, equal, notEqual, order .lessEqual, order .less,
    not, test .nil, sign .eq, sign .gt, sign .lt, parity false, parity true, empty,
    test .int, test .number, test .double, test .bool, test .string, test .list, test .symbol,
    first, next, cons, print, println, newline]

theorem mem_all (b : Builtin) : b ∈ all := by
  cases b with
  | arith op => cases op <;> decide
  | order r => cases r <;> decide
  | test k => cases k <;> decide
  | sign o => cases o <;> decide
  | parity b => cases b <;> decide
  | _ => decide

theorem nodup_names : (all.map name).Nodup := by decide

/-- The built-in function of a name. -/
def ofName? (s : String) : Option Builtin := all.find? (·.name == s)

end Builtin

end SmallLisp
