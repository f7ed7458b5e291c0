import SmallLisp.Double.Shortest
import SmallLisp.Text.Quoted
import SmallLisp.Value.Basic

/-!
# The written form of values

Values are written as the reader takes them, wherever it takes them: numbers, booleans, string
literals, symbols, and lists in parentheses. Functions are written between angle brackets.
-/

namespace SmallLisp.Value

/-- The shown name of a closure, also where it is called with the wrong number of arguments. -/
def closureName : Option String → String
  | some name => name
  | none => "<fn>"

mutual

def chars : Value → List Char
  | nil => "nil".toList
  | int n => Decimal.signChars (n.toInt < 0) ++ Nat.toDigits 10 n.toInt.natAbs
  | double x => x.literal
  | bool true => "true".toList
  | bool false => "false".toList
  | str s => Text.literal s.toList
  | sym s => s.toList
  | list vs => '(' :: (charsAll vs ++ [')'])
  | builtin b => "<builtin-fn ".toList ++ b.name.toList ++ ['>']
  | closure _ (some name) .. => "<fn ".toList ++ name.toList ++ ['>']
  | closure _ none .. => "<fn>".toList

/-- The written forms with single spaces between them. -/
def charsAll : List Value → List Char
  | [] => []
  | [v] => chars v
  | v :: w :: vs => chars v ++ ' ' :: charsAll (w :: vs)

end

@[simp] theorem chars_int (n : Int64) :
    (int n).chars = Decimal.signChars (n.toInt < 0) ++ Nat.toDigits 10 n.toInt.natAbs := rfl

@[simp] theorem chars_double (x : Double) : (double x).chars = x.literal := rfl

@[simp] theorem chars_true : (bool true).chars = "true".toList := rfl

@[simp] theorem chars_false : (bool false).chars = "false".toList := rfl

@[simp] theorem chars_str (s : String) : (str s).chars = Text.literal s.toList := rfl

@[simp] theorem chars_sym (s : String) : (sym s).chars = s.toList := rfl

@[simp] theorem chars_list (vs : List Value) :
    (list vs).chars = '(' :: (charsAll vs ++ [')']) := rfl

@[simp] theorem charsAll_nil : charsAll [] = [] := rfl

@[simp] theorem charsAll_singleton (v : Value) : charsAll [v] = v.chars := rfl

@[simp] theorem charsAll_cons_cons (v w : Value) (vs : List Value) :
    charsAll (v :: w :: vs) = v.chars ++ ' ' :: charsAll (w :: vs) := rfl

def render (v : Value) : String := String.ofList v.chars

/-- The written forms of several values, as a call prints its arguments. -/
def renderAll (vs : List Value) : String := String.ofList (charsAll vs)

end SmallLisp.Value
