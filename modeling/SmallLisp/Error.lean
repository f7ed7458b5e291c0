import SmallLisp.Form
import SmallLisp.Value.Render

/-!
# Evaluation errors

What a program prints is kept in the state, where nothing can fail. So none of these is the error of
a write.
-/

namespace SmallLisp

/-- What a built-in function takes where it was given something else. -/
inductive Expected where
  | number | integer | list
  deriving DecidableEq, Repr

def Expected.text : Expected → String
  | number => "number"
  | integer => "integer"
  | list => "list"

/-- Why an evaluation has no value. -/
inductive EvalError where
  | unboundSymbol (name : String)
  | notCallable (v : Value)
  | wrongArgumentCount (function : String) (expected : Arity) (actual : Nat)
  | typeMismatch (function : String) (expected : Expected) (actual : Value)
  | divisionByZero
  | overflow (op : Operator)
  | malformed (form : Form) (cause : Malformation)

def EvalError.message : EvalError → String
  | unboundSymbol name => "Unbound symbol: " ++ name
  | notCallable v => "Called an object that is not a function: " ++ v.render
  | wrongArgumentCount f expected actual =>
    "Wrong number of arguments for " ++ f ++ ". Expected " ++ expected.text ++ ", got "
      ++ actual.repr
  | typeMismatch f expected v =>
    "Invalid argument for " ++ f ++ ". Expected " ++ expected.text ++ ", got " ++ v.typeName
      ++ " " ++ v.render
  | divisionByZero => "Division by zero"
  | overflow op => "Integer overflow in " ++ op.name
  | malformed form cause => "Malformed " ++ form.name ++ ": " ++ cause.text

end SmallLisp
