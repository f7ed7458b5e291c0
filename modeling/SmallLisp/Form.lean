/-!
# Special forms

A non-empty list headed by one of nine symbols is not a call: its operands are evaluated, if at
all, as the form says. The names are fixed and a binding of the same name does not hide them.
-/

namespace SmallLisp

inductive Form where
  | quote
  | define
  | defineFn
  | lambda
  | branch
  | bind
  | sequence
  | and
  | or
  deriving DecidableEq, Repr

namespace Form

def name : Form → String
  | quote => "quote"
  | define => "def"
  | defineFn => "defn"
  | lambda => "fn"
  | branch => "if"
  | bind => "let"
  | sequence => "do"
  | and => "and"
  | or => "or"

def ofName? : String → Option Form
  | "quote" => some quote
  | "def" => some define
  | "defn" => some defineFn
  | "fn" => some lambda
  | "if" => some branch
  | "let" => some bind
  | "do" => some sequence
  | "and" => some and
  | "or" => some or
  | _ => none

theorem ofName?_name (f : Form) : ofName? f.name = some f := by cases f <;> rfl

theorem ofName?_eq_some_iff {s : String} {f : Form} : ofName? s = some f ↔ s = f.name := by
  constructor
  · intro h
    unfold ofName? at h
    split at h <;> first | cases h; rfl | cases h
  · rintro rfl; exact ofName?_name f

end Form

/-- What is wrong with the operands of a special form. -/
inductive Malformation where
  | notOneOperand
  | notSymbolAndExpression
  | noName
  | notSymbol
  | notParameterList
  | notTestAndBranches
  | notBindingList
  deriving DecidableEq, Repr

def Malformation.text : Malformation → String
  | notOneOperand => "expected exactly one operand"
  | notSymbolAndExpression => "expected a symbol and an expression"
  | noName => "expected a name"
  | notSymbol => "expected a symbol to bind"
  | notParameterList => "parameters must be a list of symbols"
  | notTestAndBranches => "expected a test, a consequence and an optional alternative"
  | notBindingList => "bindings must be a list of (symbol expression) pairs"

end SmallLisp
