import SmallLisp.Builtin.Basic
import SmallLisp.Double.Basic

/-!
# Values

Programs compute with values, and a program is itself made of values: a list is both data and
the expression tree of a call.
-/

namespace SmallLisp

/-- An environment: the number of its frame in the heap. -/
structure Env where
  index : Nat
  deriving DecidableEq, Repr

/-- A value. A closure carries an identity of its own beside its definition. -/
inductive Value where
  | nil
  | int (n : Int64)
  | double (x : Double)
  | bool (b : Bool)
  | str (s : String)
  | sym (name : String)
  | list (elements : List Value)
  | builtin (b : Builtin)
  | closure (identity : Nat) (name : Option String) (params : List String) (body : List Value)
      (env : Env)

instance : Inhabited Value := ⟨.nil⟩

namespace Value

/-- Only nil and `false` are not; zero and the empty list are. -/
def truthy : Value → Bool
  | nil | bool false => false
  | _ => true

def callable : Value → Bool
  | builtin _ | closure .. => true
  | _ => false

def typeName : Value → String
  | nil => "nil"
  | int _ => "integer"
  | double _ => "double"
  | bool _ => "boolean"
  | str _ => "string"
  | sym _ => "symbol"
  | list _ => "list"
  | builtin _ | closure .. => "function"

/-! ## Equality -/

mutual

/-- Equality as programs see it. An integer is compared with a double as a double, closures by
identity, and a built-in function differs from everything. -/
def equal : Value → Value → Bool
  | nil, nil => true
  | int m, int n => m == n
  | double x, double y => x.equal y
  | int n, double x | double x, int n => (Double.ofInt n.toInt).equal x
  | bool a, bool b => a == b
  | str s, str t => s == t
  | sym s, sym t => s == t
  | list vs, list ws => equalAll vs ws
  | closure i .., closure j .. => i == j
  | _, _ => false

/-- The lists have the same length and equal elements. -/
def equalAll : List Value → List Value → Bool
  | [], [] => true
  | v :: vs, w :: ws => equal v w && equalAll vs ws
  | _, _ => false

end

/-! ## Shapes -/

def symbol? : Value → Option String
  | sym s => some s
  | _ => none

/-- The texts of a list's elements, if they are all symbols. -/
def symbols? : List Value → Option (List String)
  | [] => some []
  | sym s :: vs => (symbols? vs).map (s :: ·)
  | _ :: _ => none

theorem symbols?_map_sym (names : List String) : symbols? (names.map .sym) = some names := by
  induction names with
  | nil => rfl
  | cons name names ih => rw [List.map_cons, symbols?, ih]; rfl

end Value

end SmallLisp
