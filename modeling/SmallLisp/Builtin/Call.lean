import SmallLisp.Number

/-!
# What built-in functions compute

A call gives a value or an error (`Builtin.call`). Nothing else depends on it or is changed by it,
except that three of the functions print (`Builtin.printed`).
-/

namespace SmallLisp

/-- The value is of the kind. -/
def TypeTest.admits : TypeTest → Value → Bool
  | nil, .nil | int, .int _ | number, .int _ | number, .double _ | double, .double _
  | bool, .bool _ | string, .str _ | list, .list _ | symbol, .sym _ => true
  | _, _ => false

namespace Builtin

/-- Combines the arguments from the left. -/
def fold (op : Operator) (v : Value) (vs : List Value) : Except EvalError Value := do
  let first ← Number.ofArgument op.name v
  let result ← vs.foldlM (fun a w => do op.apply a (← Number.ofArgument op.name w)) first
  return result.toValue

/-- One step up or down from a number. -/
def step (b : Builtin) (op : Operator) (v : Value) : Except EvalError Value := do
  let a ← Number.ofArgument b.name v
  let result ← op.apply a (.int 1)
  return result.toValue

/-- The relation holds between neighbours. The first pair that decides ends the search, so later
arguments may be anything. -/
def ordered (r : Relation) : List Value → Except EvalError Bool
  | v :: w :: vs => do
    let a ← Number.ofArgument r.name v
    let b ← Number.ofArgument r.name w
    if (a.compare b).any r.holds then ordered r (w :: vs) else return false
  | _ => return true

/-- Neighbours are equal. -/
def allEqual : List Value → Bool
  | v :: w :: vs => v.equal w && allEqual (w :: vs)
  | _ => true

/-- The elements of a list, of which nil is the empty one. -/
def elements (b : Builtin) : Value → Except EvalError (List Value)
  | .nil => return []
  | .list vs => return vs
  | v => throw (.typeMismatch b.name .list v)

/-- The list of some elements, but nil if there are none. -/
def listOrNil : List Value → Value
  | [] => .nil
  | v :: vs => .list (v :: vs)

/-- The value of a call. -/
def call : Builtin → List Value → Except EvalError Value
  | .arith .add, v :: vs => fold .add v vs
  | .arith .sub, [v] => do return (← (← Number.ofArgument Operator.sub.name v).neg).toValue
  | .arith .sub, v :: w :: vs => fold .sub v (w :: vs)
  | .arith .mul, v :: vs => fold .mul v vs
  | .arith .div, [v] => fold .div (.int 1) [v]
  | .arith .div, v :: w :: vs => fold .div v (w :: vs)
  | .arith .rem, [v, w] => fold .rem v [w]
  | .arith .mod, [v, w] => fold .mod v [w]
  | .inc, [v] => step .inc .add v
  | .dec, [v] => step .dec .sub v
  | .order r, vs => do return .bool (← ordered r vs)
  | .equal, vs => return .bool (allEqual vs)
  | .notEqual, vs => return .bool (!allEqual vs)
  | .not, [v] => return .bool (!v.truthy)
  | .test kind, [v] => return .bool (kind.admits v)
  | .sign expected, [v] => do
    return .bool ((← Number.ofArgument (sign expected).name v).sign == expected)
  | .parity odd, [.int n] => return .bool ((n.toInt % 2 == 1) == odd)
  | .parity odd, [v] => throw (.typeMismatch (parity odd).name .integer v)
  | .empty, [v] => do return .bool (← elements .empty v).isEmpty
  | .first, [v] => do return (← elements .first v).headD .nil
  | .next, [v] => do return listOrNil (← elements .next v).tail
  | .cons, [v, w] => do return .list (v :: (← elements .cons w))
  | .print, _ => return .nil
  | .println, _ => return .nil
  | .newline, [] => return .nil
  | b, vs => throw (.wrongArgumentCount b.name b.arity vs.length)

/-- What a call that has a value prints. -/
def printed : Builtin → List Value → String
  | .print, vs => Value.renderAll vs
  | .println, vs => Value.renderAll vs ++ "\n"
  | .newline, _ => "\n"
  | _, _ => ""

end Builtin

end SmallLisp
