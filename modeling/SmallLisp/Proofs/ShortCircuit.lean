import SmallLisp.Proofs.Limit

/-!
# Conjunctions and disjunctions

A conditional on a conjunction does what nested conditionals on its operands do, and likewise one on
a disjunction (`conditions_nest`). What follows an operand that decides is not evaluated, nor is
what follows one that fails or has no end.
-/

namespace SmallLisp

namespace Value

def branch (test e e' : Value) : Value := .list [.sym "if", test, e, e']

def conjunction (es : List Value) : Value := .list (.sym "and" :: es)

def disjunction (es : List Value) : Value := .list (.sym "or" :: es)

/-- Tests the expressions one after the other, as long as they are true. -/
def nestedAnd (es : List Value) (e e' : Value) : Value :=
  es.foldr (fun test inner => branch test inner e') e

/-- Tests the expressions one after the other, as long as they are not true. -/
def nestedOr (es : List Value) (e e' : Value) : Value :=
  es.foldr (fun test inner => branch test e inner) e'

theorem not_truthy_nil : ¬ nil.truthy = true := Bool.false_ne_true

end Value

open Value

section Rules

variable (env : Env) (e e' : Value)

theorem evaluate_branch (test : Value) : evaluate (branch test e e') env =
    evaluate test env >>= fun v => if v.truthy then evaluate e env else evaluate e' env :=
  evaluate_form .branch [test, e, e'] env

theorem evaluate_conjunction (es : List Value) :
    evaluate (conjunction es) env = evalAnd evaluate env (.bool true) es :=
  evaluate_form .and es env

theorem evaluate_disjunction (es : List Value) :
    evaluate (disjunction es) env = evalOr evaluate env .nil es :=
  evaluate_form .or es env

/-! ## Nested conditionals -/

theorem evalAnd_nested {last : Value} (h : last.truthy = true) (es : List Value) :
    (evalAnd evaluate env last es >>= fun v =>
      if v.truthy then evaluate e env else evaluate e' env) =
    evaluate (nestedAnd es e e') env := by
  induction es generalizing last with
  | nil => rw [evalAnd, pure_bind, if_pos h]; rfl
  | cons test es ih =>
    rw [evalAnd, bind_assoc, nestedAnd, List.foldr_cons, evaluate_branch]
    congr 1
    funext v
    split
    case isTrue hv => exact ih hv
    case isFalse hv => rw [pure_bind, if_neg hv]

theorem evaluate_branch_conjunction (es : List Value) :
    evaluate (branch (conjunction es) e e') env = evaluate (nestedAnd es e e') env := by
  rw [evaluate_branch, evaluate_conjunction]
  exact evalAnd_nested env e e' rfl es

theorem evalOr_nested {last : Value} (h : ¬ last.truthy = true) (es : List Value) :
    (evalOr evaluate env last es >>= fun v =>
      if v.truthy then evaluate e env else evaluate e' env) =
    evaluate (nestedOr es e e') env := by
  induction es generalizing last with
  | nil => rw [evalOr, pure_bind, if_neg h]; rfl
  | cons test es ih =>
    rw [evalOr, bind_assoc, nestedOr, List.foldr_cons, evaluate_branch]
    congr 1
    funext v
    split
    case isTrue hv => rw [pure_bind, if_pos hv]
    case isFalse hv => exact ih hv

theorem evaluate_branch_disjunction (es : List Value) :
    evaluate (branch (disjunction es) e e') env = evaluate (nestedOr es e e') env := by
  rw [evaluate_branch, evaluate_disjunction]
  exact evalOr_nested env e e' not_truthy_nil es

/-! ## More operands -/

theorem evalAnd_append {last : Value} (h : last.truthy = true) (es after : List Value) :
    evalAnd evaluate env last (es ++ after) = evalAnd evaluate env last es >>= fun v =>
      if v.truthy then evalAnd evaluate env v after else pure v := by
  induction es generalizing last with
  | nil => rw [List.nil_append, evalAnd, pure_bind, if_pos h]
  | cons test es ih =>
    rw [List.cons_append, evalAnd, evalAnd, bind_assoc]
    congr 1
    funext v
    split
    case isTrue hv => exact ih hv
    case isFalse hv => rw [pure_bind, if_neg hv]

theorem evalOr_append {last : Value} (h : ¬ last.truthy = true) (es after : List Value) :
    evalOr evaluate env last (es ++ after) = evalOr evaluate env last es >>= fun v =>
      if v.truthy then pure v else evalOr evaluate env v after := by
  induction es generalizing last with
  | nil => rw [List.nil_append, evalOr, pure_bind, if_neg h]
  | cons test es ih =>
    rw [List.cons_append, evalOr, evalOr, bind_assoc]
    congr 1
    funext v
    split
    case isTrue hv => rw [pure_bind, if_pos hv]
    case isFalse hv => exact ih hv

/-- No operand matters after those of a conjunction that does not end with a true value. -/
theorem evaluate_conjunction_append {s : State} {es : List Value}
    (h : ∀ v s', Ends (conjunction es) env s (.ok v, s') → v.truthy = false) (after : List Value) :
    evaluate (conjunction (es ++ after)) env s = evaluate (conjunction es) env s := by
  rw [evaluate_conjunction, evaluate_conjunction, evalAnd_append env rfl]
  refine Run.bind_eq_self fun v s' hv => ?_
  rw [← evaluate_conjunction, evaluate_eq_some_iff] at hv
  rw [h v s' hv, if_neg Bool.false_ne_true]
  rfl

/-- No operand matters after those of a disjunction that does not end with an untrue value. -/
theorem evaluate_disjunction_append {s : State} {es : List Value}
    (h : ∀ v s', Ends (disjunction es) env s (.ok v, s') → v.truthy = true) (after : List Value) :
    evaluate (disjunction (es ++ after)) env s = evaluate (disjunction es) env s := by
  rw [evaluate_disjunction, evaluate_disjunction, evalOr_append env not_truthy_nil]
  refine Run.bind_eq_self fun v s' hv => ?_
  rw [← evaluate_disjunction, evaluate_eq_some_iff] at hv
  rw [if_pos (h v s' hv)]
  rfl

end Rules

/-- A conditional on a conjunction of any length has the outcomes of nested conditionals on its
operands, and one on a disjunction likewise: the same value or error, the same bindings and the same
text printed. Where the operands so far decide, or fail, or have no end, further ones change
nothing. -/
theorem conditions_nest (env : Env) (s : State) (es : List Value) (e e' : Value) :
    (∀ p, Ends (branch (conjunction es) e e') env s p ↔ Ends (nestedAnd es e e') env s p) ∧
    (∀ p, Ends (branch (disjunction es) e e') env s p ↔ Ends (nestedOr es e e') env s p) ∧
    ((∀ v s', Ends (conjunction es) env s (.ok v, s') → v.truthy = false) → ∀ after p,
      Ends (branch (conjunction (es ++ after)) e e') env s p ↔
        Ends (branch (conjunction es) e e') env s p) ∧
    ((∀ v s', Ends (disjunction es) env s (.ok v, s') → v.truthy = true) → ∀ after p,
      Ends (branch (disjunction (es ++ after)) e e') env s p ↔
        Ends (branch (disjunction es) e e') env s p) := by
  refine ⟨fun p => ?_, fun p => ?_, fun h after p => ?_, fun h after p => ?_⟩
  · rw [← evaluate_eq_some_iff, ← evaluate_eq_some_iff, evaluate_branch_conjunction]
  · rw [← evaluate_eq_some_iff, ← evaluate_eq_some_iff, evaluate_branch_disjunction]
  · rw [← evaluate_eq_some_iff, ← evaluate_eq_some_iff, evaluate_branch, evaluate_branch,
      Run.bind_congr_left (evaluate_conjunction_append env h after)]
  · rw [← evaluate_eq_some_iff, ← evaluate_eq_some_iff, evaluate_branch, evaluate_branch,
      Run.bind_congr_left (evaluate_disjunction_append env h after)]

end SmallLisp
