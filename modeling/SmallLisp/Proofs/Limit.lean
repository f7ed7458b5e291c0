import SmallLisp.Eval.Depth

/-!
# Evaluation without a bound

An expression ends as it does at some depth (`Ends`), and does so at every greater one. `evaluate`
gives this outcome. It is the limit of evaluation at greater and greater depths (`Run.Converges`),
and sequencing keeps limits, so that it satisfies the rules (`evaluate_eq`). What two expressions do
can then be compared by the rules alone.
-/

namespace SmallLisp

/-! ## Limits -/

namespace Run

/-- At greater and greater depths the runs keep the outcomes that they have, and these are the
outcomes of `x none`, their limit. -/
structure Converges {α : Type} (x : Option Nat → Eval α) : Prop where
  mono : ∀ {m n : Nat}, m ≤ n → Le (x (some m)) (x (some n))
  le_limit : ∀ n, Le (x (some n)) (x none)
  reached : ∀ {s p}, x none s = some p → ∃ n, x (some n) s = some p

namespace Converges

variable {α β : Type}

theorem const (x : Eval α) : Converges fun _ => x where
  mono _ := .refl x
  le_limit _ := .refl x
  reached h := ⟨0, h⟩

theorem bind {x : Option Nat → Eval α} {f : Option Nat → α → Eval β} (hx : Converges x)
    (hf : ∀ a, Converges fun n => f n a) : Converges fun n => x n >>= f n where
  mono h := (hx.mono h).bind fun a => (hf a).mono h
  le_limit n := (hx.le_limit n).bind fun a => (hf a).le_limit n
  reached {s p} h := by
    rcases bind_eq_some h with ⟨e, s', hlimit, rfl⟩ | ⟨a, s', hlimit, h⟩
    · obtain ⟨m, hm⟩ := hx.reached hlimit
      exact ⟨m, bind_of_error hm⟩
    · obtain ⟨m, hm⟩ := hx.reached hlimit
      obtain ⟨n, hn⟩ := (hf a).reached h
      -- At the greater of the two depths both parts have ended.
      refine ⟨max m n, ?_⟩
      rw [bind_of_ok (hx.mono (Nat.le_max_left m n) s _ hm)]
      exact (hf a).mono (Nat.le_max_right m n) s' p hn

theorem eq_none {x : Option Nat → Eval α} (hx : Converges x) {s : State}
    (h : ∀ n, x (some n) s = none) : x none s = none := by
  cases hlimit : x none s with
  | none => rfl
  | some p =>
    obtain ⟨n, hn⟩ := hx.reached hlimit
    rw [h n] at hn
    cases hn

def compositional : Compositional (Option Nat) where
  Holds := Converges
  const := const
  bind := bind

end Converges

end Run

/-! ## The limit of evaluation -/

/-- The expression has this outcome at some depth. -/
def Ends (e : Value) (env : Env) (s : State) (p : Except EvalError Value × State) : Prop :=
  ∃ depth, eval depth e env s = some p

theorem Ends.unique {e : Value} {env : Env} {s : State} {p q : Except EvalError Value × State}
    (hp : Ends e env s p) (hq : Ends e env s q) : p = q := by
  obtain ⟨m, hm⟩ := hp
  obtain ⟨n, hn⟩ := hq
  have hm' := eval_le_eval (Nat.le_max_left m n) e env s p hm
  have hn' := eval_le_eval (Nat.le_max_right m n) e env s q hn
  exact Option.some.inj (hm'.symm.trans hn')

open Classical in
/-- Evaluates an expression at whatever depth it needs. -/
noncomputable def evaluate (e : Value) (env : Env) : Eval Value := fun s =>
  if h : ∃ p, Ends e env s p then some h.choose else none

theorem evaluate_eq_some_iff {e : Value} {env : Env} {s : State}
    {p : Except EvalError Value × State} : evaluate e env s = some p ↔ Ends e env s p := by
  unfold evaluate
  constructor
  · intro h
    split at h
    case isTrue hends =>
      cases h
      exact hends.choose_spec
    case isFalse => cases h
  · intro h
    have hends : ∃ p, Ends e env s p := ⟨p, h⟩
    rw [dif_pos hends, hends.choose_spec.unique h]

theorem eval_converges (e : Value) (env : Env) :
    Run.Converges fun n : Option Nat => n.elim evaluate eval e env where
  mono h := eval_le_eval h e env
  le_limit depth _ _ h := evaluate_eq_some_iff.2 ⟨depth, h⟩
  reached h := evaluate_eq_some_iff.1 h

/-- Evaluation satisfies its rules. -/
theorem evaluate_eq (e : Value) (env : Env) : evaluate e env = evalStep evaluate e env := by
  have hstep := Compositional.evalStep (P := Run.Converges.compositional) eval_converges e env
  funext s
  refine Option.ext fun p => ⟨fun h => ?_, fun h => ?_⟩
  · obtain ⟨depth, h⟩ := evaluate_eq_some_iff.1 h
    cases depth with
    | zero => cases h
    | succ depth => exact hstep.le_limit depth s p h
  · obtain ⟨depth, h⟩ := hstep.reached h
    exact evaluate_eq_some_iff.2 ⟨depth + 1, h⟩

/-! ## The rules -/

theorem evaluate_form (form : Form) (operands : List Value) (env : Env) :
    evaluate (.list (.sym form.name :: operands)) env = evalForm evaluate env form operands := by
  rw [evaluate_eq, evalStep_form]

theorem evaluate_call {head : Value} (h : formOf? head = none) (operands : List Value) (env : Env) :
    evaluate (.list (head :: operands)) env = evaluate head env >>= fun f =>
      if f.callable then evalAll evaluate env operands >>= apply evaluate f
      else Run.fail (.notCallable f) := by
  rw [evaluate_eq, evalStep_call evaluate h]

end SmallLisp
