import Mathlib.Data.Set.Basic
import SmallLisp.Eval.Depth

/-!
# The evaluations that a run comes to

A run evaluates expressions one inside the other and one after the other, each in the state that it
finds. To tell which, the run is stopped at a given evaluation with an error of its own
(`evalUntil`): the run comes to the evaluation if it is stopped there whatever the error is
(`Reaches`), and otherwise it ends as ever (`Stoppable`). What a sequence comes to is what its first
part comes to, and then the second part, if the first one has a value (`reaches_bind_iff`).
-/

namespace SmallLisp

/-- The evaluation of an expression in an environment that begins in a state. The expressions nested
in it are evaluated down to the depth. -/
structure Point where
  depth : Nat
  expr : Value
  env : Env
  state : State

/-- How the evaluation ends, if it does. -/
def Point.outcome (p : Point) : Option (Except EvalError Value × State) :=
  evalStep (eval p.depth) p.expr p.env p.state

/-- Where to stop a run, if anywhere, and with which error. -/
abbrev Stop := Option (Point × EvalError)

open Classical in
/-- Evaluates an expression down to a depth as `eval` does, but for the stop. -/
noncomputable def evalUntil (stop : Stop) : Nat → Value → Env → Eval Value
  | 0 => fun _ _ => Run.endless
  | depth + 1 => fun e env s =>
    match stop with
    | some (p, err) =>
      if p = ⟨depth, e, env, s⟩ then some (.error err, s)
      else evalStep (evalUntil (some (p, err)) depth) e env s
    | none => evalStep (evalUntil none depth) e env s

theorem evalUntil_none (depth : Nat) : evalUntil none depth = eval depth := by
  induction depth with
  | zero => rfl
  | succ depth ih =>
    funext e env s
    rw [evalUntil, ih, eval]

variable {α β : Type}

/-- The run comes to the evaluation. -/
def Reaches (x : Stop → Eval α) (s : State) (p : Point) : Prop :=
  ∀ err, x (some (p, err)) s = some (.error err, p.state)

/-- A run that does not come to a stop is not changed by it. -/
def Stoppable (x : Stop → Eval α) : Prop :=
  ∀ s p, Reaches x s p ∨ ∀ err, x (some (p, err)) s = x none s

/-- What ends with one error, whatever the stop, comes to nothing. -/
theorem not_reaches_of_eq {x : Stop → Eval α} {s : State} {p : Point}
    {r : Option (Except EvalError α × State)} (h : ∀ err, x (some (p, err)) s = r) :
    ¬ Reaches x s p := by
  intro hp
  have h₁ := (hp .divisionByZero).symm.trans (h .divisionByZero)
  have h₂ := (hp (.unboundSymbol "")).symm.trans (h (.unboundSymbol ""))
  have := h₁.trans h₂.symm
  simp at this

theorem not_reaches_const (x : Eval α) (s : State) (p : Point) : ¬ Reaches (fun _ => x) s p :=
  not_reaches_of_eq fun _ => rfl

namespace Stoppable

theorem const (x : Eval α) : Stoppable fun _ => x := fun _ _ => .inr fun _ => rfl

section Bind

variable {x : Stop → Eval α} {f : Stop → α → Eval β} {s s' : State} {p : Point}

theorem reaches_bind_of_left (h : Reaches x s p) : Reaches (fun i => x i >>= f i) s p :=
  fun err => Run.bind_of_error (h err)

theorem reaches_bind_of_right (hx : Stoppable x) {a : α} (hok : x none s = some (.ok a, s'))
    (h : Reaches (fun i => f i a) s' p) : Reaches (fun i => x i >>= f i) s p := by
  rcases hx s p with hreach | hsame
  · exact reaches_bind_of_left hreach
  · exact fun err => (Run.bind_of_ok ((hsame err).trans hok)).trans (h err)

theorem reaches_bind_iff (hx : Stoppable x) : Reaches (fun i => x i >>= f i) s p ↔
    Reaches x s p ∨ ∃ a s', x none s = some (.ok a, s') ∧ Reaches (fun i => f i a) s' p := by
  constructor
  · intro h
    rcases hx s p with hreach | hsame
    · exact .inl hreach
    · cases hx' : x none s with
      | none =>
        have hend (err : EvalError) : (x (some (p, err)) >>= f (some (p, err))) s = none :=
          Run.bind_of_none ((hsame err).trans hx')
        exact (not_reaches_of_eq hend h).elim
      | some r =>
        obtain ⟨e | a, s'⟩ := r
        · have hend (err : EvalError) :
              (x (some (p, err)) >>= f (some (p, err))) s = some (.error e, s') :=
            Run.bind_of_error ((hsame err).trans hx')
          exact (not_reaches_of_eq hend h).elim
        · refine .inr ⟨a, s', rfl, fun err => ?_⟩
          exact (Run.bind_of_ok ((hsame err).trans hx')).symm.trans (h err)
  · rintro (h | ⟨a, s', hok, h⟩)
    · exact reaches_bind_of_left h
    · exact reaches_bind_of_right hx hok h

theorem bind (hx : Stoppable x) (hf : ∀ a, Stoppable fun i => f i a) :
    Stoppable fun i => x i >>= f i := by
  intro s p
  rcases hx s p with hreach | hsame
  · exact .inl (reaches_bind_of_left hreach)
  · cases hx' : x none s with
    | none =>
      refine .inr fun err => ?_
      exact (Run.bind_of_none ((hsame err).trans hx')).trans (Run.bind_of_none hx').symm
    | some r =>
      obtain ⟨e | a, s'⟩ := r
      · refine .inr fun err => ?_
        exact (Run.bind_of_error ((hsame err).trans hx')).trans (Run.bind_of_error hx').symm
      · rcases hf a s' p with hreach | hsame'
        · exact .inl (reaches_bind_of_right hx hx' hreach)
        · refine .inr fun err => ?_
          exact (Run.bind_of_ok ((hsame err).trans hx')).trans
            ((hsame' err).trans (Run.bind_of_ok hx').symm)

end Bind

def compositional : Compositional Stop where
  Holds := Stoppable
  const := const
  bind := bind

theorem evalUntil (depth : Nat) (e : Value) (env : Env) :
    Stoppable fun i => SmallLisp.evalUntil i depth e env := by
  induction depth generalizing e env with
  | zero => exact const _
  | succ depth ih =>
    have hstep : Stoppable fun i => evalStep (SmallLisp.evalUntil i depth) e env :=
      compositional.evalStep ih e env
    intro s p
    by_cases hp : p = ⟨depth, e, env, s⟩
    · subst hp
      exact .inl fun err => if_pos rfl
    · rcases hstep s p with hreach | hsame
      · exact .inl fun err => (if_neg hp).trans (hreach err)
      · exact .inr fun err => (if_neg hp).trans (hsame err)

end Stoppable

/-- An evaluation comes to itself, and to what its rule comes to. -/
theorem reaches_evalUntil_iff {depth : Nat} {e : Value} {env : Env} {s : State} {p : Point} :
    Reaches (fun i => evalUntil i (depth + 1) e env) s p ↔
      p = ⟨depth, e, env, s⟩ ∨ Reaches (fun i => evalStep (evalUntil i depth) e env) s p := by
  by_cases hp : p = ⟨depth, e, env, s⟩
  · subst hp
    exact iff_of_true (fun err => if_pos rfl) (.inl rfl)
  · have hsame (err : EvalError) : evalUntil (some (p, err)) (depth + 1) e env s =
        evalStep (evalUntil (some (p, err)) depth) e env s := if_neg hp
    simp only [hp, false_or, Reaches, hsame]

end SmallLisp
