import SmallLisp.Eval.Rules

/-!
# Evaluation at a greater depth

The rules put runs together one after the other. So a property of several evaluators at once that
sequencing keeps is kept by each rule (`Compositional.evalStep`). One such property is the order
`Run.Le`, in which a run that has an outcome is below only those with the same one: the depth only
bounds a run, and an outcome at some depth is the outcome at every greater one (`eval_le_eval`).
-/

namespace SmallLisp

/-- A property of families of runs that holds of a run and itself, and that sequencing keeps. -/
structure Compositional (ι : Type) where
  Holds : ∀ {α : Type}, (ι → Eval α) → Prop
  const : ∀ {α : Type} (x : Eval α), Holds fun _ => x
  bind : ∀ {α β : Type} {x : ι → Eval α} {f : ι → α → Eval β}, Holds x →
    (∀ a, Holds fun i => f i a) → Holds fun i => x i >>= f i

namespace Compositional

variable {ι : Type} (P : Compositional ι)

theorem ite {α : Type} {p : Prop} [Decidable p] {x y : ι → Eval α} (hx : P.Holds x)
    (hy : P.Holds y) : P.Holds fun i => if p then x i else y i := by
  split
  · exact hx
  · exact hy

section Rules

variable {P} {ev : ι → Value → Env → Eval Value} (h : ∀ e env, P.Holds fun i => ev i e env)
include h

protected theorem evalAll (env : Env) (es : List Value) :
    P.Holds fun i => evalAll (ev i) env es := by
  induction es with
  | nil => exact P.const _
  | cons e es ih => exact P.bind (h e env) fun _ => P.bind ih fun _ => P.const _

protected theorem evalBody (env : Env) (es : List Value) :
    P.Holds fun i => evalBody (ev i) env es := by
  induction es using evalBody.induct with
  | case1 => exact P.const _
  | case2 e => exact h e env
  | case3 e e' es ih => exact P.bind (h e env) fun _ => ih

protected theorem evalAnd (env : Env) (last : Value) (es : List Value) :
    P.Holds fun i => evalAnd (ev i) env last es := by
  induction es generalizing last with
  | nil => exact P.const _
  | cons e es ih => exact P.bind (h e env) fun v => P.ite (ih v) (P.const _)

protected theorem evalOr (env : Env) (last : Value) (es : List Value) :
    P.Holds fun i => evalOr (ev i) env last es := by
  induction es generalizing last with
  | nil => exact P.const _
  | cons e es ih => exact P.bind (h e env) fun v => P.ite (P.const _) (ih v)

protected theorem evalBindings (env : Env) (bindings : List Value) :
    P.Holds fun i => evalBindings (ev i) env bindings := by
  induction bindings using evalBindings.induct with
  | case1 => exact P.const _
  | case2 name e bindings ih => exact P.bind (h e env) fun _ => P.bind ih fun _ => P.const _
  | case3 v bindings hv =>
    simp only [evalBindings]
    exact P.const _

protected theorem applyClosure (name : Option String) (params : List String) (body : List Value)
    (outer : Env) (args : List Value) :
    P.Holds fun i => applyClosure (ev i) name params body outer args :=
  P.ite (P.bind (P.const _) fun env => Compositional.evalBody h env body) (P.const _)

protected theorem apply (f : Value) (args : List Value) : P.Holds fun i => apply (ev i) f args := by
  cases f with
  | closure => exact Compositional.applyClosure h ..
  | _ => exact P.const _

protected theorem evalForm (env : Env) (form : Form) (es : List Value) :
    P.Holds fun i => evalForm (ev i) env form es := by
  cases form, es using evalForm_cases with
  | quote v => exact P.const _
  | define name e => exact P.bind (h e env) fun _ => P.const _
  | defineFn name definition => exact P.const _
  | lambda es => exact P.const _
  | branch test e => exact P.bind (h test env) fun _ => P.ite (h e env) (P.const _)
  | branchElse test e e' => exact P.bind (h test env) fun _ => P.ite (h e env) (h e' env)
  | bind bindings body =>
    exact P.bind (Compositional.evalBindings h env bindings) fun _ =>
      Compositional.applyClosure h ..
  | sequence es => exact Compositional.evalBody h env es
  | and es => exact Compositional.evalAnd h env _ es
  | or es => exact Compositional.evalOr h env _ es
  | rejected form es cause _ hes =>
    simp only [hes]
    exact P.const _

protected theorem evalStep (e : Value) (env : Env) : P.Holds fun i => evalStep (ev i) e env := by
  unfold evalStep
  split
  · exact P.const _
  · split
    · exact Compositional.evalForm h ..
    · exact P.bind (h _ _) fun f =>
        P.ite (P.bind (Compositional.evalAll h _ _) fun _ => Compositional.apply h ..) (P.const _)
  · exact P.const _

end Rules

end Compositional

/-- Where `x` has an outcome, `y` has the same. -/
def Run.Le {ε α : Type} (x y : Run ε α) : Prop := ∀ s r, x s = some r → y s = some r

namespace Run.Le

variable {ε α β : Type}

theorem refl (x : Run ε α) : Le x x := fun _ _ h => h

theorem trans {x y z : Run ε α} (h : Le x y) (h' : Le y z) : Le x z :=
  fun s r hr => h' s r (h s r hr)

theorem bind {x y : Run ε α} {f g : α → Run ε β} (h : Le x y) (hf : ∀ a, Le (f a) (g a)) :
    Le (x >>= f) (y >>= g) := by
  intro s r hr
  rcases bind_eq_some hr with ⟨e, s', hx, rfl⟩ | ⟨a, s', hx, hr⟩
  · exact bind_of_error (h s _ hx)
  · rw [bind_of_ok (h s _ hx)]
    exact hf a s' r hr

/-- Of two runs the one is below the other. -/
def compositional : Compositional Bool where
  Holds x := Le (x false) (x true)
  const := refl
  bind := bind

end Run.Le

theorem evalStep_le {ev ev' : Value → Env → Eval Value} (h : ∀ e env, Run.Le (ev e env) (ev' e env))
    (e : Value) (env : Env) : Run.Le (evalStep ev e env) (evalStep ev' e env) :=
  @Compositional.evalStep Bool Run.Le.compositional (fun b => bif b then ev' else ev) h e env

theorem eval_le_succ (depth : Nat) (e : Value) (env : Env) :
    Run.Le (eval depth e env) (eval (depth + 1) e env) := by
  induction depth generalizing e env with
  | zero => intro s r h; cases h
  | succ depth ih => exact evalStep_le ih e env

theorem eval_le_eval {m n : Nat} (h : m ≤ n) (e : Value) (env : Env) :
    Run.Le (eval m e env) (eval n e env) := by
  induction h with
  | refl => exact .refl _
  | step _ ih => exact ih.trans (eval_le_succ _ e env)

end SmallLisp
