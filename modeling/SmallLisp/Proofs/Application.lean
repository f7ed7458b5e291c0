import SmallLisp.Proofs.Limit
import SmallLisp.Proofs.Repetition

/-!
# Bindings as an application

A `let` does what the application of a function does that has the names as its parameters, the body
as its body, and the expressions as its arguments (`letIn_applied`). To make the function takes one
identity, and that is all that it does: the application is the `let` after that
(`evaluate_applied`). The renaming from the state to the one with an identity taken relates the two.
-/

namespace SmallLisp

/-! ## Lockstep without a bound -/

namespace Lockstep

variable {ρ : Renaming} {L : Lockstep ρ} {s t : State}

theorem Agree.limit {α β : Type} {q : State → α → β → Prop} {x : Option Nat → Eval α}
    {y : Option Nat → Eval β} (hx : Run.Converges x) (hy : Run.Converges y)
    (h : ∀ n, L.Agree q (x (some n)) (y (some n)) s t) : L.Agree q (x none) (y none) s t := by
  cases hlimit : x none s with
  | none =>
    refine .endless hlimit (hy.eq_none fun n => ?_)
    cases h n with
    | endless _ hy' => exact hy'
    | value hx' | error hx' =>
      rw [hx.le_limit n s _ hx'] at hlimit
      cases hlimit
  | some p =>
    obtain ⟨n, hn⟩ := hx.reached hlimit
    cases h n with
    | endless hx' =>
      rw [hn] at hx'
      cases hx'
    | value hx' hy' hs hst hq =>
      exact .value (hx.le_limit n s _ hx') (hy.le_limit n t _ hy') hs hst hq
    | error hx' hy' hs hst he =>
      exact .error (hx.le_limit n s _ hx') (hy.le_limit n t _ hy') hs hst he

theorem evaluate_agrees (L : Lockstep ρ) : L.EvalAgrees evaluate := fun hst hcode =>
  Agree.limit (eval_converges _ _) (eval_converges _ _) fun depth => L.eval_agrees depth hst hcode

/-- Runs that agree end both or not at all, and alike. -/
theorem Agree.outcomes {x y : Eval Value} (h : L.Agree L.Same x y s t) :
    ((∃ p, x s = some p) ↔ ∃ q, y t = some q) ∧ ∀ p q, x s = some p → y t = some q →
      Alike ρ (fun v w => w = v.rename ρ) p.1 q.1 ∧ L.states p.2 q.2 := by
  cases h with
  | endless hx hy => simp [hx, hy]
  | value hx hy _ hst hq => simp [hx, hy, Alike, hst, hq.1]
  | error hx hy _ hst => simp [hx, hy, Alike, hst]

end Lockstep

/-! ## The forms -/

namespace Value

def lambda (params : List String) (body : List Value) : Value :=
  .list (.sym "fn" :: .list (params.map .sym) :: body)

/-- Evaluates the body with the names bound to the expressions. -/
def letIn (bindings : List (String × Value)) (body : List Value) : Value :=
  .list (.sym "let" :: .list (bindings.map fun b => .list [.sym b.1, b.2]) :: body)

/-- Applies a function of the names to the expressions. -/
def applied (bindings : List (String × Value)) (body : List Value) : Value :=
  .list (lambda (bindings.map Prod.fst) body :: bindings.map Prod.snd)

theorem sound_letIn {p : Closure → Prop} {bindings : List (String × Value)} {body : List Value}
    (hbindings : ∀ b ∈ bindings, b.2.Sound p) (hbody : ∀ e ∈ body, e.Sound p) :
    (letIn bindings body).Sound p := by
  have hsym (name : String) : (sym name).Sound p := .of_atomic rfl
  refine sound_list.2 (List.forall_mem_cons.2 ⟨hsym _, List.forall_mem_cons.2 ⟨?_, hbody⟩⟩)
  refine sound_list.2 (List.forall_mem_map.2 fun b hb => sound_list.2 ?_)
  exact List.forall_mem_cons.2 ⟨hsym _, List.forall_mem_singleton.2 (hbindings b hb)⟩

end Value

open Value

section Rules

variable (env : Env) (bindings : List (String × Value)) (body : List Value)

theorem evalBindings_map (ev : Value → Env → Eval Value) :
    evalBindings ev env (bindings.map fun b => .list [.sym b.1, b.2]) =
      evalAll ev env (bindings.map Prod.snd) >>= fun vs => pure (bindings.map Prod.fst, vs) := by
  induction bindings with
  | nil => rfl
  | cons b bindings ih =>
    simp only [List.map_cons, evalBindings, evalAll, ih, bind_assoc, pure_bind]

theorem evaluate_letIn : evaluate (letIn bindings body) env =
    evalAll evaluate env (bindings.map Prod.snd) >>=
      applyClosure evaluate none (bindings.map Prod.fst) body env := by
  refine (evaluate_form .bind _ env).trans ?_
  rw [evalForm, evalBindings_map, bind_assoc]
  rfl

theorem evaluate_lambda (params : List String) : evaluate (lambda params body) env =
    newIdentity >>= fun identity => pure (.closure identity none params body env) := by
  refine (evaluate_form .lambda _ env).trans ?_
  rw [evalForm, makeClosure, symbols?_map_sym]

/-- The application is the `let` after an identity is taken. -/
theorem evaluate_applied : evaluate (applied bindings body) env =
    newIdentity >>= fun _ => evaluate (letIn bindings body) env := by
  rw [applied, evaluate_call rfl, evaluate_lambda, bind_assoc, evaluate_letIn]
  rfl

end Rules

/-- Between states with as many frames every environment keeps its number. -/
theorem Renaming.env_between_of_frames {s t : State} (h : t.frames = s.frames) (env : Env) :
    (between s t).env env = env := by
  change Env.mk (skip s.frames.size (t.frames.size - s.frames.size) env.index) = env
  rw [h, Nat.sub_self, skip, Nat.add_zero, ite_self]

/-- In a well-formed state, and each reachable one is (`Session.Reachable.sound`), a `let` ends if
the application of a function of its names ends. Their outcomes are alike: the values or errors, the
text printed, and the bindings in each frame, of which there are as many, but that closures made on
the way have other identities. -/
theorem letIn_applied {s : State} (hs : s.Wellformed) {env : Env} (henv : s.Allocated env)
    {bindings : List (String × Value)} {body : List Value}
    (hbindings : ∀ b ∈ bindings, b.2.Sound s.Knows) (hbody : ∀ e ∈ body, e.Sound s.Knows) :
    ((∃ p, Ends (letIn bindings body) env s p) ↔ ∃ q, Ends (applied bindings body) env s q) ∧
    ∃ ρ : Renaming, (∀ env, ρ.env env = env) ∧ (∀ c, s.Knows c → ρ.Fixes c) ∧
      ∀ p q, Ends (letIn bindings body) env s p → Ends (applied bindings body) env s q →
        Alike ρ (fun v w => w = v.rename ρ) p.1 q.1 ∧ q.2.output = p.2.output ∧
        p.2.Mirrors ρ q.2 := by
  let t : State := { s with closures := s.closures + 1 }
  let ρ := Renaming.between s t
  let L := mirror ρ s.output s.output
  have hkeeps : s.Keeps t := State.Keeps.refl s
  have hstates : L.states s t :=
    ⟨hs, hkeeps.mirrors hs (.makeClosure s), "", by simp, by simp [t]⟩
  have hsound := sound_letIn hbindings hbody
  have hagree := L.evaluate_agrees hstates ⟨henv, hsound⟩
  rw [Value.rename_between hsound t, Renaming.env_between henv t] at hagree
  obtain ⟨hends, houtcomes⟩ := hagree.outcomes
  have hlet (p) : Ends (letIn bindings body) env s p ↔
      evaluate (letIn bindings body) env s = some p := evaluate_eq_some_iff.symm
  have happlied (q) : Ends (applied bindings body) env s q ↔
      evaluate (letIn bindings body) env t = some q := by
    rw [← evaluate_eq_some_iff, evaluate_applied]
    rfl
  simp only [hlet, happlied]
  refine ⟨hends, ρ, Renaming.env_between_of_frames rfl,
    fun c hc => Renaming.fixes_between hc t, fun p q hp hq => ?_⟩
  obtain ⟨halike, -, hmirrors, text, htext, htext'⟩ := houtcomes p q hp hq
  exact ⟨halike, htext'.trans htext.symm, hmirrors⟩

/-- The second of two expressions for `x` defines `y` around the `let`. The function that is
returned has captured the new frame. -/
theorem letIn_applied_captured :
    let second : Value := .list [.sym "do", .list [.sym "def", .sym "y", .int 2], .sym "y"]
    let bindings : List (String × Value) := [("x", .int 1), ("x", second)]
    let body : List Value := [lambda [] [.sym "x"]]
    let f (identity : Nat) : Value := .closure identity none [] [.sym "x"] ⟨1⟩
    let frames : Array Frame := #[⟨[("y", .int 2)], none⟩, ⟨[("x", .int 2)], some ⟨0⟩⟩]
    let s : State := ⟨#[⟨[], none⟩], 0, ""⟩
    Session.Reachable ⟨s, [⟨0⟩], [⟨0⟩], []⟩ ∧
    Ends (letIn bindings body) ⟨0⟩ s (.ok (f 0), ⟨frames, 1, ""⟩) ∧
    Ends (applied bindings body) ⟨0⟩ s (.ok (f 1), ⟨frames, 2, ""⟩) ∧
    ∃ ρ : Renaming, f 1 = (f 0).rename ρ ∧
      State.Mirrors ρ ⟨frames, 1, ""⟩ ⟨frames, 2, ""⟩ := by
  intro second bindings body f frames s
  have hσ : Session.Reachable ⟨s, [⟨0⟩], [⟨0⟩], []⟩ := .single .new
  have hint (n : Int64) : (Value.int n).Sound s.Knows := .of_atomic rfl
  have hsym (name : String) : (Value.sym name).Sound s.Knows := .of_atomic rfl
  have hlambda : (lambda [] [.sym "x"]).Sound s.Knows := by simp [lambda, sound_list, hsym]
  have hsecond : second.Sound s.Knows := by simp [second, sound_list, hsym, hint]
  have hlet : Ends (letIn bindings body) ⟨0⟩ s (.ok (f 0), ⟨frames, 1, ""⟩) := ⟨4, rfl⟩
  have happlied : Ends (applied bindings body) ⟨0⟩ s (.ok (f 1), ⟨frames, 2, ""⟩) := ⟨4, rfl⟩
  have henv : s.Allocated ⟨0⟩ := hσ.sound.hasEnv (.made List.mem_cons_self)
  have hbindings : ∀ b ∈ bindings, b.2.Sound s.Knows := by simp [bindings, hint, hsecond]
  have hbody : ∀ e ∈ body, e.Sound s.Knows := List.forall_mem_singleton.2 hlambda
  obtain ⟨-, ρ, -, -, houtcomes⟩ := letIn_applied hσ.sound.wellformed henv hbindings hbody
  obtain ⟨halike, -, hmirrors⟩ := houtcomes _ _ hlet happlied
  exact ⟨hσ, hlet, happlied, ρ, halike, hmirrors⟩

end SmallLisp
