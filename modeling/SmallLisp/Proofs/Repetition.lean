import SmallLisp.Proofs.Session

/-!
# Repeated calls

A call changes no frame (`apply_keeps`). After more calls the earlier frames are therefore still
there, and only new numbers were given to frames and closures. A renaming that skips these takes the
earlier state to the later one (`State.Keeps.mirrors`), so a call from the later one is in lockstep
with the same call from the earlier one, and has the same result (`calls_repeat`).
-/

namespace SmallLisp

/-! ## The renaming -/

namespace Renaming

/-- Leaves a gap after the numbers below `start`. -/
def skip (start gap n : Nat) : Nat := if n < start then n else n + gap

theorem strictMono_skip (start gap : Nat) : StrictMono (skip start gap) := by
  intro m n h
  unfold skip
  split <;> split <;> omega

theorem skip_of_lt {start n : Nat} (h : n < start) (gap : Nat) : skip start gap n = n := if_pos h

/-- From `start` on the numbers are those from `next` on. -/
theorem skip_add {start next : Nat} (h : start ≤ next) (k : Nat) :
    skip start (next - start) (start + k) = next + k := by
  unfold skip
  split <;> omega

/-- The numbers that `s` would give next become those that `t` would. -/
def between (s t : State) : Renaming where
  frame := skip s.frames.size (t.frames.size - s.frames.size)
  identity := skip s.closures (t.closures - s.closures)
  strictMono_frame := strictMono_skip ..
  strictMono_identity := strictMono_skip ..

theorem env_between {s : State} {env : Env} (h : s.Allocated env) (t : State) :
    (between s t).env env = env :=
  congrArg Env.mk (skip_of_lt h _)

theorem fixes_between {s : State} {c : Closure} (h : s.Knows c) (t : State) :
    (between s t).Fixes c :=
  ⟨skip_of_lt h.2 _, env_between h.1 t⟩

end Renaming

theorem Value.rename_between {s : State} {v : Value} (h : v.Sound s.Knows) (t : State) :
    v.rename (.between s t) = v :=
  rename_eq_self _ (h.mono fun _ hc => Renaming.fixes_between hc t)

theorem State.Keeps.mirrors {s t : State} (h : s.Keeps t) (hs : s.Wellformed) (hst : s.Grows t) :
    s.Mirrors (.between s t) t where
  frame {env f} hf := by
    have henv := allocated_iff.2 ⟨f, hf⟩
    refine ⟨f, by rw [Renaming.env_between henv]; exact h env f hf, ?_, fun name => ?_⟩
    · cases ho : f.outer with
      | none => rfl
      | some outer =>
        rw [Option.map_some, Renaming.env_between (hs.allocated_outer hf ho)]
    · cases hv : f.get? name with
      | none => rfl
      | some v => rw [Option.map_some, Value.rename_between (hs.sound hf hv)]
  size := Renaming.skip_add hst.size_le
  closures := Renaming.skip_add hst.closures

/-! ## Calls -/

namespace EvalError

/-- What went wrong, without what it went wrong with. -/
inductive Kind where
  | unboundSymbol | notCallable | wrongArgumentCount | typeMismatch | divisionByZero | overflow
  | malformed
  deriving DecidableEq, Repr

def kind : EvalError → Kind
  | unboundSymbol _ => .unboundSymbol
  | notCallable _ => .notCallable
  | wrongArgumentCount .. => .wrongArgumentCount
  | typeMismatch .. => .typeMismatch
  | divisionByZero => .divisionByZero
  | overflow _ => .overflow
  | malformed .. => .malformed

theorem kind_rename (ρ : Renaming) (e : EvalError) : (e.rename ρ).kind = e.kind := by
  cases e <;> rfl

end EvalError

/-- Values of one type that are written alike, or errors of one kind with one message. -/
inductive LooksLike : Except EvalError Value → Except EvalError Value → Prop where
  | value {v w : Value} : w.render = v.render → w.typeName = v.typeName → LooksLike (.ok v) (.ok w)
  | error {e e' : EvalError} : e'.kind = e.kind → e'.message = e.message →
      LooksLike (.error e) (.error e')

theorem Alike.looksLike {ρ : Renaming} {r r' : Except EvalError Value}
    (h : Alike ρ (fun v w => w = v.rename ρ) r r') : LooksLike r r' := by
  cases r with
  | ok v =>
    cases r' with
    | ok w =>
      obtain rfl : w = v.rename ρ := h
      exact .value (v.render_rename ρ) (v.typeName_rename ρ)
    | error e => exact h.elim
  | error e =>
    cases r' with
    | ok w => exact h.elim
    | error e' =>
      obtain rfl : e' = e.rename ρ := h
      exact .error (e.kind_rename ρ) (e.message_rename ρ)

namespace Session

theorem Call.keeps {σ τ : Session} (hσ : σ.Sound) (h : Call σ τ) :
    σ.state.Keeps τ.state ∧ σ.state.Grows τ.state := by
  obtain ⟨depth, hf, hargs, hr⟩ := h
  exact ⟨apply_keeps (eval_confined depth) _ _ _ _ _ hr,
    (hσ.wellformed.apply (hσ.has hf) (fun a ha => hσ.has (hargs a ha)) hr).1⟩

theorem Call.keeps_of_calls {σ τ : Session} (hσ : σ.Sound) (h : Relation.ReflTransGen Call σ τ) :
    τ.Sound ∧ σ.state.Keeps τ.state ∧ σ.state.Grows τ.state := by
  induction h with
  | refl => exact ⟨hσ, .refl _, .refl _⟩
  | tail _ hcall ih =>
    obtain ⟨hsound, hkeeps, hgrows⟩ := ih
    obtain ⟨hkeeps', hgrows'⟩ := hcall.keeps hsound
    exact ⟨((Step.call hcall).sound hsound).1, hkeeps.trans hkeeps', hgrows.trans hgrows'⟩

/-- After a call and any further calls, the same call ends too. Its result is written alike, and the
same text is printed. What differs is a renaming, which fixes all that there was before the first
call. -/
theorem calls_repeat {σ τ : Session} (hσ : σ.Reachable) (depth : Nat) {f : Value}
    {args : List Value} (hf : σ.Has f) (hargs : ∀ a ∈ args, σ.Has a)
    {result : Except EvalError Value} {s : State}
    (hcall : apply (eval depth) f args σ.state = some (result, s))
    (hcalls : Relation.ReflTransGen Call (σ.after s (returned result)) τ) :
    ∃ result' t, apply (eval depth) f args τ.state = some (result', t) ∧
      LooksLike result result' ∧
      (∃ text, s.output = σ.state.output ++ text ∧ t.output = τ.state.output ++ text) ∧
      ∃ ρ : Renaming, (∀ c, σ.state.Knows c → ρ.Fixes c) ∧
        Alike ρ (fun v w => w = v.rename ρ) result result' ∧ s.Mirrors ρ t := by
  have hsound := hσ.sound
  have hall : Relation.ReflTransGen Call σ τ := .head (.mk depth hf hargs hcall) hcalls
  obtain ⟨-, hkeeps, hgrows⟩ := Call.keeps_of_calls hsound hall
  let ρ := Renaming.between σ.state τ.state
  let L := mirror ρ σ.state.output τ.state.output
  have hstates : L.states σ.state τ.state :=
    ⟨hsound.wellformed, hkeeps.mirrors hsound.wellformed hgrows, "", by simp, by simp⟩
  have hfixed (v : Value) (hv : σ.Has v) : v.rename ρ = v :=
    Value.rename_between (hsound.has hv) τ.state
  have hagree := Lockstep.apply_agree (L.eval_agrees depth) hstates (hsound.has hf)
    fun a ha => hsound.has (hargs a ha)
  rw [hfixed f hf, List.map_congr_left fun a ha => hfixed a (hargs a ha), List.map_id'] at hagree
  obtain ⟨result', t, ht, -, ⟨-, hmirrors, htext⟩, halike, -⟩ := hagree.exists_second hcall
  exact ⟨result', t, ht, halike.looksLike, htext, ρ,
    fun c hc => Renaming.fixes_between hc τ.state, halike, hmirrors⟩

/-- With `p` bound to `println`, the host evaluates `(defn f (x) (p x) (fn () x))`. A call of `f`
with 1 prints it and makes a closure. After that and a call with 2, a call with 1 prints the same
again and makes a closure that is written in the same way. -/
theorem calls_repeat_closure :
    let make : Value := .list [.sym "fn", .list [], .sym "x"]
    let f : Value := .closure 0 (some "f") ["x"] [.list [.sym "p", .sym "x"], make] ⟨0⟩
    let globals : Frame := ⟨[("p", .builtin .println), ("f", f)], none⟩
    let call (n : Int64) : Frame := ⟨[("x", .int n)], some ⟨0⟩⟩
    let inner : Value := .closure 1 none [] [.sym "x"] ⟨1⟩
    Steps empty ⟨⟨#[globals], 1, ""⟩, [⟨0⟩], [⟨0⟩], [.nil]⟩ ∧
    ∃ result t,
      apply (eval 3) f [.int 1] ⟨#[globals, call 1, call 2], 3, "1\n2\n"⟩ = some (result, t) ∧
      LooksLike (.ok inner) result ∧
      ∃ text, "1\n" = "" ++ text ∧ t.output = "1\n2\n" ++ text := by
  intro make f globals call inner
  have hmade (t : State) (vs : List Value) : HasEnv ⟨t, [⟨0⟩], [⟨0⟩], vs⟩ ⟨0⟩ :=
    .made List.mem_cons_self
  have hdefn (σ : Session) : σ.Has (.list [.sym "defn", .sym "f", .list [.sym "x"],
      .list [.sym "p", .sym "x"], make]) := .list (by simp [make, Has.sym, Has.list])
  have hf {t : State} {vs : List Value} (ht : t.resolve ⟨0⟩ "f" = some f) :
      Has ⟨t, [⟨0⟩], [⟨0⟩], vs⟩ f := .resolved "f" List.mem_cons_self ht
  have hint (σ : Session) (n : Int64) : ∀ a ∈ [Value.int n], σ.Has a :=
    List.forall_mem_singleton.2 (.atomic rfl)
  have hnew : Steps empty ⟨⟨#[⟨[], none⟩], 0, ""⟩, [⟨0⟩], [⟨0⟩], []⟩ := .single .new
  have hprint : Steps empty
      ⟨⟨#[⟨[("p", .builtin .println)], none⟩], 0, ""⟩, [⟨0⟩], [⟨0⟩], []⟩ :=
    hnew.tail (.define "p" (hmade ..) (.atomic (v := .builtin .println) rfl))
  have hσ : Steps empty ⟨⟨#[globals], 1, ""⟩, [⟨0⟩], [⟨0⟩], [.nil]⟩ :=
    hprint.tail (.eval 1 (hmade ..) (hdefn _) rfl)
  obtain ⟨result, t, ht, hlike, htext, -⟩ := calls_repeat hσ 3 (hf rfl) (hint _ 1) rfl
    (.single (.mk 3 (hf rfl) (hint _ 2) rfl))
  exact ⟨hσ, result, t, ht, hlike, htext⟩

end Session

end SmallLisp
