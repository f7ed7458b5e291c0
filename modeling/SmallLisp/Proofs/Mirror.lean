import Mathlib.Order.WellFounded
import SmallLisp.Proofs.Heap

/-!
# Renamed states

`s.Mirrors ρ t`: the state `t` has the frames of `s`, renamed by `ρ`, perhaps among others, and what
is made next in `s` is what is made next in `t`. From such states evaluation goes on in lockstep, if
the first one is well-formed, and it stays well-formed (`mirror`). A well-formed state mirrors
itself, so evaluation keeps well-formedness (`State.Wellformed.eval`).
-/

namespace SmallLisp

/-- `g` is `f` renamed. -/
structure Frame.Mirrors (ρ : Renaming) (f g : Frame) : Prop where
  outer : g.outer = f.outer.map ρ.env
  get? : ∀ name, g.get? name = (f.get? name).map (Value.rename ρ)

structure State.Mirrors (ρ : Renaming) (s t : State) : Prop where
  frame : ∀ {env f}, s.frame? env = some f → ∃ g, t.frame? (ρ.env env) = some g ∧ f.Mirrors ρ g
  size : ∀ k, ρ.frame (s.frames.size + k) = t.frames.size + k
  closures : ∀ k, ρ.identity (s.closures + k) = t.closures + k

theorem Frame.Mirrors.insert {ρ : Renaming} {f g : Frame} (h : f.Mirrors ρ g) (name : String)
    (v : Value) : (f.insert name v).Mirrors ρ (g.insert name (v.rename ρ)) where
  outer := h.outer
  get? other := by
    rw [get?_insert, get?_insert]
    split
    · rfl
    · exact h.get? other

theorem Frame.mirrors_ofCall (ρ : Renaming) (outer : Env) (params : List String)
    (args : List Value) : (ofCall outer params args).Mirrors ρ
      (ofCall (ρ.env outer) params (args.map (Value.rename ρ))) :=
  ofCall_induction₂ (motive := Frame.Mirrors ρ) (Value.rename ρ) ⟨rfl, fun _ => rfl⟩
    fun _ _ name _ v _ h => h.insert name v

theorem Frame.get?_ofCall_sound {p : Closure → Prop} {outer : Env} {params : List String}
    {args : List Value} (h : ∀ a ∈ args, a.Sound p) :
    ∀ name v, (ofCall outer params args).get? name = some v → v.Sound p :=
  ofCall_induction (motive := fun f => ∀ name v, f.get? name = some v → v.Sound p)
    (fun _ _ h => (by cases h)) fun f name _ v hv ih other w hw => by
      rw [get?_insert] at hw
      split at hw
      · cases hw
        exact h v hv
      · exact ih other w hw

namespace State

variable {ρ : Renaming} {s t : State}

namespace Mirrors

theorem refl (s : State) : s.Mirrors .id s where
  frame {env f} hf := ⟨f, hf, by cases f.outer <;> rfl, fun name => by simp⟩
  size _ := rfl
  closures _ := rfl

theorem fst_push (h : s.Mirrors ρ t) (f g : Frame) : ρ.env (s.push f).1 = (t.push g).1 :=
  congrArg Env.mk (h.size 0)

theorem push (h : s.Mirrors ρ t) {f g : Frame} (hfg : f.Mirrors ρ g) :
    (s.push f).2.Mirrors ρ (t.push g).2 where
  frame {env k} hk := by
    have hnew : ρ.env env = (t.push g).1 ↔ env = (s.push f).1 := by
      rw [← h.fst_push f g, ρ.env_injective.eq_iff]
    rw [frame?_push] at hk
    rw [frame?_push]
    split at hk
    · next henv =>
      cases hk
      exact ⟨g, if_pos (hnew.2 henv), hfg⟩
    · next henv =>
      rw [if_neg (mt hnew.1 henv)]
      exact h.frame hk
  size k := by
    have := h.size (k + 1)
    simp only [size_frames_push]
    rw [Nat.add_right_comm, Nat.add_assoc, this]
    omega
  closures := h.closures

theorem define (h : s.Mirrors ρ t) (env : Env) (name : String) (v : Value) :
    (s.define env name v).Mirrors ρ (t.define (ρ.env env) name (v.rename ρ)) where
  frame {env' k} hk := by
    rw [frame?_define] at hk
    simp only [frame?_define, ρ.env_injective.eq_iff]
    split at hk
    · next henv =>
      obtain ⟨f, hf, rfl⟩ := Option.map_eq_some_iff.1 hk
      obtain ⟨g, hg, hfg⟩ := h.frame hf
      exact ⟨g.insert name (v.rename ρ), by rw [if_pos henv, hg]; rfl, hfg.insert name v⟩
    · next henv => simpa only [if_neg henv] using h.frame hk
  size k := by simpa using h.size k
  closures := h.closures

theorem makeClosure (h : s.Mirrors ρ t) :
    Mirrors ρ { s with closures := s.closures + 1 } { t with closures := t.closures + 1 } where
  frame := h.frame
  size := h.size
  closures k := by
    have := h.closures (k + 1)
    dsimp only
    rw [Nat.add_right_comm, Nat.add_assoc, this]
    omega

theorem print (h : s.Mirrors ρ t) (text : String) :
    (s.print text).Mirrors ρ (t.print text) where
  frame := h.frame
  size := h.size
  closures := h.closures

theorem chainOf (h : s.Mirrors ρ t) (hs : s.Wellformed) {env : Env} (henv : s.Allocated env)
    (n : Nat) : t.chainOf n (ρ.env env) = (s.chainOf n env).map ρ.env := by
  induction n generalizing env with
  | zero => rfl
  | succ n ih =>
    obtain ⟨⟨bindings, outer⟩, hf⟩ := allocated_iff.1 henv
    obtain ⟨⟨bindings', outer'⟩, hg, houter, -⟩ := h.frame hf
    dsimp only at houter
    subst houter
    rw [State.chainOf, State.chainOf, hf, hg]
    cases outer with
    | none => rfl
    | some outer => exact congrArg (_ :: ·) (ih (hs.allocated_outer hf rfl))

theorem chain (h : s.Mirrors ρ t) (hs : s.Wellformed) {env : Env} (henv : s.Allocated env) :
    t.chain (ρ.env env) = (s.chain env).map ρ.env := by
  have hle : env.index ≤ (ρ.env env).index := ρ.strictMono_frame.le_apply
  rw [State.chain, h.chainOf hs henv, State.chain]
  exact congrArg _ (hs.chainOf_eq (Nat.lt_succ_of_le hle) (Nat.lt_succ_self _))

theorem resolve (h : s.Mirrors ρ t) (hs : s.Wellformed) {env : Env} (henv : s.Allocated env)
    (name : String) : t.resolve (ρ.env env) name = (s.resolve env name).map (Value.rename ρ) := by
  rw [State.resolve, State.resolve, h.chain hs henv]
  refine hs.chain_induction (motive := fun env => ((s.chain env).map ρ.env).findSome? _ =
    ((s.chain env).findSome? _).map _) (fun env f hf ih => ?_) henv
  obtain ⟨g, hg, hfg⟩ := h.frame hf
  rw [hs.chain_eq hf, List.map_cons, List.findSome?_cons, List.findSome?_cons, hf, hg]
  simp only [Option.bind_some, hfg.get?]
  cases f.get? name with
  | some v => rfl
  | none =>
    cases ho : f.outer with
    | none => rfl
    | some outer => exact ih outer ho

end Mirrors

theorem Wellformed.sound_resolve (h : s.Wellformed) {env : Env} {name : String} {v : Value}
    (hv : s.resolve env name = some v) : v.Sound s.Knows := by
  obtain ⟨e, -, he⟩ := List.exists_of_findSome?_eq_some hv
  obtain ⟨f, hf, hname⟩ := Option.bind_eq_some_iff.1 he
  exact h.sound hf hname

end State

/-- Two runs from states of which the second one mirrors the first. Before this, they have printed
`printed` and `printed'`. -/
def mirror (ρ : Renaming) (printed printed' : String) : Lockstep ρ where
  states s t := s.Wellformed ∧ s.Mirrors ρ t ∧
    ∃ text, s.output = printed ++ text ∧ t.output = printed' ++ text
  closure := State.Knows
  code s env e := s.Allocated env ∧ e.Sound s.Knows
  body s _ es outer := s.Allocated outer ∧ ∀ e ∈ es, e.Sound s.Knows
  closure_mono h hc := h.knows hc
  code_mono h he := ⟨h.allocated he.1, he.2.mono fun _ => h.knows⟩
  body_mono h hb := ⟨h.allocated hb.1, fun e he => (hb.2 e he).mono fun _ => h.knows⟩
  sound_of_code he := he.2
  code_operand he hop := ⟨he.1, hop.sound he.2⟩
  body_of_bind he := ⟨he.1, fun e hmem => Value.sound_list.1 he.2 e (by simp [hmem])⟩
  body_of_closure hc hb := ⟨hc.1, hb⟩
  lookup := by
    rintro s t env name ⟨hs, hst, -⟩ ⟨henv, -⟩
    exact ⟨hst.resolve hs henv name, fun v hv => hs.sound_resolve hv⟩
  enter := by
    rintro s t params es args outer ⟨hs, hst, htext⟩ ⟨houter, hes⟩ hargs -
    refine ⟨hst.fst_push _ _, ⟨?_, hst.push (Frame.mirrors_ofCall ρ outer params args), htext⟩, ?_⟩
    · refine hs.push (fun o ho => ?_) (Frame.get?_ofCall_sound hargs)
      rw [Frame.outer_ofCall] at ho
      cases ho
      exact houter
    · exact fun e he => ⟨s.allocated_fst_push _, (hes e he).mono fun _ hc => hc.push _⟩
  define := by
    rintro s t env e v name ⟨hs, hst, htext⟩ - - hv
    exact ⟨hs.define env name hv, hst.define env name v, htext⟩
  make := by
    rintro s t env e name params es ⟨hs, hst, htext⟩ ⟨henv, -⟩ -
    exact ⟨hst.closures 0, ⟨hs.of_frames rfl (Nat.le_succ _), hst.makeClosure, htext⟩, henv,
      Nat.lt_succ_self _⟩
  print := by
    rintro s t text ⟨hs, hst, before, hs', ht'⟩
    exact ⟨hs.of_frames rfl (Nat.le_refl _), hst.print text, before ++ text, by
      rw [← String.append_assoc, ← hs']; rfl, by rw [← String.append_assoc, ← ht']; rfl⟩

/-! ## One run -/

namespace State.Wellformed

variable {s s' : State} {r : Except EvalError Value} {depth : Nat}

theorem mirror_self (h : s.Wellformed) : (mirror .id s.output s.output).states s s :=
  ⟨h, .refl s, "", by simp, by simp⟩

/-- What a run keeps that agrees with itself. -/
theorem of_agree {x : Eval Value} {y : Eval Value}
    (hagree : (mirror .id s.output s.output).Agree (mirror .id s.output s.output).Same x y s s)
    (hx : x s = some (r, s')) :
    s.Grows s' ∧ s'.Wellformed ∧ Yields s'.Knows (Value.Sound s'.Knows) r := by
  obtain ⟨_, _, -, hs, ⟨hs', -⟩, -, hr⟩ := hagree.exists_second hx
  exact ⟨hs, hs', hr⟩

theorem eval (h : s.Wellformed) {e : Value} {env : Env} (henv : s.Allocated env)
    (he : e.Sound s.Knows) (hr : eval depth e env s = some (r, s')) :
    s.Grows s' ∧ s'.Wellformed ∧ Yields s'.Knows (Value.Sound s'.Knows) r :=
  of_agree (Lockstep.eval_agrees _ depth h.mirror_self ⟨henv, he⟩) hr

theorem evalBody (h : s.Wellformed) {es : List Value} {env : Env} (henv : s.Allocated env)
    (hes : ∀ e ∈ es, e.Sound s.Knows)
    (hr : evalBody (SmallLisp.eval depth) env es s = some (r, s')) :
    s.Grows s' ∧ s'.Wellformed ∧ Yields s'.Knows (Value.Sound s'.Knows) r :=
  of_agree (Lockstep.evalBody_agree (Lockstep.eval_agrees _ depth) h.mirror_self fun e hmem =>
    ⟨henv, hes e hmem⟩) hr

theorem apply (h : s.Wellformed) {f : Value} {args : List Value} (hf : f.Sound s.Knows)
    (hargs : ∀ a ∈ args, a.Sound s.Knows)
    (hr : apply (SmallLisp.eval depth) f args s = some (r, s')) :
    s.Grows s' ∧ s'.Wellformed ∧ Yields s'.Knows (Value.Sound s'.Knows) r :=
  of_agree (Lockstep.apply_agree (Lockstep.eval_agrees _ depth) h.mirror_self hf hargs) hr

end State.Wellformed

end SmallLisp
