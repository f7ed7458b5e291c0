import SmallLisp.Proofs.Lockstep

/-!
# The heap

In a well-formed state every closure that a frame binds was made there and has captured an allocated
environment, and a frame has a greater number than its outer one. So the way outwards from an
environment is finite, and `State.chain` is the whole of it: `State.resolve` asks the frame
of the environment, and then its outer one (`State.Wellformed.resolve_eq`).
-/

namespace SmallLisp

namespace State

/-- The environment has a frame. -/
def Allocated (s : State) (env : Env) : Prop := env.index < s.frames.size

/-- The closure was made before, in an environment that is allocated. -/
def Knows (s : State) (c : Closure) : Prop := s.Allocated c.env ∧ c.identity < s.closures

structure Wellformed (s : State) : Prop where
  outer_lt : ∀ {env f outer}, s.frame? env = some f → f.outer = some outer →
    outer.index < env.index
  sound : ∀ {env f name v}, s.frame? env = some f → f.get? name = some v → v.Sound s.Knows

variable {s s' : State}

theorem allocated_iff {env : Env} : s.Allocated env ↔ ∃ f, s.frame? env = some f := by
  constructor
  · exact fun h => ⟨s.frames[env.index], Array.getElem?_eq_getElem h⟩
  · rintro ⟨f, hf⟩
    exact (Array.getElem?_eq_some_iff.1 hf).1

@[simp] theorem size_frames_push (s : State) (f : Frame) :
    (s.push f).2.frames.size = s.frames.size + 1 := by
  simp [push]

@[simp] theorem size_frames_define (s : State) (env : Env) (name : String) (v : Value) :
    (s.define env name v).frames.size = s.frames.size := by
  simp [define]

theorem allocated_fst_push (s : State) (f : Frame) : (s.push f).2.Allocated (s.push f).1 := by
  simp [Allocated, push]

theorem Knows.mono (hframes : s.frames.size ≤ s'.frames.size) (hclosures : s.closures ≤ s'.closures)
    {c : Closure} (h : s.Knows c) : s'.Knows c :=
  ⟨Nat.lt_of_lt_of_le h.1 hframes, Nat.lt_of_lt_of_le h.2 hclosures⟩

theorem Knows.push {c : Closure} (h : s.Knows c) (f : Frame) : (s.push f).2.Knows c :=
  h.mono (by simp) (by exact Nat.le_refl _)

theorem Knows.define {c : Closure} (h : s.Knows c) (env : Env) (name : String) (v : Value) :
    (s.define env name v).Knows c :=
  h.mono (by simp) (by exact Nat.le_refl _)

theorem Grows.knows (h : s.Grows s') {c : Closure} (hc : s.Knows c) : s'.Knows c :=
  hc.mono h.size_le h.closures

theorem Grows.allocated (h : s.Grows s') {env : Env} (henv : s.Allocated env) : s'.Allocated env :=
  Nat.lt_of_lt_of_le henv h.size_le

/-- Following outer links from an environment passes these environments, and the last one has
none. -/
inductive Outwards (s : State) : Env → List Env → Prop where
  | last {env : Env} {f : Frame} : s.frame? env = some f → f.outer = none → Outwards s env [env]
  | link {env outer : Env} {f : Frame} {path : List Env} : s.frame? env = some f →
      f.outer = some outer → Outwards s outer path → Outwards s env (env :: path)

/-- Looking for a name in the frame of an environment, and while it is not there in the outer one,
ends with this. -/
inductive Search (s : State) (name : String) : Env → Option Value → Prop where
  | found {env : Env} {f : Frame} {v : Value} : s.frame? env = some f → f.get? name = some v →
      Search s name env (some v)
  | missing {env : Env} {f : Frame} : s.frame? env = some f → f.get? name = none →
      f.outer = none → Search s name env none
  | link {env outer : Env} {f : Frame} {result : Option Value} : s.frame? env = some f →
      f.get? name = none → f.outer = some outer → Search s name outer result →
      Search s name env result

/-! ## All frames -/

section Frames

variable {p : Env → Frame → Prop} (h : ∀ env f, s.frame? env = some f → p env f)
include h

/-- What holds of all frames and of a new one. -/
theorem forall_push {f : Frame} (hf : p (s.push f).1 f) {env : Env} {g : Frame}
    (hg : (s.push f).2.frame? env = some g) : p env g := by
  rw [frame?_push] at hg
  split at hg
  · next henv =>
    cases hg
    exact henv ▸ hf
  · exact h env g hg

/-- What holds of all frames and, in one of them, still with a binding. -/
theorem forall_define {env : Env} {name : String} {v : Value}
    (hinsert : ∀ f, s.frame? env = some f → p env (f.insert name v)) {other : Env} {g : Frame}
    (hg : (s.define env name v).frame? other = some g) : p other g := by
  rw [frame?_define] at hg
  split at hg
  · next henv =>
    obtain ⟨f, hf, rfl⟩ := Option.map_eq_some_iff.1 hg
    subst henv
    exact hinsert f hf
  · exact h other g hg

end Frames

/-! ## Layers -/

/-- Every frame has a greater number than its outer one. -/
def Layered (s : State) : Prop :=
  ∀ env f outer, s.frame? env = some f → f.outer = some outer → outer.index < env.index

namespace Layered

theorem push (h : s.Layered) {f : Frame}
    (houter : ∀ outer, f.outer = some outer → s.Allocated outer) :
    (s.push f).2.Layered := fun _ _ outer hg ho => forall_push
  (p := fun env g => ∀ outer, g.outer = some outer → outer.index < env.index)
  (fun env g hg outer => h env g outer hg) houter hg outer ho

theorem define (h : s.Layered) (env : Env) (name : String) (v : Value) :
    (s.define env name v).Layered := fun _ _ outer hg ho => forall_define
  (p := fun env g => ∀ outer, g.outer = some outer → outer.index < env.index)
  (fun env g hg outer => h env g outer hg) (fun f hf outer => h env f outer hf) hg outer ho

/-- Enough fuel is enough. -/
theorem chainOf_eq (h : s.Layered) {m n : Nat} {env : Env} (hm : env.index < m)
    (hn : env.index < n) : s.chainOf m env = s.chainOf n env := by
  induction m generalizing n env with
  | zero => omega
  | succ m ih =>
    obtain ⟨n, rfl⟩ : ∃ k, n = k + 1 := ⟨n - 1, by omega⟩
    rw [chainOf, chainOf]
    split
    · rfl
    · rfl
    · next bindings outer hf =>
      have := h env _ outer hf rfl
      exact congrArg (env :: ·) (ih (by omega) (by omega))

theorem chain_eq (h : s.Layered) {env : Env} {f : Frame} (hf : s.frame? env = some f) :
    s.chain env = env :: f.outer.elim [] s.chain := by
  obtain ⟨bindings, outer⟩ := f
  rw [chain, chainOf, hf]
  cases outer with
  | none => rfl
  | some outer =>
    have := h env _ outer hf rfl
    exact congrArg (env :: ·) (h.chainOf_eq (by omega) (by omega))

/-- A name is looked up in the frame of the environment, and then in the outer one. -/
theorem resolve_eq (h : s.Layered) {env : Env} {f : Frame} (hf : s.frame? env = some f)
    (name : String) :
    s.resolve env name = (f.get? name).or (f.outer.bind fun outer => s.resolve outer name) := by
  rw [resolve, h.chain_eq hf, List.findSome?_cons, hf]
  cases hname : f.get? name with
  | some v => simp [hname]
  | none => cases f.outer <;> simp [hname, resolve]

end Layered

/-! ## Well-formed states -/

namespace Wellformed

theorem layered (h : s.Wellformed) : s.Layered := fun _ _ _ hf ho => h.outer_lt hf ho

theorem empty : empty.Wellformed where
  outer_lt h := by simp [frame?, State.empty] at h
  sound h := by simp [frame?, State.empty] at h

theorem allocated_outer (h : s.Wellformed) {env outer : Env} {f : Frame}
    (hf : s.frame? env = some f) (ho : f.outer = some outer) : s.Allocated outer :=
  Nat.lt_trans (h.outer_lt hf ho) (allocated_iff.2 ⟨f, hf⟩)

/-- Frames alone matter, and that no closure is forgotten. -/
theorem of_frames (h : s.Wellformed) (hframes : s'.frames = s.frames)
    (hclosures : s.closures ≤ s'.closures) : s'.Wellformed where
  outer_lt hf := h.outer_lt (by rwa [frame?, hframes] at hf)
  sound hf hv := (h.sound (by rwa [frame?, hframes] at hf) hv).mono fun _ hc =>
    hc.mono (by rw [hframes]) hclosures

theorem push (h : s.Wellformed) {f : Frame}
    (houter : ∀ outer, f.outer = some outer → s.Allocated outer)
    (hf : ∀ name v, f.get? name = some v → v.Sound s.Knows) : (s.push f).2.Wellformed where
  outer_lt hg ho := h.layered.push houter _ _ _ hg ho
  sound hg hv := forall_push
    (p := fun _ g => ∀ name v, g.get? name = some v → v.Sound (s.push f).2.Knows)
    (fun _ _ hg _ _ hv => (h.sound hg hv).mono fun _ hc => hc.push f)
    (fun name v hv => (hf name v hv).mono fun _ hc => hc.push f) hg _ _ hv

theorem define (h : s.Wellformed) (env : Env) (name : String) {v : Value} (hv : v.Sound s.Knows) :
    (s.define env name v).Wellformed where
  outer_lt hg ho := h.layered.define env name v _ _ _ hg ho
  sound hg hw := by
    have hold (env' : Env) (f : Frame) (hf : s.frame? env' = some f) (other : String) (w : Value)
        (hw : f.get? other = some w) : w.Sound (s.define env name v).Knows :=
      (h.sound hf hw).mono fun _ hc => hc.define env name v
    refine forall_define (p := fun _ g => ∀ other w, g.get? other = some w → w.Sound _) hold
      (fun f hf other w hw => ?_) hg _ _ hw
    rw [Frame.get?_insert] at hw
    split at hw
    · cases hw
      exact hv.mono fun _ hc => hc.define env name v
    · exact hold env f hf other w hw

/-! ## The way outwards -/

theorem chainOf_eq (h : s.Wellformed) {m n : Nat} {env : Env} (hm : env.index < m)
    (hn : env.index < n) : s.chainOf m env = s.chainOf n env :=
  h.layered.chainOf_eq hm hn

theorem chain_eq (h : s.Wellformed) {env : Env} {f : Frame} (hf : s.frame? env = some f) :
    s.chain env = env :: f.outer.elim [] s.chain :=
  h.layered.chain_eq hf

theorem resolve_eq (h : s.Wellformed) {env : Env} {f : Frame} (hf : s.frame? env = some f)
    (name : String) :
    s.resolve env name = (f.get? name).or (f.outer.bind fun outer => s.resolve outer name) :=
  h.layered.resolve_eq hf name

/-- What holds of a frame and follows for outer ones holds of every frame on the way outwards. -/
theorem chain_induction (h : s.Wellformed) {motive : Env → Prop}
    (step : ∀ env f, s.frame? env = some f → (∀ outer, f.outer = some outer → motive outer) →
      motive env)
    {env : Env} (henv : s.Allocated env) : motive env := by
  obtain ⟨n, hn⟩ : ∃ n, env.index < n := ⟨_, Nat.lt_succ_self _⟩
  induction n generalizing env with
  | zero => omega
  | succ n ih =>
    obtain ⟨f, hf⟩ := allocated_iff.1 henv
    refine step env f hf fun outer ho => ih (h.allocated_outer hf ho) ?_
    have := h.outer_lt hf ho
    omega

theorem outwards_chain (h : s.Wellformed) {env : Env} (henv : s.Allocated env) :
    s.Outwards env (s.chain env) := by
  refine h.chain_induction (motive := fun env => s.Outwards env (s.chain env))
    (fun env f hf ih => ?_) henv
  rw [h.chain_eq hf]
  cases ho : f.outer with
  | none => exact .last hf ho
  | some outer => exact .link hf ho (ih outer ho)

theorem search_resolve (h : s.Wellformed) (name : String) {env : Env} (henv : s.Allocated env) :
    s.Search name env (s.resolve env name) := by
  refine h.chain_induction (motive := fun env => s.Search name env (s.resolve env name))
    (fun env f hf ih => ?_) henv
  rw [h.resolve_eq hf]
  cases hname : f.get? name with
  | some v => exact .found hf hname
  | none =>
    cases ho : f.outer with
    | none => exact .missing hf hname ho
    | some outer => exact .link hf hname ho (ih outer ho)

/-- Numbers fall on the way outwards. -/
theorem pairwise_chain (h : s.Wellformed) {env : Env} (henv : s.Allocated env) :
    (∀ e ∈ s.chain env, e.index ≤ env.index) ∧
      (s.chain env).Pairwise fun a b => b.index < a.index := by
  refine h.chain_induction (motive := fun env => (∀ e ∈ s.chain env, e.index ≤ env.index) ∧
    (s.chain env).Pairwise fun a b => b.index < a.index) (fun env f hf ih => ?_) henv
  rw [h.chain_eq hf]
  cases ho : f.outer with
  | none => simp
  | some outer =>
    obtain ⟨hle, hpairwise⟩ := ih outer ho
    have hlt (e : Env) (he : e ∈ s.chain outer) : e.index < env.index :=
      Nat.lt_of_le_of_lt (hle e he) (h.outer_lt hf ho)
    simp only [Option.elim_some, List.forall_mem_cons, List.pairwise_cons]
    exact ⟨⟨Nat.le_refl _, fun e he => (hlt e he).le⟩, hlt, hpairwise⟩

theorem nodup_chain (h : s.Wellformed) {env : Env} (henv : s.Allocated env) :
    (s.chain env).Nodup :=
  (h.pairwise_chain henv).2.imp fun {a b} hlt => by rintro rfl; exact Nat.lt_irrefl _ hlt

end Wellformed

/-- The last environment has no outer one. -/
theorem Outwards.getLast? {env : Env} {path : List Env} (h : s.Outwards env path) :
    ∃ root f, path.getLast? = some root ∧ s.frame? root = some f ∧ f.outer = none := by
  induction h with
  | last hf ho => exact ⟨_, _, rfl, hf, ho⟩
  | link _ _ _ ih =>
    obtain ⟨root, f, hlast, hroot⟩ := ih
    exact ⟨root, f, by rw [List.getLast?_cons, hlast]; rfl, hroot⟩

end State

end SmallLisp
