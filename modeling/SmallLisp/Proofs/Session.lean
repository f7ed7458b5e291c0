import Mathlib.Logic.Relation
import SmallLisp.Proofs.Mirror
import SmallLisp.Proofs.RoundTrip
import SmallLisp.Source

/-!
# Sessions

A session is a state together with what a host program was given so far: environments it has made,
and values that evaluations have returned, also in errors. Its steps are what the host may do with
them. In every session that starts from nothing the heap is sound (`Session.Reachable.sound`), and
environments lead outwards in finitely many steps to one that has no outer one (`heap_invariant`).
-/

namespace SmallLisp

/-- The values of an outcome, which for an error is the value that it is about. -/
def returned : Except EvalError Value → List Value
  | .ok v => [v]
  | .error e => e.value?.toList

/-- The values of the outcome of a source. -/
def SourceError.returned : Except SourceError Value → List Value
  | .ok v => [v]
  | .error (.evaluation e) => e.value?.toList
  | .error (.reading _) => []

/-- What a host program has: the state, the environments it has made, among them those without an
outer one, and the values it was given. -/
structure Session where
  state : State
  envs : List Env
  roots : List Env
  values : List Value

namespace Session

/-- Before anything is made. -/
def empty : Session := ⟨.empty, [], [], []⟩

/-- The host can make the value of what it was given. -/
inductive Has (σ : Session) : Value → Prop where
  | given {v : Value} : v ∈ σ.values → Has σ v
  | atomic {v : Value} : v.atomic = true → Has σ v
  | list {vs : List Value} : (∀ v ∈ vs, Has σ v) → Has σ (.list vs)
  | element {vs : List Value} {v : Value} : Has σ (.list vs) → v ∈ vs → Has σ v
  | body {identity : Nat} {name : Option String} {params : List String} {body : List Value}
      {env : Env} {e : Value} : Has σ (.closure identity name params body env) → e ∈ body → Has σ e
  | resolved {env : Env} (name : String) {v : Value} : env ∈ σ.envs →
      σ.state.resolve env name = some v → Has σ v
  | captured {identity : Nat} {name : Option String} {params : List String} {body : List Value}
      {env : Env} {other : String} {v : Value} : Has σ (.closure identity name params body env) →
      σ.state.resolve env other = some v → Has σ v

theorem Has.sym {σ : Session} (name : String) : σ.Has (.sym name) := .atomic rfl

theorem Has.sound {σ : Session} {p : Closure → Prop} (hvalues : ∀ v ∈ σ.values, v.Sound p)
    (hresolve : ∀ {env name v}, σ.state.resolve env name = some v → v.Sound p) {v : Value}
    (hv : σ.Has v) : v.Sound p := by
  induction hv with
  | given hv => exact hvalues _ hv
  | atomic hv => exact .of_atomic hv
  | list _ ih => exact Value.sound_list.2 ih
  | element _ hmem ih => exact Value.sound_list.1 ih _ hmem
  | body _ hmem ih => exact ih.body _ hmem
  | resolved _ _ hv => exact hresolve hv
  | captured _ hv => exact hresolve hv

/-- The environment was made by the host, or captured by a closure that the host has. -/
inductive HasEnv (σ : Session) : Env → Prop where
  | made {env : Env} : env ∈ σ.envs → HasEnv σ env
  | captured {identity : Nat} {name : Option String} {params : List String} {body : List Value}
      {env : Env} : σ.Has (.closure identity name params body env) → HasEnv σ env

/-- The session with a new frame. -/
def push (σ : Session) (f : Frame) : Session where
  state := (σ.state.push f).2
  envs := (σ.state.push f).1 :: σ.envs
  roots := if f.outer.isNone then (σ.state.push f).1 :: σ.roots else σ.roots
  values := σ.values

/-- The session in a later state, with more values. -/
def after (σ : Session) (s : State) (vs : List Value) : Session :=
  { σ with state := s, values := vs ++ σ.values }

/-- The host calls a function, which ends with a value or an error. -/
inductive Call (σ : Session) : Session → Prop where
  | mk (depth : Nat) {f : Value} {args : List Value} {result : Except EvalError Value} {s : State} :
      σ.Has f → (∀ a ∈ args, σ.Has a) → apply (eval depth) f args σ.state = some (result, s) →
      Call σ (σ.after s (returned result))

/-- What the host does: it makes an environment, empty or with the library, encloses one in another,
binds a name, makes a closure of its own, evaluates an expression or a source, or calls a function.
A run may end with an error. -/
inductive Step (σ : Session) : Session → Prop where
  | new : Step σ (σ.push ⟨[], none⟩)
  | global : Step σ (σ.push Frame.library)
  | enclose {outer : Env} : σ.HasEnv outer → Step σ (σ.push ⟨[], some outer⟩)
  | define {env : Env} (name : String) {v : Value} : σ.HasEnv env → σ.Has v →
      Step σ (σ.after (σ.state.define env name v) [])
  | close (name : Option String) (params : List String) {body : List Value} {env : Env} :
      σ.HasEnv env → (∀ e ∈ body, σ.Has e) →
      Step σ (σ.after { σ.state with closures := σ.state.closures + 1 }
        [.closure σ.state.closures name params body env])
  | eval (depth : Nat) {e : Value} {env : Env} {result : Except EvalError Value} {s : State} :
      σ.HasEnv env → σ.Has e → eval depth e env σ.state = some (result, s) →
      Step σ (σ.after s (returned result))
  | call {τ : Session} : Call σ τ → Step σ τ
  | source (depth : Nat) (text : String) {env : Env} {result : Except SourceError Value}
      {s : State} : σ.HasEnv env → evaluateSource depth text env σ.state = some (result, s) →
      Step σ (σ.after s (SourceError.returned result))

/-- The session comes of others by steps of the host. -/
abbrev Steps : Session → Session → Prop := Relation.ReflTransGen Step

def Reachable (σ : Session) : Prop := Steps empty σ

/-- What the host was given is sound, and it has made every frame without an outer one. -/
structure Sound (σ : Session) : Prop where
  wellformed : σ.state.Wellformed
  envs : ∀ env ∈ σ.envs, σ.state.Allocated env
  values : ∀ v ∈ σ.values, v.Sound σ.state.Knows
  roots : ∀ env f, σ.state.frame? env = some f → f.outer = none → env ∈ σ.roots

theorem Sound.empty : empty.Sound where
  wellformed := .empty
  envs _ h := by cases h
  values _ h := by cases h
  roots _ _ h := by simp [Session.empty, State.empty, State.frame?] at h

section Given

variable {σ : Session} (h : σ.Sound)
include h

theorem Sound.has {v : Value} (hv : σ.Has v) : v.Sound σ.state.Knows :=
  hv.sound h.values h.wellformed.sound_resolve

theorem Sound.hasEnv {env : Env} (henv : σ.HasEnv env) : σ.state.Allocated env := by
  cases henv with
  | made henv => exact h.envs env henv
  | captured hc => exact (h.has hc _ (.closure ..)).1

theorem Sound.push {f : Frame} (houter : ∀ outer, f.outer = some outer → σ.state.Allocated outer)
    (hf : ∀ name v, f.get? name = some v → v.Sound σ.state.Knows) : (σ.push f).Sound where
  wellformed := h.wellformed.push houter hf
  envs env henv := by
    rcases List.mem_cons.1 henv with rfl | henv
    · exact σ.state.allocated_fst_push f
    · exact Nat.lt_trans (h.envs env henv) (by simp [Session.push])
  values v hv := (h.values v hv).mono fun _ hc => hc.push f
  roots _ _ hg := by
    refine State.forall_push (p := fun env g => g.outer = none → env ∈ (σ.push f).roots)
      (fun env g hg ho => ?_) (fun ho => ?_) hg
    · have hmem := h.roots env g hg ho
      unfold Session.push
      split
      · exact List.mem_cons_of_mem _ hmem
      · exact hmem
    · simp [Session.push, ho]

theorem Sound.after {s : State} {vs : List Value} (hs : σ.state.Grows s) (hwf : s.Wellformed)
    (hvs : ∀ v ∈ vs, v.Sound s.Knows) : (σ.after s vs).Sound where
  wellformed := hwf
  envs env henv := hs.allocated (h.envs env henv)
  values v hv := by
    rcases List.mem_append.1 hv with hv | hv
    · exact hvs v hv
    · exact (h.values v hv).mono fun _ => hs.knows
  roots env g hg houter := by
    cases hf : σ.state.frame? env with
    | none =>
      have := hs.enclosed env g hf hg
      rw [houter] at this
      cases this
    | some f =>
      obtain ⟨g', hg', hfg⟩ := hs.kept env f hf
      obtain rfl := Option.some.inj (hg'.symm.trans hg)
      exact h.roots env f hf (hfg.outer ▸ houter)

end Given

theorem sound_returned {p : Closure → Prop} {result : Except EvalError Value}
    (h : Yields p (Value.Sound p) result) : ∀ v ∈ returned result, v.Sound p := by
  cases result with
  | ok v => exact List.forall_mem_singleton.2 h
  | error e => exact fun v hv => h v (by simpa [returned] using hv)

end Session

/-! ## Sources -/

mutual

theorem Value.Legible.sound {D : Double → Prop} {p : Closure → Prop} (v : Value)
    (h : v.Legible D) : v.Sound p := by
  cases v with
  | list vs => exact sound_list.2 (Legible.soundAll vs (legible_list.1 h))
  | closure => exact h.elim
  | _ => exact .of_atomic rfl

theorem Value.Legible.soundAll {D : Double → Prop} {p : Closure → Prop} (vs : List Value)
    (h : ∀ v ∈ vs, v.Legible D) : ∀ v ∈ vs, v.Sound p := by
  match vs with
  | [] => exact List.forall_mem_nil _
  | v :: vs =>
    obtain ⟨hv, hvs⟩ := List.forall_mem_cons.1 h
    exact List.forall_mem_cons.2 ⟨Legible.sound v hv, Legible.soundAll vs hvs⟩

end

theorem State.Wellformed.evaluateSource {s s' : State} (h : s.Wellformed) {depth : Nat}
    {text : String} {env : Env} (henv : s.Allocated env) {result : Except SourceError Value}
    (hr : evaluateSource depth text env s = some (result, s')) :
    s.Grows s' ∧ s'.Wellformed ∧ ∀ v ∈ SourceError.returned result, v.Sound s'.Knows := by
  rw [SmallLisp.evaluateSource] at hr
  cases hforms : Reader.parse text with
  | error e =>
    rw [hforms] at hr
    cases hr
    exact ⟨.refl s, h, List.forall_mem_nil _⟩
  | ok forms =>
    have hsound (e : Value) (he : e ∈ forms) : e.Sound s.Knows :=
      Value.Legible.sound e (Reader.legible_of_parse hforms e he)
    simp only [hforms, Run.mapError] at hr
    cases hrun : SmallLisp.evalBody (SmallLisp.eval depth) env forms s with
    | none => simp [hrun] at hr
    | some p =>
      obtain ⟨e | v, t⟩ := p <;> simp only [hrun] at hr <;> cases hr
      · obtain ⟨hs, hs', he⟩ := h.evalBody henv hsound hrun
        exact ⟨hs, hs', Session.sound_returned he⟩
      · obtain ⟨hs, hs', hv⟩ := h.evalBody henv hsound hrun
        exact ⟨hs, hs', List.forall_mem_singleton.2 hv⟩

namespace Session

/-! ## Steps -/

theorem sound_library {p : Closure → Prop} (name : String) (v : Value)
    (hv : Frame.library.get? name = some v) : v.Sound p := by
  rcases List.mem_append.1 (Frame.mem_of_get? hv) with hmem | hmem
  · obtain ⟨b, -, hb⟩ := List.mem_map.1 hmem
    cases hb
    exact .of_atomic rfl
  · cases List.mem_singleton.1 hmem
    exact .of_atomic rfl

/-- The frames from before are there, with the same outer environments. -/
def Retains (σ τ : Session) : Prop := ∀ env f, σ.state.frame? env = some f →
  ∃ g, τ.state.frame? env = some g ∧ g.outer = f.outer

theorem retains_push (σ : Session) (f : Frame) : σ.Retains (σ.push f) :=
  fun env g hg => ⟨g, State.Keeps.push σ.state f env g hg, rfl⟩

theorem retains_after {σ : Session} {s : State} (h : σ.state.Grows s) (vs : List Value) :
    σ.Retains (σ.after s vs) := fun env f hf => by
  obtain ⟨g, hg, hfg⟩ := h.kept env f hf
  exact ⟨g, hg, hfg.outer⟩

theorem Step.sound {σ τ : Session} (hσ : σ.Sound) (h : Step σ τ) : τ.Sound ∧ σ.Retains τ := by
  have hafter {s : State} {vs : List Value} (hs : σ.state.Grows s) (hwf : s.Wellformed)
      (hvs : ∀ v ∈ vs, v.Sound s.Knows) : (σ.after s vs).Sound ∧ σ.Retains (σ.after s vs) :=
    ⟨hσ.after hs hwf hvs, retains_after hs vs⟩
  cases h with
  | new =>
    exact ⟨hσ.push (fun _ h => by cases h) (fun _ _ h => by cases h), retains_push σ _⟩
  | global => exact ⟨hσ.push (fun _ h => by cases h) sound_library, retains_push σ _⟩
  | enclose houter =>
    refine ⟨hσ.push (fun outer h => ?_) (fun _ _ h => by cases h), retains_push σ _⟩
    cases h
    exact hσ.hasEnv houter
  | define _ henv hv =>
    exact hafter (.define ..) (hσ.wellformed.define _ _ (hσ.has hv)) (List.forall_mem_nil _)
  | close _ _ henv hbody =>
    have hs := State.Grows.makeClosure σ.state
    refine hafter hs (hσ.wellformed.of_frames rfl (Nat.le_succ _))
      (List.forall_mem_singleton.2 (.of_closure ⟨hσ.hasEnv henv, Nat.lt_succ_self _⟩ ?_))
    exact fun e he => (hσ.has (hbody e he)).mono fun _ => hs.knows
  | eval _ henv he hr =>
    obtain ⟨hs, hwf, hv⟩ := hσ.wellformed.eval (hσ.hasEnv henv) (hσ.has he) hr
    exact hafter hs hwf (sound_returned hv)
  | call hcall =>
    obtain ⟨_, hf, hargs, hr⟩ := hcall
    obtain ⟨hs, hwf, hv⟩ := hσ.wellformed.apply (hσ.has hf) (fun a ha => hσ.has (hargs a ha)) hr
    exact hafter hs hwf (sound_returned hv)
  | source _ _ henv hr =>
    obtain ⟨hs, hwf, hv⟩ := hσ.wellformed.evaluateSource (hσ.hasEnv henv) hr
    exact hafter hs hwf hv

theorem Steps.sound {σ τ : Session} (hσ : σ.Sound) (h : Steps σ τ) : τ.Sound ∧ σ.Retains τ := by
  induction h with
  | refl => exact ⟨hσ, fun env f hf => ⟨f, hf, rfl⟩⟩
  | tail _ hstep ih =>
    obtain ⟨hsound, hretains⟩ := hstep.sound ih.1
    refine ⟨hsound, fun env f hf => ?_⟩
    obtain ⟨g, hg, hfg⟩ := ih.2 env f hf
    obtain ⟨k, hk, hgk⟩ := hretains env g hg
    exact ⟨k, hk, hgk.trans hfg⟩

theorem Reachable.sound {σ : Session} (h : σ.Reachable) : σ.Sound := (Steps.sound .empty h).1

/-! ## Environments -/

/-- The environment is the outer one of a frame, or captured by a closure that a binding or the host
holds, or it was made by the host. -/
inductive Holds (σ : Session) : Env → Prop where
  | outer {env outer : Env} {f : Frame} : σ.state.frame? env = some f → f.outer = some outer →
      Holds σ outer
  | bound {env : Env} {f : Frame} {name : String} {v : Value} {c : Closure} :
      σ.state.frame? env = some f → f.get? name = some v → v.Holds c → Holds σ c.env
  | made {env : Env} : env ∈ σ.envs → Holds σ env
  | given {v : Value} {c : Closure} : v ∈ σ.values → v.Holds c → Holds σ c.env

theorem Sound.allocated {σ : Session} (h : σ.Sound) {env : Env} (henv : σ.Holds env) :
    σ.state.Allocated env := by
  cases henv with
  | outer hf ho => exact h.wellformed.allocated_outer hf ho
  | bound hf hv hc => exact (h.wellformed.sound hf hv _ hc).1
  | made henv => exact h.envs env henv
  | given hv hc => exact (h.values _ hv _ hc).1

/-- Every environment that is held has a frame, whose outer link stays as it is. Outer links lead
from it to finitely many environments, all distinct, of which the last one is the only one that was
made without an outer one, if there is just one. So each search for a name ends, with what
`State.resolve` gives. -/
theorem heap_invariant {σ : Session} (h : σ.Reachable) :
    (∀ env, σ.Holds env → σ.state.Allocated env) ∧
    (∀ τ, Steps σ τ → σ.Retains τ) ∧
    (∀ env, σ.state.Allocated env → σ.state.Outwards env (σ.state.chain env) ∧
      (σ.state.chain env).Nodup ∧ ∀ name, σ.state.Search name env (σ.state.resolve env name)) ∧
    ∀ g, (∀ root ∈ σ.roots, root = g) → ∀ env path, σ.state.Outwards env path →
      path.getLast? = some g := by
  have hσ := h.sound
  refine ⟨fun env => hσ.allocated, fun τ hτ => (Steps.sound hσ hτ).2, fun env henv => ?_, ?_⟩
  · exact ⟨hσ.wellformed.outwards_chain henv, hσ.wellformed.nodup_chain henv, fun name =>
      hσ.wellformed.search_resolve name henv⟩
  · intro g hg env path hpath
    obtain ⟨root, f, hlast, hf, ho⟩ := hpath.getLast?
    rw [hlast, hg root (hσ.roots root f hf ho)]

/-- The host evaluates `(defn f (x) (fn () x))`, calls `f` with 1, calls it without an argument,
which is an error, and makes an environment inside the one that the first call's closure has
captured. -/
theorem heap_invariant_captured :
    let f : Value := .closure 0 (some "f") ["x"] [.list [.sym "fn", .list [], .sym "x"]] ⟨0⟩
    let inner : Value := .closure 1 none [] [.sym "x"] ⟨1⟩
    let s : State :=
      ⟨#[⟨[("f", f)], none⟩, ⟨[("x", .int 1)], some ⟨0⟩⟩, ⟨[], some ⟨1⟩⟩], 2, ""⟩
    let σ : Session := ⟨s, [⟨2⟩, ⟨0⟩], [⟨0⟩], [inner, .nil]⟩
    σ.Reachable ∧ s.Allocated ⟨1⟩ ∧ s.Outwards ⟨2⟩ [⟨2⟩, ⟨1⟩, ⟨0⟩] ∧
      s.Search "f" ⟨2⟩ (some f) ∧ ∀ path, s.Outwards ⟨2⟩ path → path.getLast? = some ⟨0⟩ := by
  intro f inner s σ
  have hdefn (τ : Session) : τ.Has (.list [.sym "defn", .sym "f", .list [.sym "x"],
      .list [.sym "fn", .list [], .sym "x"]]) := .list (by simp [Has.sym, Has.list])
  have hmade (t : State) (vs : List Value) : HasEnv ⟨t, [⟨0⟩], [⟨0⟩], vs⟩ ⟨0⟩ :=
    .made List.mem_cons_self
  have hcallable {t : State} {vs : List Value} (ht : t.resolve ⟨0⟩ "f" = some f) :
      Has ⟨t, [⟨0⟩], [⟨0⟩], vs⟩ f := .resolved "f" List.mem_cons_self ht
  have hone {σ : Session} : ∀ a ∈ [Value.int 1], σ.Has a :=
    List.forall_mem_singleton.2 (.atomic rfl)
  let frame : Frame := ⟨[("f", f)], none⟩
  let call : Frame := ⟨[("x", .int 1)], some ⟨0⟩⟩
  have hnew : Steps empty ⟨⟨#[⟨[], none⟩], 0, ""⟩, [⟨0⟩], [⟨0⟩], []⟩ := .single .new
  have hdefine : Steps empty ⟨⟨#[frame], 1, ""⟩, [⟨0⟩], [⟨0⟩], [.nil]⟩ :=
    hnew.tail (.eval 1 (hmade ..) (hdefn _) rfl)
  have hcall : Steps empty ⟨⟨#[frame, call], 2, ""⟩, [⟨0⟩], [⟨0⟩], [inner, .nil]⟩ :=
    hdefine.tail (.call (.mk 1 (hcallable rfl) hone rfl))
  have herror : Steps empty ⟨⟨#[frame, call], 2, ""⟩, [⟨0⟩], [⟨0⟩], [inner, .nil]⟩ :=
    hcall.tail (.call (.mk 1 (hcallable rfl) (List.forall_mem_nil _) rfl))
  have hσ : σ.Reachable :=
    herror.tail (.enclose (.captured (.given (v := inner) List.mem_cons_self)))
  obtain ⟨hheld, -, hchain, hroot⟩ := heap_invariant hσ
  obtain ⟨houtwards, -, hsearch⟩ := hchain ⟨2⟩ (hheld ⟨2⟩ (.made List.mem_cons_self))
  exact ⟨hσ, hheld ⟨1⟩ (.given (v := inner) List.mem_cons_self (.closure ..)), houtwards,
    hsearch "f", hroot ⟨0⟩ (by simp [σ]) ⟨2⟩⟩

end Session

end SmallLisp
