import SmallLisp.Proofs.Chronicle
import SmallLisp.Proofs.Copies
import SmallLisp.Proofs.Equality
import SmallLisp.Proofs.Session

/-!
# The identity of closures

The steps of a session make closures one after the other, each by an evaluation of its own
(`Session.Chronicled`). So closures are equal where the same evaluation has made them, and then they
are one closure (`Session.closure_identity`).
-/

namespace SmallLisp

/-! ## Closures of the host -/

/-- The form that would make the closure. -/
def Closure.form (c : Closure) : Value :=
  match c.name with
  | none => .list (.sym "fn" :: .list (c.params.map .sym) :: c.body)
  | some name => .list (.sym "defn" :: .sym name :: .list (c.params.map .sym) :: c.body)

/-- The evaluation of its form in a state from which it would be the next one. -/
def Closure.making (c : Closure) (s : State) : Point := ⟨0, c.form, c.env, s⟩

theorem Closure.making_makes {c : Closure} {s : State} (h : c.identity = s.closures) :
    (c.making s).Makes c where
  form := by
    obtain ⟨identity, name, params, body, env⟩ := c
    cases name with
    | none => exact .lambda body (Value.symbols?_map_sym params)
    | some name => exact .defineFn name body (Value.symbols?_map_sym params)
  env := rfl
  identity := h

/-! ## Equality -/

theorem Closure.equal_iff {c d : Closure} :
    c.value.equal d.value = true ↔ c.identity = d.identity := by
  simp [value, Value.equal]

/-- Among the closures that the evaluations make, those are equal to a program that the same
evaluation has made, alone and as elements of lists, and they are defined alike. -/
structure Distinguished (U : Set Point) : Prop where
  equal_iff : ∀ {c d : Closure}, Stems U c → Stems U d →
    (Builtin.equal.call [c.value, d.value] = .ok (.bool true) ↔ ∃ p ∈ U, p.Makes c ∧ p.Makes d)
  lists : ∀ {cs ds : List Closure}, (∀ c ∈ cs, Stems U c) → (∀ d ∈ ds, Stems U d) →
    (Builtin.equal.call [.list (cs.map Closure.value), .list (ds.map Closure.value)] =
      .ok (.bool true) ↔ List.Forall₂ (fun c d => ∃ p ∈ U, p.Makes c ∧ p.Makes d) cs ds)
  alike : ∀ {c d : Closure}, Stems U c → Stems U d →
    Builtin.equal.call [c.value, d.value] = .ok (.bool true) →
    c.name = d.name ∧ c.params = d.params ∧ c.body = d.body ∧ c.env = d.env

section Distinct

variable {U : Set Point}
  (hU : ∀ {p q}, p ∈ U → q ∈ U → p.state.closures = q.state.closures → p = q)
include hU

theorem stems_equal_iff {c d : Closure} (hc : Stems U c) (hd : Stems U d) :
    c.value.equal d.value = true ↔ ∃ p ∈ U, p.Makes c ∧ p.Makes d := by
  rw [Closure.equal_iff]
  constructor
  · intro hidentity
    obtain ⟨p, hp, hpc⟩ := hc
    obtain ⟨q, hq, hqd⟩ := hd
    obtain rfl : p = q := hU hp hq (by rw [← hpc.identity, hidentity, hqd.identity])
    exact ⟨p, hp, hpc, hqd⟩
  · rintro ⟨p, -, hpc, hpd⟩
    rw [hpc.unique hpd]

theorem stems_equalAll_iff {cs ds : List Closure} (hcs : ∀ c ∈ cs, Stems U c)
    (hds : ∀ d ∈ ds, Stems U d) :
    Value.equalAll (cs.map Closure.value) (ds.map Closure.value) = true ↔
      List.Forall₂ (fun c d => ∃ p ∈ U, p.Makes c ∧ p.Makes d) cs ds := by
  induction cs generalizing ds with
  | nil => cases ds <;> simp [Value.equalAll]
  | cons c cs ih =>
    obtain ⟨hc, hcs⟩ := List.forall_mem_cons.1 hcs
    cases ds with
    | nil => simp [Value.equalAll]
    | cons d ds =>
      obtain ⟨hd, hds⟩ := List.forall_mem_cons.1 hds
      simp only [List.map_cons, Value.equalAll, Bool.and_eq_true, stems_equal_iff hU hc hd,
        ih hcs hds, List.forall₂_cons]

theorem distinguished : Distinguished U where
  equal_iff hc hd := Builtin.call_equal_iff.trans (stems_equal_iff hU hc hd)
  lists hcs hds := by
    rw [Builtin.call_equal_iff, Value.equal]
    exact stems_equalAll_iff hU hcs hds
  alike hc hd hequal := by
    obtain ⟨p, -, hpc, hpd⟩ := (stems_equal_iff hU hc hd).1 (Builtin.call_equal_iff.1 hequal)
    rw [hpc.unique hpd]
    exact ⟨rfl, rfl, rfl, rfl⟩

end Distinct

namespace Session

/-! ## Runs of the host -/

/-- What the host can run: it evaluates an expression, calls a function, or evaluates the forms of a
source. -/
inductive Request (σ : Session) : (Stop → Eval Value) → Prop where
  | eval (depth : Nat) {e : Value} {env : Env} : σ.HasEnv env → σ.Has e →
      Request σ fun i => evalUntil i depth e env
  | call (depth : Nat) {f : Value} {args : List Value} : σ.Has f → (∀ a ∈ args, σ.Has a) →
      Request σ fun i => apply (evalUntil i depth) f args
  | source (depth : Nat) {text : String} {forms : List Value} {env : Env} : σ.HasEnv env →
      Reader.parse text = .ok forms → Request σ fun i => evalBody (evalUntil i depth) env forms

theorem mapError_evaluation_iff {x : Eval Value} {s s' : State}
    {result : Except SourceError Value} :
    x.mapError SourceError.evaluation s = some (result, s') ↔
      ∃ r, x s = some (r, s') ∧ result = r.mapError .evaluation := by
  rw [Run.mapError]
  rcases x s with _ | ⟨e | v, t⟩ <;> simp [Except.mapError, eq_comm, and_comm]

theorem returned_mapError (r : Except EvalError Value) :
    SourceError.returned (r.mapError .evaluation) = returned r := by
  cases r <;> rfl

theorem Request.step {σ : Session} {x : Stop → Eval Value} (hx : Request σ x)
    {result : Except EvalError Value} {s : State} (h : x none σ.state = some (result, s)) :
    Step σ (σ.after s (returned result)) := by
  cases hx with
  | eval depth henv he => exact .eval depth henv he (by simpa only [evalUntil_none] using h)
  | call depth hf hargs => exact .call (.mk depth hf hargs (by simpa only [evalUntil_none] using h))
  | @source depth text forms env henv hparse =>
    simp only [evalUntil_none] at h
    rw [← returned_mapError]
    refine .source depth text henv ?_
    rw [evaluateSource_of_parse hparse]
    exact mapError_evaluation_iff.2 ⟨result, h, rfl⟩

/-! ## Chronicles of sessions -/

/-- The closures of the session are made by the evaluations, each by one. A closure that the host
makes by itself counts as made by its form. -/
inductive Chronicled : Session → Set Point → Prop where
  | empty : Chronicled empty ∅
  | new {σ : Session} {M : Set Point} : Chronicled σ M → Chronicled (σ.push ⟨[], none⟩) M
  | global {σ : Session} {M : Set Point} : Chronicled σ M → Chronicled (σ.push Frame.library) M
  | enclose {σ : Session} {M : Set Point} {outer : Env} : Chronicled σ M → σ.HasEnv outer →
      Chronicled (σ.push ⟨[], some outer⟩) M
  | define {σ : Session} {M : Set Point} {env : Env} (name : String) {v : Value} :
      Chronicled σ M → σ.HasEnv env → σ.Has v →
      Chronicled (σ.after (σ.state.define env name v) []) M
  | close {σ : Session} {M : Set Point} {c : Closure} : Chronicled σ M →
      c.identity = σ.state.closures → σ.HasEnv c.env → (∀ e ∈ c.body, σ.Has e) →
      Chronicled (σ.after { σ.state with closures := σ.state.closures + 1 } [c.value])
        (M ∪ {c.making σ.state})
  | run {σ : Session} {M : Set Point} {x : Stop → Eval Value} {result : Except EvalError Value}
      {s : State} : Chronicled σ M → Request σ x → x none σ.state = some (result, s) →
      Chronicled (σ.after s (returned result)) (M ∪ makings x σ.state)

theorem Chronicled.reachable {σ : Session} {M : Set Point} (h : σ.Chronicled M) :
    σ.Reachable := by
  induction h with
  | empty => exact .refl
  | new _ ih => exact ih.tail .new
  | global _ ih => exact ih.tail .global
  | enclose _ houter ih => exact ih.tail (.enclose houter)
  | define name _ henv hv ih => exact ih.tail (.define name henv hv)
  | @close σ M c _ hidentity henv hbody ih =>
    obtain ⟨identity, name, params, body, env⟩ := c
    obtain rfl : identity = σ.state.closures := hidentity
    exact ih.tail (.close name params henv hbody)
  | run _ hx hr ih => exact ih.tail (hx.step hr)

theorem Chronicled.step {σ τ : Session} {M : Set Point} (h : σ.Chronicled M) (hstep : Step σ τ) :
    ∃ N, τ.Chronicled N := by
  cases hstep with
  | new => exact ⟨M, h.new⟩
  | global => exact ⟨M, h.global⟩
  | enclose houter => exact ⟨M, h.enclose houter⟩
  | define name henv hv => exact ⟨M, h.define name henv hv⟩
  | @close name params body env henv hbody =>
    exact ⟨_, h.close (c := ⟨σ.state.closures, name, params, body, env⟩) rfl henv hbody⟩
  | eval depth henv he hr => exact ⟨_, h.run (.eval depth henv he) (by rwa [evalUntil_none])⟩
  | call hcall =>
    obtain ⟨depth, hf, hargs, hr⟩ := hcall
    exact ⟨_, h.run (.call depth hf hargs) (by rwa [evalUntil_none])⟩
  | source depth text henv hr =>
    cases hparse : Reader.parse text with
    | error e =>
      rw [evaluateSource_of_parse_error hparse] at hr
      cases hr
      exact ⟨M, h⟩
    | ok forms =>
      rw [evaluateSource_of_parse hparse] at hr
      obtain ⟨r, hr, rfl⟩ := mapError_evaluation_iff.1 hr
      rw [returned_mapError]
      exact ⟨_, h.run (.source depth henv hparse) (by rwa [evalUntil_none])⟩

theorem Reachable.chronicled {σ : Session} (h : σ.Reachable) : ∃ M, σ.Chronicled M := by
  induction h with
  | refl => exact ⟨∅, .empty⟩
  | tail _ hstep ih =>
    obtain ⟨M, hM⟩ := ih
    exact hM.step hstep

/-- The closures that are bound, and those that the host was given, are made by the evaluations. -/
structure Traced (σ : Session) (M : Set Point) : Prop where
  chronicle : Chronicle M σ.state
  values : ∀ v ∈ σ.values, v.Sound (Stems M)

section Traced

variable {σ : Session} {M : Set Point} (h : σ.Traced M)
include h

theorem Traced.has {v : Value} (hv : σ.Has v) : v.Sound (Stems M) :=
  hv.sound h.values h.chronicle.sound_resolve

theorem Traced.push {f : Frame} (hf : ∀ name v, f.get? name = some v → v.Sound (Stems M)) :
    (σ.push f).Traced M where
  chronicle := h.chronicle.push hf
  values := h.values

theorem Traced.after {N : Set Point} (hsub : M ⊆ N) {s : State} (hs : Chronicle N s)
    {vs : List Value} (hvs : ∀ v ∈ vs, v.Sound (Stems N)) : (σ.after s vs).Traced N where
  chronicle := hs
  values v hv := by
    rcases List.mem_append.1 hv with hv | hv
    · exact hvs v hv
    · exact sound_stems_mono hsub (h.values v hv)

theorem Request.records {x : Stop → Eval Value} (hx : Request σ x) :
    Records M Records.Stemming x σ.state := by
  cases hx with
  | eval depth _ he => exact evalUntil_records depth h.chronicle (h.has he)
  | call depth hf hargs =>
    exact Records.apply (Stoppable.evalUntil depth) (evalUntil_records depth) h.chronicle
      (h.has hf) fun a ha => h.has (hargs a ha)
  | source depth _ hparse =>
    exact Records.evalBody (Stoppable.evalUntil depth) (evalUntil_records depth) h.chronicle
      fun e he => Value.Legible.sound e (Reader.legible_of_parse hparse e he)

end Traced

theorem Chronicled.traced {σ : Session} {M : Set Point} (h : σ.Chronicled M) : σ.Traced M := by
  induction h with
  | empty =>
    refine ⟨⟨fun hf => ?_, fun hp => hp.elim, fun hp => hp.elim⟩, List.forall_mem_nil _⟩
    simp [Session.empty, State.empty, State.frame?] at hf
  | new _ ih => exact ih.push fun _ _ hv => by cases hv
  | global _ ih => exact ih.push sound_library
  | enclose _ _ ih => exact ih.push fun _ _ hv => by cases hv
  | define name _ _ hv ih =>
    exact ih.after subset_rfl (ih.chronicle.define _ name (ih.has hv)) (List.forall_mem_nil _)
  | @close σ M c _ hidentity _ hbody ih =>
    have hmakes : (c.making σ.state).Makes c := Closure.making_makes hidentity
    have hchronicle : Chronicle M (c.making σ.state).state := ih.chronicle
    refine ih.after Set.subset_union_left hchronicle.make (List.forall_mem_singleton.2 ?_)
    exact hmakes.sound fun b hb => ih.has (hbody b hb)
  | run _ hx hr ih =>
    obtain ⟨-, hchronicle, hyields⟩ := (hx.records ih).ended hr
    exact ih.after Set.subset_union_left hchronicle (sound_returned hyields)

/-! ## What occurs in a run -/

/-- The closure occurs in the run when so many closures have been made: the host has it, or an
evaluation that the run comes to finds it bound or in its expression, or ends with it. -/
inductive Occurs (σ : Session) (x : Stop → Eval Value) : Nat → Closure → Prop where
  | given {v : Value} {c : Closure} : σ.Has v → v.Holds c → Occurs σ x σ.state.closures c
  | bound {p : Point} {env : Env} {f : Frame} {name : String} {v : Value} {c : Closure} :
      Reaches x σ.state p → p.state.frame? env = some f → f.get? name = some v → v.Holds c →
      Occurs σ x p.state.closures c
  | part {p : Point} {c : Closure} : Reaches x σ.state p → p.expr.Holds c →
      Occurs σ x p.state.closures c
  | outcome {p : Point} {result : Except EvalError Value} {s : State} {v : Value} {c : Closure} :
      Reaches x σ.state p → p.outcome = some (result, s) → v ∈ returned result → v.Holds c →
      Occurs σ x s.closures c

section Request

variable {σ : Session} {M : Set Point} {x : Stop → Eval Value} (h : σ.Traced M)
  (hx : Request σ x)
include h hx

/-- A closure that occurs is made by then. -/
theorem Occurs.stems {n : Nat} {c : Closure} (hc : Occurs σ x n c) :
    Stems (past (M ∪ makings x σ.state) n) c := by
  have hrecords := hx.records h
  cases hc with
  | given hv hc =>
    have hpast : M ⊆ past (M ∪ makings x σ.state) σ.state.closures :=
      fun p hp => ⟨.inl hp, h.chronicle.before hp⟩
    exact Stems.mono hpast (h.has hv c hc)
  | bound hp hf hv hc => exact (hrecords.reached hp).2.frames hf hv c hc
  | part hp hc => exact (hrecords.reached hp).2.expr c hc
  | outcome hp hr hv hc => exact sound_returned ((hrecords.reached hp).2.outcome hr) _ hv c hc

/-- An evaluation that makes a closure makes it different from all that occur by then. -/
theorem Occurs.identity_ne {n : Nat} {p : Point} {c d : Closure} (hd : Occurs σ x n d)
    (hc : p.Makes c) (hn : n ≤ p.state.closures) : c.identity ≠ d.identity := by
  obtain ⟨q, ⟨-, hq⟩, hqd⟩ := hd.stems h hx
  rw [hc.identity, hqd.identity]
  omega

end Request

/-- In a session the host runs something. An evaluation of an `fn` or `defn` form that the run comes
to, if the form is well-formed, gives or binds a closure that is equal to none that occurs by then.
All closures that occur are made so, by evaluations in the run or before it, and are equal if and
only if one evaluation has made them; then they are defined alike. A closure remains equal to its
copies. -/
theorem closure_identity {σ : Session} (h : σ.Reachable) :
    (∃ M, σ.Chronicled M) ∧
    (∀ M, σ.Chronicled M →
      (∀ env f name v c, σ.state.frame? env = some f → f.get? name = some v → v.Holds c →
        Stems M c) ∧
      ∀ x, Request σ x →
        (∀ p c, Reaches x σ.state p → p.Makes c → p.outcome = some (p.ending c) ∧
          ∀ n d, Occurs σ x n d → n ≤ p.state.closures →
            Builtin.equal.call [c.value, d.value] = .ok (.bool false) ∧
              Builtin.equal.call [d.value, c.value] = .ok (.bool false)) ∧
        (∀ n c, Occurs σ x n c → Stems (M ∪ makings x σ.state) c) ∧
        Distinguished (M ∪ makings x σ.state)) ∧
    ∀ (c : Closure) (v : Value), Copy c.value v →
      Builtin.equal.call [c.value, v] = .ok (.bool true) := by
  refine ⟨h.chronicled, fun M hM => ?_, fun c v hv => ?_⟩
  · have htraced := hM.traced
    refine ⟨fun env f name v c hf hv => htraced.chronicle.frames hf hv c, fun x hx => ⟨?_, ?_, ?_⟩⟩
    · intro p c _ hc
      refine ⟨hc.outcome, fun n d hd hn => ?_⟩
      have hne := hd.identity_ne htraced hx hc hn
      rw [Builtin.call_equal_iff, Builtin.call_equal_iff, ← Bool.not_eq_true, ← Bool.not_eq_true,
        Closure.equal_iff, Closure.equal_iff]
      exact ⟨hne, hne.symm⟩
    · exact fun n c hc => (hc.stems htraced hx).mono fun p hp => hp.1
    · exact distinguished ((hx.records htraced).eq_of_mem htraced.chronicle)
  · rw [hv.eq, Builtin.call_equal_iff, Closure.equal_iff]

/-- The host evaluates `(defn f () 1)` and `(def g f)`, and then the first form again, which makes
another closure than the one that `f` and `g` have named until then. -/
theorem closure_identity_redefined :
    let c : Closure := ⟨0, some "f", [], [.int 1], ⟨0⟩⟩
    let d : Closure := ⟨1, some "f", [], [.int 1], ⟨0⟩⟩
    let defn : Value := .list [.sym "defn", .sym "f", .list [], .int 1]
    let s : State := ⟨#[⟨[("f", c.value), ("g", c.value)], none⟩], 1, ""⟩
    let s' : State := ⟨#[⟨[("f", d.value), ("g", c.value)], none⟩], 2, ""⟩
    let σ : Session := ⟨s, [⟨0⟩], [⟨0⟩], [.nil, .nil]⟩
    σ.Reachable ∧ eval 1 defn ⟨0⟩ s = some (.ok .nil, s') ∧
      Builtin.equal.call [d.value, c.value] = .ok (.bool false) ∧
      eval 1 (.sym "g") ⟨0⟩ s = some (.ok c.value, s) ∧
      Builtin.equal.call [c.value, c.value] = .ok (.bool true) := by
  intro c d defn s s' σ
  have hone (τ : Session) : τ.Has (.int 1) := .atomic rfl
  have hdefn (τ : Session) : τ.Has defn := .list (by simp [Has.sym, Has.list, hone])
  have hdef (τ : Session) : τ.Has (.list [.sym "def", .sym "g", .sym "f"]) :=
    .list (by simp [Has.sym])
  have hmade (t : State) (vs : List Value) : HasEnv ⟨t, [⟨0⟩], [⟨0⟩], vs⟩ ⟨0⟩ :=
    .made List.mem_cons_self
  let t : State := ⟨#[⟨[("f", c.value)], none⟩], 1, ""⟩
  have hf : eval 1 (.sym "f") ⟨0⟩ t = some (.ok c.value, t) := rfl
  have hg : eval 2 (.list [.sym "def", .sym "g", .sym "f"]) ⟨0⟩ t = some (.ok .nil, s) := rfl
  have hvalue : eval 1 (.sym "g") ⟨0⟩ s = some (.ok c.value, s) := rfl
  have hnew : Steps empty ⟨⟨#[⟨[], none⟩], 0, ""⟩, [⟨0⟩], [⟨0⟩], []⟩ := .single .new
  have hfirst : Steps empty ⟨t, [⟨0⟩], [⟨0⟩], [.nil]⟩ :=
    hnew.tail (.eval 1 (hmade ..) (hdefn _) rfl)
  have hσ : σ.Reachable := hfirst.tail (.eval 2 (hmade ..) (hdef _) hg)
  obtain ⟨⟨M, hM⟩, hrequests, hcopies⟩ := closure_identity hσ
  obtain ⟨hnewer, -, -⟩ := (hrequests M hM).2 _ (.eval 1 (hmade s _) (hdefn σ))
  -- The evaluation of the form is the run itself.
  let p : Point := ⟨0, defn, ⟨0⟩, s⟩
  have hreach : Reaches (fun i => evalUntil i 1 defn ⟨0⟩) s p := reaches_evalUntil_iff.2 (.inl rfl)
  obtain ⟨houtcome, hdiffers⟩ := hnewer p d hreach ⟨.defineFn "f" _ rfl, rfl, rfl⟩
  have hframe : s.frame? ⟨0⟩ = some ⟨[("f", c.value), ("g", c.value)], none⟩ := rfl
  have hname : Frame.get? ⟨[("f", c.value), ("g", c.value)], none⟩ "g" = some c.value := rfl
  have hbound : Occurs σ (fun i => evalUntil i 1 defn ⟨0⟩) p.state.closures c :=
    .bound hreach hframe hname (.closure ..)
  have hcopy : Copy c.value c.value := .defined .self hf hg hvalue
  have hdiffer := hdiffers _ c hbound (Nat.le_refl _)
  exact ⟨hσ, houtcome, hdiffer.1, hvalue, hcopies c _ hcopy⟩

end Session

end SmallLisp
