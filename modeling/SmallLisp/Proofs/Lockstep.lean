import SmallLisp.Proofs.Frames
import SmallLisp.Proofs.Renaming

/-!
# Runs in lockstep

A `Lockstep` is a relation between the states of two runs, where the second one evaluates what
the first does but for a renaming, together with demands on the code and the closures of the
first. Its fields say that the primitive steps keep the relation and the demands: looking a name up,
entering a frame, binding a name, making a closure, printing. Then whole evaluations keep them
(`Lockstep.eval_agree`): both runs end, or neither does, with the same result but for the renaming.
-/

namespace SmallLisp

/-! ## Growth -/

/-- From `s` to `s'` frames have lost no name, new frames have an outer one, and closures were only
added. -/
structure State.Grows (s s' : State) : Prop where
  kept : ∀ env f, s.frame? env = some f →
    ∃ g, s'.frame? env = some g ∧ f.Extends (fun _ => True) g
  enclosed : ∀ env g, s.frame? env = none → s'.frame? env = some g → g.outer.isSome
  closures : s.closures ≤ s'.closures

namespace State.Grows

variable {s s' s'' : State}

theorem refl (s : State) : s.Grows s where
  kept _ f hf := ⟨f, hf, .refl f⟩
  enclosed _ _ h h' := by rw [h] at h'; cases h'
  closures := Nat.le_refl _

theorem trans (h : s.Grows s') (h' : s'.Grows s'') : s.Grows s'' where
  kept env f hf := by
    obtain ⟨g, hg, hfg⟩ := h.kept env f hf
    obtain ⟨k, hk, hgk⟩ := h'.kept env g hg
    exact ⟨k, hk, hfg.trans hgk⟩
  enclosed env k hs hk := by
    cases hg : s'.frame? env with
    | none => exact h'.enclosed env k hg hk
    | some g =>
      obtain ⟨k', hk', hgk⟩ := h'.kept env g hg
      obtain rfl : k' = k := Option.some.inj (hk'.symm.trans hk)
      rw [hgk.outer]
      exact h.enclosed env g hs hg
  closures := Nat.le_trans h.closures h'.closures

theorem push (s : State) {f : Frame} (hf : f.outer.isSome) : s.Grows (s.push f).2 where
  kept env g hg := ⟨g, Keeps.push s f env g hg, .refl g⟩
  enclosed env g hs hg := by
    rw [frame?_push] at hg
    split at hg
    · cases hg
      exact hf
    · rw [hs] at hg
      cases hg
  closures := Nat.le_refl _

theorem define (s : State) (env : Env) (name : String) (v : Value) :
    s.Grows (s.define env name v) where
  kept env' f hf := by
    rw [frame?_define]
    split
    · exact ⟨f.insert name v, by rw [hf]; rfl, .insert f v trivial⟩
    · exact ⟨f, hf, .refl f⟩
  enclosed env' g hs hg := by
    rw [frame?_define, hs] at hg
    split at hg <;> cases hg
  closures := Nat.le_refl _

theorem of_frames (hframes : s'.frames = s.frames) (hclosures : s.closures ≤ s'.closures) :
    s.Grows s' where
  kept env f hf := ⟨f, by rw [frame?, hframes]; exact hf, .refl f⟩
  enclosed env g hs hg := by
    rw [frame?, hframes] at hg
    rw [frame?, hg] at hs
    cases hs
  closures := hclosures

theorem print (s : State) (text : String) : s.Grows (s.print text) :=
  of_frames rfl (Nat.le_refl _)

theorem makeClosure (s : State) : s.Grows { s with closures := s.closures + 1 } :=
  of_frames rfl (Nat.le_succ _)

theorem size_le (h : s.Grows s') : s.frames.size ≤ s'.frames.size := by
  by_contra hlt
  have hlt : s'.frames.size < s.frames.size := by omega
  obtain ⟨g, hg, -⟩ := h.kept ⟨s'.frames.size⟩ s.frames[s'.frames.size] (by simp [frame?, hlt])
  rw [frame?_fresh] at hg
  cases hg

end State.Grows

namespace Frame

theorem mem_of_get? {f : Frame} {name : String} {v : Value} (h : f.get? name = some v) :
    (name, v) ∈ f.bindings := by
  obtain ⟨before, after, hsplit, -⟩ := List.lookup_eq_some_iff.1 h
  rw [hsplit]
  exact List.mem_append_right _ List.mem_cons_self

/-- Two frames of calls, of which the second one has the first one's arguments after `r`, are made
by the same bindings one after the other. -/
theorem ofCall_induction₂ {motive : Frame → Frame → Prop} {outer outer' : Env}
    {params : List String} {args : List Value} (r : Value → Value)
    (empty : motive ⟨[], some outer⟩ ⟨[], some outer'⟩)
    (insert : ∀ f g, ∀ name ∈ params, ∀ v ∈ args, motive f g →
      motive (f.insert name v) (g.insert name (r v))) :
    motive (ofCall outer params args) (ofCall outer' params (args.map r)) := by
  unfold ofCall
  generalize (⟨[], some outer⟩ : Frame) = f at empty ⊢
  generalize (⟨[], some outer'⟩ : Frame) = g at empty ⊢
  induction params generalizing args f g with
  | nil => exact empty
  | cons name params ih =>
    cases args with
    | nil => exact empty
    | cons v args =>
      refine ih (fun f g n hn w hw => insert f g n (List.mem_cons_of_mem _ hn) w
        (List.mem_cons_of_mem _ hw)) _ _ ?_
      exact insert f g name List.mem_cons_self v List.mem_cons_self empty

theorem ofCall_induction {motive : Frame → Prop} {outer : Env} {params : List String}
    {args : List Value} (empty : motive ⟨[], some outer⟩)
    (insert : ∀ f, ∀ name ∈ params, ∀ v ∈ args, motive f → motive (f.insert name v)) :
    motive (ofCall outer params args) :=
  @ofCall_induction₂ (fun f _ => motive f) outer outer params args id empty
    fun f _ name hn v hv => insert f name hn v hv

theorem outer_ofCall (outer : Env) (params : List String) (args : List Value) :
    (ofCall outer params args).outer = some outer :=
  ofCall_induction (motive := fun f => f.outer = some outer) rfl fun _ _ _ _ _ h => h

end Frame

theorem State.Grows.push_ofCall (s : State) (outer : Env) (params : List String)
    (args : List Value) : s.Grows (s.push (.ofCall outer params args)).2 :=
  .push s (by rw [Frame.outer_ofCall]; rfl)

/-! ## Code -/

/-- The names that the bindings of a `let` bind. -/
def boundNames : List Value → List String
  | .list (.sym name :: _) :: bindings => name :: boundNames bindings
  | _ => []

namespace Value

/-- To evaluate an expression may be to evaluate another one in the same environment. -/
inductive Operand : Value → Value → Prop where
  | call {head e : Value} {es : List Value} : formOf? head = none → e ∈ head :: es →
      Operand (.list (head :: es)) e
  | define (name : String) (e : Value) : Operand (.list [.sym "def", .sym name, e]) e
  | branch {e : Value} {es : List Value} : e ∈ es → Operand (.list (.sym "if" :: es)) e
  | bind {name : String} {e : Value} {bindings body : List Value} :
      .list [.sym name, e] ∈ bindings → Operand (.list (.sym "let" :: .list bindings :: body)) e
  | sequence {e : Value} {es : List Value} : e ∈ es → Operand (.list (.sym "do" :: es)) e
  | and {e : Value} {es : List Value} : e ∈ es → Operand (.list (.sym "and" :: es)) e
  | or {e : Value} {es : List Value} : e ∈ es → Operand (.list (.sym "or" :: es)) e

/-- To evaluate an expression is to make a closure with a name, parameters and a body. -/
inductive Makes : Value → Option String → List String → List Value → Prop where
  | lambda {list : List Value} {params : List String} (body : List Value) :
      symbols? list = some params → Makes (.list (.sym "fn" :: .list list :: body)) none params body
  | defineFn {list : List Value} {params : List String} (name : String) (body : List Value) :
      symbols? list = some params →
      Makes (.list (.sym "defn" :: .sym name :: .list list :: body)) (some name) params body

end Value

theorem Value.Operand.sound {p : Closure → Prop} {e e' : Value} (h : e.Operand e')
    (he : e.Sound p) : e'.Sound p := by
  cases h with
  | bind hmem =>
    have hbindings := sound_list.1 he _ (List.mem_cons_of_mem _ List.mem_cons_self)
    exact sound_list.1 (sound_list.1 hbindings _ hmem) e' (by simp)
  | _ => exact sound_list.1 he e' (by simp [*])

theorem Value.Makes.sound_body {p : Closure → Prop} {e : Value} {name : Option String}
    {params : List String} {body : List Value} (h : e.Makes name params body) (he : e.Sound p) :
    ∀ b ∈ body, b.Sound p := by
  intro b hb
  cases h with
  | lambda => exact sound_list.1 he b (by simp [hb])
  | defineFn => exact sound_list.1 he b (by simp [hb])

/-! ## Lockstep -/

/-- `states` relates the states of two runs, of which the second one is the first but for a
renaming. In a state of the first run `closure` is demanded of every closure that a value holds,
`code` of an expression before it is evaluated in an environment, and `body` of what is evaluated in
a new frame. -/
structure Lockstep (ρ : Renaming) where
  states : State → State → Prop
  closure : State → Closure → Prop
  code : State → Env → Value → Prop
  body : State → List String → List Value → Env → Prop
  closure_mono : ∀ {s s' : State} {c : Closure}, s.Grows s' → closure s c → closure s' c
  code_mono : ∀ {s s' : State} {env : Env} {e : Value}, s.Grows s' → code s env e → code s' env e
  body_mono : ∀ {s s' : State} {params : List String} {es : List Value} {outer : Env},
    s.Grows s' → body s params es outer → body s' params es outer
  sound_of_code : ∀ {s : State} {env : Env} {e : Value}, code s env e → e.Sound (closure s)
  code_operand : ∀ {s : State} {env : Env} {e e' : Value}, code s env e → e.Operand e' →
    code s env e'
  body_of_bind : ∀ {s : State} {env : Env} {bindings es : List Value},
    code s env (.list (.sym "let" :: .list bindings :: es)) → body s (boundNames bindings) es env
  body_of_closure : ∀ {s : State} {c : Closure}, closure s c →
    (∀ e ∈ c.body, e.Sound (closure s)) → body s c.params c.body c.env
  lookup : ∀ {s t : State} {env : Env} {name : String}, states s t → code s env (.sym name) →
    t.resolve (ρ.env env) name = (s.resolve env name).map (Value.rename ρ) ∧
    ∀ v, s.resolve env name = some v → v.Sound (closure s)
  enter : ∀ {s t : State} {params : List String} {es args : List Value} {outer : Env},
    states s t → body s params es outer → (∀ a ∈ args, a.Sound (closure s)) →
    params.length = args.length →
    let p := s.push (Frame.ofCall outer params args)
    let q := t.push (Frame.ofCall (ρ.env outer) params (args.map (Value.rename ρ)))
    ρ.env p.1 = q.1 ∧ states p.2 q.2 ∧ ∀ e ∈ es, code p.2 p.1 e
  define : ∀ {s t : State} {env : Env} {e v : Value} {name : String}, states s t → code s env e →
    e.Defines name → v.Sound (closure s) →
    states (s.define env name v) (t.define (ρ.env env) name (v.rename ρ))
  make : ∀ {s t : State} {env : Env} {e : Value} {name : Option String} {params : List String}
    {es : List Value}, states s t → code s env e → e.Makes name params es →
    ρ.identity s.closures = t.closures ∧
    states { s with closures := s.closures + 1 } { t with closures := t.closures + 1 } ∧
    closure { s with closures := s.closures + 1 } ⟨s.closures, name, params, es, env⟩
  print : ∀ {s t : State} (text : String), states s t → states (s.print text) (t.print text)

namespace Lockstep

variable {ρ : Renaming} (L : Lockstep ρ) {α β α' β' : Type}

/-- From `s` and `t` both runs end, or neither does. Their values are related by `q`, and their
errors are the same but for the renaming. -/
inductive Agree (q : State → α → β → Prop) (x : Eval α) (y : Eval β) (s t : State) : Prop where
  | endless : x s = none → y t = none → Agree q x y s t
  | value {a : α} {b : β} {s' t' : State} : x s = some (.ok a, s') → y t = some (.ok b, t') →
      s.Grows s' → L.states s' t' → q s' a b → Agree q x y s t
  | error {e : EvalError} {s' t' : State} : x s = some (.error e, s') →
      y t = some (.error (e.rename ρ), t') → s.Grows s' → L.states s' t' →
      e.Sound (L.closure s') → Agree q x y s t

/-- The second value is the first one renamed, which holds only such closures as are demanded. -/
def Same (s : State) (v w : Value) : Prop := w = v.rename ρ ∧ v.Sound (L.closure s)

def SameAll (s : State) (vs ws : List Value) : Prop :=
  ws = vs.map (Value.rename ρ) ∧ ∀ v ∈ vs, v.Sound (L.closure s)

theorem sound_mono {s s' : State} (h : s.Grows s') {v : Value} (hv : v.Sound (L.closure s)) :
    v.Sound (L.closure s') :=
  hv.mono fun _ => L.closure_mono h

namespace Agree

variable {L} {s t : State} {q : State → α → β → Prop} {r : State → α' → β' → Prop}

theorem pure {a : α} {b : β} (h : L.states s t) (hq : q s a b) :
    L.Agree q (Pure.pure a) (Pure.pure b) s t :=
  .value rfl rfl (.refl s) h hq

theorem fail {e : EvalError} (h : L.states s t) (he : e.Sound (L.closure s)) :
    L.Agree q (Run.fail e) (Run.fail (e.rename ρ)) s t :=
  .error rfl rfl (.refl s) h he

theorem read {f : State → α} {g : State → β} (h : L.states s t) (hq : q s (f s) (g t)) :
    L.Agree q (Run.read f) (Run.read g) s t :=
  .value rfl rfl (.refl s) h hq

theorem modify {f g : State → State} (h : L.states (f s) (g t)) (hs : s.Grows (f s)) :
    L.Agree (fun _ _ _ => True) (Run.modify f) (Run.modify g) s t :=
  .value rfl rfl hs h trivial

theorem update {f : State → α × State} {g : State → β × State}
    (h : L.states (f s).2 (g t).2) (hs : s.Grows (f s).2) (hq : q (f s).2 (f s).1 (g t).1) :
    L.Agree q (Run.update f) (Run.update g) s t :=
  .value rfl rfl hs h hq

theorem ofExcept {x y : Except EvalError Value} (h : L.states s t)
    (halike : Alike ρ (fun v w => w = v.rename ρ) x y)
    (hyields : Yields (L.closure s) (Value.Sound (L.closure s)) x) :
    L.Agree L.Same (Run.ofExcept x) (Run.ofExcept y) s t := by
  cases x with
  | ok v =>
    cases y with
    | ok w => exact .pure h ⟨halike, hyields⟩
    | error e => exact halike.elim
  | error e =>
    cases y with
    | ok w => exact halike.elim
    | error e' =>
      obtain rfl : e' = e.rename ρ := halike
      exact .fail h hyields

theorem bind {x : Eval α} {y : Eval β} {f : α → Eval α'} {g : β → Eval β'}
    (h : L.Agree q x y s t) (hf : ∀ {s' t' a b}, s.Grows s' → L.states s' t' → q s' a b →
      L.Agree r (f a) (g b) s' t') : L.Agree r (x >>= f) (y >>= g) s t := by
  cases h with
  | endless hx hy =>
    exact .endless (Run.bind_of_none hx) (Run.bind_of_none hy)
  | error hx hy hs hst he =>
    exact .error (Run.bind_of_error hx) (Run.bind_of_error hy) hs hst he
  | @value a b s' t' hx hy hs hst hq =>
    have hxf : (x >>= f) s = f a s' := Run.bind_of_ok hx
    have hyg : (y >>= g) t = g b t' := Run.bind_of_ok hy
    cases hf hs hst hq with
    | endless hx' hy' => exact .endless (hxf.trans hx') (hyg.trans hy')
    | value hx' hy' hs' hst' hr =>
      exact .value (hxf.trans hx') (hyg.trans hy') (hs.trans hs') hst' hr
    | error hx' hy' hs' hst' he =>
      exact .error (hxf.trans hx') (hyg.trans hy') (hs.trans hs') hst' he

/-- Where the first run ends, so does the second. -/
theorem exists_second {x y : Eval Value} {s' : State} {result : Except EvalError Value}
    (h : L.Agree L.Same x y s t) (hx : x s = some (result, s')) :
    ∃ result' t', y t = some (result', t') ∧ s.Grows s' ∧ L.states s' t' ∧
      Alike ρ (fun v w => w = v.rename ρ) result result' ∧
      Yields (L.closure s') (Value.Sound (L.closure s')) result := by
  cases h with
  | endless hx' hy => rw [hx'] at hx; cases hx
  | value hx' hy hs hst hq =>
    rw [hx'] at hx
    cases hx
    exact ⟨_, _, hy, hs, hst, hq⟩
  | error hx' hy hs hst he =>
    rw [hx'] at hx
    cases hx
    exact ⟨_, _, hy, hs, hst, rfl, he⟩

end Agree

/-- Evaluation by `ev` agrees wherever its code meets the demands. -/
def EvalAgrees (ev : Value → Env → Eval Value) : Prop :=
  ∀ {s t env e}, L.states s t → L.code s env e →
    L.Agree L.Same (ev e env) (ev (e.rename ρ) (ρ.env env)) s t

section Rules

variable {L} {ev : Value → Env → Eval Value} (h : L.EvalAgrees ev) {s t : State} {env : Env}
  (hst : L.states s t)
include h hst

theorem evalAll_agree {es : List Value} (hes : ∀ e ∈ es, L.code s env e) :
    L.Agree L.SameAll (evalAll ev env es)
      (evalAll ev (ρ.env env) (es.map (Value.rename ρ))) s t := by
  induction es generalizing s t with
  | nil => exact .pure hst ⟨rfl, List.forall_mem_nil _⟩
  | cons e es ih =>
    obtain ⟨he, hes⟩ := List.forall_mem_cons.1 hes
    refine (h hst he).bind fun hs hst' hv => ?_
    refine (ih hst' fun e he => L.code_mono hs (hes e he)).bind fun hs' hst'' hvs => ?_
    obtain ⟨rfl, hv⟩ := hv
    obtain ⟨rfl, hvs⟩ := hvs
    exact .pure hst'' ⟨rfl, List.forall_mem_cons.2 ⟨L.sound_mono hs' hv, hvs⟩⟩

theorem evalBody_agree {es : List Value} (hes : ∀ e ∈ es, L.code s env e) :
    L.Agree L.Same (evalBody ev env es)
      (evalBody ev (ρ.env env) (es.map (Value.rename ρ))) s t := by
  fun_induction evalBody ev env es generalizing s t with
  | case1 => exact .pure hst ⟨rfl, .of_atomic rfl⟩
  | case2 e => exact h hst (hes e (List.mem_singleton_self e))
  | case3 e e' es ih =>
    obtain ⟨he, hes⟩ := List.forall_mem_cons.1 hes
    exact (h hst he).bind fun hs hst' _ => ih hst' fun e he => L.code_mono hs (hes e he)

theorem evalAnd_agree {es : List Value} (hes : ∀ e ∈ es, L.code s env e) {last : Value}
    (hlast : last.Sound (L.closure s)) :
    L.Agree L.Same (evalAnd ev env last es)
      (evalAnd ev (ρ.env env) (last.rename ρ) (es.map (Value.rename ρ))) s t := by
  induction es generalizing s t last with
  | nil => exact .pure hst ⟨rfl, hlast⟩
  | cons e es ih =>
    obtain ⟨he, hes⟩ := List.forall_mem_cons.1 hes
    refine (h hst he).bind fun hs hst' hv => ?_
    obtain ⟨rfl, hv⟩ := hv
    rw [Value.truthy_rename]
    split
    · exact ih hst' (fun e he => L.code_mono hs (hes e he)) hv
    · exact .pure hst' ⟨rfl, hv⟩

theorem evalOr_agree {es : List Value} (hes : ∀ e ∈ es, L.code s env e) {last : Value}
    (hlast : last.Sound (L.closure s)) :
    L.Agree L.Same (evalOr ev env last es)
      (evalOr ev (ρ.env env) (last.rename ρ) (es.map (Value.rename ρ))) s t := by
  induction es generalizing s t last with
  | nil => exact .pure hst ⟨rfl, hlast⟩
  | cons e es ih =>
    obtain ⟨he, hes⟩ := List.forall_mem_cons.1 hes
    refine (h hst he).bind fun hs hst' hv => ?_
    obtain ⟨rfl, hv⟩ := hv
    rw [Value.truthy_rename]
    split
    · exact .pure hst' ⟨rfl, hv⟩
    · exact ih hst' (fun e he => L.code_mono hs (hes e he)) hv

theorem evalBindings_agree {bindings : List Value}
    (hb : ∀ name e, .list [.sym name, e] ∈ bindings → L.code s env e) :
    L.Agree (fun s p p' => p.1 = boundNames bindings ∧ p'.1 = p.1 ∧ L.SameAll s p.2 p'.2)
      (evalBindings ev env bindings)
      (evalBindings ev (ρ.env env) (bindings.map (Value.rename ρ))) s t := by
  fun_induction evalBindings ev env bindings generalizing s t with
  | case1 => exact .pure hst ⟨rfl, rfl, rfl, List.forall_mem_nil _⟩
  | case2 name e bindings ih =>
    rw [List.map_cons, Value.rename_list]
    refine (h hst (hb name e List.mem_cons_self)).bind fun hs hst' hv => ?_
    refine (ih hst' fun name e he => L.code_mono hs (hb name e (List.mem_cons_of_mem _ he))).bind
      fun hs' hst'' hp => ?_
    obtain ⟨rfl, hv⟩ := hv
    obtain ⟨hnames, hnames', hvs, hsound⟩ := hp
    exact .pure hst'' ⟨congrArg (name :: ·) hnames, congrArg (name :: ·) hnames',
      congrArg (_ :: ·) hvs, List.forall_mem_cons.2 ⟨L.sound_mono hs' hv, hsound⟩⟩
  | case3 v bindings hv =>
    rw [List.map_cons, evalBindings]
    · exact .fail hst (.of_none rfl)
    · intro name e hrename
      obtain ⟨e', rfl⟩ := Value.rename_eq_pair ρ hrename
      exact hv name e' rfl

theorem applyClosure_agree (name : Option String) {params : List String} {body : List Value}
    {outer : Env} {args : List Value} (hbody : L.body s params body outer)
    (hargs : ∀ a ∈ args, a.Sound (L.closure s)) :
    L.Agree L.Same (applyClosure ev name params body outer args)
      (applyClosure ev name params (body.map (Value.rename ρ)) (ρ.env outer)
        (args.map (Value.rename ρ))) s t := by
  unfold applyClosure
  rw [List.length_map]
  split
  · next hlength =>
    obtain ⟨henv, hstates, hcode⟩ := L.enter hst hbody hargs hlength
    have hgrows := State.Grows.push_ofCall s outer params args
    refine Agree.bind (q := fun s' env env' => env' = ρ.env env ∧ ∀ e ∈ body, L.code s' env e)
      (.update hstates hgrows ⟨henv.symm, hcode⟩) fun hs hst' henv => ?_
    obtain ⟨rfl, hcode⟩ := henv
    exact evalBody_agree h hst' hcode
  · exact .fail hst (.of_none rfl)

omit h in
theorem applyBuiltin_agree (b : Builtin) {args : List Value}
    (hargs : ∀ a ∈ args, a.Sound (L.closure s)) :
    L.Agree L.Same (applyBuiltin b args) (applyBuiltin b (args.map (Value.rename ρ))) s t := by
  refine (Agree.ofExcept hst (Builtin.alike_call ρ b args) (Builtin.sound_call b hargs)).bind
    fun hs hst' hv => ?_
  rw [Builtin.printed_rename]
  refine (Agree.modify (L.print _ hst') (.print _ _)).bind fun hs' hst'' _ => ?_
  exact .pure hst'' ⟨hv.1, L.sound_mono hs' hv.2⟩

theorem apply_agree {f : Value} (hf : f.Sound (L.closure s)) {args : List Value}
    (hargs : ∀ a ∈ args, a.Sound (L.closure s)) :
    L.Agree L.Same (apply ev f args) (apply ev (f.rename ρ) (args.map (Value.rename ρ))) s t := by
  cases f with
  | builtin b => exact applyBuiltin_agree hst b hargs
  | closure identity name params body outer =>
    rw [Value.rename_closure]
    exact applyClosure_agree h hst name (L.body_of_closure (hf _ (.closure ..)) hf.body) hargs
  | _ => exact .fail hst (EvalError.sound_notCallable hf)

/-! ### Forms and expressions -/

omit h in
theorem makeClosure_agree {e : Value} (he : L.code s env e) (form : Form) (name : Option String)
    {definition : List Value} (hmakes : ∀ list params body, definition = .list list :: body →
      Value.symbols? list = some params → e.Makes name params body) :
    L.Agree L.Same (makeClosure form name env definition)
      (makeClosure form name (ρ.env env) (definition.map (Value.rename ρ))) s t := by
  have hfail : L.Agree L.Same (malformed form .notParameterList : Eval Value)
      (malformed form .notParameterList) s t := .fail hst (.of_none rfl)
  rcases definition with _ | ⟨v, body⟩
  · exact hfail
  cases v with
  | list list =>
    rw [List.map_cons, Value.rename_list, makeClosure, makeClosure, Value.symbols?_rename]
    cases hparams : Value.symbols? list with
    | none => exact hfail
    | some params =>
      have hmake := hmakes list params body rfl hparams
      obtain ⟨hidentity, hstates, hclosure⟩ := L.make hst he hmake
      have hsound := hmake.sound_body (L.sound_of_code he)
      refine Agree.bind (q := fun s' i j => j = ρ.identity i ∧
        L.closure s' ⟨i, name, params, body, env⟩ ∧ ∀ e ∈ body, e.Sound (L.closure s'))
        (.update hstates (.makeClosure s) ⟨hidentity.symm, hclosure, fun e he =>
          L.sound_mono (.makeClosure s) (hsound e he)⟩) fun hs hst' hi => ?_
      obtain ⟨rfl, hclosure, hsound⟩ := hi
      exact .pure hst' ⟨(Value.rename_closure ..).symm, .of_closure hclosure hsound⟩
  | _ => exact hfail

theorem evalForm_agree (form : Form) {es : List Value}
    (hcode : L.code s env (.list (.sym form.name :: es))) :
    L.Agree L.Same (evalForm ev env form es)
      (evalForm ev (ρ.env env) form (es.map (Value.rename ρ))) s t := by
  have hfail (cause : Malformation) : L.Agree L.Same (malformed form cause : Eval Value)
      (malformed form cause) s t := .fail hst (.of_none rfl)
  have hnil {s t : State} (hst : L.states s t) :
      L.Agree L.Same (pure .nil : Eval Value) (pure .nil) s t := .pure hst ⟨rfl, .of_atomic rfl⟩
  cases form with
  | quote =>
    rcases es with _ | ⟨v, _ | ⟨w, es⟩⟩
    · exact hfail .notOneOperand
    · have hv := Value.sound_list.1 (L.sound_of_code hcode) v (by simp)
      exact .pure hst ⟨rfl, hv⟩
    · exact hfail .notOneOperand
  | define =>
    rcases es with _ | ⟨v, _ | ⟨e, _ | ⟨w, es⟩⟩⟩
    · exact hfail .notSymbolAndExpression
    · cases v <;> exact hfail .notSymbolAndExpression
    · cases v with
      | sym name =>
        refine (h hst (L.code_operand hcode (.define name e))).bind fun hs hst' hv => ?_
        obtain ⟨rfl, hv⟩ := hv
        refine (Agree.modify (L.define hst' (L.code_mono hs hcode) (.define [e]) hv)
          (.define _ _ _ _)).bind fun hs' hst'' _ => hnil hst''
      | _ => exact hfail .notSymbol
    · cases v <;> exact hfail .notSymbolAndExpression
  | defineFn =>
    rcases es with _ | ⟨v, definition⟩
    · exact hfail .noName
    cases v with
    | sym name =>
      refine (makeClosure_agree hst hcode .defineFn (some name) ?_).bind fun hs hst' hv => ?_
      · rintro list params body rfl hparams
        exact .defineFn name body hparams
      · obtain ⟨rfl, hv⟩ := hv
        refine (Agree.modify (L.define hst' (L.code_mono hs hcode) (.defineFn definition) hv)
          (.define _ _ _ _)).bind fun hs' hst'' _ => hnil hst''
    | _ => exact hfail .notSymbol
  | lambda =>
    refine makeClosure_agree hst hcode .lambda none ?_
    rintro list params body rfl hparams
    exact .lambda body hparams
  | branch =>
    have he {e : Value} (hmem : e ∈ es) : L.code s env e := L.code_operand hcode (.branch hmem)
    rcases es with _ | ⟨test, _ | ⟨e, _ | ⟨e', _ | ⟨w, es⟩⟩⟩⟩
    · exact hfail .notTestAndBranches
    · exact hfail .notTestAndBranches
    · refine (h hst (he (by simp))).bind fun hs hst' hv => ?_
      obtain ⟨rfl, -⟩ := hv
      rw [Value.truthy_rename]
      split
      · exact h hst' (L.code_mono hs (he (by simp)))
      · exact hnil hst'
    · refine (h hst (he (by simp))).bind fun hs hst' hv => ?_
      obtain ⟨rfl, -⟩ := hv
      rw [Value.truthy_rename]
      split
      · exact h hst' (L.code_mono hs (he (by simp)))
      · exact h hst' (L.code_mono hs (he (by simp)))
    · exact hfail .notTestAndBranches
  | bind =>
    rcases es with _ | ⟨v, body⟩
    · exact hfail .notBindingList
    cases v with
    | list bindings =>
      rw [List.map_cons, Value.rename_list]
      refine (evalBindings_agree h hst fun name e hmem =>
        L.code_operand hcode (.bind hmem)).bind fun {s' t' p p'} hs hst' hp => ?_
      obtain ⟨names, vs⟩ := p
      obtain ⟨names', ws⟩ := p'
      obtain ⟨hnames, hnames', hvs, hsound⟩ := hp
      dsimp only at hnames hnames' hvs hsound
      subst hnames hnames' hvs
      exact applyClosure_agree h hst' none (L.body_mono hs (L.body_of_bind hcode)) hsound
    | _ => exact hfail .notBindingList
  | sequence => exact evalBody_agree h hst fun e he => L.code_operand hcode (.sequence he)
  | and =>
    exact evalAnd_agree h hst (fun e he => L.code_operand hcode (.and he)) (.of_atomic rfl)
  | or =>
    exact evalOr_agree h hst (fun e he => L.code_operand hcode (.or he)) (.of_atomic rfl)

omit hst in
theorem evalStep_agrees : L.EvalAgrees (evalStep ev) := by
  intro s t env e hst hcode
  cases e with
  | sym name =>
    refine Agree.bind (q := fun s' v w => w = v.map (Value.rename ρ) ∧
      ∀ u, v = some u → u.Sound (L.closure s')) (.read hst (L.lookup hst hcode))
      fun {s' t' v w} _ hst' hv => ?_
    obtain ⟨rfl, hv⟩ := hv
    cases v with
    | none => exact .fail hst' (.of_none rfl)
    | some v => exact .pure hst' ⟨rfl, hv v rfl⟩
  | list es =>
    rcases es with _ | ⟨head, operands⟩
    · exact .pure hst ⟨rfl, Value.sound_list.2 (List.forall_mem_nil _)⟩
    have hform : formOf? (head.rename ρ) = formOf? head := by
      rw [formOf?, Value.symbol?_rename, formOf?]
    rw [Value.rename_list, List.map_cons, evalStep, evalStep, hform]
    cases hhead : formOf? head with
    | some form =>
      obtain ⟨name, hname, hform⟩ := Option.bind_eq_some_iff.1 hhead
      obtain rfl := Form.ofName?_eq_some_iff.1 hform
      cases head <;> cases hname
      exact evalForm_agree h hst form hcode
    | none =>
      have he {e : Value} (hmem : e ∈ head :: operands) := L.code_operand hcode (.call hhead hmem)
      refine (h hst (he List.mem_cons_self)).bind fun hs hst' hf => ?_
      obtain ⟨rfl, hf⟩ := hf
      rw [Value.callable_rename]
      split
      · refine (evalAll_agree h hst' fun e hmem =>
          L.code_mono hs (he (List.mem_cons_of_mem _ hmem))).bind fun hs' hst'' hargs => ?_
        obtain ⟨rfl, hargs⟩ := hargs
        exact apply_agree h hst'' (L.sound_mono hs' hf) hargs
      · exact .fail hst' (EvalError.sound_notCallable hf)
  | closure => exact .pure hst ⟨rfl, L.sound_of_code hcode⟩
  | _ => exact .pure hst ⟨rfl, .of_atomic rfl⟩

end Rules

theorem eval_agrees (depth : Nat) : L.EvalAgrees (eval depth) := by
  induction depth with
  | zero => exact fun _ _ => .endless rfl rfl
  | succ depth ih => exact evalStep_agrees ih

end Lockstep

end SmallLisp
