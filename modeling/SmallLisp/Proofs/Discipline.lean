import SmallLisp.Proofs.Session

/-!
# Disciplines

A `Discipline` demands something of the code that is evaluated and of the closures that can be
reached, such that whatever evaluation does leaves it in force. Its fields are about single steps:
going on to an operand, entering a frame, making a closure. Then it stays in force over whole runs,
which end, and find the names that they look up, as far as the discipline says so
(`Discipline.eval_keeps`).
-/

namespace SmallLisp

/-! ## Reach -/

/-- From the environment and the values one can get to this environment or closure: along outer
links, to captured environments, and to what frames and values hold. -/
inductive State.Leads (s : State) (vs : List Value) (env : Env) : Env ⊕ Closure → Prop where
  | start : Leads s vs env (.inl env)
  | held {v : Value} {c : Closure} : v ∈ vs → v.Holds c → Leads s vs env (.inr c)
  | outer {inner outer : Env} {f : Frame} : Leads s vs env (.inl inner) →
      s.frame? inner = some f → f.outer = some outer → Leads s vs env (.inl outer)
  | captured {c : Closure} : Leads s vs env (.inr c) → Leads s vs env (.inl c.env)
  | bound {inner : Env} {f : Frame} {name : String} {v : Value} {c : Closure} :
      Leads s vs env (.inl inner) → s.frame? inner = some f → f.get? name = some v → v.Holds c →
      Leads s vs env (.inr c)

/-- The values matter only by the closures that they hold. -/
theorem State.Leads.of_held {s : State} {vs ws : List Value} {env : Env} {x : Env ⊕ Closure}
    (h : s.Leads vs env x) (hvs : ∀ v ∈ vs, v.Sound fun c => s.Leads ws env (.inr c)) :
    s.Leads ws env x := by
  induction h with
  | start => exact .start
  | held hv hc => exact hvs _ hv _ hc
  | outer _ hf ho ih => exact .outer ih hf ho
  | captured _ ih => exact .captured ih
  | bound _ hf hv hc ih => exact .bound ih hf hv hc

/-- The frame leads to environments in `P` and closures that satisfy `p`. -/
structure Frame.Within (P : Env → Prop) (p : Closure → Prop) (f : Frame) : Prop where
  outer : ∀ outer, f.outer = some outer → P outer
  get? : ∀ name v, f.get? name = some v → v.Sound p

/-- The frames of the environments in `P` lead to no others. -/
def State.Within (P : Env → Prop) (p : Closure → Prop) (s : State) : Prop :=
  ∀ env f, s.frame? env = some f → P env → f.Within P p

section Within

variable {P : Env → Prop} {p p' : Closure → Prop}

namespace Frame

theorem Within.mono {f : Frame} (h : f.Within P p) (hp : ∀ c, p c → p' c) : f.Within P p' :=
  ⟨h.outer, fun name v hv => (h.get? name v hv).mono hp⟩

theorem Within.insert {f : Frame} (h : f.Within P p) (name : String) {v : Value} (hv : v.Sound p) :
    (f.insert name v).Within P p where
  outer := h.outer
  get? other w hw := by
    rw [get?_insert] at hw
    split at hw
    · cases hw
      exact hv
    · exact h.get? other w hw

theorem within_ofCall {outer : Env} (houter : P outer) (params : List String) {args : List Value}
    (hargs : ∀ a ∈ args, a.Sound p) : (ofCall outer params args).Within P p := by
  refine ofCall_induction ⟨fun o ho => ?_, fun _ _ h => by cases h⟩
    fun f name _ v hv hf => hf.insert name (hargs v hv)
  cases ho
  exact houter

end Frame

namespace State

variable {s : State} (h : s.Within P p)
include h

theorem Within.mono (hp : ∀ c, p c → p' c) : s.Within P p' :=
  fun env f hf henv => (h env f hf henv).mono hp

theorem Within.push {f : Frame} (hf : f.Within P p) : (s.push f).2.Within P p :=
  fun _ _ hg henv => forall_push (p := fun e g => P e → g.Within P p) h (fun _ => hf) hg henv

theorem Within.define (env : Env) (name : String) {v : Value} (hv : v.Sound p) :
    (s.define env name v).Within P p :=
  fun _ _ hg henv => forall_define (p := fun e g => P e → g.Within P p) h
    (fun _ hf henv => (h _ _ hf henv).insert name hv) hg henv

theorem Within.mem_chainOf {env : Env} (henv : P env) (n : Nat) : ∀ e ∈ s.chainOf n env, P e := by
  induction n generalizing env with
  | zero => exact List.forall_mem_nil _
  | succ n ih =>
    rw [chainOf]
    split
    · exact List.forall_mem_nil _
    · exact List.forall_mem_singleton.2 henv
    · next bindings outer hf =>
      exact List.forall_mem_cons.2 ⟨henv, ih ((h env _ hf henv).outer outer rfl)⟩

theorem Within.sound_resolve {env : Env} (henv : P env) {name : String} {v : Value}
    (hv : s.resolve env name = some v) : v.Sound p := by
  obtain ⟨e, hmem, he⟩ := List.exists_of_findSome?_eq_some hv
  obtain ⟨f, hf, hv⟩ := Option.bind_eq_some_iff.1 he
  exact (h e f hf (h.mem_chainOf henv _ e hmem)).get? name v hv

/-- Nothing else can be reached. -/
theorem Within.of_leads (hp : ∀ c, p c → P c.env) {vs : List Value} (hvs : ∀ v ∈ vs, v.Sound p)
    {env : Env} (henv : P env) {x : Env ⊕ Closure} (hx : s.Leads vs env x) : Sum.elim P p x := by
  induction hx with
  | start => exact henv
  | held hv hc => exact hvs _ hv _ hc
  | outer _ hf ho ih => exact (h _ _ hf ih).outer _ ho
  | captured _ ih => exact hp _ ih
  | bound _ hf hv hc ih => exact (h _ _ hf ih).get? _ _ hv _ hc

end State

end Within

/-! ## Disciplines -/

/-- In a state, `closure` is demanded of a closure, `code` of an expression that is evaluated in an
environment down to a depth, and `body` of what is evaluated in the frame of a call, with its
parameters and outer environment. Looking a name up may fail only if `unbound`, and a run may have
no end only if `endless`. -/
structure Discipline where
  closure : State → Closure → Prop
  code : Nat → State → Env → Value → Prop
  body : Nat → State → List String → List Value → Env → Prop
  unbound : Prop
  endless : Prop
  closure_mono : ∀ {s s' : State} {c : Closure}, s.Grows s' → closure s c → closure s' c
  code_mono : ∀ {n : Nat} {s s' : State} {env : Env} {e : Value}, s.Grows s' → code n s env e →
    code n s' env e
  body_mono : ∀ {n : Nat} {s s' : State} {params : List String} {es : List Value} {outer : Env},
    s.Grows s' → body n s params es outer → body n s' params es outer
  code_zero : ∀ {s : State} {env : Env} {e : Value}, code 0 s env e → endless
  code_operand : ∀ {n : Nat} {s : State} {env : Env} {e e' : Value}, code (n + 1) s env e →
    e.Operand e' → code n s env e'
  body_of_bind : ∀ {n : Nat} {s : State} {env : Env} {bindings es : List Value},
    code (n + 1) s env (.list (.sym "let" :: .list bindings :: es)) →
    (∀ b ∈ bindings, ∃ name e, b = .list [.sym name, e]) → body n s (boundNames bindings) es env
  body_of_closure : ∀ {n : Nat} {s : State} {c : Closure}, closure s c →
    body n s c.params c.body c.env
  lookup : ∀ {n : Nat} {s : State} {env : Env} {name : String}, code n s env (.sym name) →
    s.resolve env name = none → unbound
  enter : ∀ {n : Nat} {s : State} {params : List String} {es args : List Value} {outer : Env},
    body n s params es outer → params.length = args.length →
    let p := s.push (Frame.ofCall outer params args)
    ∀ e ∈ es, code n p.2 p.1 e
  make : ∀ {n : Nat} {s : State} {env : Env} {e : Value} {name : Option String}
    {params : List String} {es : List Value}, code n s env e → e.Makes name params es →
    closure s ⟨s.closures, name, params, es, env⟩

namespace Discipline

variable (D : Discipline) (P : Env → Prop) {α β : Type}

/-- The closure was made in an environment in `P`, and meets the demand. -/
def Admits (s : State) (c : Closure) : Prop := P c.env ∧ D.closure s c

/-- Only admitted closures can be reached from environments in `P`, which those of new frames will
be. -/
structure Governs (s : State) : Prop where
  within : s.Within P (D.Admits P s)
  fresh : ∀ env, s.frames.size ≤ env.index → P env

/-- The expression meets the demand, and the closures that it holds are admitted. -/
structure Code (n : Nat) (s : State) (env : Env) (e : Value) : Prop where
  region : P env
  code : D.code n s env e
  sound : e.Sound (D.Admits P s)

/-- The error holds admitted closures, and it is not a name that was not found unless that is
allowed. -/
structure Permits (s : State) (e : EvalError) : Prop where
  sound : e.Sound (D.Admits P s)
  unbound : ∀ name, e = .unboundSymbol name → D.unbound

/-- The run from `s` ends in a state that is governed, with a value that satisfies `q` or with an
error that is permitted. If this is allowed, it may have no end. -/
inductive Obeys (q : State → α → Prop) (x : Eval α) (s : State) : Prop where
  | endless : D.endless → x s = none → Obeys q x s
  | value {a : α} {s' : State} : x s = some (.ok a, s') → s.Grows s' → D.Governs P s' → q s' a →
      Obeys q x s
  | error {e : EvalError} {s' : State} : x s = some (.error e, s') → s.Grows s' →
      D.Governs P s' → D.Permits P s' e → Obeys q x s

def Held (s : State) (v : Value) : Prop := v.Sound (D.Admits P s)

def HeldAll (s : State) (vs : List Value) : Prop := ∀ v ∈ vs, D.Held P s v

variable {D P} {s s' : State} {n : Nat} {env : Env}

theorem Admits.mono {c : Closure} (h : D.Admits P s c) (hs : s.Grows s') : D.Admits P s' c :=
  ⟨h.1, D.closure_mono hs h.2⟩

theorem Held.mono {v : Value} (h : D.Held P s v) (hs : s.Grows s') : D.Held P s' v :=
  Value.Sound.mono h fun _ hc => hc.mono hs

theorem Code.mono {e : Value} (h : D.Code P n s env e) (hs : s.Grows s') : D.Code P n s' env e :=
  ⟨h.region, D.code_mono hs h.code, Held.mono h.sound hs⟩

theorem Code.operand {e e' : Value} (h : D.Code P (n + 1) s env e) (he : e.Operand e') :
    D.Code P n s env e' :=
  ⟨h.region, D.code_operand h.code he, he.sound h.sound⟩

theorem HeldAll.mono {vs : List Value} (h : D.HeldAll P s vs) (hs : s.Grows s') :
    D.HeldAll P s' vs :=
  fun v hv => Held.mono (h v hv) hs

/-- What a frame holds remains admitted in a later state. -/
theorem Governs.of_within (h : D.Governs P s) (hs : s.Grows s')
    (hwithin : s'.Within P (D.Admits P s)) : D.Governs P s' where
  within := hwithin.mono fun _ hc => hc.mono hs
  fresh env henv := h.fresh env (Nat.le_trans hs.size_le henv)

theorem Governs.define (h : D.Governs P s) (env : Env) (name : String) {v : Value}
    (hv : D.Held P s v) : D.Governs P (s.define env name v) :=
  h.of_within (.define s env name v) (h.within.define env name hv)

theorem Governs.makeClosure (h : D.Governs P s) :
    D.Governs P { s with closures := s.closures + 1 } :=
  h.of_within (.makeClosure s) h.within

theorem Governs.print (h : D.Governs P s) (text : String) : D.Governs P (s.print text) :=
  h.of_within (.print s text) h.within

theorem Governs.enter (h : D.Governs P s) {params : List String} {args : List Value} {outer : Env}
    (houter : P outer) (hargs : D.HeldAll P s args) :
    D.Governs P (s.push (.ofCall outer params args)).2 :=
  h.of_within (.push_ofCall s outer params args)
    (h.within.push (Frame.within_ofCall houter params hargs))

namespace Permits

theorem malformed (form : Form) (cause : Malformation) : D.Permits P s (.malformed form cause) :=
  ⟨.of_none rfl, fun _ h => by cases h⟩

theorem notCallable {v : Value} (h : D.Held P s v) : D.Permits P s (.notCallable v) :=
  ⟨EvalError.sound_notCallable h, fun _ h => by cases h⟩

theorem of_call {e : EvalError} (h : e.OfCall (D.Admits P s)) : D.Permits P s e where
  sound := h.sound
  unbound := by
    rintro name rfl
    cases h

end Permits

namespace Obeys

variable {q : State → α → Prop} {r : State → β → Prop}

theorem pure {a : α} (h : D.Governs P s) (hq : q s a) : D.Obeys P q (Pure.pure a) s :=
  .value rfl (.refl s) h hq

theorem fail {e : EvalError} (h : D.Governs P s) (he : D.Permits P s e) :
    D.Obeys P q (Run.fail e) s :=
  .error rfl (.refl s) h he

theorem ofExcept {x : Except EvalError Value} (h : D.Governs P s)
    (hx : CallYields (D.Admits P s) (D.Held P s) x) : D.Obeys P (D.Held P) (Run.ofExcept x) s := by
  cases x with
  | ok v => exact .pure h hx
  | error e => exact .fail h (.of_call hx)

theorem read {f : State → α} (h : D.Governs P s) (hq : q s (f s)) :
    D.Obeys P q (Run.read f) s :=
  .value rfl (.refl s) h hq

theorem modify {f : State → State} (hs : s.Grows (f s)) (h : D.Governs P (f s)) :
    D.Obeys P (fun _ _ => True) (Run.modify f) s :=
  .value rfl hs h trivial

theorem update {f : State → α × State} (hs : s.Grows (f s).2) (h : D.Governs P (f s).2)
    (hq : q (f s).2 (f s).1) : D.Obeys P q (Run.update f) s :=
  .value rfl hs h hq

theorem bind {x : Eval α} {f : α → Eval β} (h : D.Obeys P q x s)
    (hf : ∀ {s' a}, s.Grows s' → D.Governs P s' → q s' a → D.Obeys P r (f a) s') :
    D.Obeys P r (x >>= f) s := by
  cases h with
  | endless hD hx => exact .endless hD (Run.bind_of_none hx)
  | error hx hs hs' he => exact .error (Run.bind_of_error hx) hs hs' he
  | @value a s' hx hs hs' hq =>
    have hxf : (x >>= f) s = f a s' := Run.bind_of_ok hx
    cases hf hs hs' hq with
    | endless hD hx' => exact .endless hD (hxf.trans hx')
    | value hx' ht hs'' hr => exact .value (hxf.trans hx') (hs.trans ht) hs'' hr
    | error hx' ht hs'' he => exact .error (hxf.trans hx') (hs.trans ht) hs'' he

theorem endless_of_eq_none {x : Eval α} (h : D.Obeys P q x s) (hx : x s = none) : D.endless := by
  cases h with
  | endless hD _ => exact hD
  | value hx' _ _ _ | error hx' _ _ _ =>
    rw [hx] at hx'
    cases hx'

/-- Where the run ends, what it gives holds admitted closures, and a name was not found only if that
is allowed. -/
theorem ends {x : Eval Value} (h : D.Obeys P (D.Held P) x s) {result : Except EvalError Value}
    (hx : x s = some (result, s')) : s.Grows s' ∧ D.Governs P s' ∧
      D.HeldAll P s' (returned result) ∧
      ∀ name, result = .error (.unboundSymbol name) → D.unbound := by
  cases h with
  | endless _ hx' =>
    rw [hx] at hx'
    cases hx'
  | value hx' hs hs' hv =>
    rw [hx] at hx'
    cases hx'
    exact ⟨hs, hs', Session.sound_returned hv, fun _ h => by cases h⟩
  | error hx' hs hs' he =>
    rw [hx] at hx'
    cases hx'
    refine ⟨hs, hs', Session.sound_returned he.sound, fun name h => ?_⟩
    exact he.unbound name (by cases h; rfl)

end Obeys

variable (D P) in
/-- Evaluation by `ev` obeys wherever its code meets the demands down to depth `n`. -/
def EvalObeys (n : Nat) (ev : Value → Env → Eval Value) : Prop :=
  ∀ {s env e}, D.Governs P s → D.Code P n s env e → D.Obeys P (D.Held P) (ev e env) s

section Rules

variable {ev : Value → Env → Eval Value} (h : D.EvalObeys P n ev) (hs : D.Governs P s)
include h hs

theorem evalAll_obeys {es : List Value} (hes : ∀ e ∈ es, D.Code P n s env e) :
    D.Obeys P (D.HeldAll P) (evalAll ev env es) s := by
  induction es generalizing s with
  | nil => exact .pure hs (List.forall_mem_nil _)
  | cons e es ih =>
    obtain ⟨he, hes⟩ := List.forall_mem_cons.1 hes
    refine (h hs he).bind fun hgrows hs' hv => ?_
    refine (ih hs' fun e he => (hes e he).mono hgrows).bind fun hgrows' hs'' hvs => ?_
    exact .pure hs'' (List.forall_mem_cons.2 ⟨hv.mono hgrows', hvs⟩)

theorem evalBody_obeys {es : List Value} (hes : ∀ e ∈ es, D.Code P n s env e) :
    D.Obeys P (D.Held P) (evalBody ev env es) s := by
  fun_induction evalBody ev env es generalizing s with
  | case1 => exact .pure hs (.of_atomic rfl)
  | case2 e => exact h hs (hes e (List.mem_singleton_self e))
  | case3 e e' es ih =>
    obtain ⟨he, hes⟩ := List.forall_mem_cons.1 hes
    exact (h hs he).bind fun hgrows hs' _ => ih hs' fun e he => (hes e he).mono hgrows

theorem evalAnd_obeys {es : List Value} (hes : ∀ e ∈ es, D.Code P n s env e) {last : Value}
    (hlast : D.Held P s last) : D.Obeys P (D.Held P) (evalAnd ev env last es) s := by
  induction es generalizing s last with
  | nil => exact .pure hs hlast
  | cons e es ih =>
    obtain ⟨he, hes⟩ := List.forall_mem_cons.1 hes
    refine (h hs he).bind fun hgrows hs' hv => ?_
    split
    · exact ih hs' (fun e he => (hes e he).mono hgrows) hv
    · exact .pure hs' hv

theorem evalOr_obeys {es : List Value} (hes : ∀ e ∈ es, D.Code P n s env e) {last : Value}
    (hlast : D.Held P s last) : D.Obeys P (D.Held P) (evalOr ev env last es) s := by
  induction es generalizing s last with
  | nil => exact .pure hs hlast
  | cons e es ih =>
    obtain ⟨he, hes⟩ := List.forall_mem_cons.1 hes
    refine (h hs he).bind fun hgrows hs' hv => ?_
    split
    · exact .pure hs' hv
    · exact ih hs' (fun e he => (hes e he).mono hgrows) hv

/-- Where bindings have values they are pairs of a name and an expression. -/
theorem evalBindings_obeys {bindings : List Value}
    (hb : ∀ name e, .list [.sym name, e] ∈ bindings → D.Code P n s env e) :
    D.Obeys P (fun s p => p.1 = boundNames bindings ∧ D.HeldAll P s p.2 ∧
      ∀ b ∈ bindings, ∃ name e, b = .list [.sym name, e]) (evalBindings ev env bindings) s := by
  fun_induction evalBindings ev env bindings generalizing s with
  | case1 => exact .pure hs ⟨rfl, List.forall_mem_nil _, List.forall_mem_nil _⟩
  | case2 name e bindings ih =>
    refine (h hs (hb name e List.mem_cons_self)).bind fun hgrows hs' hv => ?_
    refine (ih hs' fun name e he => (hb name e (List.mem_cons_of_mem _ he)).mono hgrows).bind
      fun hgrows' hs'' hp => ?_
    obtain ⟨hnames, hvs, hpairs⟩ := hp
    have hpair : ∃ name' e', Value.list [.sym name, e] = .list [.sym name', e'] := ⟨name, e, rfl⟩
    exact .pure hs'' ⟨congrArg (name :: ·) hnames,
      List.forall_mem_cons.2 ⟨hv.mono hgrows', hvs⟩, List.forall_mem_cons.2 ⟨hpair, hpairs⟩⟩
  | case3 => exact .fail hs (.malformed .bind .notBindingList)

theorem applyClosure_obeys (name : Option String) {params : List String} {body : List Value}
    {outer : Env} {args : List Value} (houter : P outer) (hbody : D.body n s params body outer)
    (hsound : D.HeldAll P s body) (hargs : D.HeldAll P s args) :
    D.Obeys P (D.Held P) (applyClosure ev name params body outer args) s := by
  unfold applyClosure
  split
  · next hlength =>
    have hgrows := State.Grows.push_ofCall s outer params args
    have hcode (e : Value) (he : e ∈ body) : D.Code P n (s.push (.ofCall outer params args)).2
        (s.push (.ofCall outer params args)).1 e :=
      ⟨hs.fresh _ (Nat.le_refl _), D.enter hbody hlength e he, (hsound e he).mono hgrows⟩
    refine Obeys.bind (q := fun s' env => ∀ e ∈ body, D.Code P n s' env e)
      (.update hgrows (hs.enter houter hargs) hcode) fun _ hs' hcode => ?_
    exact evalBody_obeys h hs' hcode
  · exact .fail hs (.of_call (.wrongArgumentCount ..))

omit h in
theorem applyBuiltin_obeys (b : Builtin) {args : List Value} (hargs : D.HeldAll P s args) :
    D.Obeys P (D.Held P) (applyBuiltin b args) s := by
  refine (Obeys.ofExcept hs (Builtin.yields_call b hargs)).bind fun _ hs' hv => ?_
  refine (Obeys.modify (.print _ _) (hs'.print _)).bind fun hgrows hs'' _ => ?_
  exact .pure hs'' (hv.mono hgrows)

theorem apply_obeys {f : Value} (hf : D.Held P s f) {args : List Value}
    (hargs : D.HeldAll P s args) : D.Obeys P (D.Held P) (apply ev f args) s := by
  cases f with
  | builtin b => exact applyBuiltin_obeys hs b hargs
  | closure identity name params body outer =>
    obtain ⟨houter, hclosure⟩ := hf _ (.closure ..)
    exact applyClosure_obeys h hs name houter (D.body_of_closure hclosure) hf.body hargs
  | _ => exact .fail hs (.notCallable hf)

/-! ### Forms and expressions -/

omit h in
theorem makeClosure_obeys {e : Value} (he : D.Code P n s env e) (form : Form)
    (name : Option String) {definition : List Value}
    (hmakes : ∀ list params body, definition = .list list :: body →
      Value.symbols? list = some params → e.Makes name params body) :
    D.Obeys P (D.Held P) (makeClosure form name env definition) s := by
  have hfail : D.Obeys P (D.Held P) (malformed form .notParameterList) s :=
    .fail hs (.malformed form .notParameterList)
  rcases definition with _ | ⟨v, body⟩
  · exact hfail
  cases v with
  | list list =>
    rw [makeClosure]
    cases hparams : Value.symbols? list with
    | none => exact hfail
    | some params =>
      have hmake := hmakes list params body rfl hparams
      have hadmits : D.Admits P s ⟨s.closures, name, params, body, env⟩ :=
        ⟨he.region, D.make he.code hmake⟩
      have hf : D.Held P s (.closure s.closures name params body env) :=
        .of_closure hadmits (hmake.sound_body he.sound)
      refine Obeys.bind (q := fun s' i => D.Held P s' (.closure i name params body env))
        (.update (.makeClosure s) hs.makeClosure (hf.mono (.makeClosure s))) fun _ hs' hf => ?_
      exact .pure hs' hf
  | _ => exact hfail

theorem evalForm_obeys (form : Form) {es : List Value}
    (hcode : D.Code P (n + 1) s env (.list (.sym form.name :: es))) :
    D.Obeys P (D.Held P) (evalForm ev env form es) s := by
  have hnil {s : State} (hs : D.Governs P s) : D.Obeys P (D.Held P) (pure .nil) s :=
    .pure hs (.of_atomic rfl)
  cases form, es using evalForm_cases with
  | quote v => exact .pure hs (Value.sound_list.1 hcode.sound v (by simp))
  | define name e =>
    refine (h hs (hcode.operand (.define name e))).bind fun _ hs' hv => ?_
    exact (Obeys.modify (.define _ _ _ _) (hs'.define env name hv)).bind fun _ hs'' _ => hnil hs''
  | defineFn name definition =>
    refine (makeClosure_obeys hs hcode .defineFn (some name) ?_).bind fun _ hs' hv => ?_
    · rintro list params body rfl hparams
      exact .defineFn name body hparams
    · exact (Obeys.modify (.define _ _ _ _) (hs'.define env name hv)).bind fun _ hs'' _ =>
        hnil hs''
  | lambda es =>
    refine makeClosure_obeys hs hcode .lambda none ?_
    rintro list params body rfl hparams
    exact .lambda body hparams
  | branch test e =>
    refine (h hs (hcode.operand (.branch (by simp)))).bind fun hgrows hs' _ => ?_
    split
    · exact h hs' ((hcode.operand (.branch (by simp))).mono hgrows)
    · exact hnil hs'
  | branchElse test e e' =>
    refine (h hs (hcode.operand (.branch (by simp)))).bind fun hgrows hs' _ => ?_
    split
    · exact h hs' ((hcode.operand (.branch (by simp))).mono hgrows)
    · exact h hs' ((hcode.operand (.branch (by simp))).mono hgrows)
  | bind bindings body =>
    refine (evalBindings_obeys h hs fun name e hmem => hcode.operand (.bind hmem)).bind
      fun {s' p} hgrows hs' hp => ?_
    obtain ⟨names, vs⟩ := p
    obtain ⟨rfl, hvs, hpairs⟩ := hp
    have hsound (e : Value) (he : e ∈ body) : D.Held P s e :=
      Value.sound_list.1 hcode.sound e (by simp [he])
    exact applyClosure_obeys h hs' none hcode.region
      (D.body_mono hgrows (D.body_of_bind hcode.code hpairs)) (HeldAll.mono hsound hgrows) hvs
  | sequence es => exact evalBody_obeys h hs fun e he => hcode.operand (.sequence he)
  | and es => exact evalAnd_obeys h hs (fun e he => hcode.operand (.and he)) (.of_atomic rfl)
  | or es => exact evalOr_obeys h hs (fun e he => hcode.operand (.or he)) (.of_atomic rfl)
  | rejected form es cause _ hes =>
    rw [hes]
    exact .fail hs (.malformed form cause)

omit hs in
theorem evalStep_obeys : D.EvalObeys P (n + 1) (evalStep ev) := by
  intro s env e hs hcode
  cases e with
  | sym name =>
    refine Obeys.bind (q := fun s' v => (v = none → D.unbound) ∧ ∀ w, v = some w → D.Held P s' w)
      (.read hs ⟨D.lookup hcode.code, fun w => hs.within.sound_resolve hcode.region⟩)
      fun {s' v} _ hs' hv => ?_
    cases v with
    | none => exact .fail hs' ⟨.of_none rfl, fun _ _ => hv.1 rfl⟩
    | some v => exact .pure hs' (hv.2 v rfl)
  | list es =>
    rcases es with _ | ⟨head, operands⟩
    · exact .pure hs hcode.sound
    rw [evalStep]
    cases hhead : formOf? head with
    | some form =>
      obtain ⟨name, hname, hform⟩ := Option.bind_eq_some_iff.1 hhead
      obtain rfl := Form.ofName?_eq_some_iff.1 hform
      cases head <;> cases hname
      exact evalForm_obeys h hs form hcode
    | none =>
      have he {e : Value} (hmem : e ∈ head :: operands) := hcode.operand (.call hhead hmem)
      refine (h hs (he List.mem_cons_self)).bind fun hgrows hs' hf => ?_
      split
      · refine (evalAll_obeys h hs' fun e hmem =>
          (he (List.mem_cons_of_mem _ hmem)).mono hgrows).bind fun hgrows' hs'' hargs => ?_
        exact apply_obeys h hs'' (hf.mono hgrows') hargs
      · exact .fail hs' (.notCallable hf)
  | _ => exact .pure hs hcode.sound

end Rules

theorem eval_obeys (depth : Nat) : D.EvalObeys P depth (eval depth) := by
  induction depth with
  | zero => exact fun _ hcode => .endless (D.code_zero hcode.code) rfl
  | succ depth ih => exact evalStep_obeys ih

/-! ## Whole runs -/

/-- Let an expression meet the demand, and all closures that it or its environment leads to. Then
its evaluation ends and finds every name, unless the discipline allows otherwise, and all closures
that can be reached afterwards meet the demand, also from the result or the error. -/
theorem eval_keeps {v : Value} (hv : D.code n s env v)
    (hreach : ∀ c, s.Leads [v] env (.inr c) → D.closure s c) :
    (eval n v env s = none → D.endless) ∧
    ∀ r s', eval n v env s = some (r, s') → (∀ name, r = .error (.unboundSymbol name) → D.unbound) ∧
      ∀ c, s'.Leads (v :: returned r) env (.inr c) → D.closure s' c := by
  -- the environments in reach, and those of the frames that the run will make
  let P : Env → Prop := fun e => s.Leads [v] env (.inl e) ∨ s.frames.size ≤ e.index
  have hadmits {c : Closure} (hc : s.Leads [v] env (.inr c)) : D.Admits P s c :=
    ⟨.inl (.captured hc), hreach c hc⟩
  have hgoverns : D.Governs P s := by
    refine ⟨fun e f hf he => ?_, fun e he => .inr he⟩
    rcases he with he | he
    · exact ⟨fun outer ho => .inl (.outer he hf ho), fun name w hw c hc =>
        hadmits (.bound he hf hw hc)⟩
    · rw [State.frame?, Array.getElem?_eq_none he] at hf
      cases hf
  have hcode : D.Code P n s env v :=
    ⟨.inl .start, hv, fun c hc => hadmits (.held List.mem_cons_self hc)⟩
  have hobeys := D.eval_obeys n hgoverns hcode
  refine ⟨hobeys.endless_of_eq_none, fun r s' hr => ?_⟩
  obtain ⟨hgrows, hs', hheld, hunbound⟩ := hobeys.ends hr
  refine ⟨hunbound, fun c hc => ?_⟩
  have hvs : D.HeldAll P s' (v :: returned r) :=
    List.forall_mem_cons.2 ⟨(hcode.mono hgrows).sound, hheld⟩
  exact (hs'.within.of_leads (fun _ => And.left) hvs hcode.region hc).2

end Discipline

end SmallLisp
