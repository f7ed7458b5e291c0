import SmallLisp.Proofs.Mirror
import SmallLisp.Proofs.Points

/-!
# The evaluations that make closures

An evaluation of an `fn` or `defn` form makes one closure, and takes the number of closures made so
far for its identity. `Chronicle M s` says that the closures in the state `s` are made by evaluations
of `M`, each of them by one. Every rule goes on with the chronicle (`Records`): what it makes is new,
and what it gives, binds or is stopped at holds only closures made before.
-/

namespace SmallLisp

/-- The closure as a value. -/
def Closure.value (c : Closure) : Value := .closure c.identity c.name c.params c.body c.env

/-- The evaluation is that of a form, and makes the closure. -/
structure Point.Makes (p : Point) (c : Closure) : Prop where
  form : p.expr.Makes c.name c.params c.body
  env : c.env = p.env
  identity : c.identity = p.state.closures

/-- How an evaluation that makes the closure ends: `fn` gives it, and `defn` binds it and gives
nil. -/
def Point.ending (p : Point) (c : Closure) : Except EvalError Value × State :=
  let s : State := { p.state with closures := p.state.closures + 1 }
  match c.name with
  | none => (.ok c.value, s)
  | some name => (.ok .nil, s.define p.env name c.value)

/-- The closure is made by one of the evaluations. -/
def Stems (M : Set Point) (c : Closure) : Prop := ∃ p ∈ M, p.Makes c

/-- The evaluations that the run comes to and that make closures. -/
def makings {α : Type} (x : Stop → Eval α) (s : State) : Set Point :=
  {p | Reaches x s p ∧ ∃ c, p.Makes c}

/-- Those evaluations that make one of the first `n` closures. -/
def past (M : Set Point) (n : Nat) : Set Point := {p | p ∈ M ∧ p.state.closures < n}

/-- The closures that are bound in the state are made by the evaluations, each of which has made
another one of the closures made so far. -/
structure Chronicle (M : Set Point) (s : State) : Prop where
  frames : ∀ {env f name v}, s.frame? env = some f → f.get? name = some v → v.Sound (Stems M)
  distinct : ∀ {p q}, p ∈ M → q ∈ M → p.state.closures = q.state.closures → p = q
  before : ∀ {p}, p ∈ M → p.state.closures < s.closures

/-- The closures that there are at the evaluation, bound in its state or part of its expression, are
made by evaluations of `M` before it, and those of its outcome before its end. -/
structure Point.Known (M : Set Point) (p : Point) : Prop where
  frames : ∀ {env f name v}, p.state.frame? env = some f → f.get? name = some v →
    v.Sound (Stems (past M p.state.closures))
  expr : p.expr.Sound (Stems (past M p.state.closures))
  outcome : ∀ {r s}, p.outcome = some (r, s) →
    Yields (Stems (past M s.closures)) (Value.Sound (Stems (past M s.closures))) r

/-- The run goes on with a chronicle: what it comes to is known to it, no two evaluations make the
same closure, and in the end the chronicle has what they have made. A value satisfies `q`. -/
structure Records {α : Type} (M : Set Point) (q : Set Point → α → Prop) (x : Stop → Eval α)
    (s : State) : Prop where
  reached : ∀ {p}, Reaches x s p → s.closures ≤ p.state.closures ∧ p.Known (M ∪ makings x s)
  distinct : ∀ {p p'}, p ∈ makings x s → p' ∈ makings x s →
    p.state.closures = p'.state.closures → p = p'
  ended : ∀ {r s'}, x none s = some (r, s') → s.closures ≤ s'.closures ∧
    Chronicle (M ∪ makings x s) s' ∧ Yields (Stems (M ∪ makings x s)) (q (M ∪ makings x s)) r

/-! ## Makings -/

theorem Value.Makes.unique {e : Value} {name name' : Option String} {params params' : List String}
    {body body' : List Value} (h : e.Makes name params body) (h' : e.Makes name' params' body') :
    name = name' ∧ params = params' ∧ body = body' := by
  cases h with
  | @lambda list params body hparams =>
    generalize he : Value.list (.sym "fn" :: .list list :: body) = e at h'
    cases h' with
    | lambda _ hparams' =>
      cases he
      exact ⟨rfl, Option.some.inj (hparams.symm.trans hparams'), rfl⟩
    | defineFn => simp at he
  | @defineFn list params name body hparams =>
    generalize he : Value.list (.sym "defn" :: .sym name :: .list list :: body) = e at h'
    cases h' with
    | lambda => simp at he
    | defineFn _ _ hparams' =>
      cases he
      exact ⟨rfl, Option.some.inj (hparams.symm.trans hparams'), rfl⟩

/-- An evaluation makes one closure. -/
theorem Point.Makes.unique {p : Point} {c d : Closure} (hc : p.Makes c) (hd : p.Makes d) :
    c = d := by
  obtain ⟨identity, name, params, body, env⟩ := c
  obtain ⟨identity', name', params', body', env'⟩ := d
  obtain ⟨hform, henv, hidentity⟩ := hc
  obtain ⟨hform', henv', hidentity'⟩ := hd
  obtain ⟨hname, hparams, hbody⟩ := hform.unique hform'
  dsimp only at *
  subst hname hparams hbody henv henv' hidentity hidentity'
  rfl

theorem Point.Makes.evalStep {p : Point} {c : Closure} (h : p.Makes c)
    (ev : Value → Env → Eval Value) : evalStep ev p.expr p.env p.state = some (p.ending c) := by
  obtain ⟨depth, e, env, s⟩ := p
  obtain ⟨identity, name, params, body, env'⟩ := c
  obtain ⟨hform, henv, hidentity⟩ := h
  dsimp only at hform henv hidentity
  subst henv hidentity
  cases hform with
  | lambda body hparams =>
    refine (congrFun (evalStep_form ev .lambda _ env') s).trans ?_
    simp only [evalForm, makeClosure, hparams]
    rfl
  | defineFn name body hparams =>
    refine (congrFun (evalStep_form ev .defineFn _ env') s).trans ?_
    simp only [evalForm, makeClosure, hparams]
    rfl

/-- The evaluation of a form that makes a closure ends. -/
theorem Point.Makes.outcome {p : Point} {c : Closure} (h : p.Makes c) :
    p.outcome = some (p.ending c) := h.evalStep _

theorem Stems.mono {M N : Set Point} (h : M ⊆ N) {c : Closure} (hc : Stems M c) : Stems N c := by
  obtain ⟨p, hp, hmakes⟩ := hc
  exact ⟨p, h hp, hmakes⟩

theorem sound_stems_mono {M N : Set Point} (h : M ⊆ N) {v : Value} (hv : v.Sound (Stems M)) :
    v.Sound (Stems N) :=
  hv.mono fun _ => Stems.mono h

theorem past_mono {M N : Set Point} (h : M ⊆ N) (n : Nat) : past M n ⊆ past N n :=
  fun _ hp => ⟨h hp.1, hp.2⟩

theorem Point.Known.mono {M N : Set Point} (h : M ⊆ N) {p : Point} (hp : p.Known M) :
    p.Known N where
  frames hf hv := sound_stems_mono (past_mono h _) (hp.frames hf hv)
  expr := sound_stems_mono (past_mono h _) hp.expr
  outcome {r s} hr := by
    have hout := hp.outcome hr
    have hmono (c : Closure) : Stems (past M s.closures) c → Stems (past N s.closures) c :=
      Stems.mono (past_mono h _)
    cases r with
    | ok v => exact Value.Sound.mono hout hmono
    | error e => exact fun v hv => (hout v hv).mono hmono

namespace Chronicle

variable {M : Set Point} {s s' : State} (h : Chronicle M s)
include h

theorem past_eq : past M s.closures = M :=
  Set.ext fun _ => ⟨fun hp => hp.1, fun hp => ⟨hp, h.before hp⟩⟩

theorem of_frames (hframes : s'.frames = s.frames) (hclosures : s'.closures = s.closures) :
    Chronicle M s' where
  frames hf := h.frames (by rwa [State.frame?, ← hframes])
  distinct := h.distinct
  before hp := by
    rw [hclosures]
    exact h.before hp

theorem push {f : Frame} (hf : ∀ name v, f.get? name = some v → v.Sound (Stems M)) :
    Chronicle M (s.push f).2 where
  frames {env g name v} hg hv := by
    rw [State.frame?_push] at hg
    split_ifs at hg
    · cases hg
      exact hf name v hv
    · exact h.frames hg hv
  distinct := h.distinct
  before := h.before

theorem define (env : Env) (name : String) {v : Value} (hv : v.Sound (Stems M)) :
    Chronicle M (s.define env name v) where
  frames {env' g name' w} hg hw := by
    rw [State.frame?_define] at hg
    split_ifs at hg
    · obtain ⟨f, hf, rfl⟩ := Option.map_eq_some_iff.1 hg
      rw [Frame.get?_insert] at hw
      split_ifs at hw
      · cases hw
        exact hv
      · exact h.frames hf hw
    · exact h.frames hg hw
  distinct := h.distinct
  before := h.before

theorem sound_resolve {env : Env} {name : String} {v : Value} (hv : s.resolve env name = some v) :
    v.Sound (Stems M) := by
  obtain ⟨e, -, he⟩ := List.exists_of_findSome?_eq_some hv
  obtain ⟨f, hf, hname⟩ := Option.bind_eq_some_iff.1 he
  exact h.frames hf hname

end Chronicle

section Point

variable {M : Set Point} {p : Point} {c : Closure}

theorem Point.Makes.sound (hc : p.Makes c) (hbody : ∀ b ∈ c.body, b.Sound (Stems M)) :
    c.value.Sound (Stems (M ∪ {p})) :=
  .of_closure ⟨p, .inr rfl, hc⟩ fun b hb => sound_stems_mono Set.subset_union_left (hbody b hb)

namespace Chronicle

variable (h : Chronicle M p.state) (he : p.expr.Sound (Stems M))
include h

/-- The chronicle goes on with an evaluation that makes a closure. -/
theorem make : Chronicle (M ∪ {p}) { p.state with closures := p.state.closures + 1 } where
  frames hf hv := sound_stems_mono Set.subset_union_left (h.frames hf hv)
  distinct {q q'} hq hq' hsame := by
    rcases hq with hq | rfl <;> rcases hq' with hq' | rfl
    · exact h.distinct hq hq' hsame
    · exact absurd hsame (Nat.ne_of_lt (h.before hq))
    · exact absurd hsame (Nat.ne_of_gt (h.before hq'))
    · rfl
  before hq := by
    rcases hq with hq | rfl
    · exact Nat.lt_succ_of_lt (h.before hq)
    · exact Nat.lt_succ_self _

include he

theorem ending (hc : p.Makes c) : p.state.closures ≤ (p.ending c).2.closures ∧
    Chronicle (M ∪ {p}) (p.ending c).2 ∧
      Yields (Stems (M ∪ {p})) (Value.Sound (Stems (M ∪ {p}))) (p.ending c).1 := by
  have hvalue := hc.sound (hc.form.sound_body he)
  obtain ⟨identity, name, params, body, env⟩ := c
  cases name with
  | none => exact ⟨Nat.le_succ _, h.make, hvalue⟩
  | some name => exact ⟨Nat.le_succ _, h.make.define _ _ hvalue, .of_atomic rfl⟩

/-- What there is at an evaluation is from before it. -/
theorem known {N : Set Point} (hsub : M ⊆ N)
    (hend : ∀ {r s'}, p.outcome = some (r, s') →
      Chronicle N s' ∧ Yields (Stems N) (Value.Sound (Stems N)) r) : p.Known N := by
  have hpast : M ⊆ past N p.state.closures := fun q hq => ⟨hsub hq, h.before hq⟩
  refine ⟨fun hf hv => sound_stems_mono hpast (h.frames hf hv), sound_stems_mono hpast he, ?_⟩
  intro r s' hr
  obtain ⟨hN, hyields⟩ := hend hr
  rw [hN.past_eq]
  exact hyields

end Chronicle

end Point

/-- No two evaluations that have made closures before the run or make them in it make the same. -/
theorem Records.eq_of_mem {α : Type} {M : Set Point} {q : Set Point → α → Prop}
    {x : Stop → Eval α} {s : State} (hx : Records M q x s) (h : Chronicle M s) {p p' : Point}
    (hp : p ∈ M ∪ makings x s) (hp' : p' ∈ M ∪ makings x s)
    (hsame : p.state.closures = p'.state.closures) : p = p' := by
  have hbefore {p p' : Point} (hp : p ∈ M) (hp' : p' ∈ makings x s) :
      p.state.closures < p'.state.closures :=
    Nat.lt_of_lt_of_le (h.before hp) (hx.reached hp'.1).1
  rcases hp with hp | hp <;> rcases hp' with hp' | hp'
  · exact h.distinct hp hp' hsame
  · exact absurd hsame (Nat.ne_of_lt (hbefore hp hp'))
  · exact absurd hsame (Nat.ne_of_gt (hbefore hp' hp))
  · exact hx.distinct hp hp' hsame

/-! ## Sequences -/

namespace Records

variable {α β : Type} {M : Set Point} {q : Set Point → α → Prop} {r : Set Point → β → Prop}
  {s : State}

theorem makings_const (y : Eval α) (s : State) : makings (fun _ => y) s = ∅ :=
  Set.eq_empty_of_forall_notMem fun p hp => not_reaches_const y s p hp.1

/-- A step that evaluates nothing. -/
theorem const {y : Eval α} (h : ∀ {res s'}, y s = some (res, s') →
    s.closures ≤ s'.closures ∧ Chronicle M s' ∧ Yields (Stems M) (q M) res) :
    Records M q (fun _ => y) s where
  reached hp := (not_reaches_const y s _ hp).elim
  distinct hp := (not_reaches_const y s _ hp.1).elim
  ended hy := by
    rw [makings_const, Set.union_empty]
    exact h hy

theorem pure {a : α} (h : Chronicle M s) (hq : q M a) : Records M q (fun _ => Pure.pure a) s :=
  const fun hy => by
    cases hy
    exact ⟨Nat.le_refl _, h, hq⟩

theorem fail {e : EvalError} (h : Chronicle M s) (he : e.Sound (Stems M)) :
    Records M q (fun _ => Run.fail e) s :=
  const fun hy => by
    cases hy
    exact ⟨Nat.le_refl _, h, he⟩

theorem makings_bind {x : Stop → Eval α} (hx : Stoppable x) {f : Stop → α → Eval β} {a : α}
    {s' : State} (hok : x none s = some (.ok a, s')) :
    makings (fun i => x i >>= f i) s = makings x s ∪ makings (fun i => f i a) s' := by
  ext p
  simp only [makings, Set.mem_ofPred_eq, Set.mem_union, hx.reaches_bind_iff, hok, Option.some.injEq,
    Prod.mk.injEq, Except.ok.injEq, ← or_and_right]
  grind

theorem makings_bind_of_left {x : Stop → Eval α} (hx : Stoppable x) {f : Stop → α → Eval β}
    (hok : ∀ a s', x none s ≠ some (.ok a, s')) :
    makings (fun i => x i >>= f i) s = makings x s := by
  ext p
  simp only [makings, Set.mem_ofPred_eq, hx.reaches_bind_iff]
  grind

theorem bind_of_ok {x : Stop → Eval α} {f : Stop → α → Eval β} {a : α} {s' : State}
    (hx : Records M q x s) (hstops : Stoppable x) (hok : x none s = some (.ok a, s'))
    (hf : Records (M ∪ makings x s) r (fun i => f i a) s') :
    Records M r (fun i => x i >>= f i) s := by
  obtain ⟨hle, hchronicle, -⟩ := hx.ended hok
  have hmakings := makings_bind hstops (f := f) hok
  constructor
  case reached =>
    intro p hp
    rw [hmakings, ← Set.union_assoc]
    rcases hstops.reaches_bind_iff.1 hp with hp | ⟨a', t, hok', hp⟩
    · exact ⟨(hx.reached hp).1, (hx.reached hp).2.mono Set.subset_union_left⟩
    · obtain ⟨⟨⟩, rfl⟩ := Prod.mk.inj (Option.some.inj (hok.symm.trans hok'))
      exact ⟨hle.trans (hf.reached hp).1, (hf.reached hp).2⟩
  case distinct =>
    -- The first part makes only closures from before the second one.
    have hbefore {p p' : Point} (hp : p ∈ makings x s) (hp' : p' ∈ makings (fun i => f i a) s') :
        p.state.closures < p'.state.closures :=
      Nat.lt_of_lt_of_le (hchronicle.before (.inr hp)) (hf.reached hp'.1).1
    intro p p' hp hp' hsame
    rw [hmakings] at hp hp'
    rcases hp with hp | hp <;> rcases hp' with hp' | hp'
    · exact hx.distinct hp hp' hsame
    · exact absurd hsame (Nat.ne_of_lt (hbefore hp hp'))
    · exact absurd hsame (Nat.ne_of_gt (hbefore hp' hp))
    · exact hf.distinct hp hp' hsame
  case ended =>
    intro res t hres
    have hres' : f none a s' = some (res, t) := (Run.bind_of_ok hok).symm.trans hres
    obtain ⟨hle', hend⟩ := hf.ended hres'
    rw [hmakings, ← Set.union_assoc]
    exact ⟨hle.trans hle', hend⟩

theorem bind_of_left {x : Stop → Eval α} {f : Stop → α → Eval β} (hx : Records M q x s)
    (hstops : Stoppable x) (hok : ∀ a s', x none s ≠ some (.ok a, s')) :
    Records M r (fun i => x i >>= f i) s := by
  have hmakings := makings_bind_of_left hstops (f := f) hok
  constructor
  case reached =>
    intro p hp
    rw [hmakings]
    rcases hstops.reaches_bind_iff.1 hp with hp | ⟨a, s', h, -⟩
    · exact hx.reached hp
    · exact (hok a s' h).elim
  case distinct =>
    rw [hmakings]
    exact hx.distinct
  case ended =>
    intro res t hres
    rw [hmakings]
    rcases Run.bind_eq_some hres with ⟨e, s', he, h⟩ | ⟨a, s', h, -⟩
    · cases h
      exact hx.ended he
    · exact (hok a s' h).elim

/-- The second part goes on with the chronicle of the first one. -/
theorem bind {x : Stop → Eval α} {f : Stop → α → Eval β} (hx : Records M q x s)
    (hstops : Stoppable x)
    (hf : ∀ {N a s'}, M ⊆ N → Chronicle N s' → q N a → Records N r (fun i => f i a) s') :
    Records M r (fun i => x i >>= f i) s := by
  by_cases hok : ∃ a s', x none s = some (.ok a, s')
  · obtain ⟨a, s', hok⟩ := hok
    obtain ⟨-, hchronicle, hq⟩ := hx.ended hok
    exact hx.bind_of_ok hstops hok (hf Set.subset_union_left hchronicle hq)
  · exact hx.bind_of_left hstops fun a s' h => hok ⟨a, s', h⟩

/-! ## The rules -/

/-- The value holds only closures of the chronicle. -/
def Stemming (M : Set Point) (v : Value) : Prop := v.Sound (Stems M)

def StemmingAll (M : Set Point) (vs : List Value) : Prop := ∀ v ∈ vs, v.Sound (Stems M)

theorem StemmingAll.mono {M N : Set Point} (h : M ⊆ N) {vs : List Value} (hvs : StemmingAll M vs) :
    StemmingAll N vs :=
  fun v hv => sound_stems_mono h (hvs v hv)

section Rules

variable {ev : Stop → Value → Env → Eval Value} (hstops : ∀ e env, Stoppable fun i => ev i e env)
  (hev : ∀ {M s e env}, Chronicle M s → e.Sound (Stems M) →
    Records M Stemming (fun i => ev i e env) s)
  (h : Chronicle M s)

include hstops hev h

theorem evalAll {env : Env} {es : List Value} (hes : StemmingAll M es) :
    Records M StemmingAll (fun i => evalAll (ev i) env es) s := by
  induction es generalizing M s with
  | nil => exact .pure h (List.forall_mem_nil _)
  | cons e es ih =>
    obtain ⟨he, hes⟩ := List.forall_mem_cons.1 hes
    refine (hev h he).bind (hstops e env) fun hsub hN hv => ?_
    refine (ih hN (StemmingAll.mono hsub hes)).bind (Stoppable.compositional.evalAll hstops env es)
      fun hsub' hN' hvs => ?_
    exact .pure hN' (List.forall_mem_cons.2 ⟨sound_stems_mono hsub' hv, hvs⟩)

theorem evalBody {env : Env} {es : List Value} (hes : StemmingAll M es) :
    Records M Stemming (fun i => evalBody (ev i) env es) s := by
  induction es using evalBody.induct generalizing M s with
  | case1 => exact .pure h (.of_atomic rfl)
  | case2 e => exact hev h (hes e List.mem_cons_self)
  | case3 e e' es ih =>
    obtain ⟨he, hes⟩ := List.forall_mem_cons.1 hes
    exact (hev h he).bind (hstops e env) fun hsub hN _ => ih hN (StemmingAll.mono hsub hes)

theorem evalAnd {env : Env} {last : Value} (hlast : last.Sound (Stems M)) {es : List Value}
    (hes : StemmingAll M es) : Records M Stemming (fun i => evalAnd (ev i) env last es) s := by
  induction es generalizing M s last with
  | nil => exact .pure h hlast
  | cons e es ih =>
    obtain ⟨he, hes⟩ := List.forall_mem_cons.1 hes
    refine (hev h he).bind (hstops e env) fun {N v s'} hsub hN hv => ?_
    split
    · exact ih hN hv (StemmingAll.mono hsub hes)
    · exact .pure hN hv

theorem evalOr {env : Env} {last : Value} (hlast : last.Sound (Stems M)) {es : List Value}
    (hes : StemmingAll M es) : Records M Stemming (fun i => evalOr (ev i) env last es) s := by
  induction es generalizing M s last with
  | nil => exact .pure h hlast
  | cons e es ih =>
    obtain ⟨he, hes⟩ := List.forall_mem_cons.1 hes
    refine (hev h he).bind (hstops e env) fun {N v s'} hsub hN hv => ?_
    split
    · exact .pure hN hv
    · exact ih hN hv (StemmingAll.mono hsub hes)

theorem evalBindings {env : Env} {bindings : List Value} (hb : StemmingAll M bindings) :
    Records M (fun N p => StemmingAll N p.2) (fun i => evalBindings (ev i) env bindings) s := by
  induction bindings using evalBindings.induct generalizing M s with
  | case1 => exact .pure h (List.forall_mem_nil _)
  | case2 name e bindings ih =>
    obtain ⟨hpair, hb⟩ := List.forall_mem_cons.1 hb
    have he : e.Sound (Stems M) := Value.sound_list.1 hpair e (by simp)
    refine (hev h he).bind (hstops e env) fun hsub hN hv => ?_
    refine (ih hN (StemmingAll.mono hsub hb)).bind
      (Stoppable.compositional.evalBindings hstops env bindings) fun hsub' hN' hvs => ?_
    exact .pure hN' (List.forall_mem_cons.2 ⟨sound_stems_mono hsub' hv, hvs⟩)
  | case3 v bindings hv =>
    simp only [SmallLisp.evalBindings]
    exact .fail h (.of_none rfl)

theorem applyClosure {name : Option String} {params : List String} {body args : List Value}
    {outer : Env} (hbody : StemmingAll M body) (hargs : StemmingAll M args) :
    Records M Stemming (fun i => applyClosure (ev i) name params body outer args) s := by
  unfold SmallLisp.applyClosure
  split
  · have hframe : ∀ name v, (Frame.ofCall outer params args).get? name = some v →
        v.Sound (Stems M) := Frame.get?_ofCall_sound hargs
    refine Records.bind (q := fun _ _ => True) (.const fun hy => ?_) (.const _)
      fun hsub hN _ => evalBody hstops hev hN (StemmingAll.mono hsub hbody)
    cases hy
    exact ⟨Nat.le_refl _, h.push hframe, trivial⟩
  · exact .fail h (.of_none rfl)

omit hstops hev in
theorem applyBuiltin (b : Builtin) {args : List Value} (hargs : StemmingAll M args) :
    Records M Stemming (fun _ => applyBuiltin b args) s := by
  refine .const fun {res s'} hy => ?_
  have hcall := Builtin.sound_call b hargs
  unfold SmallLisp.applyBuiltin at hy
  cases hb : b.call args with
  | error e =>
    rw [hb] at hy hcall
    cases hy
    exact ⟨Nat.le_refl _, h, hcall⟩
  | ok v =>
    rw [hb] at hy hcall
    cases hy
    exact ⟨Nat.le_refl _, h.of_frames rfl rfl, hcall⟩

theorem apply {f : Value} (hf : f.Sound (Stems M)) {args : List Value}
    (hargs : StemmingAll M args) : Records M Stemming (fun i => apply (ev i) f args) s := by
  cases f with
  | builtin b => exact applyBuiltin h b hargs
  | closure => exact applyClosure hstops hev h (Value.Sound.body hf) hargs
  | _ => exact .fail h (EvalError.sound_notCallable hf)

omit hstops hev in
/-- A definition that makes no closure is malformed. -/
theorem makeClosure (form : Form) (name : Option String) {env : Env} {definition : List Value}
    (hmakes : ∀ list params body, definition = .list list :: body →
      Value.symbols? list ≠ some params) :
    Records M Stemming (fun _ => makeClosure form name env definition) s := by
  have hfail : Records M Stemming (fun _ => malformed form .notParameterList) s :=
    .fail h (.of_none rfl)
  rcases definition with _ | ⟨v, body⟩
  · exact hfail
  cases v with
  | list list =>
    rw [SmallLisp.makeClosure]
    cases hparams : Value.symbols? list with
    | none => exact hfail
    | some params => exact (hmakes list params body rfl hparams).elim
  | _ => exact hfail

theorem evalForm {env : Env} (form : Form) {es : List Value} (hes : StemmingAll M es)
    (hmakes : ∀ name params body, ¬ (Value.list (.sym form.name :: es)).Makes name params body) :
    Records M Stemming (fun i => evalForm (ev i) env form es) s := by
  have hnil {N : Set Point} {s : State} (hN : Chronicle N s) :
      Records N Stemming (fun _ => Pure.pure .nil) s := .pure hN (.of_atomic rfl)
  have hdefine {N : Set Point} {s : State} (hN : Chronicle N s) (name : String) {v : Value}
      (hv : v.Sound (Stems N)) : Records N Stemming
        (fun _ => do Run.modify (·.define env name v); Pure.pure .nil) s := by
    refine .const fun hy => ?_
    cases hy
    exact ⟨Nat.le_refl _, hN.define env name hv, .of_atomic rfl⟩
  cases form, es using evalForm_cases with
  | quote v => exact .pure h (hes v List.mem_cons_self)
  | define name e =>
    exact (hev h (hes e (by simp))).bind (hstops e env) fun _ hN hv => hdefine hN name hv
  | defineFn name definition =>
    refine (makeClosure h .defineFn (some name) ?_).bind (.const _) fun _ hN hv =>
      hdefine hN name hv
    rintro list params body rfl hparams
    exact hmakes _ _ _ (.defineFn name body hparams)
  | lambda es =>
    refine makeClosure h .lambda none ?_
    rintro list params body rfl hparams
    exact hmakes _ _ _ (.lambda body hparams)
  | branch test e =>
    refine (hev h (hes test (by simp))).bind (hstops test env) fun {N v s'} hsub hN _ => ?_
    split
    · exact hev hN (sound_stems_mono hsub (hes e (by simp)))
    · exact hnil hN
  | branchElse test e e' =>
    refine (hev h (hes test (by simp))).bind (hstops test env) fun {N v s'} hsub hN _ => ?_
    split
    · exact hev hN (sound_stems_mono hsub (hes e (by simp)))
    · exact hev hN (sound_stems_mono hsub (hes e' (by simp)))
  | bind bindings body =>
    obtain ⟨hbindings, hbody⟩ := List.forall_mem_cons.1 hes
    exact (evalBindings hstops hev h (Value.sound_list.1 hbindings)).bind
      (Stoppable.compositional.evalBindings hstops env bindings) fun hsub hN hvs =>
        applyClosure hstops hev hN (StemmingAll.mono hsub hbody) hvs
  | sequence es => exact evalBody hstops hev h hes
  | and es => exact evalAnd hstops hev h (.of_atomic rfl) hes
  | or es => exact evalOr hstops hev h (.of_atomic rfl) hes
  | rejected form es cause _ hrejected =>
    simp only [hrejected]
    exact .fail h (.of_none rfl)

/-- The rule for an expression that makes no closure by itself. -/
theorem evalStep {e : Value} {env : Env} (he : e.Sound (Stems M))
    (hmakes : ∀ name params body, ¬ e.Makes name params body) :
    Records M Stemming (fun i => evalStep (ev i) e env) s := by
  cases e with
  | sym name =>
    refine Records.bind (q := fun N v => ∀ w, v = some w → w.Sound (Stems N)) (.const fun hy => ?_)
      (.const _) fun {N v s'} _ hN hv => ?_
    · cases hy
      exact ⟨Nat.le_refl _, h, fun w hw => h.sound_resolve hw⟩
    · cases v with
      | none => exact .fail hN (.of_none rfl)
      | some v => exact .pure hN (hv v rfl)
  | list es =>
    rcases es with _ | ⟨head, operands⟩
    · exact .pure h he
    obtain ⟨hhead, hoperands⟩ := List.forall_mem_cons.1 (Value.sound_list.1 he)
    cases hform : formOf? head with
    | some form =>
      obtain ⟨name, hname, hform'⟩ := Option.bind_eq_some_iff.1 hform
      obtain rfl := Form.ofName?_eq_some_iff.1 hform'
      cases head <;> cases hname
      simp only [evalStep_form]
      exact evalForm hstops hev h form hoperands hmakes
    | none =>
      simp only [SmallLisp.evalStep, hform]
      refine (hev h hhead).bind (hstops head env) fun {N f s'} hsub hN hf => ?_
      split
      · refine (evalAll hstops hev hN (StemmingAll.mono hsub hoperands)).bind
          (Stoppable.compositional.evalAll hstops env operands) fun hsub' hN' hargs => ?_
        exact apply hstops hev hN' (sound_stems_mono hsub' hf) hargs
      · exact .fail hN (EvalError.sound_notCallable hf)
  | closure => exact .pure h he
  | _ => exact .pure h (.of_atomic rfl)

end Rules

end Records

/-! ## Evaluation -/

section Evaluation

variable {depth : Nat} {e : Value} {env : Env} {s : State}

theorem evalUntil_none_eq_outcome :
    evalUntil none (depth + 1) e env s = (⟨depth, e, env, s⟩ : Point).outcome := by
  rw [evalUntil, evalUntil_none]
  rfl

/-- An evaluation that makes a closure comes to no other one. -/
theorem Point.Makes.reaches_iff {c : Closure} (hc : (⟨depth, e, env, s⟩ : Point).Makes c)
    {p : Point} :
    Reaches (fun i => evalUntil i (depth + 1) e env) s p ↔ p = ⟨depth, e, env, s⟩ := by
  rw [reaches_evalUntil_iff, or_iff_left_iff_imp]
  exact fun hp => (not_reaches_of_eq (fun err => hc.evalStep _) hp).elim

theorem Point.Makes.makings_eq {c : Closure} (hc : (⟨depth, e, env, s⟩ : Point).Makes c) :
    makings (fun i => evalUntil i (depth + 1) e env) s = {⟨depth, e, env, s⟩} := by
  ext p
  simp only [makings, Set.mem_ofPred_eq, hc.reaches_iff, Set.mem_singleton_iff]
  exact and_iff_left_of_imp fun hp => ⟨c, hp ▸ hc⟩

theorem makings_evalUntil_of_not_makes (h : ∀ c, ¬ (⟨depth, e, env, s⟩ : Point).Makes c) :
    makings (fun i => evalUntil i (depth + 1) e env) s =
      makings (fun i => evalStep (evalUntil i depth) e env) s := by
  ext p
  simp only [makings, Set.mem_ofPred_eq, reaches_evalUntil_iff, or_and_right, or_iff_right_iff_imp]
  rintro ⟨rfl, c, hc⟩
  exact (h c hc).elim

variable {M : Set Point}

theorem Point.Makes.records {c : Closure} (hc : (⟨depth, e, env, s⟩ : Point).Makes c)
    (h : Chronicle M s) (he : e.Sound (Stems M)) :
    Records M Records.Stemming (fun i => evalUntil i (depth + 1) e env) s := by
  have hend {r : Except EvalError Value} {s' : State}
      (hr : (⟨depth, e, env, s⟩ : Point).outcome = some (r, s')) :
      s.closures ≤ s'.closures ∧ Chronicle (M ∪ {⟨depth, e, env, s⟩}) s' ∧
        Yields (Stems (M ∪ {⟨depth, e, env, s⟩}))
          (Value.Sound (Stems (M ∪ {⟨depth, e, env, s⟩}))) r := by
    have hended := Option.some.inj (hc.outcome.symm.trans hr)
    have hending := Chronicle.ending h he hc
    rwa [hended] at hending
  constructor
  case reached =>
    intro p hp
    obtain rfl := hc.reaches_iff.1 hp
    rw [hc.makings_eq]
    exact ⟨Nat.le_refl _, Chronicle.known h he Set.subset_union_left fun hr => (hend hr).2⟩
  case distinct =>
    intro p p' hp hp' _
    exact (hc.reaches_iff.1 hp.1).trans (hc.reaches_iff.1 hp'.1).symm
  case ended =>
    intro r s' hr
    rw [hc.makings_eq]
    exact hend (evalUntil_none_eq_outcome.symm.trans hr)

/-- Beside what its rule comes to, an evaluation comes to itself. -/
theorem Records.evalUntil_succ (hmakes : ∀ c, ¬ (⟨depth, e, env, s⟩ : Point).Makes c)
    (hrule : Records M Records.Stemming (fun i => SmallLisp.evalStep (evalUntil i depth) e env) s)
    (h : Chronicle M s) (he : e.Sound (Stems M)) :
    Records M Records.Stemming (fun i => evalUntil i (depth + 1) e env) s := by
  have hmakings := makings_evalUntil_of_not_makes hmakes
  constructor
  case reached =>
    intro p hp
    rw [hmakings]
    rcases reaches_evalUntil_iff.1 hp with rfl | hp
    · exact ⟨Nat.le_refl _, Chronicle.known h he Set.subset_union_left fun hr =>
        (hrule.ended (evalUntil_none_eq_outcome.trans hr)).2⟩
    · exact hrule.reached hp
  case distinct =>
    rw [hmakings]
    exact hrule.distinct
  case ended =>
    rw [hmakings]
    exact hrule.ended

theorem evalUntil_records (depth : Nat) {s : State} {e : Value} {env : Env} (h : Chronicle M s)
    (he : e.Sound (Stems M)) : Records M Records.Stemming (fun i => evalUntil i depth e env) s := by
  induction depth generalizing M s e env with
  | zero => exact .const fun hy => by cases hy
  | succ depth ih =>
    by_cases hmakes : ∃ c, (⟨depth, e, env, s⟩ : Point).Makes c
    · obtain ⟨c, hc⟩ := hmakes
      exact hc.records h he
    · rw [not_exists] at hmakes
      refine .evalUntil_succ hmakes ?_ h he
      exact Records.evalStep (Stoppable.evalUntil depth) ih h he fun name params body hform =>
        hmakes ⟨s.closures, name, params, body, env⟩ ⟨hform, rfl, rfl⟩

end Evaluation

end SmallLisp
