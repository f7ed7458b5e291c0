import Mathlib.Data.Option.Basic
import SmallLisp.Proofs.Heap

/-!
# Names that are not mentioned

Evaluation looks up only names that occur as symbols in the expression or in the body of a closure.
Which closures it can come to depends on the expression and on the frames around it. If none of them
mentions a name `z`, it is never looked up, and two runs from states that differ only in bindings of
`z` are in lockstep without a renaming (`unmentioned_irrelevant`).
-/

namespace SmallLisp

/-! ## Occurrences -/

/-- The symbol occurs in the value, at some depth of its lists. -/
inductive Value.Mentions (z : String) : Value → Prop where
  | sym : Mentions z (.sym z)
  | element {vs : List Value} {v : Value} : v ∈ vs → Mentions z v → Mentions z (.list vs)

/-- The symbol occurs in a parameter list or a body. -/
def Closure.Mentions (z : String) (c : Closure) : Prop :=
  z ∈ c.params ∨ ∃ e ∈ c.body, e.Mentions z

namespace Value

variable {z : String}

theorem mentions_sym {name : String} : (sym name).Mentions z ↔ name = z := by
  constructor
  · rintro ⟨⟩
    rfl
  · rintro rfl
    exact .sym

theorem mentions_list {vs : List Value} : (list vs).Mentions z ↔ ∃ v ∈ vs, v.Mentions z := by
  constructor
  · rintro (_ | ⟨hmem, hv⟩)
    exact ⟨_, hmem, hv⟩
  · rintro ⟨v, hmem, hv⟩
    exact .element hmem hv

theorem Operand.mentions {e e' : Value} (h : e.Operand e') (he : e'.Mentions z) :
    e.Mentions z := by
  cases h with
  | bind hmem =>
    refine .element (List.mem_cons_of_mem _ List.mem_cons_self) (.element hmem ?_)
    exact .element (by simp) he
  | _ => exact .element (by simp [*]) he

theorem sym_mem_of_symbols? {vs : List Value} {names : List String}
    (h : symbols? vs = some names) (hz : z ∈ names) : .sym z ∈ vs := by
  induction vs generalizing names with
  | nil =>
    cases h
    cases hz
  | cons v vs ih =>
    cases v with
    | sym name =>
      obtain ⟨rest, hrest, rfl⟩ := Option.map_eq_some_iff.1 h
      rcases List.mem_cons.1 hz with rfl | hz
      · exact List.mem_cons_self
      · exact List.mem_cons_of_mem _ (ih hrest hz)
    | _ => cases h

theorem Makes.mentions {e : Value} {name : Option String} {params : List String}
    {body : List Value} (h : e.Makes name params body) {identity : Nat} {env : Env}
    (hc : Closure.Mentions z ⟨identity, name, params, body, env⟩) : e.Mentions z := by
  have hparams {list : List Value} (hlist : symbols? list = some params) (hz : z ∈ params) :
      (Value.list list).Mentions z := .element (sym_mem_of_symbols? hlist hz) .sym
  cases h with
  | lambda body hlist =>
    rcases hc with hz | ⟨b, hb, hz⟩
    · exact .element (by simp) (hparams hlist hz)
    · exact .element (by simp [hb]) hz
  | defineFn name body hlist =>
    rcases hc with hz | ⟨b, hb, hz⟩
    · exact .element (by simp) (hparams hlist hz)
    · exact .element (by simp [hb]) hz

end Value

/-! ## What evaluation can get to -/

/-- Evaluation of `e` in `env` can get to an environment or a closure without a look at a binding of
`z`: along outer links, to what captured environments and frames hold, and to what `e` holds. -/
inductive State.Reaches (z : String) (s : State) (e : Value) (env : Env) :
    Env ⊕ Closure → Prop where
  | start : Reaches z s e env (.inl env)
  | outer {inner outer : Env} {f : Frame} : Reaches z s e env (.inl inner) →
      s.frame? inner = some f → f.outer = some outer → Reaches z s e env (.inl outer)
  | captured {c : Closure} : Reaches z s e env (.inr c) → Reaches z s e env (.inl c.env)
  | held {c : Closure} : e.Holds c → Reaches z s e env (.inr c)
  | bound {inner : Env} {f : Frame} {name : String} {v : Value} {c : Closure} :
      Reaches z s e env (.inl inner) → s.frame? inner = some f → name ≠ z →
      f.get? name = some v → v.Holds c → Reaches z s e env (.inr c)

/-! ## States that differ in one name -/

/-- The frames bind the same values to all names but `z`. -/
structure Frame.DifferOnlyIn (z : String) (f g : Frame) : Prop where
  outer : f.outer = g.outer
  get? : ∀ name, name ≠ z → f.get? name = g.get? name

/-- Only bindings of `z` differ, in any of the frames. -/
structure State.DifferOnlyIn (z : String) (s t : State) : Prop where
  frame? : ∀ env, Option.Rel (Frame.DifferOnlyIn z) (s.frame? env) (t.frame? env)
  closures : s.closures = t.closures
  output : s.output = t.output

namespace Frame.DifferOnlyIn

variable {z : String} {f g : Frame}

theorem refl (f : Frame) : f.DifferOnlyIn z f := ⟨rfl, fun _ _ => rfl⟩

theorem insert (h : f.DifferOnlyIn z g) (name : String) (v : Value) :
    (f.insert name v).DifferOnlyIn z (g.insert name v) where
  outer := h.outer
  get? other hother := by
    rw [get?_insert, get?_insert, h.get? other hother]

end Frame.DifferOnlyIn

namespace State.DifferOnlyIn

variable {z : String} {s t : State} (h : s.DifferOnlyIn z t)
include h

theorem frame?_cases (env : Env) : s.frame? env = none ∧ t.frame? env = none ∨
    ∃ f g, s.frame? env = some f ∧ t.frame? env = some g ∧ f.DifferOnlyIn z g := by
  have hframe := h.frame? env
  generalize s.frame? env = x at hframe ⊢
  generalize t.frame? env = y at hframe ⊢
  cases hframe with
  | none => exact .inl ⟨rfl, rfl⟩
  | some hfg => exact .inr ⟨_, _, rfl, rfl, hfg⟩

theorem size_eq : s.frames.size = t.frames.size := by
  have hsize (n : Nat) : s.frames.size ≤ n ↔ t.frames.size ≤ n := by
    rw [← Array.getElem?_eq_none_iff, ← Array.getElem?_eq_none_iff]
    change s.frame? ⟨n⟩ = none ↔ t.frame? ⟨n⟩ = none
    obtain ⟨hs, ht⟩ | ⟨f, g, hs, ht, -⟩ := h.frame?_cases ⟨n⟩ <;> simp [hs, ht]
  exact Nat.le_antisymm ((hsize _).2 (Nat.le_refl _)) ((hsize _).1 (Nat.le_refl _))

theorem push (f : Frame) : (s.push f).2.DifferOnlyIn z (t.push f).2 where
  frame? env := by
    have hnew : (t.push f).1 = (s.push f).1 := congrArg Env.mk h.size_eq.symm
    rw [frame?_push, frame?_push, hnew]
    split
    · exact .some (.refl f)
    · exact h.frame? env
  closures := h.closures
  output := h.output

theorem define (env : Env) (name : String) (v : Value) :
    (s.define env name v).DifferOnlyIn z (t.define env name v) where
  frame? other := by
    rw [frame?_define, frame?_define]
    split
    · obtain ⟨hs, ht⟩ | ⟨f, g, hs, ht, hfg⟩ := h.frame?_cases other
      · simp [hs, ht]
      · simpa [hs, ht] using hfg.insert name v
    · exact h.frame? other
  closures := h.closures
  output := h.output

theorem chainOf (n : Nat) (env : Env) : s.chainOf n env = t.chainOf n env := by
  induction n generalizing env with
  | zero => rfl
  | succ n ih =>
    rw [State.chainOf, State.chainOf]
    obtain ⟨hs, ht⟩ | ⟨⟨bindings, outer⟩, ⟨bindings', outer'⟩, hs, ht, hfg⟩ := h.frame?_cases env
    · rw [hs, ht]
    · obtain rfl : outer = outer' := hfg.outer
      rw [hs, ht]
      cases outer with
      | none => rfl
      | some outer => exact congrArg (env :: ·) (ih outer)

theorem resolve (env : Env) {name : String} (hname : name ≠ z) :
    s.resolve env name = t.resolve env name := by
  rw [State.resolve, State.resolve, State.chain, State.chain, h.chainOf]
  congr 1
  funext e
  obtain ⟨hs, ht⟩ | ⟨f, g, hs, ht, hfg⟩ := h.frame?_cases e
  · rw [hs, ht]
  · rw [hs, ht]
    exact hfg.get? name hname

end State.DifferOnlyIn

/-- Binding `z` anew, in any frame, changes nothing else. -/
theorem State.differOnlyIn_define (s : State) (env : Env) (z : String) (v : Value) :
    s.DifferOnlyIn z (s.define env z v) where
  frame? other := by
    rw [frame?_define]
    split
    · cases s.frame? other with
      | none => exact .none
      | some f => exact .some ⟨rfl, fun name hname => by rw [Frame.get?_insert, if_neg hname]⟩
    · cases s.frame? other with
      | none => exact .none
      | some f => exact .some (.refl f)
  closures := rfl
  output := rfl

/-! ## Runs -/

section Sealed

variable (z : String) (P : Env → Prop)

/-- The closure is in an environment from `P`, and does not mention `z`. -/
def Closure.Avoids (c : Closure) : Prop := P c.env ∧ ¬ c.Mentions z

/-- From the frame outer links lead to environments in `P`, and bindings of names other than `z` to
closures that avoid `z`. -/
structure Frame.Sealed (f : Frame) : Prop where
  outer : ∀ outer, f.outer = some outer → P outer
  get? : ∀ name v, name ≠ z → f.get? name = some v → v.Sound (Closure.Avoids z P)

def State.Sealed (s : State) : Prop := ∀ env f, s.frame? env = some f → P env → f.Sealed z P

end Sealed

section Sealed

variable {z : String} {P : Env → Prop}

theorem Frame.Sealed.insert {f : Frame} (h : f.Sealed z P) (name : String) {v : Value}
    (hv : v.Sound (Closure.Avoids z P)) : (f.insert name v).Sealed z P where
  outer := h.outer
  get? other w hother hw := by
    rw [get?_insert] at hw
    split at hw
    · cases hw
      exact hv
    · exact h.get? other w hother hw

theorem Frame.sealed_ofCall {outer : Env} (houter : P outer) (params : List String)
    {args : List Value} (hargs : ∀ a ∈ args, a.Sound (Closure.Avoids z P)) :
    (ofCall outer params args).Sealed z P := by
  refine ofCall_induction ⟨fun o ho => ?_, fun _ _ _ h => by cases h⟩
    fun f name _ v hv hf => hf.insert name (hargs v hv)
  cases ho
  exact houter

variable {s : State} (h : s.Sealed z P)
include h

theorem State.Sealed.push {f : Frame} (hf : f.Sealed z P) : (s.push f).2.Sealed z P :=
  fun _ _ hg henv => forall_push (p := fun e g => P e → g.Sealed z P) h (fun _ => hf) hg henv

theorem State.Sealed.define (env : Env) (name : String) {v : Value}
    (hv : v.Sound (Closure.Avoids z P)) : (s.define env name v).Sealed z P :=
  fun _ _ hg henv => forall_define (p := fun e g => P e → g.Sealed z P) h
    (fun _ hf henv => (h _ _ hf henv).insert name hv) hg henv

theorem State.Sealed.mem_chainOf {env : Env} (henv : P env) (n : Nat) :
    ∀ e ∈ s.chainOf n env, P e := by
  induction n generalizing env with
  | zero => exact List.forall_mem_nil _
  | succ n ih =>
    rw [chainOf]
    split
    · exact List.forall_mem_nil _
    · exact List.forall_mem_singleton.2 henv
    · next bindings outer hf =>
      exact List.forall_mem_cons.2 ⟨henv, ih ((h env _ hf henv).outer outer rfl)⟩

theorem State.Sealed.sound_resolve {env : Env} (henv : P env) {name : String} (hname : name ≠ z)
    {v : Value} (hv : s.resolve env name = some v) : v.Sound (Closure.Avoids z P) := by
  obtain ⟨e, hmem, he⟩ := List.exists_of_findSome?_eq_some hv
  obtain ⟨f, hf, hv⟩ := Option.bind_eq_some_iff.1 he
  exact (h e f hf (h.mem_chainOf henv _ e hmem)).get? name v hname hv

end Sealed

/-- Two runs from states that differ only in bindings of `z`, where new frames are in `P`. -/
def avoiding (z : String) (P : Env → Prop) : Lockstep .id where
  states s t := s.DifferOnlyIn z t ∧ s.Sealed z P ∧ ∀ env, s.frames.size ≤ env.index → P env
  closure _ c := c.Avoids z P
  code _ env e := P env ∧ ¬ e.Mentions z ∧ e.Sound (Closure.Avoids z P)
  body _ _ es outer := P outer ∧ ∀ e ∈ es, ¬ e.Mentions z ∧ e.Sound (Closure.Avoids z P)
  closure_mono _ hc := hc
  code_mono _ he := he
  body_mono _ hb := hb
  sound_of_code he := he.2.2
  code_operand he hop := ⟨he.1, fun hz => he.2.1 (hop.mentions hz), hop.sound he.2.2⟩
  body_of_bind := by
    rintro s env bindings es ⟨henv, hz, hsound⟩
    refine ⟨henv, fun e hmem => ⟨fun he => hz (.element (by simp [hmem]) he), ?_⟩⟩
    exact Value.sound_list.1 hsound e (by simp [hmem])
  body_of_closure hc hb :=
    ⟨hc.1, fun e he => ⟨fun hz => hc.2 (.inr ⟨e, he, hz⟩), hb e he⟩⟩
  lookup := by
    rintro s t env name ⟨hst, hs, -⟩ ⟨henv, hz, -⟩
    have hname : name ≠ z := fun h => hz (Value.mentions_sym.2 h)
    refine ⟨?_, fun v hv => hs.sound_resolve henv hname hv⟩
    simpa using (hst.resolve env hname).symm
  enter := by
    rintro s t params es args outer ⟨hst, hs, hfresh⟩ ⟨houter, hes⟩ hargs -
    rw [Value.rename_id, List.map_id]
    have hframe := Frame.sealed_ofCall houter params hargs
    refine ⟨congrArg Env.mk hst.size_eq, ⟨hst.push _, hs.push hframe, fun env henv => ?_⟩, ?_⟩
    · exact hfresh env (Nat.le_of_succ_le (by rwa [State.size_frames_push] at henv))
    · exact fun e he => ⟨hfresh _ (Nat.le_refl _), hes e he⟩
  define := by
    rintro s t env e v name ⟨hst, hs, hfresh⟩ - - hv
    rw [Value.rename_id]
    exact ⟨hst.define env name v, hs.define env name hv, by rwa [State.size_frames_define]⟩
  make := by
    rintro s t env e name params es ⟨hst, hs, hfresh⟩ ⟨henv, hz, -⟩ hmakes
    exact ⟨hst.closures, ⟨⟨hst.frame?, congrArg (· + 1) hst.closures, hst.output⟩, hs, hfresh⟩,
      henv, fun hc => hz (hmakes.mentions hc)⟩
  print := by
    rintro s t text ⟨hst, hs, hfresh⟩
    exact ⟨⟨hst.frame?, hst.closures, congrArg (· ++ text) hst.output⟩, hs, hfresh⟩

/-- Let two states differ only in bindings of `z`, and let neither `v` nor any closure that its
evaluation can get to mention `z`. Then the evaluations of `v` from both end, or neither does. They
have the same result and print the same, and afterwards again only bindings of `z` differ. -/
theorem unmentioned_irrelevant {z : String} {v : Value} {env : Env} {s t : State}
    (hst : s.DifferOnlyIn z t) (hv : ¬ v.Mentions z)
    (hreach : ∀ c, s.Reaches z v env (.inr c) → ¬ c.Mentions z) (depth : Nat) :
    Option.Rel (fun p q => p.1 = q.1 ∧ p.2.DifferOnlyIn z q.2) (eval depth v env s)
      (eval depth v env t) := by
  -- the environments in reach, and those of the frames that the run will make
  let P : Env → Prop := fun e => s.Reaches z v env (.inl e) ∨ s.frames.size ≤ e.index
  have havoids {c : Closure} (hc : s.Reaches z v env (.inr c)) : c.Avoids z P :=
    ⟨.inl (.captured hc), hreach c hc⟩
  have hsealed : s.Sealed z P := by
    rintro e f hf (he | he)
    · exact ⟨fun outer ho => .inl (.outer he hf ho), fun name w hname hw c hc =>
        havoids (.bound he hf hname hw hc)⟩
    · have hnone : s.frame? e = none := Array.getElem?_eq_none he
      rw [hnone] at hf
      cases hf
  have hstates : (avoiding z P).states s t := ⟨hst, hsealed, fun e he => .inr he⟩
  have hagree := (avoiding z P).eval_agrees depth hstates
    (⟨.inl .start, hv, fun c hc => havoids (.held hc)⟩ : (avoiding z P).code s env v)
  have hid : eval depth v env t = eval depth (v.rename .id) (Renaming.id.env env) t := by
    rw [Value.rename_id]
    rfl
  rw [hid]
  cases hagree with
  | endless hs ht =>
    rw [hs, ht]
    exact .none
  | value hs ht _ hst' hw =>
    obtain ⟨rfl, -⟩ := hw
    rw [hs, ht]
    exact .some ⟨by rw [Value.rename_id]; rfl, hst'.1⟩
  | error hs ht _ hst' _ =>
    rw [hs, ht]
    exact .some ⟨by rw [EvalError.rename_id]; rfl, hst'.1⟩

/-- `f` conses onto `()`, which it quotes. Binding `nil` anew changes nothing for a call of `f`. -/
theorem unmentioned_irrelevant_nil :
    let f : Value := .closure 0 (some "f") ["x"]
      [.list [.sym "cons", .sym "x", .list [.sym "quote", .list []]]] ⟨0⟩
    let e : Value := .list [.sym "f", .int 1]
    let s : State := ⟨#[⟨[("cons", .builtin .cons), ("nil", .nil), ("f", f)], none⟩], 1, ""⟩
    ¬ e.Mentions "nil" ∧ (∀ c, s.Reaches "nil" e ⟨0⟩ (.inr c) → ¬ c.Mentions "nil") ∧
    ∀ v, ∃ t, eval 4 e ⟨0⟩ (s.define ⟨0⟩ "nil" v) = some (.ok (.list [.int 1]), t) := by
  intro f e s
  have he : ¬ e.Mentions "nil" := by
    have hint : ¬ (Value.int 1).Mentions "nil" := nofun
    simp [e, Value.mentions_list, Value.mentions_sym, hint]
  let p : Closure → Prop := fun c => c.env = ⟨0⟩ ∧ ¬ c.Mentions "nil"
  have hsym (name : String) : (Value.sym name).Sound p := .of_atomic rfl
  have hint : (Value.int 1).Sound p := .of_atomic rfl
  have hf : f.Sound p := by
    refine .of_closure ⟨rfl, ?_⟩ (by simp [Value.sound_list, hsym])
    simp [Closure.Mentions, Value.mentions_list, Value.mentions_sym]
  have hreach (c : Closure) (hc : s.Reaches "nil" e ⟨0⟩ (.inr c)) : ¬ c.Mentions "nil" := by
    suffices ∀ q, s.Reaches "nil" e ⟨0⟩ q → Sum.elim (· = ⟨0⟩) p q from (this _ hc).2
    intro q hq
    induction hq with
    | start => rfl
    | outer _ hframe houter ih =>
      obtain rfl := ih
      cases hframe
      cases houter
    | captured _ ih => exact ih.1
    | held hc =>
      have hsound : e.Sound p := Value.sound_list.2 (by simp [hsym, hint])
      exact hsound _ hc
    | bound _ hframe _ hv hc ih =>
      obtain rfl := ih
      cases hframe
      have hmem : (_, _) ∈ [("cons", Value.builtin .cons), ("nil", .nil), ("f", f)] :=
        Frame.mem_of_get? hv
      simp only [List.mem_cons, List.not_mem_nil, Prod.mk.injEq, or_false] at hmem
      obtain ⟨-, rfl⟩ | ⟨-, rfl⟩ | ⟨-, rfl⟩ := hmem
      · cases hc
      · cases hc
      · exact hf _ hc
  refine ⟨he, hreach, fun v => ?_⟩
  have hrel := unmentioned_irrelevant (s.differOnlyIn_define ⟨0⟩ "nil" v) he hreach 4
  have hs : eval 4 e ⟨0⟩ s =
      some (.ok (.list [.int 1]), (s.push ⟨[("x", .int 1)], some ⟨0⟩⟩).2) := rfl
  rw [hs] at hrel
  generalize eval 4 e ⟨0⟩ (s.define ⟨0⟩ "nil" v) = r at hrel
  cases hrel with
  | @some _ q h =>
    obtain ⟨result, t⟩ := q
    obtain ⟨rfl, -⟩ := h
    exact ⟨t, rfl⟩

end SmallLisp
