import SmallLisp.Eval.Depth

/-!
# What evaluation writes

Evaluation in an environment binds names in its frame and in no other frame that was there
before: the body of a closure runs in a frame made by the call, so what it defines is defined
there. `State.Confined` says this of the states before and after, and every rule of evaluation
keeps it. The names bound are those for which the expression has a defining list
(`Value.Defines`).
-/

namespace SmallLisp

/-- The value has, at some depth of its lists, a list `(def name …)` or `(defn name …)`. -/
inductive Value.Defines (name : String) : Value → Prop where
  | define (rest : List Value) : Defines name (.list (.sym "def" :: .sym name :: rest))
  | defineFn (rest : List Value) : Defines name (.list (.sym "defn" :: .sym name :: rest))
  | element {v : Value} {vs : List Value} : v ∈ vs → Defines name v → Defines name (.list vs)

/-- `g` is `f` with more bindings, or others, for names that satisfy `names`. -/
structure Frame.Extends (names : String → Prop) (f g : Frame) : Prop where
  outer : g.outer = f.outer
  kept : ∀ name, (f.get? name).isSome → (g.get? name).isSome
  changed : ∀ name, g.get? name ≠ f.get? name → names name

/-- No frame changes from `s` to `s'`; there may be new ones. -/
def State.Keeps (s s' : State) : Prop := ∀ env f, s.frame? env = some f → s'.frame? env = some f

/-- No frame but that of `env` changes from `s` to `s'`, and that one only for some names. -/
structure State.Confined (env : Env) (names : String → Prop) (s s' : State) : Prop where
  other : ∀ env' f, env' ≠ env → s.frame? env' = some f → s'.frame? env' = some f
  own : ∀ f, s.frame? env = some f → ∃ g, s'.frame? env = some g ∧ f.Extends names g

/-- Whatever the outcome of the run, `R` relates the states before and after it. -/
def Run.Always {ε α : Type} (R : State → State → Prop) (x : Run ε α) : Prop :=
  ∀ s r s', x s = some (r, s') → R s s'

/-! ## Changes of a frame -/

namespace Frame.Extends

variable {names names' : String → Prop} {f g h : Frame}

theorem refl (f : Frame) : f.Extends names f := ⟨rfl, fun _ h => h, fun _ h => (h rfl).elim⟩

theorem trans (hg : f.Extends names g) (hh : g.Extends names h) : f.Extends names h where
  outer := hh.outer.trans hg.outer
  kept name hf := hh.kept name (hg.kept name hf)
  changed name hne := by
    by_cases e : g.get? name = f.get? name
    · exact hh.changed name (e ▸ hne)
    · exact hg.changed name e

theorem mono (hg : f.Extends names g) (h : ∀ name, names name → names' name) :
    f.Extends names' g :=
  ⟨hg.outer, hg.kept, fun name hne => h name (hg.changed name hne)⟩

theorem insert (f : Frame) {name : String} (v : Value) (h : names name) :
    f.Extends names (f.insert name v) where
  outer := rfl
  kept other hf := by
    rw [get?_insert]
    split
    · rfl
    · exact hf
  changed other hne := by
    rw [get?_insert] at hne
    split at hne
    · next e => exact e ▸ h
    · exact (hne rfl).elim

end Frame.Extends

namespace State

theorem Keeps.refl (s : State) : s.Keeps s := fun _ _ h => h

theorem Keeps.trans {s s' s'' : State} (h : s.Keeps s') (h' : s'.Keeps s'') : s.Keeps s'' :=
  fun env f hf => h' env f (h env f hf)

theorem Keeps.print (s : State) (text : String) : s.Keeps (s.print text) := Keeps.refl s

theorem Keeps.confined {s s' : State} (h : s.Keeps s') (env : Env) (names : String → Prop) :
    s.Confined env names s' :=
  ⟨fun env' f _ hf => h env' f hf, fun f hf => ⟨f, h env f hf, .refl f⟩⟩

theorem frame?_fresh (s : State) : s.frame? ⟨s.frames.size⟩ = none := by simp [frame?]

theorem Keeps.push (s : State) (f : Frame) : s.Keeps (s.push f).2 := by
  intro env g hg
  rw [frame?_push, if_neg, hg]
  rintro rfl
  rw [show (s.push f).1 = ⟨s.frames.size⟩ from rfl, frame?_fresh] at hg
  cases hg

/-- What is confined to a frame made in between keeps the frames from before. -/
theorem Confined.keeps_of_push {s s' : State} {f : Frame} {names : String → Prop}
    (h : (s.push f).2.Confined (s.push f).1 names s') : s.Keeps s' := by
  intro env g hg
  refine h.other env g ?_ (Keeps.push s f env g hg)
  rintro rfl
  rw [show (s.push f).1 = ⟨s.frames.size⟩ from rfl, frame?_fresh] at hg
  cases hg

namespace Confined

variable {env : Env} {names names' : String → Prop} {s s' s'' : State}

theorem refl (s : State) : s.Confined env names s :=
  (Keeps.refl s).confined env names

theorem trans (h : s.Confined env names s') (h' : s'.Confined env names s'') :
    s.Confined env names s'' where
  other env' f hne hf := h'.other env' f hne (h.other env' f hne hf)
  own f hf := by
    obtain ⟨g, hg, hfg⟩ := h.own f hf
    obtain ⟨k, hk, hgk⟩ := h'.own g hg
    exact ⟨k, hk, hfg.trans hgk⟩

theorem mono (h : s.Confined env names s') (hn : ∀ name, names name → names' name) :
    s.Confined env names' s' where
  other := h.other
  own f hf := by
    obtain ⟨g, hg, hfg⟩ := h.own f hf
    exact ⟨g, hg, hfg.mono hn⟩

theorem define (s : State) {name : String} (v : Value) (h : names name) :
    s.Confined env names (s.define env name v) where
  other env' f hne hf := by rw [frame?_define, if_neg hne, hf]
  own f hf := ⟨f.insert name v, by rw [frame?_define, if_pos rfl, hf]; rfl, .insert f v h⟩

end Confined

end State

/-! ## Runs -/

namespace Run.Always

variable {ε α β : Type} {R R' : State → State → Prop}

theorem pure (refl : ∀ s, R s s) (a : α) : Always R (Pure.pure a : Run ε α) := by
  rintro s r s' ⟨⟩
  exact refl s

theorem fail (refl : ∀ s, R s s) (e : ε) : Always R (Run.fail e : Run ε α) := by
  rintro s r s' ⟨⟩
  exact refl s

theorem bind (trans : ∀ {a b c}, R a b → R b c → R a c) {x : Run ε α} {f : α → Run ε β}
    (hx : x.Always R) (hf : ∀ a, (f a).Always R) : (x >>= f).Always R := by
  intro s r s' h
  rcases Run.bind_eq_some h with ⟨e, t, hxs, hp⟩ | ⟨a, t, hxs, h⟩
  · cases hp
    exact hx s _ s' hxs
  · exact trans (hx s _ t hxs) (hf a t r s' h)

theorem ofExcept (refl : ∀ s, R s s) (x : Except ε α) : Always R (Run.ofExcept x) := by
  cases x with
  | ok a => exact pure refl a
  | error e => exact fail refl e

theorem read (refl : ∀ s, R s s) (f : State → α) : Always R (Run.read f : Run ε α) := by
  rintro s r s' ⟨⟩
  exact refl s

theorem modify {f : State → State} (h : ∀ s, R s (f s)) : Always R (Run.modify f : Run ε Unit) := by
  rintro s r s' ⟨⟩
  exact h s

theorem update {f : State → α × State} (h : ∀ s, R s (f s).2) :
    Always R (Run.update f : Run ε α) := by
  rintro s r s' ⟨⟩
  exact h s

theorem mono {x : Run ε α} (hx : x.Always R) (h : ∀ s s', R s s' → R' s s') : x.Always R' :=
  fun s r s' hs => h s s' (hx s r s' hs)

end Run.Always

/-- Evaluation by `ev` binds only names that the expression defines, in the frame of its
environment. -/
def ConfinedEval (ev : Value → Env → Eval Value) : Prop :=
  ∀ e env, (ev e env).Always (State.Confined env fun name => e.Defines name)

/-- Every name that one of the expressions defines is in `names`. -/
def Covers (names : String → Prop) (es : List Value) : Prop :=
  ∀ e ∈ es, ∀ name, e.Defines name → names name

theorem Covers.head {names : String → Prop} {e : Value} {es : List Value}
    (hn : Covers names (e :: es)) {name : String} (hd : e.Defines name) : names name :=
  hn e List.mem_cons_self name hd

theorem Covers.tail {names : String → Prop} {e : Value} {es : List Value}
    (hn : Covers names (e :: es)) : Covers names es :=
  fun e' he => hn e' (List.mem_cons_of_mem _ he)

theorem covers_defines_list (es : List Value) :
    Covers (fun name => (Value.list es).Defines name) es :=
  fun _ he _ hd => .element he hd

section Rules

variable {ev : Value → Env → Eval Value} (h : ConfinedEval ev) (env : Env)
  {names : String → Prop}
include h

theorem ConfinedEval.of_imp {e : Value} (hn : ∀ name, e.Defines name → names name) :
    (ev e env).Always (State.Confined env names) :=
  (h e env).mono fun _ _ hc => hc.mono hn

theorem evalAll_confined {es : List Value} (hn : Covers names es) :
    (evalAll ev env es).Always (State.Confined env names) := by
  induction es with
  | nil => exact .pure .refl _
  | cons e es ih =>
    refine .bind .trans (h.of_imp env fun _ => hn.head) fun v => ?_
    exact .bind .trans (ih hn.tail) fun vs => .pure .refl _

theorem evalBody_confined {es : List Value} (hn : Covers names es) :
    (evalBody ev env es).Always (State.Confined env names) := by
  fun_induction evalBody ev env es with
  | case1 => exact .pure .refl _
  | case2 e => exact h.of_imp env fun _ => hn.head
  | case3 e e' es ih => exact .bind .trans (h.of_imp env fun _ => hn.head) fun _ => ih hn.tail

theorem evalAnd_confined {es : List Value} (hn : Covers names es) (last : Value) :
    (evalAnd ev env last es).Always (State.Confined env names) := by
  induction es generalizing last with
  | nil => exact .pure .refl _
  | cons e es ih =>
    refine .bind .trans (h.of_imp env fun _ => hn.head) fun v => ?_
    split
    · exact ih hn.tail v
    · exact .pure .refl _

theorem evalOr_confined {es : List Value} (hn : Covers names es) (last : Value) :
    (evalOr ev env last es).Always (State.Confined env names) := by
  induction es generalizing last with
  | nil => exact .pure .refl _
  | cons e es ih =>
    refine .bind .trans (h.of_imp env fun _ => hn.head) fun v => ?_
    split
    · exact .pure .refl _
    · exact ih hn.tail v

theorem evalBindings_confined {bindings : List Value} (hn : Covers names bindings) :
    (evalBindings ev env bindings).Always (State.Confined env names) := by
  fun_induction evalBindings ev env bindings with
  | case1 => exact .pure .refl _
  | case2 name e bindings ih =>
    have he : e ∈ [.sym name, e] := by simp
    refine .bind .trans (h.of_imp env fun _ hd => hn.head (.element he hd)) fun v => ?_
    exact .bind .trans (ih hn.tail) fun _ => .pure .refl _
  | case3 => exact .fail .refl _

omit h in
theorem applyBuiltin_keeps (b : Builtin) (args : List Value) :
    (applyBuiltin b args).Always State.Keeps := by
  refine .bind .trans (.ofExcept .refl _) fun v => ?_
  exact .bind .trans (.modify fun s => .print s _) fun _ => .pure .refl _

theorem applyClosure_keeps (name : Option String) (params : List String) (body : List Value)
    (outer : Env) (args : List Value) :
    (applyClosure ev name params body outer args).Always State.Keeps := by
  unfold applyClosure
  split
  · intro s r s' hs
    exact (evalBody_confined h _ (covers_defines_list body) _ _ _ hs).keeps_of_push
  · exact .fail .refl _

theorem apply_keeps (f : Value) (args : List Value) : (apply ev f args).Always State.Keeps := by
  unfold apply
  split
  · exact applyBuiltin_keeps _ _
  · exact applyClosure_keeps h _ _ _ _ _
  · exact .fail .refl _

/-! ### Forms and expressions -/

omit h in
theorem makeClosure_keeps (form : Form) (name : Option String) (definition : List Value) :
    (makeClosure form name env definition).Always State.Keeps := by
  unfold makeClosure
  split
  · split
    · exact .bind .trans (.update .refl) fun _ => .pure .refl _
    · exact .fail .refl _
  · exact .fail .refl _

theorem evalForm_confined (form : Form) (es : List Value) :
    (evalForm ev env form es).Always
      (State.Confined env fun name => (Value.list (.sym form.name :: es)).Defines name) := by
  have hn := (covers_defines_list (.sym form.name :: es)).tail
  have he {e : Value} (hm : e ∈ es) := h.of_imp env (hn e hm)
  cases form, es using evalForm_cases with
  | quote v => exact .pure .refl _
  | define name e =>
    exact .bind .trans (he (by simp)) fun v =>
      .bind .trans (.modify fun s => .define s v (.define [e])) fun _ => .pure .refl _
  | defineFn name definition =>
    refine .bind .trans
      ((makeClosure_keeps env _ _ _).mono fun _ _ hk => hk.confined _ _) fun f => ?_
    exact .bind .trans (.modify fun s => .define s f (.defineFn definition)) fun _ => .pure .refl _
  | lambda es =>
    exact (makeClosure_keeps env _ _ _).mono fun _ _ hk => hk.confined _ _
  | branch test e =>
    refine .bind .trans (he (by simp)) fun v => ?_
    split
    · exact he (by simp)
    · exact .pure .refl _
  | branchElse test e e' =>
    refine .bind .trans (he (by simp)) fun v => ?_
    split
    · exact he (by simp)
    · exact he (by simp)
  | bind bindings body =>
    refine .bind .trans (evalBindings_confined h env fun e hm name hd => ?_) fun p => ?_
    · exact hn _ List.mem_cons_self name (.element hm hd)
    · -- the body has a frame of its own
      exact (applyClosure_keeps h _ _ _ _ _).mono fun _ _ hk => hk.confined _ _
  | sequence es => exact evalBody_confined h env hn
  | and es => exact evalAnd_confined h env hn _
  | or es => exact evalOr_confined h env hn _
  | rejected form es cause _ hes =>
    rw [hes]
    exact .fail .refl _

theorem evalStep_confined : ConfinedEval (evalStep ev) := by
  intro e env
  unfold evalStep
  split
  · refine .bind .trans (.read .refl _) fun v => ?_
    split
    · exact .pure .refl _
    · exact .fail .refl _
  · next head operands =>
    have hn := covers_defines_list (head :: operands)
    split
    · next form hform =>
      obtain ⟨name, hhead, hname⟩ := Option.bind_eq_some_iff.1 hform
      obtain rfl := Form.ofName?_eq_some_iff.1 hname
      cases head <;> cases hhead
      exact evalForm_confined h env form operands
    · refine .bind .trans (h.of_imp env fun _ => hn.head) fun f => ?_
      split
      · exact .bind .trans (evalAll_confined h env hn.tail) fun args =>
          (apply_keeps h f args).mono fun _ _ hk => hk.confined _ _
      · exact .fail .refl _
  · exact .pure .refl _

end Rules

theorem eval_confined (depth : Nat) : ConfinedEval (eval depth) := by
  induction depth with
  | zero => intro e env s r s' hs; cases hs
  | succ depth ih => exact evalStep_confined ih

/-- Evaluation in an environment changes no frame but its own, which loses no binding and changes
only for names that the expression defines. A call changes no frame at all. -/
theorem frame_law (depth : Nat) :
    (∀ e env s r s', eval depth e env s = some (r, s') →
      s.Confined env (fun name => e.Defines name) s') ∧
    ∀ f args s r s', apply (eval depth) f args s = some (r, s') → s.Keeps s' :=
  ⟨eval_confined depth, apply_keeps (eval_confined depth)⟩

/-- `f`, made in the outer of two frames, defines `x` when it is called from the inner one, which
defines `x` too: the `x` of the outer frame stays. -/
theorem frame_law_outer_binding :
    let f : Value := .closure 0 (some "f") ["y"] [.list [.sym "def", .sym "x", .sym "y"]] ⟨0⟩
    let e : Value := .list [.sym "do", .list [.sym "def", .sym "x", .int 2],
      .list [.sym "f", .int 3]]
    let outer : Frame := ⟨[("x", .int 1), ("f", f)], none⟩
    let s : State := ⟨#[outer, ⟨[], some ⟨0⟩⟩], 1, ""⟩
    (∃ s', eval 5 e ⟨1⟩ s = some (.ok .nil, s') ∧ s'.frame? ⟨0⟩ = some outer) ∧
    ∃ s', apply (eval 5) f [.int 3] s = some (.ok .nil, s') ∧ s'.frame? ⟨0⟩ = some outer := by
  intro f e outer s
  refine ⟨⟨_, rfl, ?_⟩, ⟨_, rfl, ?_⟩⟩
  · exact ((frame_law 5).1 e ⟨1⟩ s _ _ rfl).other ⟨0⟩ outer (by decide) rfl
  · exact (frame_law 5).2 f [.int 3] s _ _ rfl ⟨0⟩ outer rfl

end SmallLisp
