import SmallLisp.Proofs.Discipline

/-!
# Names in scope

A name is free in an expression if evaluation may look it up outside of what the expression itself
binds. When the free names of an expression are bound around its environment, and those of closure
bodies are parameters or bound around the captured one, then every name that is looked up is found,
and it remains so (`scoped_lookups_succeed`): frames do not lose names, and the body of a function
or of a `let` is evaluated in a frame that has all the names that the form binds in it.
-/

namespace SmallLisp

/-! ## Free names -/

namespace Value

/-- The name that an element of a binding list binds. -/
def boundName? : Value → Option String
  | .list (.sym name :: _) => some name
  | _ => none

/-- The expressions in an element of a binding list. -/
def boundExpressions : Value → List Value
  | .list (.sym _ :: es) => es
  | v => [v]

end Value

/-- The expressions in the definition of a closure, of which the body sees the parameters. -/
def definitionScopes : List Value → List (List String × Value)
  | .list params :: body => body.map (params.filterMap Value.symbol?, ·)
  | es => es.map ([], ·)

/-- The expressions among the operands of a form, each with the names that the form binds in it.
What is quoted is not one of them, nor is a name that the form binds. -/
def Form.scopes : Form → List Value → List (List String × Value)
  | quote, _ => []
  | define, es => es.tail.map ([], ·)
  | defineFn, es => definitionScopes es.tail
  | lambda, es => definitionScopes es
  | bind, .list bindings :: body =>
    (bindings.flatMap Value.boundExpressions).map ([], ·) ++
      body.map (bindings.filterMap Value.boundName?, ·)
  | _, es => es.map ([], ·)

namespace Value

/-- The expressions in a call or a form, each with the names that are bound in it. -/
def scopes : Value → List (List String × Value)
  | .list (head :: operands) =>
    match formOf? head with
    | some form => form.scopes operands
    | none => (head :: operands).map ([], ·)
  | _ => []

/-- The name occurs in the expression where nothing in the expression binds it. -/
inductive Free (name : String) : Value → Prop where
  | sym : Free name (.sym name)
  | inner {v e : Value} {names : List String} : (names, e) ∈ v.scopes → name ∉ names →
      Free name e → Free name v

/-- The free names of the expression are among `names`. -/
def InScope (v : Value) (names : String → Prop) : Prop := ∀ name, v.Free name → names name

theorem inScope_sym {name : String} {names : String → Prop} :
    (sym name).InScope names ↔ names name := by
  constructor
  · exact fun h => h name .sym
  · rintro h _ (_ | ⟨hmem, _, _⟩)
    · exact h
    · cases hmem

/-- In an expression of a form the names may occur that the form binds in it. -/
theorem InScope.inner {v e : Value} {names : String → Prop} {bound : List String}
    (h : v.InScope names) (he : (bound, e) ∈ v.scopes) :
    e.InScope fun name => name ∈ bound ∨ names name := by
  intro name hname
  by_cases hbound : name ∈ bound
  · exact .inl hbound
  · exact .inr (h name (.inner he hbound hname))

theorem inScope_list {vs : List Value} {names : String → Prop} :
    (list vs).InScope names ↔
      ∀ p ∈ (list vs).scopes, p.2.InScope fun name => name ∈ p.1 ∨ names name := by
  constructor
  · exact fun h p hp => h.inner hp
  · rintro h name (_ | ⟨hmem, hname, he⟩)
    exact (h _ hmem name he).resolve_left hname

theorem InScope.of_atomic {v : Value} {names : String → Prop} (h : v.atomic = true)
    (hsym : v.symbol? = none) : v.InScope names := by
  rintro name (_ | ⟨hmem, _, _⟩)
  · cases hsym
  · cases v <;> first | cases hmem | cases h

theorem InScope.mono {v : Value} {names names' : String → Prop} (h : v.InScope names)
    (hnames : ∀ name, names name → names' name) : v.InScope names' :=
  fun name hv => hnames name (h name hv)

theorem Operand.mem_scopes {e e' : Value} (h : e.Operand e') : ([], e') ∈ e.scopes := by
  cases h with
  | @call head _ es hhead hmem =>
    rw [scopes, hhead]
    exact List.mem_map_of_mem hmem
  | define => exact List.mem_singleton_self _
  | @bind name _ bindings body hmem =>
    refine List.mem_append_left _ (List.mem_map_of_mem (List.mem_flatMap.2 ⟨_, hmem, ?_⟩))
    exact List.mem_singleton_self _
  | branch hmem | sequence hmem | and hmem | or hmem => exact List.mem_map_of_mem hmem

theorem filterMap_symbol? {vs : List Value} {names : List String}
    (h : symbols? vs = some names) : vs.filterMap symbol? = names := by
  induction vs generalizing names with
  | nil =>
    cases h
    rfl
  | cons v vs ih =>
    cases v with
    | sym name =>
      obtain ⟨rest, hrest, rfl⟩ := Option.map_eq_some_iff.1 h
      exact congrArg (name :: ·) (ih hrest)
    | _ => cases h

theorem Makes.mem_scopes {e : Value} {name : Option String} {params : List String}
    {body : List Value} (h : e.Makes name params body) {b : Value} (hb : b ∈ body) :
    (params, b) ∈ e.scopes := by
  cases h with
  | lambda body hparams | defineFn _ body hparams =>
    rw [← filterMap_symbol? hparams]
    exact List.mem_map_of_mem hb

theorem filterMap_boundName? {bindings : List Value}
    (h : ∀ b ∈ bindings, ∃ name e, b = .list [.sym name, e]) :
    bindings.filterMap boundName? = boundNames bindings := by
  induction bindings with
  | nil => rfl
  | cons b bindings ih =>
    obtain ⟨⟨name, e, rfl⟩, hbindings⟩ := List.forall_mem_cons.1 h
    exact congrArg (name :: ·) (ih hbindings)

end Value

/-! ## Bound names -/

theorem Frame.isSome_get?_foldl (bs : List (String × Value)) (f : Frame) (name : String) :
    ((bs.foldl (fun f (name, v) => f.insert name v) f).get? name).isSome ↔
      name ∈ bs.map Prod.fst ∨ (f.get? name).isSome := by
  induction bs generalizing f with
  | nil => simp
  | cons b bs ih =>
    rw [List.foldl_cons, ih, get?_insert]
    by_cases h : name = b.1 <;> simp [h]

theorem Frame.isSome_get?_ofCall (outer : Env) {params : List String} {args : List Value}
    (h : params.length = args.length) {name : String} (hname : name ∈ params) :
    ((ofCall outer params args).get? name).isSome := by
  refine (isSome_get?_foldl _ _ name).2 (.inl ?_)
  rwa [List.map_fst_zip (Nat.le_of_eq h)]

namespace State

variable {s s' : State}

/-- The name is bound in the frame of the environment, or further outwards. -/
def Binds (s : State) (env : Env) (name : String) : Prop :=
  ∃ e ∈ s.chain env, ∃ f, s.frame? e = some f ∧ (f.get? name).isSome

theorem Binds.resolve_ne_none {env : Env} {name : String} (h : s.Binds env name) :
    s.resolve env name ≠ none := by
  obtain ⟨e, he, f, hf, hname⟩ := h
  intro hnone
  have := List.findSome?_eq_none_iff.1 hnone e he
  rw [hf, Option.bind_some] at this
  rw [this] at hname
  cases hname

/-- A global environment binds the names in its frame. -/
theorem binds_iff_of_outer_eq_none {env : Env} {f : Frame} (hf : s.frame? env = some f)
    (houter : f.outer = none) {name : String} : s.Binds env name ↔ (f.get? name).isSome := by
  obtain ⟨bindings, outer⟩ := f
  obtain rfl : outer = none := houter
  simp [Binds, chain, chainOf, hf]

theorem chain_eq_cons {env outer : Env} {f : Frame} (hf : s.frame? env = some f)
    (ho : f.outer = some outer) : s.chain env = env :: s.chainOf env.index outer := by
  obtain ⟨bindings, o⟩ := f
  obtain rfl : o = some outer := ho
  rw [chain, chainOf, hf]

theorem allocated_of_mem_chain {env e : Env} (he : e ∈ s.chain env) : s.Allocated env := by
  rw [allocated_iff, ← Option.ne_none_iff_exists']
  intro hnone
  rw [chain, chainOf, hnone] at he
  cases he

theorem mem_chainOf_mono (h : s.Grows s') {m n : Nat} (hmn : m ≤ n) {env e : Env}
    (he : e ∈ s.chainOf m env) : e ∈ s'.chainOf n env := by
  induction m generalizing n env with
  | zero => cases he
  | succ m ih =>
    obtain ⟨n, rfl⟩ : ∃ k, n = k + 1 := ⟨n - 1, by omega⟩
    rw [chainOf] at he
    split at he
    · cases he
    · next bindings hf =>
      obtain ⟨⟨bindings', outer⟩, hg, hfg⟩ := h.kept env _ hf
      obtain rfl : outer = none := hfg.outer
      rw [chainOf, hg]
      exact he
    · next bindings outer hf =>
      obtain ⟨⟨bindings', outer'⟩, hg, hfg⟩ := h.kept env _ hf
      obtain rfl : outer' = some outer := hfg.outer
      rw [chainOf, hg]
      rcases List.mem_cons.1 he with rfl | he
      · exact List.mem_cons_self
      · exact List.mem_cons_of_mem _ (ih (Nat.le_of_succ_le_succ hmn) he)

theorem Binds.mono (h : s.Grows s') {env : Env} {name : String} (hname : s.Binds env name) :
    s'.Binds env name := by
  obtain ⟨e, he, f, hf, hname⟩ := hname
  obtain ⟨g, hg, hfg⟩ := h.kept e f hf
  exact ⟨e, mem_chainOf_mono h (Nat.le_refl _) he, g, hg, hfg.kept name hname⟩

/-- The frame of a call binds the parameters, and leads to what is bound outwards. -/
theorem binds_push_ofCall {outer : Env} {params : List String} {args : List Value}
    (h : params.length = args.length) {name : String}
    (hname : name ∈ params ∨ s.Binds outer name) :
    let p := s.push (.ofCall outer params args)
    p.2.Binds p.1 name := by
  intro p
  have hgrows : s.Grows p.2 := .push_ofCall s outer params args
  have hf : p.2.frame? p.1 = some (.ofCall outer params args) := by
    rw [frame?_push, if_pos rfl]
  have hchain : p.2.chain p.1 = p.1 :: p.2.chainOf s.frames.size outer :=
    chain_eq_cons hf (Frame.outer_ofCall outer params args)
  rcases hname with hname | ⟨e, he, f, hfe, hname⟩
  · exact ⟨p.1, by rw [hchain]; exact List.mem_cons_self, _, hf,
      Frame.isSome_get?_ofCall outer h hname⟩
  · obtain ⟨g, hg, hfg⟩ := hgrows.kept e f hfe
    refine ⟨e, ?_, g, hg, hfg.kept name hname⟩
    rw [hchain]
    -- the outer environment is older, so its chain is not cut short by the number of the new one
    exact List.mem_cons_of_mem _ (mem_chainOf_mono hgrows (allocated_of_mem_chain he) he)

end State

/-! ## Runs -/

/-- The free names of the body are parameters, or bound around the captured environment. -/
def Closure.InScope (s : State) (c : Closure) : Prop :=
  ∀ e ∈ c.body, e.InScope fun name => name ∈ c.params ∨ s.Binds c.env name

/-- Free names are bound. -/
def scoping : Discipline where
  closure s c := c.InScope s
  code _ s env e := e.InScope (s.Binds env)
  body _ s params es outer := ∀ e ∈ es, e.InScope fun name => name ∈ params ∨ s.Binds outer name
  unbound := False
  endless := True
  closure_mono hs hc e he := (hc e he).mono fun _ => Or.imp_right (.mono hs)
  code_mono hs he := he.mono fun _ => .mono hs
  body_mono hs hes e he := (hes e he).mono fun _ => Or.imp_right (.mono hs)
  code_zero _ := trivial
  code_operand he hop :=
    (he.inner hop.mem_scopes).mono fun _ hname => hname.resolve_left List.not_mem_nil
  body_of_bind := by
    intro n s env bindings es he hpairs e hmem
    rw [← Value.filterMap_boundName? hpairs]
    exact he.inner (List.mem_append_right _ (List.mem_map_of_mem hmem))
  body_of_closure hc := hc
  lookup he hnone := (Value.inScope_sym.1 he).resolve_ne_none hnone
  enter hes hlength e he := (hes e he).mono fun _ => State.binds_push_ofCall hlength
  make he hmakes b hb := he.inner (hmakes.mem_scopes hb)

/-- Let all names that are free in `v` be bound around `env`, for a global environment in its frame
(`State.binds_iff_of_outer_eq_none`), and let the closures that `v` or `env` leads to be in scope.
Then evaluation of `v` does not fail to find a name, and the closures that can be reached afterwards
are in scope as well. -/
theorem scoped_lookups_succeed {s : State} {env : Env} {v : Value} (hv : v.InScope (s.Binds env))
    (hreach : ∀ c, s.Leads [v] env (.inr c) → c.InScope s) {depth : Nat}
    {r : Except EvalError Value} {s' : State} (hr : eval depth v env s = some (r, s')) :
    (∀ name, r ≠ .error (.unboundSymbol name)) ∧
      ∀ c, s'.Leads (v :: returned r) env (.inr c) → c.InScope s' :=
  (scoping.eval_keeps hv hreach).2 r s' hr

/-- The global environment has the library and a recursive `f`. The expression is
`(let ((g (fn (y) (f y)))) (g 1))`. -/
theorem scoped_lookups_succeed_let :
    let f : Value := .closure 0 (some "f") ["x"] [.list [.sym "if",
      .list [.sym "=", .sym "x", .int 0], .sym "nil",
      .list [.sym "f", .list [.sym "dec", .sym "x"]]]] ⟨0⟩
    let v : Value := .list [.sym "let", .list [.list [.sym "g",
      .list [.sym "fn", .list [.sym "y"], .list [.sym "f", .sym "y"]]]], .list [.sym "g", .int 1]]
    let s : State := ⟨#[Frame.library.insert "f" f], 1, ""⟩
    v.InScope (s.Binds ⟨0⟩) ∧ (∀ c, s.Leads [v] ⟨0⟩ (.inr c) → c.InScope s) ∧
      ∃ s', eval 8 v ⟨0⟩ s = some (.ok .nil, s') ∧
        ∀ c, s'.Leads [v, .nil] ⟨0⟩ (.inr c) → c.InScope s' := by
  intro f v s
  have hint (n : Int64) (names : String → Prop) : (Value.int n).InScope names := .of_atomic rfl rfl
  have hbinds (name : String) (hname : ((Frame.library.insert "f" f).get? name).isSome) :
      s.Binds ⟨0⟩ name := (State.binds_iff_of_outer_eq_none rfl rfl).2 hname
  have hv : v.InScope (s.Binds ⟨0⟩) := by
    simp [v, Value.inScope_list, Value.scopes, formOf?, Value.symbol?, Form.ofName?, Form.scopes,
      definitionScopes, Value.boundExpressions, Value.boundName?, Value.inScope_sym, hint,
      hbinds "f" rfl]
  let p : Closure → Prop := fun c => c.env = ⟨0⟩ ∧ c.InScope s
  have hsym (name : String) : (Value.sym name).Sound p := .of_atomic rfl
  have hnumber (n : Int64) : (Value.int n).Sound p := .of_atomic rfl
  have hf : f.Sound p := by
    refine .of_closure ⟨rfl, ?_⟩ (by simp [Value.sound_list, hsym, hnumber])
    simp [Closure.InScope, Value.inScope_list, Value.scopes, formOf?, Value.symbol?, Form.ofName?,
      Form.scopes, Value.inScope_sym, hint, hbinds "f" rfl, hbinds "=" rfl, hbinds "nil" rfl,
      hbinds "dec" rfl]
  have hwithin : s.Within (· = ⟨0⟩) p := by
    rintro env g hg rfl
    cases hg
    exact Frame.Within.insert ⟨fun _ h => (by cases h), Session.sound_library⟩ "f" hf
  have hreach (c : Closure) (hc : s.Leads [v] ⟨0⟩ (.inr c)) : c.InScope s := by
    have hsound : v.Sound p := by simp [v, Value.sound_list, hsym, hnumber]
    exact (hwithin.of_leads (fun _ => And.left) (List.forall_mem_singleton.2 hsound) rfl hc).2
  have hr : eval 8 v ⟨0⟩ s = some (.ok .nil, _) := rfl
  exact ⟨hv, hreach, _, hr, (scoped_lookups_succeed hv hreach hr).2⟩

end SmallLisp
