import SmallLisp.Eval.Rules

/-!
# The shape of special forms

A special form that is given operands of another shape than it takes is malformed (`Form.Admits`).
Then it is rejected before anything is evaluated, but that a `let` evaluates the expressions of its
bindings one by one, and comes upon an ill-shaped binding only after those in front of it
(`malformed_rejected`).
-/

namespace SmallLisp

/-! ## Shapes -/

namespace Value

def parameterList (names : List String) : Value := .list (names.map .sym)

/-- A name and an expression, as a `let` takes them. -/
def binding (b : String × Value) : Value := .list [.sym b.1, b.2]

def bindingList (bs : List (String × Value)) : Value := .list (bs.map binding)

end Value

namespace Form

open Value in
/-- The operands have the shape that the form takes. -/
def Admits : Form → List Value → Prop
  | quote, es => es.length = 1
  | define, es => ∃ name e, es = [.sym name, e]
  | defineFn, es => ∃ name params body, es = .sym name :: parameterList params :: body
  | lambda, es => ∃ params body, es = parameterList params :: body
  | branch, es => es.length = 2 ∨ es.length = 3
  | bind, es => ∃ bindings body, es = bindingList bindings :: body
  | sequence, _ | and, _ | or, _ => True

end Form

/-- One element that is no binding makes a `let` malformed, wherever it stands. -/
theorem Form.not_admits_bind {vs body : List Value} {v : Value} (hmem : v ∈ vs)
    (hv : ∀ b, v ≠ Value.binding b) : ¬ Form.bind.Admits (.list vs :: body) := by
  rintro ⟨bs, body', heq⟩
  cases heq
  obtain ⟨b, -, rfl⟩ := List.mem_map.1 hmem
  exact hv b rfl

/-- The bindings in front of the first value that is none. -/
def leadingBindings : List Value → List (String × Value)
  | .list [.sym name, e] :: vs => (name, e) :: leadingBindings vs
  | _ => []

/-- The expressions that a form evaluates before it has seen the shape of all operands. -/
def Form.early : Form → List Value → List Value
  | bind, .list bindings :: _ => (leadingBindings bindings).map Prod.snd
  | _, _ => []

theorem Form.early_eq_nil {form : Form} (h : form ≠ .bind) (es : List Value) :
    form.early es = [] := by
  cases form with
  | bind => exact absurd rfl h
  | _ => rfl

theorem Value.eq_map_sym_of_symbols? {vs : List Value} {names : List String}
    (h : symbols? vs = some names) : vs = names.map .sym := by
  induction vs generalizing names with
  | nil =>
    cases h
    rfl
  | cons v vs ih =>
    cases v with
    | sym s =>
      obtain ⟨rest, hrest, rfl⟩ := Option.map_eq_some_iff.1 h
      rw [ih hrest, List.map_cons]
    | _ => cases h

/-! ## Rejection -/

section Rules

variable (ev : Value → Env → Eval Value) (env : Env)

theorem makeClosure_of_ne (form : Form) (name : Option String) {definition : List Value}
    (h : ∀ params body, definition ≠ Value.parameterList params :: body) :
    makeClosure form name env definition = malformed form .notParameterList := by
  unfold makeClosure
  split
  · split
    case h_1 hparams =>
      exact absurd (by rw [Value.eq_map_sym_of_symbols? hparams, Value.parameterList]) (h _ _)
    case h_2 => rfl
  · rfl

/-- Bindings are evaluated up to the first value that is none. -/
theorem evalBindings_of_ne {vs : List Value} (h : ∀ bs, .list vs ≠ Value.bindingList bs) :
    evalBindings ev env vs = evalAll ev env ((leadingBindings vs).map Prod.snd) >>= fun _ =>
      malformed .bind .notBindingList := by
  induction vs using leadingBindings.induct with
  | case1 name e vs ih =>
    have htail (bs) : .list vs ≠ Value.bindingList bs := by
      intro heq
      cases heq
      exact h ((name, e) :: bs) rfl
    rw [evalBindings, ih htail, leadingBindings, List.map_cons, evalAll, bind_assoc]
    congr 1
    funext v
    rw [bind_assoc, bind_assoc]
    rfl
  | case2 vs hvs =>
    rcases vs with _ | ⟨v, vs⟩
    · exact absurd rfl (h [])
    · rw [evalBindings, leadingBindings]
      · rfl
      · exact hvs
      · rintro name e rfl
        exact hvs name e vs rfl

theorem evalForm_of_not_admits {form : Form} {es : List Value} (h : ¬ form.Admits es) :
    ∃ cause, evalForm ev env form es =
      evalAll ev env (form.early es) >>= fun _ => malformed form cause := by
  cases form, es using evalForm_cases with
  -- operands of the right shape
  | quote v => exact absurd rfl h
  | define name e => exact absurd ⟨_, _, rfl⟩ h
  | branch test e => exact absurd (.inl rfl) h
  | branchElse test e e' => exact absurd (.inr rfl) h
  | sequence | and | or => exact absurd trivial h
  -- a parameter list that is none is seen when the closure is made
  | defineFn name definition =>
    refine ⟨.notParameterList, ?_⟩
    rw [evalForm, makeClosure_of_ne env _ _ fun params body heq =>
      h ⟨name, params, body, by rw [heq]⟩]
    rfl
  | lambda es =>
    exact ⟨_, makeClosure_of_ne env _ _ fun params body heq => h ⟨params, body, heq⟩⟩
  -- an ill-shaped binding is seen after those in front of it are evaluated
  | bind bindings body =>
    refine ⟨.notBindingList, ?_⟩
    rw [evalForm, evalBindings_of_ne ev env fun bs heq => h ⟨bs, body, by rw [heq]⟩, bind_assoc]
    rfl
  | rejected form es cause hbind hes =>
    refine ⟨cause, ?_⟩
    rw [hes, Form.early]
    · rfl
    · exact hbind

end Rules

/-- A form whose operands have another shape than it takes is rejected in the state in which it is
met, and nothing is evaluated. Only a `let` that has bindings in front of an ill-shaped one
evaluates their expressions, in order and in its own environment: what they print and define
remains, and if they all have values, the `let` is rejected then. -/
theorem malformed_rejected {form : Form} {es : List Value} (h : ¬ form.Admits es) (depth : Nat)
    (env : Env) :
    (form ≠ .bind → form.early es = []) ∧ ∃ cause,
      (form.early es = [] → ∀ s, eval (depth + 1) (.list (.sym form.name :: es)) env s =
        some (.error (.malformed form cause), s)) ∧
      eval (depth + 1) (.list (.sym form.name :: es)) env =
        evalAll (eval depth) env (form.early es) >>= fun _ => malformed form cause := by
  obtain ⟨cause, hcause⟩ := evalForm_of_not_admits (eval depth) env h
  have heval := (evalStep_form (eval depth) form es env).trans hcause
  refine ⟨fun hform => Form.early_eq_nil hform es, cause, fun hearly s => ?_, heval⟩
  rw [hearly] at heval
  exact congrFun heval s

/-- The `def` has no name to bind, and nothing is printed. The second binding of the `let` is none,
and the first one has printed. -/
theorem malformed_rejected_printing :
    let e : Value := .list [.sym "println", .int 1]
    let s : State := ⟨#[Frame.library], 0, ""⟩
    ¬ Form.define.Admits [.int 5, e] ∧
    (∃ cause, eval 3 (.list [.sym "def", .int 5, e]) ⟨0⟩ s =
      some (.error (.malformed .define cause), s)) ∧
    ¬ Form.bind.Admits [.list [.list [.sym "x", e], .int 5], .sym "x"] ∧
    ∃ cause, eval 3 (.list [.sym "let", .list [.list [.sym "x", e], .int 5], .sym "x"]) ⟨0⟩ s =
      some (.error (.malformed .bind cause), { s with output := "1\n" }) := by
  intro e s
  have hdefine : ¬ Form.define.Admits [.int 5, e] := by
    rintro ⟨name, e', heq⟩
    cases heq
  have hbind : ¬ Form.bind.Admits [.list [.list [.sym "x", e], .int 5], .sym "x"] :=
    Form.not_admits_bind (v := .int 5) (.tail _ (.head _)) nofun
  obtain ⟨hearly, cause, hcause, -⟩ := malformed_rejected hdefine 2 ⟨0⟩
  obtain ⟨-, cause', -, hlet⟩ := malformed_rejected hbind 2 ⟨0⟩
  exact ⟨hdefine, ⟨cause, hcause (hearly nofun) s⟩, hbind, cause', congrFun hlet s⟩

/-- A `let` with an ill-shaped binding has printed, has defined a name, and fails for another
reason, each by its first binding. -/
theorem ill_shaped_after_effects :
    let es (first : Value) : List Value := [.list [.list [.sym "x", first], .int 5], .sym "x"]
    let e (first : Value) : Value := .list (.sym "let" :: es first)
    let s : State := ⟨#[Frame.library], 0, ""⟩
    (∀ first, ¬ Form.bind.Admits (es first)) ∧
    eval 3 (e (.list [.sym "println", .int 1])) ⟨0⟩ s =
      some (.error (.malformed .bind .notBindingList), { s with output := "1\n" }) ∧
    eval 3 (e (.list [.sym "def", .sym "y", .int 1])) ⟨0⟩ s =
      some (.error (.malformed .bind .notBindingList), s.define ⟨0⟩ "y" (.int 1)) ∧
    eval 3 (e (.sym "y")) ⟨0⟩ s = some (.error (.unboundSymbol "y"), s) := by
  intro es e s
  have hshape (first : Value) : ¬ Form.bind.Admits (es first) :=
    Form.not_admits_bind (v := .int 5) (.tail _ (.head _)) nofun
  exact ⟨hshape, rfl, rfl, rfl⟩

end SmallLisp
