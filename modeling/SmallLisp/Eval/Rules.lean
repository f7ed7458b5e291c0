import SmallLisp.Builtin.Call
import SmallLisp.Eval.Run

/-!
# The rules of evaluation

Each rule is stated over a way `ev` to evaluate an expression in an environment, so that one layer
of evaluation (`evalStep`) is a definition of its own and `eval` is its iteration: `eval n` follows
the rules down to `n` nested expressions. Where it has an outcome, a greater `n` gives the same.
-/

namespace SmallLisp

variable (ev : Value → Env → Eval Value)

/-- Evaluates expressions in order, stopping at the first error. -/
def evalAll (env : Env) : List Value → Eval (List Value)
  | [] => pure []
  | e :: es => do
    let v ← ev e env
    let vs ← evalAll env es
    pure (v :: vs)

/-- Evaluates expressions in order. The value is that of the last one, nil if there is none. -/
def evalBody (env : Env) : List Value → Eval Value
  | [] => pure .nil
  | [e] => ev e env
  | e :: e' :: es => do
    let _ ← ev e env
    evalBody env (e' :: es)

/-! ## Application -/

/-- Evaluates the body of a closure in a new frame, whose outer one is where the closure was
made. -/
def applyClosure (name : Option String) (params : List String) (body : List Value) (outer : Env)
    (args : List Value) : Eval Value :=
  if params.length = args.length then do
    let env ← Run.update (·.push (Frame.ofCall outer params args))
    evalBody ev env body
  else
    Run.fail (.wrongArgumentCount (Value.closureName name) (.exactly params.length) args.length)

def applyBuiltin (b : Builtin) (args : List Value) : Eval Value := do
  let v ← Run.ofExcept (b.call args)
  Run.modify (·.print (b.printed args))
  pure v

/-- Applies a value to arguments that are already evaluated. -/
def apply (f : Value) (args : List Value) : Eval Value :=
  match f with
  | .builtin b => applyBuiltin b args
  | .closure _ name params body outer => applyClosure ev name params body outer args
  | v => Run.fail (.notCallable v)

/-! ## Special forms -/

def malformed {α : Type} (form : Form) (cause : Malformation) : Eval α :=
  Run.fail (.malformed form cause)

/-- A new identity for a closure. -/
def newIdentity : Eval Nat :=
  Run.update fun s => (s.closures, { s with closures := s.closures + 1 })

/-- A new closure, defined by a parameter list and a body. -/
def makeClosure (form : Form) (name : Option String) (env : Env) : List Value → Eval Value
  | .list params :: body =>
    match Value.symbols? params with
    | some params => do
      let identity ← newIdentity
      pure (.closure identity name params body env)
    | none => malformed form .notParameterList
  | _ => malformed form .notParameterList

/-- Evaluates the expressions of a `let`, none of which sees the names that it binds. -/
def evalBindings (env : Env) : List Value → Eval (List String × List Value)
  | [] => pure ([], [])
  | .list [.sym name, e] :: bindings => do
    let v ← ev e env
    let (names, vs) ← evalBindings env bindings
    pure (name :: names, v :: vs)
  | _ :: _ => malformed .bind .notBindingList

/-- The value of the first expression that is not true, else of the last. -/
def evalAnd (env : Env) (last : Value) : List Value → Eval Value
  | [] => pure last
  | e :: es => do
    let v ← ev e env
    if v.truthy then evalAnd env v es else pure v

/-- The value of the first expression that is true, else of the last. -/
def evalOr (env : Env) (last : Value) : List Value → Eval Value
  | [] => pure last
  | e :: es => do
    let v ← ev e env
    if v.truthy then pure v else evalOr env v es

def evalForm (env : Env) : Form → List Value → Eval Value
  | .quote, [v] => pure v
  | .quote, _ => malformed .quote .notOneOperand
  | .define, [.sym name, e] => do
    let v ← ev e env
    Run.modify (·.define env name v)
    pure .nil
  | .define, [_, _] => malformed .define .notSymbol
  | .define, _ => malformed .define .notSymbolAndExpression
  | .defineFn, .sym name :: definition => do
    let f ← makeClosure .defineFn (some name) env definition
    Run.modify (·.define env name f)
    pure .nil
  | .defineFn, [] => malformed .defineFn .noName
  | .defineFn, _ => malformed .defineFn .notSymbol
  | .lambda, definition => makeClosure .lambda none env definition
  | .branch, [test, e] => do
    let v ← ev test env
    if v.truthy then ev e env else pure .nil
  | .branch, [test, e, e'] => do
    let v ← ev test env
    if v.truthy then ev e env else ev e' env
  | .branch, _ => malformed .branch .notTestAndBranches
  | .bind, .list bindings :: body => do
    let (names, vs) ← evalBindings ev env bindings
    applyClosure ev none names body env vs
  | .bind, _ => malformed .bind .notBindingList
  | .sequence, body => evalBody ev env body
  | .and, es => evalAnd ev env (.bool true) es
  | .or, es => evalOr ev env .nil es

/-- The clauses of `evalForm`, with one case for all operands that are rejected before anything is
evaluated. The list of a `let` is never among these, since an ill-shaped binding in it is found only
after those in front of it are evaluated. -/
@[elab_as_elim]
theorem evalForm_cases {motive : Form → List Value → Prop}
    (quote : ∀ v, motive .quote [v])
    (define : ∀ name e, motive .define [.sym name, e])
    (defineFn : ∀ name definition, motive .defineFn (.sym name :: definition))
    (lambda : ∀ es, motive .lambda es)
    (branch : ∀ test e, motive .branch [test, e])
    (branchElse : ∀ test e e', motive .branch [test, e, e'])
    (bind : ∀ bindings body, motive .bind (.list bindings :: body))
    (sequence : ∀ es, motive .sequence es)
    (and : ∀ es, motive .and es)
    (or : ∀ es, motive .or es)
    (rejected : ∀ form es cause, (∀ bindings body, form = .bind → es ≠ .list bindings :: body) →
      (∀ ev env, evalForm ev env form es = malformed form cause) → motive form es)
    (form : Form) (es : List Value) : motive form es := by
  cases form with
  | quote =>
    rcases es with _ | ⟨v, _ | ⟨w, es⟩⟩
    · exact rejected _ _ .notOneOperand nofun fun _ _ => rfl
    · exact quote v
    · exact rejected _ _ .notOneOperand nofun fun _ _ => rfl
  | define =>
    rcases es with _ | ⟨v, _ | ⟨e, _ | ⟨w, es⟩⟩⟩
    · exact rejected _ _ .notSymbolAndExpression nofun fun _ _ => rfl
    · cases v <;> exact rejected _ _ .notSymbolAndExpression nofun fun _ _ => rfl
    · cases v with
      | sym name => exact define name e
      | _ => exact rejected _ _ .notSymbol nofun fun _ _ => rfl
    · cases v <;> exact rejected _ _ .notSymbolAndExpression nofun fun _ _ => rfl
  | defineFn =>
    rcases es with _ | ⟨v, definition⟩
    · exact rejected _ _ .noName nofun fun _ _ => rfl
    · cases v with
      | sym name => exact defineFn name definition
      | _ => exact rejected _ _ .notSymbol nofun fun _ _ => rfl
  | lambda => exact lambda es
  | branch =>
    rcases es with _ | ⟨test, _ | ⟨e, _ | ⟨e', _ | ⟨w, es⟩⟩⟩⟩
    · exact rejected _ _ .notTestAndBranches nofun fun _ _ => rfl
    · exact rejected _ _ .notTestAndBranches nofun fun _ _ => rfl
    · exact branch test e
    · exact branchElse test e e'
    · exact rejected _ _ .notTestAndBranches nofun fun _ _ => rfl
  | bind =>
    rcases es with _ | ⟨v, body⟩
    · exact rejected _ _ .notBindingList nofun fun _ _ => rfl
    · cases v with
      | list bindings => exact bind bindings body
      | _ => exact rejected _ _ .notBindingList nofun fun _ _ => rfl
  | sequence => exact sequence es
  | and => exact and es
  | or => exact or es

/-! ## Expressions -/

/-- The form that a list headed by `v` is. -/
def formOf? (v : Value) : Option Form := v.symbol?.bind Form.ofName?

/-- One layer of evaluation: a symbol is looked up, a non-empty list is a special form or a call,
and everything else is its own value. -/
def evalStep (e : Value) (env : Env) : Eval Value :=
  match e with
  | .sym name => do
    match ← Run.read (·.resolve env name) with
    | some v => pure v
    | none => Run.fail (.unboundSymbol name)
  | .list (head :: operands) =>
    match formOf? head with
    | some form => evalForm ev env form operands
    | none => do
      let f ← ev head env
      if f.callable then
        let args ← evalAll ev env operands
        apply ev f args
      else
        Run.fail (.notCallable f)
  | v => pure v

theorem evalStep_form (form : Form) (operands : List Value) (env : Env) :
    evalStep ev (.list (.sym form.name :: operands)) env = evalForm ev env form operands := by
  have hform : formOf? (.sym form.name) = some form := form.ofName?_name
  rw [evalStep, hform]

theorem evalStep_call {head : Value} (h : formOf? head = none) (operands : List Value)
    (env : Env) : evalStep ev (.list (head :: operands)) env = (do
      let f ← ev head env
      if f.callable then
        let args ← evalAll ev env operands
        apply ev f args
      else
        Run.fail (.notCallable f)) := by
  rw [evalStep, h]

/-- Evaluates an expression down to a depth of nested expressions. -/
def eval : Nat → Value → Env → Eval Value
  | 0 => fun _ _ => Run.endless
  | depth + 1 => evalStep (eval depth)

end SmallLisp
