import Mathlib.Data.List.Basic
import SmallLisp.Builtin.Call

/-!
# The closures that values hold

A value holds a closure if it is the closure, or if an element of it does when it is a list, or an
expression of its body when it is another closure. Built-in functions make no closures: the
result of a call, or its error, holds only what an argument holds (`Builtin.sound_call`).
-/

namespace SmallLisp

/-- What a closure is made of. -/
structure Closure where
  identity : Nat
  name : Option String
  params : List String
  body : List Value
  env : Env

namespace Value

inductive Holds : Value → Closure → Prop where
  | closure (identity : Nat) (name : Option String) (params : List String) (body : List Value)
      (env : Env) : Holds (.closure identity name params body env)
        ⟨identity, name, params, body, env⟩
  | body {identity : Nat} {name : Option String} {params : List String} {body : List Value}
      {env : Env} {e : Value} {c : Closure} : e ∈ body → Holds e c →
      Holds (.closure identity name params body env) c
  | element {vs : List Value} {v : Value} {c : Closure} : v ∈ vs → Holds v c → Holds (.list vs) c

/-- Every closure that the value holds satisfies `p`. -/
def Sound (p : Closure → Prop) (v : Value) : Prop := ∀ c, v.Holds c → p c

/-- Neither a list nor a closure. -/
def atomic : Value → Bool
  | list _ | closure .. => false
  | _ => true

variable {p q : Closure → Prop}

theorem Sound.mono {v : Value} (h : v.Sound p) (hpq : ∀ c, p c → q c) : v.Sound q :=
  fun c hc => hpq c (h c hc)

theorem Sound.of_atomic {v : Value} (h : v.atomic = true) : v.Sound p := by
  rintro c hc
  cases hc <;> cases h

theorem sound_list {vs : List Value} : (list vs).Sound p ↔ ∀ v ∈ vs, v.Sound p := by
  constructor
  · exact fun h v hv c hc => h c (.element hv hc)
  · rintro h c (_ | _ | ⟨hv, hc⟩)
    exact h _ hv c hc

theorem Sound.body {identity : Nat} {name : Option String} {params : List String}
    {body : List Value} {env : Env} (h : (closure identity name params body env).Sound p) :
    ∀ e ∈ body, e.Sound p :=
  fun _ he c hc => h c (.body he hc)

theorem Sound.of_closure {identity : Nat} {name : Option String} {params : List String}
    {body : List Value} {env : Env} (h : p ⟨identity, name, params, body, env⟩)
    (hbody : ∀ e ∈ body, e.Sound p) : (closure identity name params body env).Sound p := by
  rintro c (_ | ⟨he, hc⟩)
  · exact h
  · exact hbody _ he c hc

end Value

namespace EvalError

/-- The value that an error is about. -/
def value? : EvalError → Option Value
  | notCallable v | typeMismatch _ _ v => some v
  | _ => none

def Sound (p : Closure → Prop) (e : EvalError) : Prop := ∀ v, e.value? = some v → v.Sound p

theorem Sound.of_none {p : Closure → Prop} {e : EvalError} (h : e.value? = none) : e.Sound p :=
  fun v hv => by rw [h] at hv; cases hv

theorem sound_notCallable {p : Closure → Prop} {v : Value} (h : v.Sound p) :
    (notCallable v).Sound p := by
  rintro w ⟨⟩
  exact h

/-- A call of a built-in function can end with this error, which holds only closures that satisfy
`p`. -/
inductive OfCall (p : Closure → Prop) : EvalError → Prop where
  | wrongArgumentCount (function : String) (expected : Arity) (actual : Nat) :
      OfCall p (wrongArgumentCount function expected actual)
  | typeMismatch (function : String) (expected : Expected) {v : Value} : v.Sound p →
      OfCall p (typeMismatch function expected v)
  | divisionByZero : OfCall p divisionByZero
  | overflow (op : Operator) : OfCall p (overflow op)

theorem OfCall.sound {p : Closure → Prop} {e : EvalError} (h : e.OfCall p) : e.Sound p := by
  cases h with
  | typeMismatch function expected hv =>
    rintro w ⟨⟩
    exact hv
  | _ => exact .of_none rfl

end EvalError

/-! ## Built-in functions -/

/-- A result that satisfies `q`, or an error that holds only closures that satisfy `p`. -/
def Yields {α : Type} (p : Closure → Prop) (q : α → Prop) : Except EvalError α → Prop
  | .ok a => q a
  | .error e => e.Sound p

/-- A result that satisfies `q`, or an error of a call. -/
def CallYields {α : Type} (p : Closure → Prop) (q : α → Prop) : Except EvalError α → Prop
  | .ok a => q a
  | .error e => e.OfCall p

section Results

variable {p : Closure → Prop} {α β : Type} {q : α → Prop} {r : β → Prop}

theorem CallYields.bind {x : Except EvalError α} {f : α → Except EvalError β}
    (hx : CallYields p q x) (hf : ∀ a, q a → CallYields p r (f a)) : CallYields p r (x >>= f) := by
  cases x with
  | ok a => exact hf a hx
  | error e => exact hx

theorem CallYields.yields {x : Except EvalError α} (h : CallYields p q x) : Yields p q x := by
  cases x with
  | ok a => exact h
  | error e => exact EvalError.OfCall.sound h

theorem yields_atomic {v : Value} (h : v.atomic = true) :
    CallYields p (Value.Sound p) (pure v : Except EvalError Value) :=
  Value.Sound.of_atomic h

theorem yields_ofArgument {v : Value} (h : v.Sound p) (function : String) :
    CallYields p (fun _ => True) (Number.ofArgument function v) := by
  unfold Number.ofArgument
  split
  · trivial
  · exact .typeMismatch function .number h

theorem yields_neg (a : Number) : CallYields p (fun _ => True) a.neg := by
  unfold Number.neg
  repeat' split
  all_goals first
    | trivial
    | exact .overflow _

theorem yields_apply (op : Operator) (a b : Number) :
    CallYields p (fun _ => True) (op.apply a b) := by
  unfold Operator.apply
  repeat' split
  all_goals first
    | trivial
    | exact .divisionByZero
    | exact .overflow _

theorem sound_toValue (a : Number) : a.toValue.Sound p := by
  cases a <;> exact .of_atomic rfl

end Results

namespace Builtin

variable {p : Closure → Prop}

theorem yields_fold (op : Operator) {v : Value} {vs : List Value} (hv : v.Sound p)
    (hvs : ∀ w ∈ vs, w.Sound p) : CallYields p (Value.Sound p) (fold op v vs) := by
  refine (yields_ofArgument hv op.name).bind fun a _ => ?_
  have hfold : CallYields p (fun _ => True)
      (vs.foldlM (fun a w => do op.apply a (← Number.ofArgument op.name w)) a) := by
    clear hv
    induction vs generalizing a with
    | nil => trivial
    | cons w ws ih =>
      obtain ⟨hw, hws⟩ := List.forall_mem_cons.1 hvs
      rw [List.foldlM_cons]
      refine .bind (q := fun _ => True) ?_ fun b _ => ih hws b
      exact (yields_ofArgument hw op.name).bind fun b _ => yields_apply op a b
  exact hfold.bind fun b _ => sound_toValue b

theorem yields_step (b : Builtin) (op : Operator) {v : Value} (hv : v.Sound p) :
    CallYields p (Value.Sound p) (step b op v) := by
  refine (yields_ofArgument hv b.name).bind fun a _ => ?_
  exact (yields_apply op a (.int 1)).bind fun c _ => sound_toValue c

theorem yields_ordered (r : Relation) {vs : List Value} (h : ∀ v ∈ vs, v.Sound p) :
    CallYields p (fun _ => True) (ordered r vs) := by
  fun_induction ordered r vs with
  | case1 v w vs ih =>
    obtain ⟨hv, hws⟩ := List.forall_mem_cons.1 h
    refine (yields_ofArgument hv r.name).bind fun a _ => ?_
    refine (yields_ofArgument (List.forall_mem_cons.1 hws).1 r.name).bind fun b _ => ?_
    split
    · exact ih hws
    · trivial
  | case2 => trivial

theorem yields_elements (b : Builtin) {v : Value} (hv : v.Sound p) :
    CallYields p (fun vs => ∀ w ∈ vs, w.Sound p) (elements b v) := by
  unfold elements
  split
  · exact List.forall_mem_nil _
  · exact Value.sound_list.1 hv
  · exact .typeMismatch b.name .list hv

theorem sound_listOrNil {vs : List Value} (h : ∀ v ∈ vs, v.Sound p) : (listOrNil vs).Sound p := by
  cases vs with
  | nil => exact .of_atomic rfl
  | cons v vs => exact Value.sound_list.2 h

theorem call_of_not_admits {b : Builtin} {args : List Value}
    (h : b.arity.admits args.length = false) :
    b.call args = .error (.wrongArgumentCount b.name b.arity args.length) := by
  cases b with
  | arith op =>
    cases op <;> rcases args with _ | ⟨v, _ | ⟨w, _ | ⟨x, rest⟩⟩⟩ <;> first | rfl | cases h
  | parity odd =>
    rcases args with _ | ⟨v, _ | ⟨w, rest⟩⟩
    · rfl
    · cases h
    · cases v <;> rfl
  | _ => rcases args with _ | ⟨v, _ | ⟨w, _ | ⟨x, rest⟩⟩⟩ <;> first | rfl | cases h

/-! The arguments that an arity admits. -/

section Arguments

variable {args : List Value}

theorem eq_nil_of_admits (h : (Arity.exactly 0).admits args.length = true) : args = [] :=
  List.length_eq_zero_iff.1 (by simpa [Arity.admits] using h)

theorem eq_singleton_of_admits (h : (Arity.exactly 1).admits args.length = true) :
    ∃ v, args = [v] :=
  List.length_eq_one_iff.1 (by simpa [Arity.admits] using h)

theorem eq_pair_of_admits (h : (Arity.exactly 2).admits args.length = true) :
    ∃ v w, args = [v, w] :=
  List.length_eq_two.1 (by simpa [Arity.admits] using h)

theorem eq_cons_of_admits (h : (Arity.atLeast 1).admits args.length = true) :
    ∃ v vs, args = v :: vs :=
  List.exists_cons_of_length_pos (of_decide_eq_true h)

end Arguments

/-- A call with one argument, which is no call of an arithmetic operation. -/
theorem yields_call_singleton (b : Builtin) {v : Value} (hb : b.arity = .exactly 1)
    (hv : v.Sound p) : CallYields p (Value.Sound p) (b.call [v]) := by
  cases b with
  | inc | dec => exact yields_step _ _ hv
  | not | test => exact yields_atomic rfl
  | sign expected => exact (yields_ofArgument hv _).bind fun a _ => yields_atomic rfl
  | parity odd =>
    cases v with
    | int n => exact yields_atomic rfl
    | _ => exact .typeMismatch _ .integer hv
  | empty => exact (yields_elements .empty hv).bind fun vs _ => yields_atomic rfl
  | first =>
    refine (yields_elements .first hv).bind fun vs hvs => ?_
    cases vs with
    | nil => exact yields_atomic rfl
    | cons w ws => exact hvs w List.mem_cons_self
  | next =>
    refine (yields_elements .next hv).bind fun vs hvs => ?_
    exact sound_listOrNil fun w hw => hvs w (List.mem_of_mem_tail hw)
  | arith op => cases op <;> cases hb
  | _ => cases hb

theorem yields_call (b : Builtin) {args : List Value} (h : ∀ a ∈ args, a.Sound p) :
    CallYields p (Value.Sound p) (b.call args) := by
  cases hadmits : b.arity.admits args.length with
  | false =>
    rw [call_of_not_admits hadmits]
    exact .wrongArgumentCount ..
  | true =>
    cases b with
    | arith op =>
      cases op with
      | add | mul =>
        obtain ⟨v, vs, rfl⟩ := eq_cons_of_admits hadmits
        obtain ⟨hv, hvs⟩ := List.forall_mem_cons.1 h
        exact yields_fold _ hv hvs
      | sub =>
        obtain ⟨v, vs, rfl⟩ := eq_cons_of_admits hadmits
        obtain ⟨hv, hvs⟩ := List.forall_mem_cons.1 h
        cases vs with
        | nil =>
          refine (yields_ofArgument hv Operator.sub.name).bind fun a _ => ?_
          exact (yields_neg a).bind fun c _ => sound_toValue c
        | cons w ws => exact yields_fold .sub hv hvs
      | div =>
        obtain ⟨v, vs, rfl⟩ := eq_cons_of_admits hadmits
        obtain ⟨hv, hvs⟩ := List.forall_mem_cons.1 h
        cases vs with
        | nil => exact yields_fold .div (.of_atomic rfl) h
        | cons w ws => exact yields_fold .div hv hvs
      | rem | mod =>
        obtain ⟨v, w, rfl⟩ := eq_pair_of_admits hadmits
        obtain ⟨hv, hvs⟩ := List.forall_mem_cons.1 h
        exact yields_fold _ hv hvs
    | order r => exact (yields_ordered r h).bind fun b _ => yields_atomic rfl
    | equal | notEqual | print | println => exact yields_atomic rfl
    | newline =>
      obtain rfl := eq_nil_of_admits hadmits
      exact yields_atomic rfl
    | cons =>
      obtain ⟨v, w, rfl⟩ := eq_pair_of_admits hadmits
      obtain ⟨hv, hw⟩ := List.forall_mem_cons.1 h
      refine (yields_elements .cons (hw w List.mem_cons_self)).bind fun vs hvs => ?_
      exact Value.sound_list.2 (List.forall_mem_cons.2 ⟨hv, hvs⟩)
    | inc | dec | not | test | sign | parity | empty | first | next =>
      obtain ⟨v, rfl⟩ := eq_singleton_of_admits hadmits
      exact yields_call_singleton _ rfl (List.forall_mem_singleton.1 h)

theorem sound_call (b : Builtin) {args : List Value} (h : ∀ a ∈ args, a.Sound p) :
    Yields p (Value.Sound p) (b.call args) :=
  (yields_call b h).yields

end Builtin

end SmallLisp
