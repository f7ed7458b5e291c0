import Mathlib.Data.List.Basic
import Mathlib.Order.Monotone.Basic
import SmallLisp.Proofs.Closures

/-!
# Renaming environments and closures

Which number an environment or the identity of a closure has depends on what was made before. A
renaming gives other numbers, in the same order. Programs cannot tell: it changes no written form,
no truth value and no equality, and built-in functions commute with it (`Builtin.call_rename`).
-/

namespace SmallLisp

/-- New numbers for the frames of environments and for the identities of closures. -/
structure Renaming where
  frame : Nat → Nat
  identity : Nat → Nat
  strictMono_frame : StrictMono frame
  strictMono_identity : StrictMono identity

namespace Renaming

def env (ρ : Renaming) (env : Env) : Env := ⟨ρ.frame env.index⟩

/-- Changes nothing. -/
def id : Renaming := ⟨fun n => n, fun n => n, strictMono_id, strictMono_id⟩

@[simp] theorem env_id (env : Env) : Renaming.id.env env = env := rfl

/-- What the closure is made of keeps its numbers. -/
def Fixes (ρ : Renaming) (c : Closure) : Prop :=
  ρ.identity c.identity = c.identity ∧ ρ.env c.env = c.env

theorem env_injective (ρ : Renaming) : Function.Injective ρ.env := by
  rintro ⟨i⟩ ⟨j⟩ h
  obtain rfl := ρ.strictMono_frame.injective (Env.mk.inj h)
  rfl

end Renaming

namespace Value

variable (ρ : Renaming)

mutual

def rename : Value → Value
  | nil => nil
  | int n => int n
  | double x => double x
  | bool b => bool b
  | str s => str s
  | sym s => sym s
  | list vs => list (renameAll vs)
  | builtin b => builtin b
  | closure identity name params body env =>
    closure (ρ.identity identity) name params (renameAll body) (ρ.env env)

def renameAll : List Value → List Value
  | [] => []
  | v :: vs => rename v :: renameAll vs

end

theorem renameAll_eq_map (vs : List Value) : renameAll ρ vs = vs.map (rename ρ) := by
  induction vs with
  | nil => rfl
  | cons v vs ih => rw [renameAll, ih, List.map_cons]

@[simp] theorem rename_list (vs : List Value) : (list vs).rename ρ = list (vs.map (rename ρ)) := by
  rw [rename, renameAll_eq_map]

@[simp] theorem rename_closure (identity : Nat) (name : Option String) (params : List String)
    (body : List Value) (env : Env) : (closure identity name params body env).rename ρ =
      closure (ρ.identity identity) name params (body.map (rename ρ)) (ρ.env env) := by
  rw [rename, renameAll_eq_map]

@[simp] theorem rename_sym (s : String) : (sym s).rename ρ = sym s := rfl

theorem rename_eq_sym {v : Value} {s : String} (h : v.rename ρ = sym s) : v = sym s := by
  cases v <;> first | exact h | cases h

theorem rename_eq_list {v : Value} {ws : List Value} (h : v.rename ρ = list ws) :
    ∃ vs, v = list vs ∧ ws = vs.map (rename ρ) := by
  cases v with
  | list vs =>
    rw [rename_list, list.injEq] at h
    exact ⟨vs, rfl, h.symm⟩
  | _ => cases h

theorem rename_eq_pair {v e' : Value} {s : String} (h : v.rename ρ = list [sym s, e']) :
    ∃ e, v = list [sym s, e] := by
  obtain ⟨vs, rfl, hvs⟩ := rename_eq_list ρ h
  obtain ⟨w, ws, rfl, hw, hws⟩ := List.map_eq_cons_iff.1 hvs.symm
  obtain ⟨e, es, rfl, -, hes⟩ := List.map_eq_cons_iff.1 hws
  obtain rfl := List.map_eq_nil_iff.1 hes
  exact ⟨e, by rw [rename_eq_sym ρ hw]⟩

@[simp] theorem truthy_rename (v : Value) : (v.rename ρ).truthy = v.truthy := by
  cases v <;> rfl

@[simp] theorem callable_rename (v : Value) : (v.rename ρ).callable = v.callable := by
  cases v <;> rfl

@[simp] theorem typeName_rename (v : Value) : (v.rename ρ).typeName = v.typeName := by
  cases v <;> rfl

@[simp] theorem symbol?_rename (v : Value) : (v.rename ρ).symbol? = v.symbol? := by
  cases v <;> rfl

theorem symbols?_rename (vs : List Value) : symbols? (vs.map (rename ρ)) = symbols? vs := by
  induction vs with
  | nil => rfl
  | cons v vs ih =>
    cases v with
    | sym s => simp [symbols?, ih]
    | _ => rfl

mutual

theorem chars_rename (v : Value) : (v.rename ρ).chars = v.chars := by
  cases v with
  | list vs => rw [rename_list, chars_list, chars_list, charsAll_rename vs]
  | closure identity name params body env => cases name <;> rfl
  | _ => rfl

theorem charsAll_rename (vs : List Value) : charsAll (vs.map (rename ρ)) = charsAll vs := by
  match vs with
  | [] => rfl
  | [v] => exact chars_rename v
  | v :: w :: vs =>
    rw [List.map_cons, List.map_cons, charsAll_cons_cons, charsAll_cons_cons, chars_rename v,
      ← List.map_cons, charsAll_rename (w :: vs)]

end

@[simp] theorem render_rename (v : Value) : (v.rename ρ).render = v.render := by
  rw [render, chars_rename, render]

@[simp] theorem renderAll_rename (vs : List Value) :
    renderAll (vs.map (rename ρ)) = renderAll vs := by
  rw [renderAll, charsAll_rename, renderAll]

mutual

theorem equal_rename (v w : Value) : (v.rename ρ).equal (w.rename ρ) = v.equal w := by
  cases v with
  | list vs =>
    cases w with
    | list ws => rw [rename_list, rename_list, equal, equal, equalAll_rename vs ws]
    | _ => rfl
  | closure i =>
    cases w with
    | closure j => simp [equal, ρ.strictMono_identity.injective.eq_iff]
    | _ => rfl
  | _ => cases w <;> rfl

theorem equalAll_rename (vs ws : List Value) :
    equalAll (vs.map (rename ρ)) (ws.map (rename ρ)) = equalAll vs ws := by
  match vs, ws with
  | [], [] | [], _ :: _ | _ :: _, [] => rfl
  | v :: vs, w :: ws =>
    rw [List.map_cons, List.map_cons, equalAll, equalAll, equal_rename v w, equalAll_rename vs ws]

end

mutual

theorem rename_eq_self {v : Value} (h : v.Sound ρ.Fixes) : v.rename ρ = v := by
  cases v with
  | list vs => rw [rename_list, map_rename_eq_self (sound_list.1 h)]
  | closure identity name params body env =>
    obtain ⟨hidentity, henv⟩ := h _ (.closure ..)
    rw [rename_closure, map_rename_eq_self h.body, hidentity, henv]
  | _ => rfl

theorem map_rename_eq_self {vs : List Value} (h : ∀ v ∈ vs, v.Sound ρ.Fixes) :
    vs.map (rename ρ) = vs := by
  match vs with
  | [] => rfl
  | v :: vs =>
    obtain ⟨hv, hvs⟩ := List.forall_mem_cons.1 h
    rw [List.map_cons, rename_eq_self hv, map_rename_eq_self hvs]

end

@[simp] theorem rename_id : rename Renaming.id = id :=
  funext fun _ => rename_eq_self .id fun _ _ => ⟨rfl, rfl⟩

end Value

/-! ## Results -/

def EvalError.rename (ρ : Renaming) : EvalError → EvalError
  | unboundSymbol name => unboundSymbol name
  | notCallable v => notCallable (v.rename ρ)
  | wrongArgumentCount function expected actual => wrongArgumentCount function expected actual
  | typeMismatch function expected v => typeMismatch function expected (v.rename ρ)
  | divisionByZero => divisionByZero
  | overflow op => overflow op
  | malformed form cause => malformed form cause

@[simp] theorem EvalError.message_rename (ρ : Renaming) (e : EvalError) :
    (e.rename ρ).message = e.message := by
  cases e with
  | notCallable v =>
    change _ ++ (v.rename ρ).render = _ ++ v.render
    rw [Value.render_rename]
  | typeMismatch function expected v =>
    change _ ++ (v.rename ρ).typeName ++ _ ++ (v.rename ρ).render =
      _ ++ v.typeName ++ _ ++ v.render
    rw [Value.render_rename, Value.typeName_rename]
  | _ => rfl

@[simp] theorem EvalError.rename_id : EvalError.rename .id = id := by
  funext e
  cases e with
  | notCallable v | typeMismatch _ _ v => rw [rename, Value.rename_id]; rfl
  | _ => rfl

/-- Two values related by `q`, or the same error but for the renaming. -/
def Alike {α β : Type} (ρ : Renaming) (q : α → β → Prop) :
    Except EvalError α → Except EvalError β → Prop
  | .ok a, .ok b => q a b
  | .error e, .error e' => e' = e.rename ρ
  | _, _ => False

section Results

variable {ρ : Renaming} {α β α' β' : Type} {q : α → β → Prop} {r : α' → β' → Prop}

theorem Alike.bind {x : Except EvalError α} {y : Except EvalError β}
    {f : α → Except EvalError α'} {g : β → Except EvalError β'} (h : Alike ρ q x y)
    (hf : ∀ a b, q a b → Alike ρ r (f a) (g b)) : Alike ρ r (x >>= f) (y >>= g) := by
  cases x with
  | ok a =>
    cases y with
    | ok b => exact hf a b h
    | error e => exact h.elim
  | error e =>
    cases y with
    | ok b => exact h.elim
    | error e' => exact h

theorem alike_ofArgument (function : String) (v : Value) :
    Alike ρ (· = ·) (Number.ofArgument function v) (Number.ofArgument function (v.rename ρ)) := by
  cases v <;> rfl

theorem alike_neg (a : Number) : Alike ρ (· = ·) a.neg a.neg := by
  unfold Number.neg
  repeat' split
  all_goals rfl

theorem alike_apply (op : Operator) (a b : Number) :
    Alike ρ (· = ·) (op.apply a b) (op.apply a b) := by
  unfold Operator.apply
  repeat' split
  all_goals rfl

theorem rename_toValue (a : Number) : a.toValue = a.toValue.rename ρ := by
  cases a <;> rfl

end Results

namespace Builtin

variable (ρ : Renaming)

theorem alike_fold (op : Operator) (v : Value) (vs : List Value) :
    Alike ρ (fun a b => b = a.rename ρ) (fold op v vs)
      (fold op (v.rename ρ) (vs.map (Value.rename ρ))) := by
  refine (alike_ofArgument op.name v).bind ?_
  rintro a _ rfl
  have hfold : Alike ρ (· = ·)
      (vs.foldlM (fun a w => do op.apply a (← Number.ofArgument op.name w)) a)
      ((vs.map (Value.rename ρ)).foldlM
        (fun a w => do op.apply a (← Number.ofArgument op.name w)) a) := by
    induction vs generalizing a with
    | nil => rfl
    | cons w ws ih =>
      rw [List.map_cons, List.foldlM_cons, List.foldlM_cons]
      refine .bind (q := (· = ·)) ?_ fun b _ hb => hb ▸ ih b
      exact (alike_ofArgument op.name w).bind fun b _ hb => hb ▸ alike_apply op a b
  exact hfold.bind fun b _ hb => hb ▸ rename_toValue b

theorem alike_step (b : Builtin) (op : Operator) (v : Value) :
    Alike ρ (fun a b => b = a.rename ρ) (step b op v) (step b op (v.rename ρ)) := by
  refine (alike_ofArgument b.name v).bind ?_
  rintro a _ rfl
  exact (alike_apply op a (.int 1)).bind fun c _ hc => hc ▸ rename_toValue c

theorem alike_ordered (r : Relation) (vs : List Value) :
    Alike ρ (· = ·) (ordered r vs) (ordered r (vs.map (Value.rename ρ))) := by
  fun_induction ordered r vs with
  | case1 v w vs ih =>
    refine (alike_ofArgument r.name v).bind ?_
    rintro a _ rfl
    refine (alike_ofArgument r.name w).bind ?_
    rintro b _ rfl
    split
    · exact ih
    · rfl
  | case2 vs h =>
    rcases vs with _ | ⟨v, _ | ⟨w, vs⟩⟩
    · rfl
    · rfl
    · exact (h v w vs rfl).elim

theorem allEqual_rename (vs : List Value) : allEqual (vs.map (Value.rename ρ)) = allEqual vs := by
  fun_induction allEqual vs with
  | case1 v w vs ih =>
    rw [List.map_cons] at ih
    rw [List.map_cons, List.map_cons, allEqual, Value.equal_rename, ih]
  | case2 vs h =>
    rcases vs with _ | ⟨v, _ | ⟨w, vs⟩⟩
    · rfl
    · rfl
    · exact (h v w vs rfl).elim

theorem alike_elements (b : Builtin) (v : Value) :
    Alike ρ (fun vs ws => ws = vs.map (Value.rename ρ)) (elements b v)
      (elements b (v.rename ρ)) := by
  cases v with
  | list vs => rw [Value.rename_list]; rfl
  | _ => rfl

theorem listOrNil_rename (vs : List Value) :
    listOrNil (vs.map (Value.rename ρ)) = (listOrNil vs).rename ρ := by
  cases vs with
  | nil => rfl
  | cons v vs => rw [listOrNil, Value.rename_list]; rfl

theorem admits_rename (kind : TypeTest) (v : Value) : kind.admits (v.rename ρ) = kind.admits v := by
  cases v <;> cases kind <;> rfl

/-- Built-in functions commute with renaming. -/
theorem alike_call (b : Builtin) (args : List Value) :
    Alike ρ (fun v w => w = v.rename ρ) (b.call args) (b.call (args.map (Value.rename ρ))) := by
  cases hadmits : b.arity.admits args.length with
  | false =>
    have hmap : b.arity.admits (args.map (Value.rename ρ)).length = false := by
      rw [List.length_map, hadmits]
    rw [call_of_not_admits hadmits, call_of_not_admits hmap, List.length_map]
    rfl
  | true =>
    cases b with
    | arith op =>
      cases op with
      | add | mul =>
        obtain ⟨v, vs, rfl⟩ := eq_cons_of_admits hadmits
        exact alike_fold ρ _ v vs
      | sub =>
        obtain ⟨v, vs, rfl⟩ := eq_cons_of_admits hadmits
        cases vs with
        | nil =>
          refine (alike_ofArgument Operator.sub.name v).bind ?_
          rintro a _ rfl
          exact (alike_neg a).bind fun c _ hc => hc ▸ rename_toValue c
        | cons w ws => exact alike_fold ρ .sub v (w :: ws)
      | div =>
        obtain ⟨v, vs, rfl⟩ := eq_cons_of_admits hadmits
        cases vs with
        | nil => exact alike_fold ρ .div (.int 1) [v]
        | cons w ws => exact alike_fold ρ .div v (w :: ws)
      | rem | mod =>
        obtain ⟨v, w, rfl⟩ := eq_pair_of_admits hadmits
        exact alike_fold ρ _ v [w]
    | inc | dec =>
      obtain ⟨v, rfl⟩ := eq_singleton_of_admits hadmits
      exact alike_step ρ _ _ v
    | order r => exact (alike_ordered ρ r args).bind fun b _ hb => hb ▸ rfl
    | equal => exact congrArg Value.bool (allEqual_rename ρ args)
    | notEqual => exact congrArg (fun b => Value.bool !b) (allEqual_rename ρ args)
    | not =>
      obtain ⟨v, rfl⟩ := eq_singleton_of_admits hadmits
      exact congrArg (fun b => Value.bool !b) (v.truthy_rename ρ)
    | test kind =>
      obtain ⟨v, rfl⟩ := eq_singleton_of_admits hadmits
      exact congrArg Value.bool (admits_rename ρ kind v)
    | sign expected =>
      obtain ⟨v, rfl⟩ := eq_singleton_of_admits hadmits
      exact (alike_ofArgument _ v).bind fun a _ ha => ha ▸ rfl
    | parity odd =>
      obtain ⟨v, rfl⟩ := eq_singleton_of_admits hadmits
      cases v <;> rfl
    | empty =>
      obtain ⟨v, rfl⟩ := eq_singleton_of_admits hadmits
      refine (alike_elements ρ .empty v).bind ?_
      rintro vs _ rfl
      cases vs <;> rfl
    | first =>
      obtain ⟨v, rfl⟩ := eq_singleton_of_admits hadmits
      refine (alike_elements ρ .first v).bind ?_
      rintro vs _ rfl
      cases vs <;> rfl
    | next =>
      obtain ⟨v, rfl⟩ := eq_singleton_of_admits hadmits
      refine (alike_elements ρ .next v).bind ?_
      rintro vs _ rfl
      exact (congrArg listOrNil List.map_tail.symm).trans (listOrNil_rename ρ vs.tail)
    | cons =>
      obtain ⟨v, w, rfl⟩ := eq_pair_of_admits hadmits
      refine (alike_elements ρ .cons w).bind ?_
      rintro vs _ rfl
      exact (Value.rename_list ρ (v :: vs)).symm
    | print | println => rfl
    | newline =>
      obtain rfl := eq_nil_of_admits hadmits
      rfl

theorem printed_rename (b : Builtin) (args : List Value) :
    b.printed (args.map (Value.rename ρ)) = b.printed args := by
  cases b <;> simp [printed]

end Builtin

end SmallLisp
