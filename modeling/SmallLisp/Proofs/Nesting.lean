import Mathlib.Data.List.Basic
import SmallLisp.Builtin.Call

/-!
# Arithmetic on many arguments

A call of `+`, `-`, `*` or `/` on two or more arguments is a chain of calls on two
(`call_eq_foldlM`), and so nests to the left at any point (`arith_nests`). Its error is that of the
leftmost link of the chain that fails, whatever comes after it. Its value is an integer if all
arguments are integers, and a double if they are numbers of which one is not.
-/

namespace SmallLisp

section Except

variable {ε α β : Type}

theorem bind_eq_ok_iff {x : Except ε α} {f : α → Except ε β} {b : β} :
    (x >>= f) = .ok b ↔ ∃ a, x = .ok a ∧ f a = .ok b := by
  cases x with
  | error e => exact ⟨nofun, fun ⟨_, h, _⟩ => nomatch h⟩
  | ok a => exact ⟨fun h => ⟨a, rfl, h⟩, fun ⟨_, rfl, h⟩ => h⟩

/-- A chain fails at its leftmost link that does. -/
theorem foldlM_eq_error_iff {f : β → α → Except ε β} {as : List α} {b : β} {e : ε} :
    as.foldlM f b = .error e ↔
      ∃ before a after c, as = before ++ a :: after ∧ before.foldlM f b = .ok c ∧
        f c a = .error e := by
  constructor
  · intro h
    induction as generalizing b with
    | nil => cases h
    | cons a as ih =>
      rw [List.foldlM_cons] at h
      cases hb : f b a with
      | error e' =>
        rw [hb] at h
        cases h
        exact ⟨[], a, as, b, rfl, rfl, hb⟩
      | ok c =>
        rw [hb] at h
        obtain ⟨before, a', after, c', rfl, hbefore, hlink⟩ := ih h
        refine ⟨a :: before, a', after, c', rfl, ?_, hlink⟩
        rw [List.foldlM_cons, hb]
        exact hbefore
  · rintro ⟨before, a, after, c, rfl, hbefore, hlink⟩
    rw [List.foldlM_append, hbefore]
    change (f c a >>= _) = _
    rw [hlink]
    rfl

end Except

namespace Number

theorem ofArgument_toValue (function : String) (a : Number) :
    ofArgument function a.toValue = pure a := by
  rw [ofArgument, ofValue?_toValue]
  rfl

theorem eq_toValue_of_ofArgument {function : String} {v : Value} {a : Number}
    (h : ofArgument function v = .ok a) : v = a.toValue := by
  cases v <;> cases h <;> rfl

end Number

namespace Builtin

/-! ## Folds -/

theorem fold_append (op : Operator) (v : Value) (ws xs : List Value) :
    fold op v (ws ++ xs) = fold op v ws >>= fun x => fold op x xs := by
  simp only [fold, List.foldlM_append, bind_assoc, pure_bind, Number.ofArgument_toValue]

theorem fold_cons (op : Operator) (v w : Value) (ws : List Value) :
    fold op v (w :: ws) = fold op v [w] >>= fun x => fold op x ws :=
  fold_append op v [w] ws

theorem fold_singleton (op : Operator) (v w : Value) :
    fold op v [w] = do
      let a ← Number.ofArgument op.name v
      let b ← Number.ofArgument op.name w
      let c ← op.apply a b
      return c.toValue := by
  simp only [fold, List.foldlM_cons, List.foldlM_nil, bind_pure, bind_assoc]

theorem fold_eq_foldlM (op : Operator) (v w : Value) (ws : List Value) :
    fold op v (w :: ws) = (w :: ws).foldlM (fun x w => fold op x [w]) v := by
  induction ws generalizing v w with
  | nil =>
    rw [List.foldlM_cons]
    exact (bind_pure _).symm
  | cons w' ws ih =>
    rw [fold_cons, List.foldlM_cons]
    congr 1
    funext x
    exact ih x w'

/-! ## The kind of the result -/

theorem admits_double_toValue (a : Number) :
    TypeTest.double.admits a.toValue = !TypeTest.int.admits a.toValue := by
  cases a <;> rfl

theorem admits_int_apply {op : Operator} {a b c : Number} (h : op.apply a b = .ok c) :
    TypeTest.int.admits c.toValue =
      (TypeTest.int.admits a.toValue && TypeTest.int.admits b.toValue) := by
  unfold Operator.apply at h
  split at h
  · cases h
  cases a with
  | int m =>
    cases b with
    | int n =>
      dsimp only at h
      split at h <;> cases h
      rfl
    | double y =>
      cases h
      rfl
  | double x =>
    cases h
    rfl

theorem exists_of_fold_singleton {op : Operator} {v w x : Value} (h : fold op v [w] = .ok x) :
    ∃ a b c : Number, v = a.toValue ∧ w = b.toValue ∧ x = c.toValue ∧ op.apply a b = .ok c := by
  rw [fold_singleton] at h
  obtain ⟨a, ha, h⟩ := bind_eq_ok_iff.1 h
  obtain ⟨b, hb, h⟩ := bind_eq_ok_iff.1 h
  obtain ⟨c, hc, h⟩ := bind_eq_ok_iff.1 h
  cases h
  exact ⟨a, b, c, Number.eq_toValue_of_ofArgument ha, Number.eq_toValue_of_ofArgument hb, rfl, hc⟩

theorem kind_of_fold {op : Operator} {v r : Value} {ws : List Value} (h : fold op v ws = .ok r) :
    TypeTest.int.admits r = (v :: ws).all TypeTest.int.admits ∧
      TypeTest.double.admits r = !(v :: ws).all TypeTest.int.admits := by
  induction ws generalizing v with
  | nil =>
    obtain ⟨a, ha, h⟩ := bind_eq_ok_iff.1 h
    cases h
    rw [Number.eq_toValue_of_ofArgument ha, List.all_cons, List.all_nil, Bool.and_true]
    exact ⟨rfl, admits_double_toValue a⟩
  | cons w ws ih =>
    rw [fold_cons] at h
    obtain ⟨x, hx, h⟩ := bind_eq_ok_iff.1 h
    obtain ⟨a, b, c, rfl, rfl, rfl, hc⟩ := exists_of_fold_singleton hx
    have hall : (c.toValue :: ws).all TypeTest.int.admits =
        (a.toValue :: b.toValue :: ws).all TypeTest.int.admits := by
      rw [List.all_cons, admits_int_apply hc, List.all_cons, List.all_cons, Bool.and_assoc]
    rw [← hall]
    exact ih h

theorem kind_of_neg {a b : Number} (h : a.neg = .ok b) :
    TypeTest.int.admits b.toValue = TypeTest.int.admits a.toValue := by
  cases a with
  | int m =>
    unfold Number.neg at h
    dsimp only at h
    split at h <;> cases h
    rfl
  | double x =>
    cases h
    rfl

/-! ## Calls -/

section Calls

variable {op : Operator} (hop : op ∈ [Operator.add, .sub, .mul, .div])

include hop

theorem call_eq_fold {v : Value} {ws : List Value} (h : ws ≠ [] ∨ op = .add ∨ op = .mul) :
    call (.arith op) (v :: ws) = fold op v ws := by
  simp only [List.mem_cons, List.not_mem_nil, or_false] at hop
  cases ws with
  | nil =>
    rcases h.resolve_left (fun h => h rfl) with rfl | rfl <;> rfl
  | cons w ws => rcases hop with rfl | rfl | rfl | rfl <;> rfl

theorem call_eq_foldlM (v w : Value) (ws : List Value) :
    call (.arith op) (v :: w :: ws) =
      (w :: ws).foldlM (fun x w => call (.arith op) [x, w]) v := by
  have hpair (x w : Value) : call (.arith op) [x, w] = fold op x [w] :=
    call_eq_fold hop (.inl (List.cons_ne_nil w []))
  rw [call_eq_fold hop (.inl (List.cons_ne_nil w ws)), fold_eq_foldlM]
  simp only [hpair]

theorem call_append {ws xs : List Value} (hxs : xs ≠ [])
    (hws : 2 ≤ ws.length ∨ (ws.length = 1 ∧ (op = .add ∨ op = .mul))) :
    call (.arith op) (ws ++ xs) =
      call (.arith op) ws >>= fun x => call (.arith op) (x :: xs) := by
  obtain ⟨v, ws, rfl⟩ := List.exists_cons_of_length_pos (show 0 < ws.length by omega)
  have hinner : ws ≠ [] ∨ op = .add ∨ op = .mul := by
    rcases hws with h | ⟨-, h⟩
    · exact .inl (List.ne_nil_of_length_pos (Nat.le_of_succ_le_succ h))
    · exact .inr h
  have houter (x : Value) : call (.arith op) (x :: xs) = fold op x xs :=
    call_eq_fold hop (.inl hxs)
  rw [List.cons_append, call_eq_fold hop (.inl (List.append_ne_nil_of_right_ne_nil ws hxs)),
    call_eq_fold hop hinner, fold_append]
  simp only [houter]

theorem kind_of_call {vs : List Value} {r : Value} (h : call (.arith op) vs = .ok r) :
    TypeTest.int.admits r = vs.all TypeTest.int.admits ∧
      TypeTest.double.admits r = !vs.all TypeTest.int.admits := by
  match vs, h with
  | [], h =>
    simp only [List.mem_cons, List.not_mem_nil, or_false] at hop
    rcases hop with rfl | rfl | rfl | rfl <;> cases h
  | v :: w :: ws, h =>
    rw [call_eq_fold hop (.inl (List.cons_ne_nil w ws))] at h
    exact kind_of_fold h
  | [v], h =>
    simp only [List.mem_cons, List.not_mem_nil, or_false] at hop
    rcases hop with rfl | rfl | rfl | rfl
    case inl =>
      change fold .add v [] = .ok r at h
      exact kind_of_fold h
    case inr.inl =>
      obtain ⟨a, ha, h⟩ := bind_eq_ok_iff.1 h
      obtain ⟨b, hb, h⟩ := bind_eq_ok_iff.1 h
      cases h
      rw [Number.eq_toValue_of_ofArgument ha, List.all_cons, List.all_nil, Bool.and_true,
        admits_double_toValue, kind_of_neg hb]
      exact ⟨rfl, rfl⟩
    case inr.inr.inl =>
      change fold .mul v [] = .ok r at h
      exact kind_of_fold h
    case inr.inr.inr =>
      -- The reciprocal divides one, which is an integer.
      change fold .div (.int 1) [v] = .ok r at h
      have hkind := kind_of_fold h
      exact hkind

end Calls

end Builtin

/-- A call of an operator on many arguments is the call on the value of some of them, from the left,
and the others, and fails as the first of the two calls that fails. So it fails as the leftmost of
its steps that fails, each of them a call on two arguments, whatever comes after that step. -/
theorem arith_nests {op : Operator} (hop : op ∈ [Operator.add, .sub, .mul, .div])
    (vs : List Value) :
    (∀ ws xs, vs = ws ++ xs → xs ≠ [] →
      (2 ≤ ws.length ∨ (ws.length = 1 ∧ (op = .add ∨ op = .mul))) →
      Builtin.call (.arith op) vs =
        Builtin.call (.arith op) ws >>= fun x => Builtin.call (.arith op) (x :: xs)) ∧
    (∀ v ws e, vs = v :: ws → ws ≠ [] → (Builtin.call (.arith op) vs = .error e ↔
      ∃ before w after x, ws = before ++ w :: after ∧
        before.foldlM (fun x w => Builtin.call (.arith op) [x, w]) v = .ok x ∧
        Builtin.call (.arith op) [x, w] = .error e)) ∧
    (∀ r, Builtin.call (.arith op) vs = .ok r →
      TypeTest.int.admits r = vs.all TypeTest.int.admits ∧
      TypeTest.double.admits r = !vs.all TypeTest.int.admits) := by
  refine ⟨?_, ?_, fun r h => Builtin.kind_of_call hop h⟩
  · rintro ws xs rfl hxs hws
    exact Builtin.call_append hop hxs hws
  · rintro v ws e rfl hws
    obtain ⟨w, ws, rfl⟩ := List.exists_cons_of_ne_nil hws
    rw [Builtin.call_eq_foldlM hop]
    exact foldlM_eq_error_iff

/-- A zero divisor ends a division before an argument that is not a number is looked at. -/
theorem arith_nests_zero : Operator.div ∈ [Operator.add, .sub, .mul, .div] ∧
    Builtin.call (.arith .div) [.int 6, .int 3, .int 0, .str "x"] = .error .divisionByZero := by
  refine ⟨by decide, ?_⟩
  refine ((arith_nests (by decide) _).2.1 (.int 6) [.int 3, .int 0, .str "x"] .divisionByZero rfl
    (List.cons_ne_nil _ _)).2 ?_
  exact ⟨[.int 3], .int 0, [.str "x"], .int 2, rfl, rfl, rfl⟩

end SmallLisp
