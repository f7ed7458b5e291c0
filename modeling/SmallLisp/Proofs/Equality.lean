import Mathlib.Data.List.Chain
import Mathlib.Data.List.Forall2
import SmallLisp.Builtin.Call
import SmallLisp.Proofs.Position

/-!
# Equality of values

Equality is symmetric, of lists element by element. It is not reflexive: NaN and built-in functions
differ from themselves, and with them every list that holds one, however deep
(`equality_symmetric`). So neighbours may be compared from either end.
-/

namespace SmallLisp

namespace Value

/-! ## Symmetry -/

mutual

theorem equal_comm (v w : Value) : v.equal w = w.equal v := by
  cases v with
  | list vs =>
    cases w with
    | list ws =>
      rw [equal, equal]
      exact equalAll_comm vs ws
    | _ => simp only [equal]
  | double x =>
    cases w with
    | double y =>
      rw [equal, equal]
      exact Double.equal_comm x y
    | _ => simp only [equal]
  | _ => cases w <;> simp only [equal, BEq.comm]

theorem equalAll_comm (vs ws : List Value) : equalAll vs ws = equalAll ws vs := by
  cases vs with
  | nil => cases ws <;> rfl
  | cons v vs =>
    cases ws with
    | nil => rfl
    | cons w ws => rw [equalAll, equalAll, equal_comm v w, equalAll_comm vs ws]

end

/-! ## Lists -/

theorem equalAll_eq_true_iff {vs ws : List Value} :
    equalAll vs ws = true ↔ List.Forall₂ (fun v w => v.equal w = true) vs ws := by
  induction vs generalizing ws with
  | nil => cases ws <;> simp [equalAll]
  | cons v vs ih => cases ws <;> simp [equalAll, ih]

/-- Lists are equal if they are as long as each other and equal at every place. -/
theorem equal_list_iff {vs ws : List Value} : (list vs).equal (list ws) = true ↔
    vs.length = ws.length ∧
      ∀ (i : Nat) (v w : Value), vs[i]? = some v → ws[i]? = some w → v.equal w = true := by
  rw [equal, equalAll_eq_true_iff, List.forall₂_iff_get]
  refine and_congr_right fun _ => ⟨fun h i v w hv hw => ?_, fun h i hi hi' => ?_⟩
  · obtain ⟨hi, rfl⟩ := List.getElem?_eq_some_iff.1 hv
    obtain ⟨hi', rfl⟩ := List.getElem?_eq_some_iff.1 hw
    exact h i hi hi'
  · exact h i _ _ (List.getElem?_eq_getElem hi) (List.getElem?_eq_getElem hi')

theorem equal_list_of_ne {vs : List Value} {v : Value} (h : ∀ ws, v ≠ list ws) :
    (list vs).equal v = false := by
  cases v with
  | list ws => exact absurd rfl (h ws)
  | _ => simp only [equal]

/-! ## Reflexivity -/

/-- The value is the other one, or stands in it at some depth of its lists. -/
inductive OccursIn (u : Value) : Value → Prop where
  | self : OccursIn u u
  | element {v : Value} {vs : List Value} : v ∈ vs → OccursIn u v → OccursIn u (.list vs)

theorem forall_occursIn_list_iff {P : Value → Prop} {vs : List Value} :
    (∀ u, u.OccursIn (list vs) → P u) ↔
      P (list vs) ∧ ∀ v ∈ vs, ∀ u, u.OccursIn v → P u := by
  constructor
  · intro h
    exact ⟨h _ .self, fun v hv u hu => h u (.element hv hu)⟩
  · rintro ⟨hself, helements⟩ u hu
    cases hu with
    | self => exact hself
    | element hv hu => exact helements _ hv u hu

theorem forall_occursIn_iff_of_ne {P : Value → Prop} {v : Value} (h : ∀ vs, v ≠ list vs) :
    (∀ u, u.OccursIn v → P u) ↔ P v := by
  constructor
  · intro hP
    exact hP v .self
  · intro hP u hu
    cases hu with
    | self => exact hP
    | element => exact absurd rfl (h _)

mutual

theorem equal_self_iff (v : Value) :
    v.equal v = true ↔ ∀ u : Value, u.OccursIn v → u ≠ double .nan ∧ ∀ b, u ≠ builtin b := by
  cases v with
  | list vs =>
    rw [equal, equalAll_self_iff vs, forall_occursIn_list_iff]
    exact (and_iff_right ⟨nofun, nofun⟩).symm
  | double x =>
    rw [equal, Double.equal_self_iff, forall_occursIn_iff_of_ne (by simp)]
    simp
  | _ =>
    rw [forall_occursIn_iff_of_ne (by simp)]
    simp [equal]

theorem equalAll_self_iff (vs : List Value) :
    equalAll vs vs = true ↔
      ∀ v ∈ vs, ∀ u : Value, u.OccursIn v → u ≠ double .nan ∧ ∀ b, u ≠ builtin b := by
  cases vs with
  | nil => exact iff_of_true (by rw [equalAll]) (List.forall_mem_nil _)
  | cons v vs =>
    rw [equalAll, Bool.and_eq_true, equal_self_iff v, equalAll_self_iff vs, List.forall_mem_cons]

end

end Value

/-! ## Calls -/

namespace Builtin

theorem call_equal_all (vs : List Value) : Builtin.equal.call vs = .ok (.bool (allEqual vs)) := rfl

theorem call_equal (v w : Value) : Builtin.equal.call [v, w] = .ok (.bool (v.equal w)) := by
  change Except.ok (Value.bool (v.equal w && true)) = _
  rw [Bool.and_true]

theorem call_equal_iff {v w : Value} {b : Bool} :
    Builtin.equal.call [v, w] = .ok (.bool b) ↔ v.equal w = b := by
  rw [call_equal, Except.ok.injEq, Value.bool.injEq]

theorem allEqual_iff_isChain {vs : List Value} :
    allEqual vs = true ↔ vs.IsChain fun v w => v.equal w = true := by
  induction vs using List.twoStepInduction with
  | nil => exact iff_of_true rfl .nil
  | singleton v => exact iff_of_true rfl (.singleton v)
  | cons_cons v w vs _ ih => rw [allEqual, Bool.and_eq_true, ih, List.isChain_cons_cons]

theorem allEqual_reverse (vs : List Value) : allEqual vs.reverse = allEqual vs := by
  rw [Bool.eq_iff_iff, allEqual_iff_isChain, allEqual_iff_isChain, List.isChain_reverse]
  simp only [Value.equal_comm]

end Builtin

/-- Equality is symmetric, and a value is equal to itself unless NaN or a built-in function occurs
in it. Lists are equal to lists of the same length with equal elements, and to nothing else. So
values that are equal in turn are so from the other end. -/
theorem equality_symmetric :
    (∀ v w : Value, v.equal w = w.equal v) ∧
    (∀ v : Value, v.equal v = true ↔
      ∀ u : Value, u.OccursIn v → u ≠ .double .nan ∧ ∀ b, u ≠ .builtin b) ∧
    (∀ vs ws : List Value, (Value.list vs).equal (.list ws) = true ↔
      vs.length = ws.length ∧
        ∀ (i : Nat) (v w : Value), vs[i]? = some v → ws[i]? = some w → v.equal w = true) ∧
    (∀ (vs : List Value) (v : Value), (∀ ws, v ≠ .list ws) → (Value.list vs).equal v = false) ∧
    (∀ vs : List Value, Builtin.equal.call vs = Builtin.equal.call vs.reverse) := by
  refine ⟨Value.equal_comm, Value.equal_self_iff, fun _ _ => Value.equal_list_iff,
    fun _ _ => Value.equal_list_of_ne, fun vs => ?_⟩
  rw [Builtin.call_equal_all, Builtin.call_equal_all, Builtin.allEqual_reverse]

example : (Value.list [.int 1, .list [.double .nan]]).equal
    (.list [.int 1, .list [.double .nan]]) = false := rfl

end SmallLisp
