import SmallLisp.Proofs.Equality
import SmallLisp.Proofs.Numeral

/-!
# Equality of neighbours

A call of `=` on many arguments compares neighbours, and a call of `!=` denies what it says.
Equality is not transitive: two integers beyond `2 ^ 53` may be rounded to one double, and it equals
both. With every integer taken as a double it is (`Value.promoted_equal_trans`), and values that are
equal then are equal unless different integers set them apart (`Value.equal_iff_promoted`). So the
ends of a chain are equal unless they are apart (`equality_transitive_unless_apart`).
-/

namespace SmallLisp

/-! ## Integers that are doubles -/

namespace Double

theorem equal_iff_position {x y : Double} :
    x.equal y = true ↔ ∃ p, x.position? = some p ∧ y.position? = some p := by
  unfold equal
  rw [compare_eq, beq_iff_eq, Option.map₂_eq_some_iff]
  constructor
  · rintro ⟨p, q, hp, hq, hpq⟩
    obtain rfl := Int.compare_eq_eq.1 hpq
    exact ⟨p, hp, hq⟩
  · rintro ⟨p, hp, hq⟩
    exact ⟨p, p, hp, hq, Int.compare_eq_eq.2 rfl⟩

theorem equal_trans {x y z : Double} (hxy : x.equal y = true) (hyz : y.equal z = true) :
    x.equal z = true := by
  obtain ⟨p, hx, hy⟩ := equal_iff_position.1 hxy
  obtain ⟨q, hy', hz⟩ := equal_iff_position.1 hyz
  cases hy.symm.trans hy'
  exact equal_iff_position.2 ⟨p, hx, hz⟩

/-- An integer of at most 53 bits is a magnitude of its own. -/
theorem representable_mul_one {k : Nat} (h : k ≤ Nat.pow 2 53) : Representable (k * one) := by
  refine ⟨Nat.lt_of_le_of_lt (Nat.mul_le_mul_right one h) (by decide +kernel), ?_⟩
  obtain ⟨s, hs⟩ : ∃ s, one = Nat.pow 2 s := ⟨1074, by decide +kernel⟩
  rw [hs]
  exact spacing_dvd_mul_pow h

theorem ofIntPosition_of_natAbs_le {n : Int} (h : n.natAbs ≤ Nat.pow 2 53) :
    ofIntPosition n = n * one := by
  have hrep := representable_mul_one h
  have hround := roundRatio_of_representable hrep Nat.one_pos
  rw [Nat.one_mul] at hround
  unfold ofIntPosition withSign
  rw [hround, Nat.min_eq_left (Nat.le_of_lt hrep.1), Int.natCast_mul]
  by_cases hneg : n < 0
  · rw [decide_eq_true hneg, if_pos rfl, ← Int.neg_mul, Int.ofNat_natAbs_of_nonpos (by omega),
      Int.neg_neg]
  · rw [decide_eq_false hneg, if_neg Bool.false_ne_true, Int.natAbs_of_nonneg (by omega)]

theorem ofIntPosition_lt_of_natAbs_le {m n : Int} (hm : m.natAbs ≤ Nat.pow 2 53)
    (hn : n.natAbs ≤ Nat.pow 2 53) (h : m < n) : ofIntPosition m < ofIntPosition n := by
  rw [ofIntPosition_of_natAbs_le hm, ofIntPosition_of_natAbs_le hn]
  exact Int.mul_lt_mul_of_pos_right h (by decide +kernel)

/-- What rounds like an integer of fewer bits is that integer. -/
theorem eq_of_ofIntPosition_eq {m n : Int} (hm : m.natAbs < Nat.pow 2 53)
    (h : ofIntPosition m = ofIntPosition n) : m = n := by
  have hpow : Nat.pow 2 53 = 9007199254740992 := rfl
  by_contra hne
  -- an integer that is a double lies beyond `m`, and not beyond `n`
  rcases Int.lt_or_gt_of_ne hne with hlt | hgt
  · have hbetween : ofIntPosition m < ofIntPosition (min n 9007199254740992) :=
      ofIntPosition_lt_of_natAbs_le (by omega) (by omega) (by omega)
    exact Int.ne_of_lt (Int.lt_of_lt_of_le hbetween (ofIntPosition_mono (Int.min_le_left _ _))) h
  · have hbetween : ofIntPosition (max n (-9007199254740992)) < ofIntPosition m :=
      ofIntPosition_lt_of_natAbs_le (by omega) (by omega) (by omega)
    exact Int.ne_of_gt (Int.lt_of_le_of_lt (ofIntPosition_mono (Int.le_max_left _ _)) hbetween) h

theorem equal_ofInt_iff {m n : Int} :
    (ofInt m).equal (ofInt n) = true ↔ ofIntPosition m = ofIntPosition n := by
  rw [equal_iff_position, position?_ofInt, position?_ofInt]
  simp [eq_comm]

end Double

namespace Value

/-! ## Integers taken as doubles -/

mutual

/-- The value with every integer in its lists taken as a double. -/
def promoted : Value → Value
  | int n => double (.ofInt n.toInt)
  | list vs => list (promotedAll vs)
  | v => v

def promotedAll : List Value → List Value
  | [] => []
  | v :: vs => v.promoted :: promotedAll vs

end

/-- At one place of their lists the values hold two different integers that are one double. -/
inductive Apart : Value → Value → Prop where
  | int {m n : Int64} : m ≠ n → (Double.ofInt m.toInt).equal (.ofInt n.toInt) = true →
      Apart (.int m) (.int n)
  | element {vs ws : List Value} {i : Nat} {v w : Value} : vs[i]? = some v → ws[i]? = some w →
      Apart v w → Apart (.list vs) (.list ws)

theorem apart_int_iff {m n : Int64} : (int m).Apart (int n) ↔
    m ≠ n ∧ (Double.ofInt m.toInt).equal (.ofInt n.toInt) = true := by
  constructor
  · rintro ⟨hne, hequal⟩
    exact ⟨hne, hequal⟩
  · rintro ⟨hne, hequal⟩
    exact .int hne hequal

theorem not_apart_nil (ws : List Value) : ¬ (list []).Apart (list ws) := by
  rintro (_ | ⟨hv, -, -⟩)
  cases hv

theorem apart_list_cons_iff {v w : Value} {vs ws : List Value} :
    (list (v :: vs)).Apart (list (w :: ws)) ↔ v.Apart w ∨ (list vs).Apart (list ws) := by
  constructor
  · rintro (_ | ⟨hv, hw, h⟩)
    rename_i i _ _
    cases i with
    | zero =>
      cases hv
      cases hw
      exact .inl h
    | succ i => exact .inr (.element hv hw h)
  · rintro (h | _ | ⟨hv, hw, h⟩)
    · exact .element (i := 0) rfl rfl h
    · exact .element (i := _ + 1) hv hw h

mutual

/-- Values are equal if they are equal with integers taken as doubles, and no integers set them
apart. -/
theorem equal_iff_promoted (v w : Value) :
    v.equal w = true ↔ v.promoted.equal w.promoted = true ∧ ¬ v.Apart w := by
  have hother {v w : Value} (heq : v.equal w = v.promoted.equal w.promoted) (h : ¬ v.Apart w) :
      v.equal w = true ↔ v.promoted.equal w.promoted = true ∧ ¬ v.Apart w := by
    rw [heq]
    exact (and_iff_left h).symm
  cases v with
  | list vs =>
    cases w with
    | list ws =>
      rw [promoted, promoted, equal, equal]
      exact equalAll_iff_promoted vs ws
    | _ => exact hother (by simp only [promoted, equal]) nofun
  | int m =>
    cases w with
    | int n =>
      rw [promoted, promoted, equal, equal, apart_int_iff, beq_iff_eq]
      constructor
      · rintro rfl
        exact ⟨Double.equal_ofInt_iff.2 rfl, fun h => h.1 rfl⟩
      · rintro ⟨hequal, hapart⟩
        by_contra hne
        exact hapart ⟨hne, hequal⟩
    | _ => exact hother (by simp only [promoted, equal]) nofun
  | double x =>
    cases w with
    -- equality rounds the integer on its left, whichever of the two values that is
    | int n => exact hother (by simp only [promoted, equal, Double.equal_comm]) nofun
    | _ => exact hother (by simp only [promoted, equal]) nofun
  | _ => cases w <;> exact hother (by simp only [promoted, equal]) nofun

theorem equalAll_iff_promoted (vs ws : List Value) :
    equalAll vs ws = true ↔
      equalAll (promotedAll vs) (promotedAll ws) = true ∧ ¬ (list vs).Apart (list ws) := by
  cases vs with
  | nil =>
    cases ws with
    | nil =>
      rw [promotedAll, equalAll]
      exact iff_of_true rfl ⟨rfl, not_apart_nil []⟩
    | cons w ws => simp [equalAll, promotedAll]
  | cons v vs =>
    cases ws with
    | nil => simp [equalAll, promotedAll]
    | cons w ws =>
      rw [promotedAll, promotedAll, equalAll, equalAll, Bool.and_eq_true, Bool.and_eq_true,
        equal_iff_promoted v w, equalAll_iff_promoted vs ws, apart_list_cons_iff, not_or]
      exact and_and_and_comm

end

mutual

theorem promoted_equal_trans {u w : Value} (v : Value)
    (h : u.promoted.equal v.promoted = true) (h' : v.promoted.equal w.promoted = true) :
    u.promoted.equal w.promoted = true := by
  cases v with
  | list vs =>
    cases u <;> simp only [promoted, equal, Bool.false_eq_true] at h
    cases w <;> simp only [promoted, equal, Bool.false_eq_true] at h'
    rw [promoted, promoted, equal]
    exact promotedAll_equalAll_trans vs h h'
  | int | double =>
    cases u <;> simp only [promoted, equal, Bool.false_eq_true] at h
    all_goals
      cases w <;> simp only [promoted, equal, Bool.false_eq_true] at h'
      all_goals
        simp only [promoted, equal]
        exact Double.equal_trans h h'
  | bool | str | sym | closure =>
    cases u <;> simp only [promoted, equal, Bool.false_eq_true, beq_iff_eq] at h
    cases w <;> simp only [promoted, equal, Bool.false_eq_true, beq_iff_eq] at h'
    simp only [promoted, equal, beq_iff_eq]
    exact h.trans h'
  | nil =>
    cases u <;> simp only [promoted, equal, Bool.false_eq_true] at h
    exact h'
  | builtin => cases u <;> simp only [promoted, equal, Bool.false_eq_true] at h

theorem promotedAll_equalAll_trans {us ws : List Value} (vs : List Value)
    (h : equalAll (promotedAll us) (promotedAll vs) = true)
    (h' : equalAll (promotedAll vs) (promotedAll ws) = true) :
    equalAll (promotedAll us) (promotedAll ws) = true := by
  cases vs with
  | nil =>
    cases us <;> simp only [promotedAll, equalAll, Bool.false_eq_true] at h
    exact h'
  | cons v vs =>
    cases us <;> simp only [promotedAll, equalAll, Bool.false_eq_true, Bool.and_eq_true] at h
    cases ws <;> simp only [promotedAll, equalAll, Bool.false_eq_true, Bool.and_eq_true] at h'
    rw [promotedAll, promotedAll, equalAll, Bool.and_eq_true]
    exact ⟨promoted_equal_trans v h.1 h'.1, promotedAll_equalAll_trans vs h.2 h'.2⟩

end

/-- Integers that set values apart have more than 53 bits. -/
theorem le_natAbs_of_apart {m n : Int64} (h : (int m).Apart (int n)) :
    Nat.pow 2 53 ≤ m.toInt.natAbs ∧ Nat.pow 2 53 ≤ n.toInt.natAbs := by
  obtain ⟨hne, hequal⟩ := apart_int_iff.1 h
  have hposition := Double.equal_ofInt_iff.1 hequal
  constructor
  · by_contra hlt
    exact hne (Int64.toInt_inj.1 (Double.eq_of_ofIntPosition_eq (Nat.lt_of_not_le hlt) hposition))
  · by_contra hlt
    exact hne (Int64.toInt_inj.1
      (Double.eq_of_ofIntPosition_eq (Nat.lt_of_not_le hlt) hposition.symm)).symm

end Value

/-! ## Chains of equal values -/

namespace Builtin

theorem pairwise_promoted_of_isChain {vs : List Value}
    (h : vs.IsChain fun v w => v.equal w = true) :
    vs.Pairwise fun v w => v.promoted.equal w.promoted = true := by
  let R : Value → Value → Prop := fun v w => v.promoted.equal w.promoted = true
  have : Trans R R R := ⟨fun {_ v _} => Value.promoted_equal_trans v⟩
  have hchain : vs.IsChain R := h.imp fun v w hvw => ((Value.equal_iff_promoted v w).1 hvw).1
  exact List.isChain_iff_pairwise.1 hchain

theorem call_equal_true_iff {vs : List Value} :
    Builtin.equal.call vs = .ok (.bool true) ↔ vs.IsChain fun v w => v.equal w = true := by
  rw [call_equal_all, Except.ok.injEq, Value.bool.injEq, allEqual_iff_isChain]

end Builtin

/-- Two values that a third one is equal to are equal, unless they are apart: then at one place they
hold different integers, of magnitudes from `2 ^ 53` on, that are rounded to one double. The same is
true of any two arguments for which `=` holds. -/
theorem equality_transitive_unless_apart :
    (∀ u v w : Value, u.equal v = true → v.equal w = true → (u.equal w = true ↔ ¬ u.Apart w)) ∧
    (∀ vs : List Value, Builtin.equal.call vs = .ok (.bool true) →
      vs.Pairwise fun v w => v.equal w = true ↔ ¬ v.Apart w) ∧
    ∀ m n : Int64, (Value.int m).Apart (.int n) →
      Nat.pow 2 53 ≤ m.toInt.natAbs ∧ Nat.pow 2 53 ≤ n.toInt.natAbs := by
  have hiff {v w : Value} (h : v.promoted.equal w.promoted = true) :
      v.equal w = true ↔ ¬ v.Apart w := by
    rw [Value.equal_iff_promoted]
    exact and_iff_right h
  refine ⟨fun u v w huv hvw => hiff ?_, fun vs h => ?_, fun m n => Value.le_natAbs_of_apart⟩
  · have huv' := (Value.equal_iff_promoted u v).1 huv
    have hvw' := (Value.equal_iff_promoted v w).1 hvw
    exact Value.promoted_equal_trans v huv'.1 hvw'.1
  · have hchain := Builtin.call_equal_true_iff.1 h
    exact (Builtin.pairwise_promoted_of_isChain hchain).imp hiff

/-- The integer of the first list is rounded to be compared with the double of the second one, and
is the integer of the third one. -/
theorem equality_transitive_unless_apart_rounded :
    let x : Double := .ofInt 9007199254740992
    let u : Value := .list [.int 9007199254740993, .double (.ofInt 1)]
    let v : Value := .list [.double x, .int 1]
    let w : Value := .list [.int 9007199254740993, .int 1]
    u.equal v = true ∧ v.equal w = true ∧ ¬ u.Apart w ∧ u.equal w = true ∧
      (Value.int 9007199254740993).Apart (.int 9007199254740992) ∧
      Nat.pow 2 53 ≤ (9007199254740993 : Int64).toInt.natAbs := by
  intro x u v w
  have huv : u.equal v = true := by decide +kernel
  have hvw : v.equal w = true := by decide +kernel
  have hsame : ¬ u.Apart w := by
    rw [Value.apart_list_cons_iff, Value.apart_list_cons_iff, Value.apart_int_iff]
    rintro (⟨hne, -⟩ | ⟨⟨⟩⟩ | hnil)
    · exact hne rfl
    · exact Value.not_apart_nil _ hnil
  have hapart : (Value.int 9007199254740993).Apart (.int 9007199254740992) :=
    .int (by decide) (by decide +kernel)
  obtain ⟨htrans, -, hmagnitude⟩ := equality_transitive_unless_apart
  exact ⟨huv, hvw, hsame, (htrans u v w huv hvw).2 hsame, hapart, (hmagnitude _ _ hapart).1⟩

/-- Two different integers equal one double, which stands between them in a call. -/
theorem double_equals_two_integers :
    let x : Double := .ofInt 9007199254740992
    (Value.int 9007199254740993).equal (.double x) = true ∧
    (Value.double x).equal (.int 9007199254740992) = true ∧
    (Value.int 9007199254740993).equal (.int 9007199254740992) = false ∧
    Builtin.equal.call [.int 9007199254740993, .double x, .int 9007199254740992] =
      .ok (.bool true) := by
  intro x
  have hleft : (Value.int 9007199254740993).equal (.double x) = true := by decide +kernel
  have hright : (Value.double x).equal (.int 9007199254740992) = true := by decide +kernel
  refine ⟨hleft, hright, rfl, Builtin.call_equal_true_iff.2 ?_⟩
  exact .cons_cons hleft (.cons_cons hright (.singleton _))

/-! ## Inequality -/

namespace Builtin

theorem call_notEqual (vs : List Value) : notEqual.call vs = .ok (.bool !allEqual vs) := rfl

theorem call_notEqual_true_iff {vs : List Value} :
    notEqual.call vs = .ok (.bool true) ↔ ¬ vs.IsChain fun v w => v.equal w = true := by
  rw [call_notEqual, Except.ok.injEq, Value.bool.injEq, Bool.not_eq_true', ← allEqual_iff_isChain,
    Bool.not_eq_true]

theorem not_isChain_equal_iff {vs : List Value} :
    (¬ vs.IsChain fun v w => v.equal w = true) ↔
      ∃ i v w, vs[i]? = some v ∧ vs[i + 1]? = some w ∧ v.equal w = false := by
  rw [List.isChain_iff_getElem]
  constructor
  · intro h
    obtain ⟨i, h⟩ := not_forall.1 h
    obtain ⟨hi, h⟩ := not_forall.1 h
    exact ⟨i, _, _, List.getElem?_eq_getElem _, List.getElem?_eq_getElem hi,
      Bool.eq_false_iff.2 h⟩
  · rintro ⟨i, v, w, hv, hw, h⟩ hchain
    obtain ⟨hi, rfl⟩ := List.getElem?_eq_some_iff.1 hv
    obtain ⟨hi', rfl⟩ := List.getElem?_eq_some_iff.1 hw
    exact Bool.eq_false_iff.1 h (hchain i hi')

theorem isChain_of_length_lt {R : Value → Value → Prop} {vs : List Value} (h : vs.length < 2) :
    vs.IsChain R := by
  rcases vs with _ | ⟨v, _ | ⟨w, vs⟩⟩
  · exact .nil
  · exact .singleton v
  · exact absurd h (by simp)

/-- The first two of several arguments are not both equal and unequal. -/
theorem not_isChain_of_isChain {vs : List Value} (hlength : 2 ≤ vs.length)
    (h : vs.IsChain fun v w => v.equal w = false) :
    ¬ vs.IsChain fun v w => v.equal w = true := by
  rcases vs with _ | ⟨v, _ | ⟨w, vs⟩⟩
  · exact absurd hlength (by simp)
  · exact absurd hlength (by simp)
  · intro h'
    exact Bool.eq_false_iff.1 (List.isChain_cons_cons.1 h).1 (List.isChain_cons_cons.1 h').1

end Builtin

/-- The answer of `!=` is whether some two neighbours are unequal. That is whether all of them are,
as the other relations are answered, if there are at least two arguments, and they are equal
throughout or unequal throughout, and in no other case. -/
theorem inequality_somewhere (vs : List Value) :
    (∃ b, Builtin.notEqual.call vs = .ok (.bool b)) ∧
    (Builtin.notEqual.call vs = .ok (.bool true) ↔
      ∃ i v w, vs[i]? = some v ∧ vs[i + 1]? = some w ∧ v.equal w = false) ∧
    ((Builtin.notEqual.call vs = .ok (.bool true) ↔ vs.IsChain fun v w => v.equal w = false) ↔
      2 ≤ vs.length ∧ (vs.IsChain (fun v w => v.equal w = true) ∨
        vs.IsChain fun v w => v.equal w = false)) := by
  rw [Builtin.call_notEqual_true_iff]
  refine ⟨⟨_, Builtin.call_notEqual vs⟩, Builtin.not_isChain_equal_iff, ?_⟩
  constructor
  · intro h
    by_cases hequal : vs.IsChain fun v w => v.equal w = true
    · refine ⟨Nat.le_of_not_lt fun hlt => ?_, .inl hequal⟩
      exact h.2 (Builtin.isChain_of_length_lt hlt) hequal
    · exact ⟨Nat.le_of_not_lt fun hlt => hequal (Builtin.isChain_of_length_lt hlt),
        .inr (h.1 hequal)⟩
  · rintro ⟨hlength, hequal | hunequal⟩
    · refine iff_of_false (not_not_intro hequal) fun hunequal => ?_
      exact Builtin.not_isChain_of_isChain hlength hunequal hequal
    · exact iff_of_true (Builtin.not_isChain_of_isChain hlength hunequal) hunequal

/-- Of one argument no neighbours are equal, and of three arguments the first two are. -/
theorem inequality_not_throughout :
    Builtin.notEqual.call [.int 1] = .ok (.bool false) ∧
    ([Value.int 1].IsChain fun v w => v.equal w = false) ∧
    Builtin.notEqual.call [.int 1, .int 1, .int 2] = .ok (.bool true) ∧
    ¬ [Value.int 1, .int 1, .int 2].IsChain fun v w => v.equal w = false := by
  refine ⟨rfl, .singleton _, rfl, fun h => ?_⟩
  cases (List.isChain_cons_cons.1 h).1

end SmallLisp
