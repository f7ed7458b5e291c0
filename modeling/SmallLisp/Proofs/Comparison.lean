import SmallLisp.Number
import SmallLisp.Proofs.Position

/-!
# The order of numbers

Two integers are compared as they are, and as soon as one of two numbers is a double, both are
compared as doubles (`Number.points?`). So numbers do not stand on one line: a greater integer and a
smaller one may both compare equal to a double. Still the order is strict
(`Relation.Between.asymm`, `Relation.Between.trans`), since the double of an integer never stands
beyond that of a greater one. Equality of values promotes numbers by itself, and agrees with the
order (`Number.equal_toValue`).
-/

namespace SmallLisp

/-! ## Where numbers are compared -/

namespace Number

/-- Where two numbers stand on the line on which they are compared: that of the integers, or else
that of the doubles, on which NaN stands nowhere. -/
def points? : Number → Number → Option (Int × Int)
  | int m, int n => some (m.toInt, n.toInt)
  | a, b => Option.map₂ Prod.mk a.toDouble.position? b.toDouble.position?

theorem points?_of_double_left (x : Double) (b : Number) :
    (double x).points? b = Option.map₂ Prod.mk x.position? b.toDouble.position? := rfl

theorem points?_of_double_right (a : Number) (y : Double) :
    a.points? (double y) = Option.map₂ Prod.mk a.toDouble.position? y.position? := by
  cases a <;> rfl

theorem position?_toDouble_eq_none_iff {a : Number} :
    a.toDouble.position? = none ↔ a = double .nan := by
  cases a with
  | int n => simp [toDouble, Double.position?_ofInt]
  | double x => rw [toDouble, Double.position?_eq_none_iff, double.injEq]

theorem points?_eq_none_iff {a b : Number} :
    a.points? b = none ↔ a = double .nan ∨ b = double .nan := by
  rw [← position?_toDouble_eq_none_iff, ← position?_toDouble_eq_none_iff]
  cases a with
  | double x => exact Option.map₂_eq_none_iff
  | int m =>
    cases b with
    | double y => exact Option.map₂_eq_none_iff
    | int n => simp [points?, toDouble, Double.position?_ofInt]

theorem points?_swap (a b : Number) : b.points? a = (a.points? b).map Prod.swap := by
  cases a with
  | double x =>
    rw [points?_of_double_left, points?_of_double_right, Option.map_map₂]
    exact Option.map₂_swap ..
  | int m =>
    cases b with
    | double y =>
      rw [points?_of_double_left, points?_of_double_right, Option.map_map₂]
      exact Option.map₂_swap ..
    | int n => rfl

theorem compare_eq (a b : Number) :
    a.compare b = (a.points? b).map fun p => Ord.compare p.1 p.2 := by
  cases a with
  | double x =>
    rw [points?_of_double_left, Option.map_map₂]
    exact Double.compare_eq x b.toDouble
  | int m =>
    cases b with
    | double y =>
      rw [points?_of_double_right, Option.map_map₂]
      exact Double.compare_eq (int m).toDouble y
    | int n => rfl

theorem compare_eq_none_iff {a b : Number} :
    a.compare b = none ↔ a = double .nan ∨ b = double .nan := by
  rw [compare_eq, Option.map_eq_none_iff, points?_eq_none_iff]

/-- Comparing the other way round gives the opposite. -/
theorem compare_swap (a b : Number) : b.compare a = (a.compare b).map Ordering.swap := by
  rw [compare_eq, compare_eq, points?_swap, Option.map_map, Option.map_map]
  exact congrArg (Option.map · _) (funext fun p => (Int.compare_swap p.1 p.2).symm)

/-- Numbers are equal as values where they compare as equal. -/
theorem equal_toValue (a b : Number) : a.toValue.equal b.toValue = (a.compare b == some .eq) := by
  cases a with
  | double x =>
    cases b with
    | double y => simp only [toValue, Value.equal, Double.equal, compare, toDouble]
    | int n =>
      -- Equality has the double on the right here, and the order has it on the left.
      simp only [toValue, Value.equal, compare, toDouble]
      exact Double.equal_comm (.ofInt n.toInt) x
  | int m =>
    cases b with
    | double y => simp only [toValue, Value.equal, Double.equal, compare, toDouble]
    | int n =>
      simp only [toValue, Value.equal, compare]
      rw [Bool.eq_iff_iff, beq_iff_eq, beq_iff_eq, Option.some.injEq, Int.compare_eq_eq,
        Int64.toInt_inj]

end Number

/-! ## Relations -/

namespace Relation

/-- The relation of two integers. -/
def Orders : Relation → Int → Int → Prop
  | less, m, n => m < n
  | lessEqual, m, n => m ≤ n
  | greater, m, n => n < m
  | greaterEqual, m, n => n ≤ m

/-- The same relation, seen from its other end. -/
def converse : Relation → Relation
  | less => greater
  | lessEqual => greaterEqual
  | greater => less
  | greaterEqual => lessEqual

/-- The relation holds between the places where two numbers stand. -/
def Between (r : Relation) (a b : Number) : Prop := ∃ p ∈ a.points? b, r.Orders p.1 p.2

theorem holds_compare_iff {r : Relation} {m n : Int} :
    r.holds (Ord.compare m n) = true ↔ r.Orders m n := by
  cases r with
  | less => rw [holds, Orders, beq_iff_eq, Int.compare_eq_lt]
  | lessEqual => rw [holds, Orders, bne_iff_ne, Int.compare_ne_gt]
  | greater => rw [holds, Orders, beq_iff_eq, Int.compare_eq_gt]
  | greaterEqual => rw [holds, Orders, bne_iff_ne, Int.compare_ne_lt]

theorem any_holds_compare_iff {r : Relation} {a b : Number} :
    (a.compare b).any r.holds = true ↔ r.Between a b := by
  rw [Number.compare_eq, Option.any_map, Option.any_eq_true]
  simp only [Between, holds_compare_iff]
  rfl

theorem between_double_left_iff {r : Relation} {x : Double} {b : Number} :
    r.Between (.double x) b ↔
      ∃ m n, x.position? = some m ∧ b.toDouble.position? = some n ∧ r.Orders m n := by
  rw [Between, Number.points?_of_double_left]
  cases x.position? <;> cases b.toDouble.position? <;> simp

theorem between_double_right_iff {r : Relation} {a : Number} {y : Double} :
    r.Between a (.double y) ↔
      ∃ m n, a.toDouble.position? = some m ∧ y.position? = some n ∧ r.Orders m n := by
  rw [Between, Number.points?_of_double_right]
  cases a.toDouble.position? <;> cases y.position? <;> simp

theorem between_int_iff {r : Relation} {m n : Int64} :
    r.Between (.int m) (.int n) ↔ r.Orders m.toInt n.toInt := by
  rw [Between, Number.points?]
  simp

theorem between_converse_iff {r : Relation} {a b : Number} :
    r.converse.Between b a ↔ r.Between a b := by
  unfold Between
  rw [Number.points?_swap a b]
  cases a.points? b with
  | none => exact iff_of_false nofun nofun
  | some p => cases r <;> simp [Orders, converse]

namespace Between

variable {r : Relation} {a b c : Number}

theorem ne_nan (h : r.Between a b) : a ≠ .double .nan ∧ b ≠ .double .nan := by
  obtain ⟨p, hp, -⟩ := h
  rw [← not_or, ← Number.points?_eq_none_iff, hp]
  nofun

theorem asymm (hab : less.Between a b) : ¬ less.Between b a := by
  rintro ⟨q, hq, hba⟩
  obtain ⟨p, hp, hab⟩ := hab
  rw [Number.points?_swap a b, hp] at hq
  cases hq
  exact Int.lt_asymm hab hba

/-- Taken as doubles, the smaller number does not stand beyond the greater one. -/
theorem positions (h : less.Between a b) :
    ∃ m n, a.toDouble.position? = some m ∧ b.toDouble.position? = some n ∧ m ≤ n := by
  cases a with
  | double x =>
    obtain ⟨m, n, hm, hn, hlt⟩ := between_double_left_iff.1 h
    exact ⟨m, n, hm, hn, Int.le_of_lt hlt⟩
  | int i =>
    cases b with
    | double y =>
      obtain ⟨m, n, hm, hn, hlt⟩ := between_double_right_iff.1 h
      exact ⟨m, n, hm, hn, Int.le_of_lt hlt⟩
    | int j =>
      have hle := Int.le_of_lt (between_int_iff.1 h)
      exact ⟨_, _, Double.position?_ofInt _, Double.position?_ofInt _,
        Double.ofIntPosition_mono hle⟩

theorem trans (hab : less.Between a b) (hbc : less.Between b c) : less.Between a c := by
  cases a with
  | double x =>
    obtain ⟨m, n, hm, hn, hlt⟩ := between_double_left_iff.1 hab
    obtain ⟨n', k, hn', hk, hle⟩ := hbc.positions
    cases hn.symm.trans hn'
    exact between_double_left_iff.2 ⟨m, k, hm, hk, Int.lt_of_lt_of_le hlt hle⟩
  | int i =>
    cases c with
    | double z =>
      obtain ⟨m, n, hm, hn, hle⟩ := hab.positions
      obtain ⟨n', k, hn', hk, hlt⟩ := between_double_right_iff.1 hbc
      cases hn.symm.trans hn'
      exact between_double_right_iff.2 ⟨m, k, hm, hk, Int.lt_of_le_of_lt hle hlt⟩
    | int k =>
      rw [between_int_iff]
      cases b with
      | int j => exact Int.lt_trans (between_int_iff.1 hab) (between_int_iff.1 hbc)
      | double y =>
        -- A double strictly between the doubles of two integers keeps them apart.
        obtain ⟨m, n, hm, hn, hlt⟩ := between_double_right_iff.1 hab
        obtain ⟨n', l, hn', hl, hlt'⟩ := between_double_left_iff.1 hbc
        cases hn.symm.trans hn'
        cases (Double.position?_ofInt i.toInt).symm.trans hm
        cases (Double.position?_ofInt k.toInt).symm.trans hl
        refine Int.not_le.1 fun hge => ?_
        exact Int.not_lt.2 (Double.ofIntPosition_mono hge) (Int.lt_trans hlt hlt')

end Between

theorem between_greater_iff {a b : Number} : greater.Between a b ↔ less.Between b a :=
  between_converse_iff (r := less)

section Strict

variable {r : Relation} (hr : r = .less ∨ r = .greater) {a b c : Number}

include hr

theorem between_asymm (hab : r.Between a b) : ¬ r.Between b a := by
  rcases hr with rfl | rfl
  · exact hab.asymm
  · rw [between_greater_iff] at hab ⊢
    exact hab.asymm

theorem between_trans (hab : r.Between a b) (hbc : r.Between b c) : r.Between a c := by
  rcases hr with rfl | rfl
  · exact hab.trans hbc
  · rw [between_greater_iff] at hab hbc ⊢
    exact hbc.trans hab

end Strict

end Relation

end SmallLisp
