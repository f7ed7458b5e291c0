import SmallLisp.Double.Basic

/-!
# Decimal notation

A decimal is a natural number of some power of a tenth. It is written positionally, without an
exponent: at least one digit stands before the point, and `scale` digits after it.
-/

namespace SmallLisp

/-- The number `coefficient / 10 ^ scale`. -/
structure Decimal where
  coefficient : Nat
  scale : Nat
  deriving DecidableEq

namespace Decimal

/-- The digits of the coefficient, with zeros in front where the scale asks for them. -/
def digits (d : Decimal) : List Char :=
  let ds := Nat.toDigits 10 d.coefficient
  List.replicate (d.scale + 1 - ds.length) '0' ++ ds

def whole (d : Decimal) : List Char := d.digits.take (d.digits.length - d.scale)

def fraction (d : Decimal) : List Char := d.digits.drop (d.digits.length - d.scale)

/-- The written form, with a point only if digits follow it. -/
def chars (d : Decimal) : List Char :=
  if d.scale = 0 then d.whole else d.whole ++ '.' :: d.fraction

/-- The minus sign of a negative number. -/
def signChars (negative : Bool) : List Char := if negative then ['-'] else []

/-- The decimal whose digits before and after the point are given. -/
def ofDigits (whole fraction : List Char) : Decimal :=
  ⟨Nat.ofDigitChars 10 (whole ++ fraction) 0, fraction.length⟩

theorem whole_append_fraction (d : Decimal) : d.whole ++ d.fraction = d.digits :=
  List.take_append_drop ..

theorem scale_lt_length_digits (d : Decimal) : d.scale < d.digits.length := by
  simp only [digits, List.length_append, List.length_replicate]
  omega

theorem length_fraction (d : Decimal) : d.fraction.length = d.scale := by
  have := d.scale_lt_length_digits
  simp only [fraction, List.length_drop]
  omega

theorem whole_ne_nil (d : Decimal) : d.whole ≠ [] := by
  have := d.scale_lt_length_digits
  simp only [whole, ne_eq, ← List.length_eq_zero_iff, List.length_take]
  omega

theorem isDigit_of_mem_digits {d : Decimal} {c : Char} (h : c ∈ d.digits) : c.isDigit = true := by
  simp only [digits, List.mem_append, List.mem_replicate] at h
  rcases h with ⟨_, rfl⟩ | h
  · rfl
  · exact Nat.isDigit_of_mem_toDigits (by omega) (by omega) h

theorem ofDigitChars_replicate_zero (k : Nat) (ds : List Char) :
    Nat.ofDigitChars 10 (List.replicate k '0' ++ ds) 0 = Nat.ofDigitChars 10 ds 0 := by
  induction k with
  | zero => rfl
  | succ k ih => simpa [List.replicate_succ, Nat.ofDigitChars] using ih

theorem ofDigitChars_digits (d : Decimal) : Nat.ofDigitChars 10 d.digits 0 = d.coefficient := by
  rw [digits, ofDigitChars_replicate_zero, Nat.ofDigitChars_toDigits (by omega) (by omega)]

/-- Reading the written digits gives the decimal back. -/
theorem ofDigits_whole_fraction (d : Decimal) : ofDigits d.whole d.fraction = d := by
  simp [ofDigits, whole_append_fraction, ofDigitChars_digits, length_fraction]

/-- The same number without zeros at the end of the fraction. -/
def trim : Nat → Nat → Decimal
  | coefficient, 0 => ⟨coefficient, 0⟩
  | coefficient, scale + 1 =>
    if coefficient % 10 = 0 then trim (coefficient / 10) scale else ⟨coefficient, scale + 1⟩

end Decimal

/-- The double nearest to a decimal, with a sign. -/
def Double.ofDecimal (negative : Bool) (d : Decimal) : Double :=
  ofRatio negative (d.coefficient * one) (Nat.pow 10 d.scale)

end SmallLisp
