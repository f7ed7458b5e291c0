/-!
# Integers

Integers of the language are 64-bit words. Arithmetic on them is done exactly and its result
brought back by `ofInt?`, which fails on a number that no word holds.
-/

namespace SmallLisp.Integer

/-- From `-2 ^ 63` up to `2 ^ 63 - 1`. -/
def InRange (n : Int) : Prop := -9223372036854775808 ≤ n ∧ n ≤ 9223372036854775807

instance (n : Int) : Decidable (InRange n) := inferInstanceAs (Decidable (_ ∧ _))

/-- The word of a number, if it is in range. -/
def ofInt? (n : Int) : Option Int64 := if InRange n then some (Int64.ofInt n) else none

theorem inRange_toInt (w : Int64) : InRange w.toInt :=
  ⟨w.le_toInt, Int.le_of_lt_add_one w.toInt_lt⟩

theorem ofInt?_toInt (w : Int64) : ofInt? w.toInt = some w := by
  simp [ofInt?, inRange_toInt]

theorem ofInt?_eq_some_iff {n : Int} {w : Int64} : ofInt? n = some w ↔ w.toInt = n := by
  constructor
  · intro h
    simp only [ofInt?] at h
    split at h
    · rename_i hr
      cases h
      exact Int64.toInt_ofInt_of_le hr.1 (Int.lt_add_one_of_le hr.2)
    · cases h
  · rintro rfl; exact ofInt?_toInt w

theorem ofInt?_eq_none_iff {n : Int} : ofInt? n = none ↔ ¬ InRange n := by
  simp [ofInt?]

/-- A remainder and its divisor lie on different sides of zero. -/
def Opposed (r n : Int64) : Prop := r ≠ 0 ∧ ¬ (r < 0 ↔ n < 0)

instance (r n : Int64) : Decidable (Opposed r n) := inferInstanceAs (Decidable (_ ∧ _))

/-- The remainder of a quotient rounded down, from that of the quotient rounded toward zero. The
addition is one of words, and nothing checks it. -/
def floored (r n : Int64) : Int64 := if Opposed r n then r + n else r

/-- The word that a sign and decimal digits denote. -/
def ofDigits? (negative : Bool) (digits : List Char) : Option Int64 :=
  let n := Nat.ofDigitChars 10 digits 0
  ofInt? (if negative then -n else n)

end SmallLisp.Integer
