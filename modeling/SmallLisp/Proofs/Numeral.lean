import SmallLisp.Proofs.Lexeme

/-!
# Numbers read back

The written form of an integer or of a finite double is one lexeme, and reads as that number
(`lexeme_int`, `lexeme_double`). For a double this rests on two facts about rounding: a ratio is
rounded as the same ratio in other terms (`roundRatio_mul`), and a magnitude is rounded to itself
(`roundRatio_of_representable`).
-/

namespace SmallLisp

/-! ## Rounding -/

namespace Double

theorem roundRatio_mul {k : Nat} (hk : 0 < k) (num den : Nat) :
    roundRatio (k * num) (k * den) = roundRatio num den := by
  have hlt : ∀ a b, k * a < 2 * (k * b) ↔ a < 2 * b := fun a b => by
    rw [Nat.mul_left_comm, Nat.mul_lt_mul_left hk]
  have heq : ∀ a b, 2 * (k * a) = k * b ↔ 2 * a = b := fun a b => by
    rw [Nat.mul_left_comm, Nat.mul_right_inj (Nat.ne_of_gt hk)]
  unfold roundRatio
  dsimp only
  rw [Nat.mul_div_mul_left _ _ hk, Nat.mul_assoc k den, Nat.mul_div_mul_left _ _ hk,
    Nat.mul_mod_mul_left]
  simp only [hlt, heq]

theorem roundRatio_of_representable {units den : Nat} (h : Representable units) (hd : 0 < den) :
    roundRatio (den * units) den = units := by
  have hpos : 0 < spacing units := pow_pos _
  have hcancel := roundRatio_mul hd units 1
  rw [Nat.mul_one] at hcancel
  rw [hcancel]
  unfold roundRatio
  dsimp only
  rw [Nat.div_one, Nat.one_mul, Nat.mod_eq_zero_of_dvd h.2, Nat.mul_zero, if_neg (by omega),
    Nat.div_mul_cancel h.2]

theorem ofRatio_eq_finite_iff {negative : Bool} {num den : Nat} {m : Magnitude} :
    ofRatio negative num den = finite negative m ↔ roundRatio num den = m.units := by
  obtain ⟨units, hm⟩ := m
  unfold ofRatio
  constructor
  · intro h
    split at h
    · exact congrArg Magnitude.units (Double.finite.inj h).2
    · cases h
  · intro h
    dsimp only at h
    rw [dif_pos (h ▸ hm.1)]
    simp only [h]

/-! ## Decimals -/

theorem ofDecimal_mul_ten (negative : Bool) (coefficient scale : Nat) :
    ofDecimal negative ⟨10 * coefficient, scale + 1⟩ = ofDecimal negative ⟨coefficient, scale⟩ := by
  have hround := roundRatio_mul (k := 10) (by decide) (coefficient * one) (Nat.pow 10 scale)
  have hscale : Nat.pow 10 (scale + 1) = 10 * Nat.pow 10 scale := Nat.pow_succ'
  unfold ofDecimal ofRatio
  simp only [hscale, Nat.mul_assoc, hround]

theorem ofDecimal_trim (negative : Bool) (coefficient scale : Nat) :
    ofDecimal negative (Decimal.trim coefficient scale) =
      ofDecimal negative ⟨coefficient, scale⟩ := by
  fun_induction Decimal.trim coefficient scale with
  | case1 => rfl
  | case2 coefficient scale h ih =>
    rw [ih, ← ofDecimal_mul_ten, Nat.mul_div_cancel' (Nat.dvd_of_mod_eq_zero h)]
  | case3 => rfl

theorem ofDecimal_negative {d : Decimal} {m : Magnitude} (h : ofDecimal false d = finite false m)
    (negative : Bool) : ofDecimal negative d = finite negative m :=
  ofRatio_eq_finite_iff.2 (ofRatio_eq_finite_iff.1 h)

theorem mul_pow_five_mul_pow_two (units n : Nat) :
    units * Nat.pow 5 n * Nat.pow 2 n = Nat.pow 10 n * units := by
  rw [Nat.mul_assoc, Nat.mul_comm]
  exact congrArg (· * units) (Nat.mul_pow 5 2 n).symm

theorem ofDecimal_exactDecimal (m : Magnitude) :
    ofDecimal false (exactDecimal m) = finite false m := by
  rw [exactDecimal, ofDecimal_trim, ofDecimal, ofRatio_eq_finite_iff]
  dsimp only
  unfold one
  generalize 1074 = n
  rw [mul_pow_five_mul_pow_two]
  exact roundRatio_of_representable m.representable (Nat.pow_pos (by decide))

/-- What is chosen for a number of digits reads back. -/
theorem readsBack_of_decimalOfLength {m : Magnitude} {length n : Nat} {d : Decimal}
    (h : decimalOfLength m length n = some d) : readsBack m d = true := by
  unfold decimalOfLength at h
  dsimp only at h
  split at h
  case isTrue habove =>
    cases h
    exact (Bool.and_eq_true_iff.1 habove).1
  case isFalse =>
    split at h
    · cases h
      assumption
    · split at h <;> cases h
      assumption

theorem ofDecimal_shortestDecimal (m : Magnitude) :
    ofDecimal false (shortestDecimal m) = finite false m := by
  unfold shortestDecimal
  dsimp only
  generalize hf : (fun i => decimalOfLength m (Nat.toDigits 10 (places m)).length (i + 1)) = f
  cases h : (List.range 17).findSome? f with
  | none =>
    rw [Option.getD_none]
    exact ofDecimal_exactDecimal m
  | some d =>
    obtain ⟨i, -, hi⟩ := List.exists_of_findSome?_eq_some h
    rw [← hf] at hi
    exact of_decide_eq_true (readsBack_of_decimalOfLength hi)

/-- The digits that a literal has before and after its point. -/
theorem ofDecimal_ofDigits (negative : Bool) (d : Decimal) :
    ofDecimal negative (.ofDigits d.whole (if d.scale = 0 then ['0'] else d.fraction)) =
      ofDecimal negative d := by
  split
  case isFalse => rw [Decimal.ofDigits_whole_fraction]
  case isTrue h =>
    obtain ⟨coefficient, scale⟩ := d
    obtain rfl : scale = 0 := h
    have hfraction := List.length_eq_zero_iff.1 (Decimal.length_fraction ⟨coefficient, 0⟩)
    have hwhole := Decimal.whole_append_fraction ⟨coefficient, 0⟩
    rw [hfraction, List.append_nil] at hwhole
    have hvalue : Nat.ofDigitChars 10 (Decimal.whole ⟨coefficient, 0⟩ ++ ['0']) 0 =
        10 * coefficient := by
      rw [hwhole, Nat.ofDigitChars_append, Decimal.ofDigitChars_digits]
      rfl
    rw [Decimal.ofDigits, hvalue]
    exact ofDecimal_mul_ten negative coefficient 0

end Double

/-! ## Lexemes -/

namespace Reader

theorem isSign_signChars (negative : Bool) : IsSign (Decimal.signChars negative) := by
  cases negative with
  | false => exact .inl rfl
  | true => exact .inr (.inr rfl)

theorem signChars_eq (negative : Bool) :
    decide (Decimal.signChars negative = ['-']) = negative := by
  cases negative <;> rfl

theorem isDigits_toDigits (n : Nat) : IsDigits (Nat.toDigits 10 n) :=
  ⟨Nat.toDigits_ne_nil, fun _ => Nat.isDigit_of_mem_toDigits (by decide) (by decide)⟩

theorem isDigits_whole (d : Decimal) : IsDigits d.whole :=
  ⟨d.whole_ne_nil, fun _ hc => Decimal.isDigit_of_mem_digits (List.mem_of_mem_take hc)⟩

theorem isDigit_of_mem_literal {d : Decimal} {c : Char}
    (hc : c ∈ if d.scale = 0 then ['0'] else d.fraction) : c.isDigit = true := by
  split at hc
  · obtain rfl := List.mem_singleton.1 hc
    rfl
  · exact Decimal.isDigit_of_mem_digits (List.mem_of_mem_drop hc)

/-- The written form of an integer is a lexeme that reads as it. -/
theorem lexeme_int (n : Int64) :
    Lexeme (Decimal.signChars (n.toInt < 0) ++ Nat.toDigits 10 n.toInt.natAbs)
      (.ok (.int n)) := by
  refine .int (isSign_signChars _) (isDigits_toDigits _) ?_
  unfold Integer.ofDigits?
  dsimp only
  rw [Nat.ofDigitChars_ten_toDigits, signChars_eq, ← Integer.ofInt?_toInt n]
  congr 1
  simp only [decide_eq_true_eq]
  split <;> omega

/-- The literal of a finite double is a lexeme that reads as it. -/
theorem lexeme_double (negative : Bool) (m : Magnitude) :
    Lexeme (Double.literal (.finite negative m)) (.ok (.double (.finite negative m))) := by
  have hlexeme := Lexeme.double (isSign_signChars negative)
    (isDigits_whole (Double.shortestDecimal m))
    (fun c => isDigit_of_mem_literal (d := Double.shortestDecimal m))
  rw [signChars_eq, Double.ofDecimal_ofDigits,
    Double.ofDecimal_negative (Double.ofDecimal_shortestDecimal m)] at hlexeme
  simpa [Double.literal] using hlexeme

end Reader

end SmallLisp
