import SmallLisp.Proofs.Division
import SmallLisp.Proofs.Ordering

/-!
# Signs of numbers

The predicates `zero?`, `pos?` and `neg?` ask how a number compares with zero, and take the answer
to be that it equals zero where there is none. So they agree with the comparisons, and `zero?` with
what division fails on, for every number but NaN, whose sign is zero though it is not equal to zero
(`signs_agree_unless_nan`).
-/

namespace SmallLisp

/-! ## Zero -/

namespace Double

theorem withSign_eq_zero_iff {n : Bool} {units : Nat} : withSign n units = 0 ↔ units = 0 := by
  unfold withSign
  cases n <;> simp only [↓reduceIte, Bool.false_eq_true] <;> omega

theorem isZero_iff_position {x : Double} : x.isZero = true ↔ x.position? = some 0 := by
  cases x with
  | nan => exact iff_of_false Bool.false_ne_true (Option.some_ne_none _).symm
  | infinite n =>
    rw [position?, Option.some.injEq, withSign_eq_zero_iff]
    exact iff_of_false Bool.false_ne_true (Nat.ne_of_gt limit_pos)
  | finite n m => rw [isZero, position?, Option.some.injEq, withSign_eq_zero_iff, beq_iff_eq]

end Double

namespace Number

/-- A number is zero if it compares as equal to it. -/
theorem isZero_iff_compare {a : Number} : a.isZero = true ↔ a.compare (int 0) = some .eq := by
  cases a with
  | int n =>
    rw [isZero, beq_iff_eq, Integer.eq_zero_iff, compare, Option.some.injEq, Int.compare_eq_eq]
    rfl
  | double x =>
    have hzero : (int 0).toDouble.position? = some 0 := by decide +kernel
    rw [isZero, Double.isZero_iff_position, compare_eq, points?_of_double_left, hzero]
    cases x.position? <;> simp

/-- The sign is how the number compares with zero, but zero for NaN. -/
theorem sign_eq_iff {a : Number} {o : Ordering} :
    a.sign = o ↔ a.compare (int 0) = some o ∨ (a = double .nan ∧ o = .eq) := by
  rw [sign]
  cases h : a.compare (int 0) with
  | none =>
    obtain rfl | h := compare_eq_none_iff.1 h
    · simp [eq_comm]
    · cases h
  | some p =>
    have hnan : a ≠ double .nan := by
      rintro rfl
      cases (compare_eq_none_iff.2 (.inl rfl)).symm.trans h
    simp [hnan]

end Number

theorem Operator.apply_divisionByZero_iff {op : Operator} {a b : Number} :
    op.apply a b = .error .divisionByZero ↔ op.divides = true ∧ b.isZero = true := by
  rw [← Bool.and_eq_true]
  unfold apply
  split
  case isTrue h => exact iff_of_true rfl h
  case isFalse h =>
    refine iff_of_false ?_ h
    split
    · split <;> nofun
    · nofun

/-! ## Calls -/

namespace Builtin

theorem answers_sign_iff {o : Ordering} {a : Number} {b : Bool} :
    (sign o).Answers [a] b ↔ (a.sign == o) = b := by
  have hcall : call (sign o) [a.toValue] = .ok (.bool (a.sign == o)) := by
    change (do return Value.bool ((← Number.ofArgument (sign o).name a.toValue).sign == o)) = _
    rw [Number.ofArgument_toValue]
    rfl
  rw [Answers, List.map_singleton, hcall, Except.ok.injEq, Value.bool.injEq]

/-- A predicate on the sign answers as the comparison with zero, but that NaN counts as zero. -/
theorem answers_sign_true_iff {o : Ordering} {a : Number} :
    (sign o).Answers [a] true ↔
      (ofOrdering o).Answers [a, .int 0] true ∨ (a = .double .nan ∧ o = .eq) := by
  rw [answers_sign_iff, answers_ofOrdering_iff, beq_iff_eq, beq_iff_eq, Number.sign_eq_iff]

theorem call_arith_pair (op : Operator) (a b : Number) :
    call (.arith op) [a.toValue, b.toValue] = op.apply a b >>= fun c => return c.toValue := by
  have hfold : call (.arith op) [a.toValue, b.toValue] = fold op a.toValue [b.toValue] := by
    cases op <;> rfl
  rw [hfold, fold_singleton, Number.ofArgument_toValue, Number.ofArgument_toValue, pure_bind,
    pure_bind]

theorem call_arith_divisionByZero_iff (op : Operator) (a b : Number) :
    call (.arith op) [a.toValue, b.toValue] = .error .divisionByZero ↔
      op.divides = true ∧ b.isZero = true := by
  rw [call_arith_pair, ← Operator.apply_divisionByZero_iff]
  cases op.apply a b with
  | error e =>
    change Except.error e = _ ↔ _
    rw [Except.error.injEq, Except.error.injEq]
  | ok c => exact iff_of_false nofun nofun

end Builtin

/-- The answers of `pos?` and `neg?` are those of the comparisons with zero. That of `zero?` is
whether the number is equal to zero, which is where division by it fails, except that NaN, by which
division does not fail, counts as zero too. -/
theorem signs_agree_unless_nan (a : Number) :
    (∀ o, ∃ b, (Builtin.sign o).Answers [a] b) ∧
    ((Builtin.sign .gt).Answers [a] true ↔ (Builtin.order .greater).Answers [a, .int 0] true) ∧
    ((Builtin.sign .lt).Answers [a] true ↔ (Builtin.order .less).Answers [a, .int 0] true) ∧
    ((Builtin.sign .eq).Answers [a] true ↔
      Builtin.equal.Answers [a, .int 0] true ∨ a = .double .nan) ∧
    (Builtin.equal.Answers [a, .int 0] true ↔ a.isZero = true) ∧
    (∀ (op : Operator) (b : Number),
      (Builtin.arith op).call [b.toValue, a.toValue] = .error .divisionByZero ↔
        op.divides = true ∧ a.isZero = true) ∧
    ((Builtin.arith .div).call [a.toValue] = .error .divisionByZero ↔ a.isZero = true) := by
  refine ⟨fun o => ⟨_, Builtin.answers_sign_iff.2 rfl⟩, ?_, ?_, ?_, ?_, ?_, ?_⟩
  · rw [Builtin.answers_sign_true_iff]
    simp [Builtin.ofOrdering]
  · rw [Builtin.answers_sign_true_iff]
    simp [Builtin.ofOrdering]
  · rw [Builtin.answers_sign_true_iff]
    simp [Builtin.ofOrdering]
  · rw [Builtin.answers_equal_pair_iff, beq_iff_eq, Number.isZero_iff_compare]
  · exact fun op b => Builtin.call_arith_divisionByZero_iff op b a
  · exact (Builtin.call_arith_divisionByZero_iff .div (.int 1) a).trans (and_iff_right rfl)

/-- The square of `10 ^ 200` is infinite, and infinity less itself is NaN. -/
theorem sign_of_nan :
    let x : Double := .ofInt (Nat.pow 10 200)
    (Builtin.arith .mul).call [.double x, .double x] = .ok (.double (.infinite false)) ∧
    (Builtin.arith .sub).call [.double (.infinite false), .double (.infinite false)] =
      .ok (.double .nan) ∧
    (Builtin.sign .eq).Answers [.double .nan] true ∧
    Builtin.equal.Answers [.double .nan, .int 0] false ∧
    (Number.double .nan).isZero = false ∧
    (Builtin.arith .div).call [.int 1, .double .nan] = .ok (.double .nan) := by
  intro x
  have hsquare : x.mul x = .infinite false := by decide +kernel
  have hquotient : (Double.ofInt 1).div .nan = .nan := by decide +kernel
  have hmul := Builtin.call_arith_pair .mul (.double x) (.double x)
  rw [show Operator.mul.apply (.double x) (.double x) = .ok (.double (x.mul x)) from rfl,
    hsquare] at hmul
  have hdiv := Builtin.call_arith_pair .div (.int 1) (.double .nan)
  rw [show Operator.div.apply (.int 1) (.double .nan) =
    .ok (.double ((Double.ofInt 1).div .nan)) from rfl, hquotient] at hdiv
  exact ⟨hmul, rfl, Builtin.answers_sign_iff.2 (by decide +kernel),
    Builtin.answers_equal_pair_iff.2 (by decide +kernel), rfl, hdiv⟩

end SmallLisp
