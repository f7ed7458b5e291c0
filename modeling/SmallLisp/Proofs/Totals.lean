import Mathlib.Algebra.BigOperators.Group.List.Basic
import Mathlib.Data.List.Infix
import SmallLisp.Proofs.Division
import SmallLisp.Proofs.Nesting

/-!
# Arithmetic on many words

A sum, product or difference of words is exact if it is in range after each argument, and else an
overflow, even where the whole would be in range again (`totals_exact`). A division by many words
is one division by their product, which need not be in range itself, unless one of them offends
(`divide_by_product`).
-/

namespace SmallLisp

open Integer

namespace Builtin

theorem fold_words_cons {op : Operator} {b : Int64} (hb : op.divides = true → b ≠ 0) (a : Int64)
    (bs : List Int64) :
    fold op (.int a) ((b :: bs).map .int) =
      match op.onInt a b with
      | some c => fold op (.int c) (bs.map .int)
      | none => .error (.overflow op) := by
  rw [List.map_cons, fold_cons, fold_singleton]
  change (op.apply (.int a) (.int b) >>= fun c => pure c.toValue) >>= _ = _
  rw [Operator.apply_int hb]
  cases op.onInt a b <;> rfl

theorem fold_words_zero {op : Operator} (h : op.divides = true) (a : Int64) (vs : List Value) :
    fold op (.int a) (.int 0 :: vs) = .error .divisionByZero := by
  rw [fold_cons, fold_singleton]
  change (op.apply (.int a) (.int 0) >>= fun c => pure c.toValue) >>= _ = _
  rw [Operator.apply_zero h]
  rfl

end Builtin

/-! ## Sums, products and differences -/

/-- The operator, one word after another, makes this total of them, as far as it is in range. -/
structure Operator.HasTotal (op : Operator) (total : Int → List Int → Int) : Prop where
  divides : op.divides = false
  nil : ∀ a, total a [] = a
  cons : ∀ a b bs, total a (b :: bs) = total (total a [b]) bs
  onInt : ∀ m n, op.onInt m n = ofInt? (total m.toInt [n.toInt])

/-- The total of the words, taken after each of them, is in range. -/
def Fits (total : Int → List Int → Int) (a : Int64) (bs : List Int64) : Prop :=
  ∀ cs, cs <+: bs → InRange (total a.toInt (cs.map Int64.toInt))

namespace Operator.HasTotal

theorem add : HasTotal .add fun a bs => a + bs.sum where
  divides := rfl
  nil := Int.add_zero
  cons a b bs := by simp only [List.sum_cons, List.sum_nil]; omega
  onInt m n := by rw [Operator.onInt, List.sum_singleton]

theorem sub : HasTotal .sub fun a bs => a - bs.sum where
  divides := rfl
  nil := Int.sub_zero
  cons a b bs := by simp only [List.sum_cons, List.sum_nil]; omega
  onInt m n := by rw [Operator.onInt, List.sum_singleton]

theorem mul : HasTotal .mul fun a bs => a * bs.prod where
  divides := rfl
  nil := Int.mul_one
  cons a b bs := by rw [List.prod_cons, List.prod_singleton, Int.mul_assoc]
  onInt m n := by rw [Operator.onInt, List.prod_singleton]

variable {op : Operator} {total : Int → List Int → Int} (h : op.HasTotal total)

include h

theorem fits_nil (a : Int64) : Fits total a [] := by
  intro cs hcs
  rw [List.prefix_nil.1 hcs, List.map_nil, h.nil]
  exact inRange_toInt a

theorem fits_cons {a b c : Int64} (hc : c.toInt = total a.toInt [b.toInt]) (bs : List Int64) :
    Fits total a (b :: bs) ↔ Fits total c bs := by
  constructor
  · intro hfits cs hcs
    have hrange := hfits (b :: cs) (List.cons_prefix_cons.2 ⟨rfl, hcs⟩)
    rwa [List.map_cons, h.cons, ← hc] at hrange
  · intro hfits cs hcs
    rcases List.prefix_cons_iff.1 hcs with rfl | ⟨ds, rfl, hds⟩
    · rw [List.map_nil, h.nil]
      exact inRange_toInt a
    · rw [List.map_cons, h.cons, ← hc]
      exact hfits ds hds

/-- A fold over words has the exact total, or overflows at the first one that is out of range. -/
theorem fold_words (a : Int64) (bs : List Int64) :
    (Fits total a bs → ∃ w : Int64, Builtin.fold op (.int a) (bs.map .int) = .ok (.int w) ∧
      w.toInt = total a.toInt (bs.map Int64.toInt)) ∧
    (¬ Fits total a bs → Builtin.fold op (.int a) (bs.map .int) = .error (.overflow op)) := by
  have hdivides (b : Int64) : op.divides = true → b ≠ 0 := by
    rw [h.divides]
    nofun
  induction bs generalizing a with
  | nil => exact ⟨fun _ => ⟨a, rfl, (h.nil _).symm⟩, fun hfits => absurd (h.fits_nil a) hfits⟩
  | cons b bs ih =>
    rw [Builtin.fold_words_cons (hdivides b), h.onInt]
    -- The total with the next word is a word itself, from which the fold goes on, or overflows.
    by_cases hrange : InRange (total a.toInt [b.toInt])
    · obtain ⟨c, hc⟩ := exists_toInt_eq hrange
      rw [ofInt?_eq_some_iff.2 hc, h.fits_cons hc, List.map_cons, h.cons, ← hc]
      exact ih c
    · have hfits : ¬ Fits total a (b :: bs) := fun hfits =>
        hrange (hfits [b] (List.prefix_append [b] bs))
      rw [ofInt?_eq_none_iff.2 hrange]
      exact ⟨fun h => absurd h hfits, fun _ => rfl⟩

end Operator.HasTotal

/-- The call of an operator on words gives their total, if that fits, and else overflows. -/
def ExactOrOverflow (op : Operator) (total : Int → List Int → Int) (a : Int64)
    (bs : List Int64) : Prop :=
  ((∃ w : Int64, Builtin.call (.arith op) ((a :: bs).map .int) = .ok (.int w) ∧
    w.toInt = total a.toInt (bs.map Int64.toInt)) ↔ Fits total a bs) ∧
  (Builtin.call (.arith op) ((a :: bs).map .int) = .error (.overflow op) ↔ ¬ Fits total a bs)

theorem Operator.HasTotal.exactOrOverflow {op : Operator} {total : Int → List Int → Int}
    (h : op.HasTotal total) {a : Int64} {bs : List Int64}
    (hcall : Builtin.call (.arith op) ((a :: bs).map .int) =
      Builtin.fold op (.int a) (bs.map .int)) : ExactOrOverflow op total a bs := by
  obtain ⟨hexact, hoverflow⟩ := h.fold_words a bs
  unfold ExactOrOverflow
  rw [hcall]
  refine ⟨⟨?_, hexact⟩, ⟨?_, hoverflow⟩⟩
  · rintro ⟨w, hw, -⟩
    by_contra hfits
    cases hw.symm.trans (hoverflow hfits)
  · intro herror hfits
    obtain ⟨w, hw, -⟩ := hexact hfits
    cases hw.symm.trans herror

theorem ExactOrOverflow.exists_word {op : Operator} {total : Int → List Int → Int} {a : Int64}
    {bs : List Int64} (h : ExactOrOverflow op total a bs) {v : Value}
    (hv : Builtin.call (.arith op) ((a :: bs).map .int) = .ok v) :
    ∃ w : Int64, v = .int w ∧ w.toInt = total a.toInt (bs.map Int64.toInt) := by
  have hfits : Fits total a bs := by
    by_contra hfits
    cases hv.symm.trans (h.2.2 hfits)
  obtain ⟨w, hw, htotal⟩ := h.1.2 hfits
  cases hv.symm.trans hw
  exact ⟨w, rfl, htotal⟩

/-- Words with the same total give the same value, where they give one. -/
theorem ExactOrOverflow.value_eq {op : Operator} {total : Int → List Int → Int} {a b : Int64}
    {as bs : List Int64} (ha : ExactOrOverflow op total a as) (hb : ExactOrOverflow op total b bs)
    (htotal : total a.toInt (as.map Int64.toInt) = total b.toInt (bs.map Int64.toInt))
    {v w : Value} (hv : Builtin.call (.arith op) ((a :: as).map .int) = .ok v)
    (hw : Builtin.call (.arith op) ((b :: bs).map .int) = .ok w) : v = w := by
  obtain ⟨m, rfl, hm⟩ := ha.exists_word hv
  obtain ⟨n, rfl, hn⟩ := hb.exists_word hw
  rw [Int64.toInt_inj.1 (hm.trans (htotal.trans hn.symm))]

theorem exactOrOverflow_add (a : Int64) (bs : List Int64) :
    ExactOrOverflow .add (fun a bs => a + bs.sum) a bs :=
  Operator.HasTotal.add.exactOrOverflow rfl

theorem exactOrOverflow_mul (a : Int64) (bs : List Int64) :
    ExactOrOverflow .mul (fun a bs => a * bs.prod) a bs :=
  Operator.HasTotal.mul.exactOrOverflow rfl

theorem exactOrOverflow_sub (a b : Int64) (bs : List Int64) :
    ExactOrOverflow .sub (fun a bs => a - bs.sum) a (b :: bs) :=
  Operator.HasTotal.sub.exactOrOverflow rfl

theorem inRange_neg_iff (a : Int64) : InRange (-a.toInt) ↔ a ≠ Int64.minValue := by
  have ha := inRange_toInt a
  rw [Ne, eq_minValue_iff]
  unfold InRange at ha ⊢
  omega

theorem call_neg_word (a : Int64) :
    (Builtin.call (.arith .sub) [.int a] = .error (.overflow .sub) ↔ a = Int64.minValue) ∧
    (a ≠ Int64.minValue → ∃ w : Int64,
      Builtin.call (.arith .sub) [.int a] = .ok (.int w) ∧ w.toInt = -a.toInt) := by
  have hcall : Builtin.call (.arith .sub) [.int a] =
      (Number.int a).neg >>= fun b => pure b.toValue := rfl
  rw [hcall, Number.neg]
  by_cases ha : a = Int64.minValue
  · rw [ofInt?_eq_none_iff.2 (mt (inRange_neg_iff a).1 (not_not_intro ha))]
    exact ⟨⟨fun _ => ha, fun _ => rfl⟩, fun hne => absurd ha hne⟩
  · obtain ⟨w, hw⟩ := exists_toInt_eq ((inRange_neg_iff a).2 ha)
    rw [ofInt?_eq_some_iff.2 hw]
    exact ⟨⟨nofun, fun hmin => absurd hmin ha⟩, fun _ => ⟨w, rfl, hw⟩⟩

/-- A sum or product of words, and a difference of two or more, is exact if the sum, product or
difference of the first ones is in range however many of them are taken, and else an overflow. The
opposite of a word is exact but for the least word. So sums and products that succeed do not depend
on the order of the words. -/
theorem totals_exact (a : Int64) (bs : List Int64) :
    ExactOrOverflow .add (fun a bs => a + bs.sum) a bs ∧
    ExactOrOverflow .mul (fun a bs => a * bs.prod) a bs ∧
    (bs ≠ [] → ExactOrOverflow .sub (fun a bs => a - bs.sum) a bs) ∧
    (Builtin.call (.arith .sub) [.int a] = .error (.overflow .sub) ↔ a = Int64.minValue) ∧
    (a ≠ Int64.minValue → ∃ w : Int64,
      Builtin.call (.arith .sub) [.int a] = .ok (.int w) ∧ w.toInt = -a.toInt) ∧
    (∀ c ds, (c :: ds).Perm (a :: bs) → ∀ op, op = .add ∨ op = .mul → ∀ v w,
      Builtin.call (.arith op) ((a :: bs).map .int) = .ok v →
      Builtin.call (.arith op) ((c :: ds).map .int) = .ok w → v = w) := by
  refine ⟨exactOrOverflow_add a bs, exactOrOverflow_mul a bs, fun hbs => ?_,
    (call_neg_word a).1, (call_neg_word a).2, ?_⟩
  · obtain ⟨b, bs, rfl⟩ := List.exists_cons_of_ne_nil hbs
    exact exactOrOverflow_sub a b bs
  · rintro c ds hperm op (rfl | rfl) v w hv hw
    · refine (exactOrOverflow_add a bs).value_eq (exactOrOverflow_add c ds) ?_ hv hw
      have hsum := (hperm.map Int64.toInt).sum_eq
      rwa [List.map_cons, List.map_cons, List.sum_cons, List.sum_cons, eq_comm] at hsum
    · refine (exactOrOverflow_mul a bs).value_eq (exactOrOverflow_mul c ds) ?_ hv hw
      have hprod := (hperm.map Int64.toInt).prod_eq
      rwa [List.map_cons, List.map_cons, List.prod_cons, List.prod_cons, eq_comm] at hprod

/-- The greatest word: a difference whose total is in range again overflows on the way, and a sum
does not depend on the order in which it succeeds. -/
theorem totals_exact_greatest_word :
    ([-1, 1] : List Int64) ≠ [] ∧
    Builtin.call (.arith .sub) [.int Int64.maxValue, .int (-1), .int 1] =
      .error (.overflow .sub) ∧
    Int64.maxValue ≠ Int64.minValue ∧
    (∃ w : Int64, Builtin.call (.arith .sub) [.int Int64.maxValue] = .ok (.int w) ∧
      w.toInt = -9223372036854775807) ∧
    [-1, Int64.maxValue, 1].Perm [Int64.maxValue, -1, 1] ∧
    Builtin.call (.arith .add) [.int Int64.maxValue, .int (-1), .int 1] =
      .ok (.int Int64.maxValue) ∧
    ∀ w, Builtin.call (.arith .add) [.int (-1), .int Int64.maxValue, .int 1] = .ok w →
      .int Int64.maxValue = w := by
  have hne : ([-1, 1] : List Int64) ≠ [] := List.cons_ne_nil _ _
  have hmin : Int64.maxValue ≠ Int64.minValue := by decide
  have hperm : [-1, Int64.maxValue, 1].Perm [Int64.maxValue, -1, 1] := .swap _ _ _
  have hsum : Builtin.call (.arith .add) [.int Int64.maxValue, .int (-1), .int 1] =
      .ok (.int Int64.maxValue) := rfl
  have hfits : ¬ Fits (fun a bs => a - bs.sum) Int64.maxValue [-1, 1] := fun hfits =>
    absurd (hfits [-1] (List.prefix_append [-1] [1])) (by decide)
  obtain ⟨-, -, hsub, -, hneg, horder⟩ := totals_exact Int64.maxValue [-1, 1]
  exact ⟨hne, (hsub hne).2.2 hfits, hmin, hneg hmin, hperm, hsum,
    fun w => horder (-1) [Int64.maxValue, 1] hperm .add (.inl rfl) _ w hsum⟩

/-! ## Quotients -/

namespace Integer

/-- Dividing by one number and then by another is dividing by their product. -/
theorem tdiv_tdiv (a b c : Int) : (a.tdiv b).tdiv c = a.tdiv (b * c) := by
  have hnat (k m n : Nat) : ((k : Int).tdiv m).tdiv n = (k : Int).tdiv (m * n) := by
    rw [← Int.ofNat_tdiv, ← Int.ofNat_tdiv, ← Int.natCast_mul, ← Int.ofNat_tdiv,
      Nat.div_div_eq_div_mul]
  -- Signs come out of the divisions on both sides, which leaves the magnitudes.
  obtain ⟨k, rfl | rfl⟩ := a.eq_nat_or_neg <;> obtain ⟨m, rfl | rfl⟩ := b.eq_nat_or_neg <;>
    obtain ⟨n, rfl | rfl⟩ := c.eq_nat_or_neg <;>
    simp only [Int.neg_tdiv, Int.tdiv_neg, Int.neg_mul, Int.mul_neg, Int.neg_neg, hnat]

end Integer

/-- Why a word that has been divided by others cannot be divided by one more, if it cannot: this one
is zero, or it is minus one and the word is the least and was only divided by ones. -/
def offence? (a : Int64) (earlier : List Int64) (b : Int64) : Option EvalError :=
  if b = 0 then some .divisionByZero
  else if b = -1 ∧ a = Int64.minValue ∧ earlier.all (· == 1) then some (.overflow .div)
  else none

/-- The offence of the first divisor that offends. -/
def firstOffence (a : Int64) (bs : List Int64) : Option EvalError :=
  (bs.inits.zip bs).findSome? fun p => offence? a p.1 p.2

theorem offence?_cons {a b q : Int64} (hq : q.toInt = a.toInt.tdiv b.toInt)
    (earlier : List Int64) (c : Int64) : offence? a (b :: earlier) c = offence? q earlier c := by
  have hmin : (a = Int64.minValue ∧ (b :: earlier).all (· == 1)) ↔
      q = Int64.minValue ∧ earlier.all (· == 1) := by
    rw [List.all_cons, Bool.and_eq_true, beq_iff_eq, ← and_assoc, ← tdiv_eq_minValue_iff, ← hq,
      eq_minValue_iff]
  unfold offence?
  simp only [hmin]

theorem firstOffence_cons {a b q : Int64} (hq : q.toInt = a.toInt.tdiv b.toInt)
    (bs : List Int64) :
    firstOffence a (b :: bs) = (offence? a [] b).or (firstOffence q bs) := by
  unfold firstOffence
  rw [List.inits_cons, List.zip_cons_cons, List.findSome?_cons, List.zip_map_left,
    List.findSome?_map]
  have hlater : (fun p => offence? a p.1 p.2) ∘ Prod.map (b :: ·) id =
      fun p : List Int64 × Int64 => offence? q p.1 p.2 :=
    funext fun p => offence?_cons hq p.1 p.2
  rw [hlater]
  cases offence? a [] b <;> rfl

theorem firstOffence_of_some {a b : Int64} {e : EvalError} (h : offence? a [] b = some e)
    (bs : List Int64) : firstOffence a (b :: bs) = some e := by
  rw [firstOffence, List.inits_cons, List.zip_cons_cons, List.findSome?_cons]
  dsimp only
  rw [h]

theorem firstOffence_singleton (a b : Int64) : firstOffence a [b] = offence? a [] b := by
  change List.findSome? _ [([], b)] = _
  rw [List.findSome?_singleton]

theorem offence?_nil (a b : Int64) : offence? a [] b =
    if b = 0 then some .divisionByZero
    else if a = Int64.minValue ∧ b = -1 then some (.overflow .div)
    else none := by
  simp only [offence?, List.all_nil, and_true, and_comm (a := b = -1)]

/-- A word divided by one more after the other is divided by their product, up to the first that
offends. -/
theorem fold_div_words (a : Int64) (bs : List Int64) :
    (∀ e, firstOffence a bs = some e →
      Builtin.fold .div (.int a) (bs.map .int) = .error e) ∧
    (firstOffence a bs = none → ∃ q : Int64,
      Builtin.fold .div (.int a) (bs.map .int) = .ok (.int q) ∧
      q.toInt = a.toInt.tdiv (bs.map Int64.toInt).prod) := by
  induction bs generalizing a with
  | nil => exact ⟨nofun, fun _ => ⟨a, rfl, (Int.tdiv_one _).symm⟩⟩
  | cons b bs ih =>
    -- The first divisor is zero, or overflows, or leaves a quotient in place of the dividend.
    have hfirst := offence?_nil a b
    by_cases hzero : b = 0
    · rw [if_pos hzero] at hfirst
      rw [firstOffence_of_some hfirst]
      refine ⟨?_, nofun⟩
      rintro e ⟨⟩
      rw [hzero]
      exact Builtin.fold_words_zero rfl a (bs.map .int)
    rw [if_neg hzero] at hfirst
    rw [Builtin.fold_words_cons (fun _ => hzero)]
    by_cases hmin : a = Int64.minValue ∧ b = -1
    · rw [if_pos hmin] at hfirst
      rw [firstOffence_of_some hfirst, (Operator.onInt_eq_none_iff rfl a b).2 hmin]
      refine ⟨?_, nofun⟩
      rintro e ⟨⟩
      rfl
    · rw [if_neg hmin] at hfirst
      obtain ⟨q, hq⟩ := exists_toInt_eq ((inRange_tdiv_iff a b).2 hmin)
      have hstep : Operator.div.onInt a b = some q := by
        rw [Operator.onInt]
        exact ofInt?_eq_some_iff.2 hq
      rw [firstOffence_cons hq, hfirst, Option.none_or, hstep, List.map_cons, List.prod_cons,
        ← tdiv_tdiv, ← hq]
      exact ih q

/-- A division by many words fails at the first that offends. If none does, it is one division by
their product, rounded toward zero, whether or not a word holds the product. A single word divides
one. -/
theorem divide_by_product (a b : Int64) (bs : List Int64) :
    (∀ e, firstOffence a (b :: bs) = some e →
      Builtin.call (.arith .div) ((a :: b :: bs).map .int) = .error e) ∧
    (firstOffence a (b :: bs) = none → ∃ q : Int64,
      Builtin.call (.arith .div) ((a :: b :: bs).map .int) = .ok (.int q) ∧
      q.toInt = a.toInt.tdiv ((b :: bs).map Int64.toInt).prod) ∧
    (b = 0 → Builtin.call (.arith .div) [.int b] = .error .divisionByZero) ∧
    (b ≠ 0 → ∃ q : Int64, Builtin.call (.arith .div) [.int b] = .ok (.int q) ∧
      q.toInt = Int.tdiv 1 b.toInt) := by
  obtain ⟨hoffends, hquotient⟩ := fold_div_words a (b :: bs)
  obtain ⟨hzero, hreciprocal⟩ := fold_div_words 1 [b]
  refine ⟨hoffends, hquotient, ?_, fun hb => ?_⟩
  · rintro rfl
    exact hzero .divisionByZero rfl
  · have hnone : firstOffence 1 [b] = none := by
      rw [firstOffence_singleton, offence?_nil, if_neg hb, if_neg (fun h => absurd h.1 (by decide))]
    obtain ⟨q, hq, hvalue⟩ := hreciprocal hnone
    rw [List.map_singleton, List.prod_singleton] at hvalue
    exact ⟨q, hq, hvalue⟩

/-- The least word divided by one and then by minus one, and by a product that is no word. -/
theorem divide_by_product_least_word :
    firstOffence Int64.minValue [1, -1] = some (.overflow .div) ∧
    Builtin.call (.arith .div) [.int Int64.minValue, .int 1, .int (-1)] =
      .error (.overflow .div) ∧
    firstOffence Int64.minValue [3037000500, -3037000500] = none ∧
    ∃ q : Int64, Builtin.call (.arith .div)
      [.int Int64.minValue, .int 3037000500, .int (-3037000500)] = .ok (.int q) ∧ q.toInt = 0 := by
  have hoverflow : firstOffence Int64.minValue [1, -1] = some (.overflow .div) := rfl
  have hnone : firstOffence Int64.minValue [3037000500, -3037000500] = none := rfl
  obtain ⟨q, hq, hvalue⟩ :=
    (divide_by_product Int64.minValue 3037000500 [-3037000500]).2.1 hnone
  exact ⟨hoverflow, (divide_by_product Int64.minValue 1 [-1]).1 _ hoverflow, hnone, q, hq, hvalue⟩

end SmallLisp
