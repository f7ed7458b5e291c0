import Mathlib.Data.Option.NAry
import SmallLisp.Double.Basic

/-!
# Doubles on a line

Every double but NaN stands at an integer: a finite one at its number of units, an infinity at the
limit that no finite one reaches (`Double.position?`). Doubles compare as these integers do
(`Double.compare_eq`). Rounding keeps the order of ratios (`Double.roundRatio_mono`), so integers
that are taken as doubles stand in their order, though some of them at one place
(`Double.ofIntPosition_mono`).
-/

namespace SmallLisp.Double

/-! ## Positions -/

def withSign (negative : Bool) (units : Nat) : Int := if negative then -units else units

/-- Where the double stands on the line of units. -/
def position? : Double → Option Int
  | nan => none
  | infinite n => some (withSign n limit)
  | finite n m => some (withSign n m.units)

theorem position?_eq_none_iff {x : Double} : x.position? = none ↔ x = nan := by
  cases x <;> simp [position?]

theorem compare_withSign {units : Nat} (h : 0 < units) (n n' : Bool) :
    Ord.compare (withSign n units) (withSign n' units) = Ord.compare n' n := by
  have hlt : withSign true units < withSign false units := by
    simp only [withSign, ↓reduceIte, Bool.false_eq_true]
    omega
  cases n <;> cases n'
  · exact Int.compare_eq_eq.2 rfl
  · exact Int.compare_eq_gt.2 hlt
  · exact Int.compare_eq_lt.2 hlt
  · exact Int.compare_eq_eq.2 rfl

/-- A finite double stands between the infinities. -/
theorem withSign_units_bounds (n : Bool) (m : Magnitude) :
    withSign true limit < withSign n m.units ∧ withSign n m.units < withSign false limit := by
  have hlt := m.representable.1
  unfold withSign
  cases n <;> simp only [↓reduceIte, Bool.false_eq_true] <;> omega

/-- Doubles compare as the places where they stand. -/
theorem compare_eq (x y : Double) :
    x.compare y = Option.map₂ Ord.compare x.position? y.position? := by
  cases x with
  | nan => rfl
  | infinite n =>
    cases y with
    | nan => rfl
    | infinite n' =>
      rw [compare, position?, position?, Option.map₂_some_some, compare_withSign limit_pos]
    | finite n' m =>
      obtain ⟨hlow, hhigh⟩ := withSign_units_bounds n' m
      rw [compare, position?, position?, Option.map₂_some_some]
      cases n
      · rw [Int.compare_eq_gt.2 hhigh]
        rfl
      · rw [Int.compare_eq_lt.2 hlow]
        rfl
  | finite n m =>
    cases y with
    | nan => rfl
    | infinite n' =>
      obtain ⟨hlow, hhigh⟩ := withSign_units_bounds n m
      rw [compare, position?, position?, Option.map₂_some_some]
      cases n'
      · rw [Int.compare_eq_lt.2 hhigh]
        rfl
      · rw [Int.compare_eq_gt.2 hlow]
        rfl
    | finite n' m' => rfl

theorem compare_swap (x y : Double) : y.compare x = (x.compare y).map Ordering.swap := by
  rw [compare_eq, compare_eq, Option.map_map₂, Option.map₂_swap]
  simp only [Int.compare_swap]

theorem equal_comm (x y : Double) : x.equal y = y.equal x := by
  unfold equal
  rw [compare_swap x y]
  cases x.compare y with
  | none => rfl
  | some o => cases o <;> rfl

theorem equal_self_iff {x : Double} : x.equal x = true ↔ x ≠ nan := by
  unfold equal
  rw [compare_eq, beq_iff_eq]
  cases x <;> simp [position?]

/-! ## Rounding -/

/-- The whole number nearest to `num / unit`, a tie going to the even one. -/
def nearest (num unit : Nat) : Nat :=
  if unit < 2 * (num % unit) ∨ (2 * (num % unit) = unit ∧ num / unit % 2 = 1) then num / unit + 1
  else num / unit

theorem roundRatio_eq (num den : Nat) :
    roundRatio num den = nearest num (den * spacing (num / den)) * spacing (num / den) := by
  unfold roundRatio nearest
  dsimp only
  split <;> rfl

theorem nearest_bounds (num unit : Nat) :
    num / unit ≤ nearest num unit ∧ nearest num unit ≤ num / unit + 1 := by
  unfold nearest
  split <;> omega

theorem nearest_mono {a b : Nat} (h : a ≤ b) (unit : Nat) : nearest a unit ≤ nearest b unit := by
  rcases Nat.lt_or_eq_of_le (Nat.div_le_div_right (c := unit) h) with hlt | heq
  · have ha := nearest_bounds a unit
    have hb := nearest_bounds b unit
    omega
  · have hmod : a % unit ≤ b % unit := by
      have ha := Nat.div_add_mod a unit
      have hb := Nat.div_add_mod b unit
      rw [heq] at ha
      omega
    unfold nearest
    rw [heq]
    split <;> split <;> omega

theorem log2_mono {k l : Nat} (h : k ≤ l) : k.log2 ≤ l.log2 := by
  by_cases hk : k = 0
  · rw [hk, Nat.log2_zero]
    omega
  · rw [Nat.le_log2 (by omega)]
    exact Nat.le_trans (Nat.log2_self_le hk) h

theorem spacing_mono {k l : Nat} (h : k ≤ l) : spacing k ≤ spacing l := by
  have hlog := log2_mono h
  exact Nat.pow_le_pow_right (by omega) (by omega)

/-- A wider spacing is at least twice as wide. -/
theorem two_mul_spacing_le {k l : Nat} (h : spacing k < spacing l) :
    2 * spacing k ≤ spacing l := by
  unfold spacing at h ⊢
  simp only [Nat.pow_eq] at h ⊢
  have hlt := (Nat.pow_lt_pow_iff_right (by omega)).1 h
  rw [← Nat.pow_succ']
  exact Nat.pow_le_pow_right (by omega) hlt

theorem roundRatio_bounds (num den : Nat) :
    num / den / spacing (num / den) * spacing (num / den) ≤ roundRatio num den ∧
    roundRatio num den ≤ (num / den / spacing (num / den) + 1) * spacing (num / den) := by
  obtain ⟨hlow, hhigh⟩ := nearest_bounds num (den * spacing (num / den))
  rw [← Nat.div_div_eq_div_mul] at hlow hhigh
  rw [roundRatio_eq]
  exact ⟨Nat.mul_le_mul_right _ hlow, Nat.mul_le_mul_right _ hhigh⟩

theorem roundRatio_le (num den : Nat) :
    roundRatio num den ≤ Nat.pow 2 53 * spacing (num / den) := by
  have hhigh := Nat.succ_le_of_lt (div_spacing_lt (num / den))
  exact Nat.le_trans (roundRatio_bounds num den).2 (Nat.mul_le_mul_right _ hhigh)

theorem pow_mul_spacing_le {k : Nat} (h : 1 < spacing k) : Nat.pow 2 52 * spacing k ≤ k := by
  unfold spacing at h ⊢
  simp only [Nat.pow_eq] at h ⊢
  have hexponent : k.log2 - 52 ≠ 0 := by
    intro hzero
    rw [hzero, Nat.pow_zero] at h
    omega
  have hk : k ≠ 0 := by
    rintro rfl
    exact hexponent rfl
  rw [← Nat.pow_add, show 52 + (k.log2 - 52) = k.log2 by omega]
  exact Nat.log2_self_le hk

theorem le_roundRatio {num den : Nat} (h : 1 < spacing (num / den)) :
    Nat.pow 2 52 * spacing (num / den) ≤ roundRatio num den := by
  have hlow : Nat.pow 2 52 ≤ num / den / spacing (num / den) :=
    (Nat.le_div_iff_mul_le (pow_pos _)).2 (pow_mul_spacing_le h)
  exact Nat.le_trans (Nat.mul_le_mul_right _ hlow) (roundRatio_bounds num den).1

/-- A greater ratio is not rounded to a smaller number. -/
theorem roundRatio_mono {a b : Nat} (h : a ≤ b) (den : Nat) :
    roundRatio a den ≤ roundRatio b den := by
  have hdiv : a / den ≤ b / den := Nat.div_le_div_right h
  rcases Nat.lt_or_eq_of_le (spacing_mono hdiv) with hlt | heq
  · have hwide : 1 < spacing (b / den) := Nat.lt_of_le_of_lt (pow_pos _) hlt
    calc roundRatio a den ≤ Nat.pow 2 53 * spacing (a / den) := roundRatio_le a den
      _ = Nat.pow 2 52 * (2 * spacing (a / den)) := by rw [← Nat.mul_assoc]
      _ ≤ Nat.pow 2 52 * spacing (b / den) := Nat.mul_le_mul_left _ (two_mul_spacing_le hlt)
      _ ≤ roundRatio b den := le_roundRatio hwide
  · rw [roundRatio_eq, roundRatio_eq, heq]
    exact Nat.mul_le_mul_right _ (nearest_mono h _)

/-! ## Integers as doubles -/

theorem position?_ofRatio (negative : Bool) (num den : Nat) :
    (ofRatio negative num den).position? =
      some (withSign negative (min (roundRatio num den) limit)) := by
  unfold ofRatio
  split
  case isTrue h => rw [position?, Nat.min_eq_left (Nat.le_of_lt h)]
  case isFalse h => rw [position?, Nat.min_eq_right (Nat.le_of_not_lt h)]

/-- Where an integer stands when it is taken as a double. -/
def ofIntPosition (n : Int) : Int :=
  withSign (n < 0) (min (roundRatio (n.natAbs * one) 1) limit)

theorem position?_ofInt (n : Int) : (ofInt n).position? = some (ofIntPosition n) :=
  position?_ofRatio _ _ _

theorem ofIntPosition_mono {m n : Int} (h : m ≤ n) : ofIntPosition m ≤ ofIntPosition n := by
  have hround {k l : Nat} (hkl : k ≤ l) :
      min (roundRatio (k * one) 1) limit ≤ min (roundRatio (l * one) 1) limit := by
    have := roundRatio_mono (Nat.mul_le_mul_right one hkl) 1
    omega
  unfold ofIntPosition withSign
  by_cases hm : m < 0
  · by_cases hn : n < 0
    · have := hround (show n.natAbs ≤ m.natAbs by omega)
      simp only [hm, hn, decide_true, ↓reduceIte]
      omega
    · simp only [hm, hn, decide_true, decide_false, ↓reduceIte, Bool.false_eq_true]
      omega
  · have := hround (show m.natAbs ≤ n.natAbs by omega)
    have hn : ¬ n < 0 := by omega
    simp only [hm, hn, decide_false, ↓reduceIte, Bool.false_eq_true]
    omega

end SmallLisp.Double
