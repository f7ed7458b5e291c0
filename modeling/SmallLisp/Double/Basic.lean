/-!
# Doubles

IEEE 754 binary64 numbers by what they denote. Every finite double is a whole multiple of the
least positive one, `2 ^ -1074`, so its magnitude is a natural number of these units, and every
operation is exact arithmetic on units followed by one rounding (`roundRatio`). A natural number
is a magnitude if it has at most 53 significant bits and lies below `2 ^ 1024`, that is, below
`2 ^ 2098` units (`Representable`); rounding gives such a number or overflows
(`representable_roundRatio`).
-/

namespace SmallLisp

/-- The least number of units too large for a finite double: those of `2 ^ 1024`. -/
def Double.limit : Nat := Nat.pow 2 2098

theorem Double.pow_pos (n : Nat) : 0 < Nat.pow 2 n := Nat.two_pow_pos n

theorem Double.limit_pos : 0 < Double.limit := by decide +kernel

/-- The distance between neighbouring magnitudes from `units` on. -/
def Double.spacing (units : Nat) : Nat := Nat.pow 2 (units.log2 - 52)

/-- At most 53 significant bits, and below the limit of the finite doubles. -/
def Representable (units : Nat) : Prop :=
  units < Double.limit ∧ Double.spacing units ∣ units

instance (units : Nat) : Decidable (Representable units) :=
  inferInstanceAs (Decidable (_ ∧ _))

/-- The absolute value of a finite double, in units of `2 ^ -1074`. -/
structure Magnitude where
  units : Nat
  representable : Representable units
  deriving DecidableEq

/-- A double; there is one NaN, and two zeros. -/
inductive Double where
  | nan
  | infinite (negative : Bool)
  | finite (negative : Bool) (magnitude : Magnitude)
  deriving DecidableEq

namespace Double

/-! ## Rounding -/

/-- `num / den` rounded to 53 significant bits, a tie going to the even significand. -/
def roundRatio (num den : Nat) : Nat :=
  let step := spacing (num / den)
  let low := num / (den * step)
  let rest := num % (den * step)
  if den * step < 2 * rest ∨ (2 * rest = den * step ∧ low % 2 = 1) then (low + 1) * step
  else low * step

theorem log2_mul_pow_le {k s : Nat} (h : k < Nat.pow 2 53) : (k * Nat.pow 2 s).log2 ≤ 52 + s := by
  rcases Nat.eq_zero_or_pos k with rfl | hk
  · simp
  · have hpos : k * 2 ^ s ≠ 0 := Nat.mul_ne_zero (by omega) (by simp)
    have : k * 2 ^ s < 2 ^ (53 + s) := by
      rw [Nat.pow_add]; exact Nat.mul_lt_mul_of_pos_right h (Nat.two_pow_pos s)
    have := (Nat.log2_lt hpos).2 this
    simp only [Nat.pow_eq]
    omega

/-- A multiple of `2 ^ s` of at most `2 ^ 53` steps has 53 significant bits. -/
theorem spacing_dvd_mul_pow {k s : Nat} (h : k ≤ Nat.pow 2 53) :
    spacing (k * Nat.pow 2 s) ∣ k * Nat.pow 2 s := by
  unfold spacing
  rcases Nat.lt_or_eq_of_le h with h | rfl
  · exact Nat.dvd_trans (Nat.pow_dvd_pow 2 (by have := log2_mul_pow_le (s := s) h; omega))
      (Nat.dvd_mul_left _ _)
  · simp only [Nat.pow_eq, ← Nat.pow_add, Nat.log2_two_pow]
    exact Nat.pow_dvd_pow 2 (by omega)

theorem div_spacing_lt (q : Nat) : q / spacing q < Nat.pow 2 53 := by
  unfold spacing
  rw [Nat.div_lt_iff_lt_mul (pow_pos _)]
  simp only [Nat.pow_eq, ← Nat.pow_add]
  exact Nat.lt_of_lt_of_le Nat.lt_log2_self (Nat.pow_le_pow_right (by omega) (by omega))

theorem spacing_dvd_roundRatio (num den : Nat) :
    spacing (roundRatio num den) ∣ roundRatio num den := by
  have hlow : num / (den * spacing (num / den)) < Nat.pow 2 53 := by
    rw [← Nat.div_div_eq_div_mul]; exact div_spacing_lt _
  unfold roundRatio
  dsimp only
  split
  · exact spacing_dvd_mul_pow hlow
  · exact spacing_dvd_mul_pow (Nat.le_of_lt hlow)

theorem representable_roundRatio {num den : Nat} (h : roundRatio num den < limit) :
    Representable (roundRatio num den) :=
  ⟨h, spacing_dvd_roundRatio num den⟩

/-- The double nearest to `num / den` units, with a sign. -/
def ofRatio (negative : Bool) (num den : Nat) : Double :=
  if h : roundRatio num den < limit then
    finite negative ⟨roundRatio num den, representable_roundRatio h⟩
  else
    infinite negative

/-! ## Numbers as doubles -/

/-- The number of units in one. -/
def one : Nat := Nat.pow 2 1074

def zero (negative : Bool) : Double := finite negative ⟨0, limit_pos, Nat.dvd_zero _⟩

def ofInt (n : Int) : Double := ofRatio (n < 0) (n.natAbs * one) 1

/-- The signed number of units of a finite double. -/
def signed (negative : Bool) (magnitude : Magnitude) : Int :=
  if negative then -magnitude.units else magnitude.units

/-- Neither infinite nor NaN. -/
def isFinite : Double → Bool
  | finite .. => true
  | _ => false

/-- Either of the two zeros. -/
def isZero : Double → Bool
  | finite _ m => m.units == 0
  | _ => false

/-! ## Arithmetic -/

def neg : Double → Double
  | nan => nan
  | infinite n => infinite !n
  | finite n m => finite (!n) m

/-- A sum of zero is negative only if both terms are. -/
def add : Double → Double → Double
  | nan, _ | _, nan => nan
  | infinite n, infinite n' => if n = n' then infinite n else nan
  | infinite n, finite .. => infinite n
  | finite .., infinite n => infinite n
  | finite n m, finite n' m' =>
    let sum := signed n m + signed n' m'
    if sum = 0 then zero (n && n') else ofRatio (sum < 0) sum.natAbs 1

def sub (x y : Double) : Double := add x (neg y)

def mul : Double → Double → Double
  | nan, _ | _, nan => nan
  | infinite n, infinite n' => infinite (n ^^ n')
  | infinite n, finite n' m => if m.units = 0 then nan else infinite (n ^^ n')
  | finite n m, infinite n' => if m.units = 0 then nan else infinite (n ^^ n')
  | finite n m, finite n' m' => ofRatio (n ^^ n') (m.units * m'.units) one

def div : Double → Double → Double
  | nan, _ | _, nan => nan
  | infinite _, infinite _ => nan
  | infinite n, finite n' _ => infinite (n ^^ n')
  | finite n _, infinite n' => zero (n ^^ n')
  | finite n m, finite n' m' =>
    if m'.units = 0 then
      if m.units = 0 then nan else infinite (n ^^ n')
    else
      ofRatio (n ^^ n') (m.units * one) m'.units

/-- The remainder of the quotient rounded toward zero: it is exact and has the sign of `x`. -/
def rem : Double → Double → Double
  | nan, _ | _, nan => nan
  | infinite _, _ => nan
  | finite n m, infinite _ => finite n m
  | finite n m, finite _ m' =>
    if m'.units = 0 then nan else ofRatio n (m.units % m'.units) 1

/-! ## Order -/

/-- No order holds of NaN, and the two zeros are equal. -/
def compare : Double → Double → Option Ordering
  | nan, _ | _, nan => none
  | infinite n, infinite n' => some (Ord.compare n' n)
  | infinite n, finite .. => some (if n then .lt else .gt)
  | finite .., infinite n => some (if n then .gt else .lt)
  | finite n m, finite n' m' => some (Ord.compare (signed n m) (signed n' m'))

/-- Numerical equality: NaN differs from itself, and the two zeros are equal. -/
def equal (x y : Double) : Bool := compare x y == some .eq

def less (x y : Double) : Bool := compare x y == some .lt

/-- The remainder of the quotient rounded down: it has the sign of `y`. The correction is
rounded, so a remainder just below zero can give `y` itself. -/
def mod (x y : Double) : Double :=
  let r := rem x y
  if !r.equal (zero false) && (r.less (zero false) != y.less (zero false)) then add r y else r

end Double

end SmallLisp
