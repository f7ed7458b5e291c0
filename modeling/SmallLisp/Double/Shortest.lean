import SmallLisp.Double.Decimal

/-!
# The shortest decimal of a double

A finite double is written with the fewest significant digits that read back as the same double.
For each number of digits the double lies between two neighbours on a decimal grid; the first
grid with a neighbour that reads back decides. If both do, the nearer one is written, and of two
equally near ones the larger. Seventeen digits always suffice; were they not to, the exact
expansion would be written, so what is written reads back in any case.
-/

namespace SmallLisp.Double

/-- A place so fine that every grid of at most seventeen digits is coarser: the least double is
about `5 * 10 ^ -324`. -/
def finestPlace : Nat := 340

/-- The whole number of finest places in a magnitude. -/
def places (m : Magnitude) : Nat := m.units * Nat.pow 10 finestPlace / one

/-- The decimal reads back as the magnitude. -/
def readsBack (m : Magnitude) (d : Decimal) : Bool := ofDecimal false d = finite false m

/-- The decimal of at most `n` significant digits to write for a magnitude of `length` places,
if one reads back. -/
def decimalOfLength (m : Magnitude) (length n : Nat) : Option Decimal :=
  let step := Nat.pow 10 (length - n)
  let low := places m / step
  let below := Decimal.trim (low * step) finestPlace
  let above := Decimal.trim ((low + 1) * step) finestPlace
  if readsBack m above && (2 * low + 1) * step * one ≤ 2 * m.units * Nat.pow 10 finestPlace then
    some above
  else if readsBack m below then
    some below
  else if readsBack m above then
    some above
  else
    none

/-- The exact expansion of a magnitude. -/
def exactDecimal (m : Magnitude) : Decimal := Decimal.trim (m.units * Nat.pow 5 1074) 1074

def shortestDecimal (m : Magnitude) : Decimal :=
  let length := (Nat.toDigits 10 (places m)).length
  ((List.range 17).findSome? fun i => decimalOfLength m length (i + 1)).getD (exactDecimal m)

/-- The written form, without a point if the double is a whole number. -/
def chars : Double → List Char
  | nan => "NaN".toList
  | infinite n => Decimal.signChars n ++ "inf".toList
  | finite n m => Decimal.signChars n ++ (shortestDecimal m).chars

/-- The written form in source text, where a finite double always has a point. -/
def literal : Double → List Char
  | finite n m =>
    let d := shortestDecimal m
    Decimal.signChars n ++ d.whole ++ '.' :: (if d.scale = 0 then ['0'] else d.fraction)
  | x => x.chars

end SmallLisp.Double
