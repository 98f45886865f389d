import Metrology.Decimal.Digits
import Metrology.Binary.Layout

/-!
# Fixed-point text

The text of an exact fraction with a given number of places after the point, rounded to the nearest
such decimal and to the even one on a tie; and the removal of zeros that carry no information.
-/

namespace Metrology.Decimal

open Metrology.Binary

open scoped Metrology.Power

def placePoint (n places : Nat) : List Char :=
  let ds := digits n
  let ds := List.replicate (places + 1 - ds.length) '0' ++ ds
  let whole := ds.length - places
  if places = 0 then ds else ds.take whole ++ '.' :: ds.drop whole

def fixed (places num den : Nat) : List Char :=
  placePoint (roundHalfEven (num * 10 ^ places) den) places

/-- Drops the zeros at the end of the fraction, and the point with them when no digit is left behind
it.  A text without a point stays as it is. -/
def trimZeros (s : List Char) : List Char :=
  if '.' ∈ s then dropTrailing '.' (dropTrailing '0' s) else s

end Metrology.Decimal
