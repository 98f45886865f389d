import Metrology.Decimal.Digits
import Metrology.Binary.Layout

/-!
# Shortest decimals

The fewest decimal digits that read back as a given binary number.  All reals that round to a number
form an interval around it, ends included when its significand is even.  The decimal grids are
searched from the coarsest that can meet the interval to ever finer ones; on the first grid that has
a point in the interval, the point nearest to the number is taken.
-/

namespace Metrology

open Metrology.Binary

open scoped Metrology.Power

/-- The digits of a positive decimal, the first and the last of them non-zero, and the position of
the point: the value is `0.d₁d₂… * 10 ^ point`. -/
structure Decimal where
  significant : List Char
  point : Int
  deriving DecidableEq, Repr

namespace Decimal

inductive Tie where
  | upward
  | toEven
  deriving DecidableEq, Repr

namespace Tie

def takesAbove : Tie → Nat → Bool
  | .upward, _ => true
  | .toEven, below => below % 2 == 1

end Tie

def ofScaled (coefficient : Nat) (exponent : Int) : Decimal :=
  let ds := digits coefficient
  ⟨dropTrailing '0' ds, ds.length + exponent⟩

/-- Distance from `m * 2 ^ e` to the lower end of its rounding interval, in quarters of `2 ^ e`.  It
is halved where the numbers below lie twice as dense. -/
def quartersBelow (f : Layout) (m : Nat) (e : Int) : Nat :=
  if m = 2 ^ f.fractionBits ∧ f.minExponent < e then 1 else 2

/-- The multiple of `10 ^ k` that is nearest to `m * 2 ^ e` among those in its rounding interval,
counted in units of `10 ^ k`. -/
def onGrid (tie : Tie) (f : Layout) (m : Nat) (e k : Int) : Option Nat :=
  let (binaryNum, binaryDen) := scaled 1 (e - 2)
  let (gridNum, gridDen) := scaledByTen 1 k
  let quarter := binaryNum * gridDen
  let unit := binaryDen * gridNum
  let value := 4 * m * quarter
  let low := (4 * m - quartersBelow f m e) * quarter
  let high := (4 * m + 2) * quarter
  let inside (t : Nat) : Bool :=
    if m % 2 = 0 then low ≤ t * unit && t * unit ≤ high else low < t * unit && t * unit < high
  let below := value / unit
  let above := below + 1
  let distanceBelow := value - below * unit
  let distanceAbove := above * unit - value
  if inside below then
    if inside above && (distanceAbove < distanceBelow
        || distanceAbove == distanceBelow && tie.takesAbove below) then some above
    else some below
  else if inside above then some above
  else none

def maxDigits (f : Layout) : Nat := f.fractionBits / 3 + 2

/-- The shortest decimal that rounds to the positive number `m * 2 ^ e`. -/
def shortest (tie : Tie) (f : Layout) (m : Nat) (e : Int) : Decimal :=
  let (num, den) := scaled m e
  let top := floorLog10 num den
  let hit := (List.range (maxDigits f)).findSome? fun (i : Nat) =>
    (onGrid tie f m e (top - i)).map fun t => ofScaled t (top - i)
  hit.getD ⟨[], 0⟩

def positional (d : Decimal) : List Char :=
  let n := d.significant.length
  if d.point ≤ 0 then '0' :: '.' :: (List.replicate (-d.point).toNat '0' ++ d.significant)
  else if n ≤ d.point.toNat then d.significant ++ List.replicate (d.point.toNat - n) '0'
  else d.significant.take d.point.toNat ++ '.' :: d.significant.drop d.point.toNat

def mantissa (d : Decimal) : List Char :=
  match d.significant with
  | [] => []
  | [c] => [c]
  | c :: rest => c :: '.' :: rest

def scientific (d : Decimal) : List Char := d.mantissa ++ 'e' :: signedDigits (d.point - 1)

def scientificSigned (d : Decimal) : List Char :=
  let e := d.point - 1
  d.mantissa ++ 'e' :: (if e < 0 then signedDigits e else '+' :: signedDigits e)

def positionalWithPoint (d : Decimal) : List Char :=
  let text := d.positional
  if '.' ∈ text then text else text ++ ['.', '0']

end Decimal

end Metrology
