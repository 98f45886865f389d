import Metrology.Binary.Layout
import Metrology.Decimal.Digits

/-!
# Numerals

A numeral is a decimal as it is written in a JSON text.  It is read into a binary format with one
rounding; a numeral too large for the format has no reading.  Three conventions go with the
rounding.  Digits beyond the most that can matter in the format are replaced by a single one, so
that a longer numeral never counts as a tie; zeros at the end of the fraction are not digits.  An
integer goes through double precision if it is negative and only its magnitude fits into 64 bits.
-/

namespace Metrology.Json

open Metrology.Binary Metrology.Decimal

open scoped Metrology.Power

/-- The number `coefficient * 10 ^ exponent` up to its sign.  The coefficient ends where the zeros
at the end of the fraction start.  The numeral is integral when it was written without point and
exponent. -/
structure Numeral where
  negative : Bool
  coefficient : Nat
  exponent : Int
  integral : Bool
  deriving DecidableEq, Repr

namespace Numeral

def isWordInteger (n : Numeral) : Bool :=
  n.integral &&
    if n.negative then 0 < n.coefficient && n.coefficient ≤ 2 ^ (63 : Nat)
    else n.coefficient < 2 ^ (64 : Nat)

/-- A negative integer whose magnitude fits into 64 bits while the number itself does not. -/
def isBelowWords (n : Numeral) : Bool :=
  n.integral && n.negative && 2 ^ (63 : Nat) < n.coefficient && n.coefficient < 2 ^ (64 : Nat)

/-- How many digits of a numeral can matter: a tie between two numbers of the format has at most as
many. -/
def digitLimit (f : Layout) : Nat := if f = .single then 113 else 768

def cut (limit coefficient : Nat) (exponent : Int) : Nat × Int :=
  let surplus := digitCount coefficient - limit
  if surplus = 0 then (coefficient, exponent)
  else (coefficient / 10 ^ surplus * 10 + 1, exponent + surplus - 1)

def nearestWord (f : Layout) (n : Numeral) : Nat :=
  let point : Int := digitCount n.coefficient + n.exponent
  if n.coefficient = 0 then 0
  else if (2 : Int) ^ f.exponentBits < point then f.infinity
  else if point < -(2 : Int) ^ f.exponentBits then 0
  else
    let (coefficient, exponent) := cut (digitLimit f) n.coefficient n.exponent
    let (num, den) := scaledByTen coefficient exponent
    f.nearest num den

def magnitude? (f : Layout) (n : Numeral) : Option Nat :=
  let word := if n.isBelowWords then f.encode (Layout.double.decode (n.nearestWord .double))
    else n.nearestWord f
  if word = f.infinity then none else some word

def word? (f : Layout) (n : Numeral) : Option Nat :=
  (n.magnitude? f).map fun w => cond n.negative (f.signBit + w) w

end Numeral

end Metrology.Json
