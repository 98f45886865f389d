import Metrology.Power

/-!
# Binary interchange formats

A binary floating-point word holds a sign bit, an exponent field and a fraction field.  `decode`
reads a word as the number it stands for, and `nearest` finds the word of the number closest to an
exact fraction, the even significand on a tie.

The words of the non-negative finite numbers, in increasing order, are an initial segment of the
naturals: a significand that overflows its field carries into the exponent, and an exponent that
overflows its field lands on the word of infinity.
-/

namespace Metrology.Binary

open scoped Metrology.Power

/-- What a word stands for.  A finite datum is `significand * 2 ^ exponent` up to its sign. -/
inductive Datum where
  | nan
  | infinite (negative : Bool)
  | finite (negative : Bool) (significand : Nat) (exponent : Int)
  deriving DecidableEq, Repr

/-- A fraction of two naturals that equals `m * 2 ^ e`. -/
def scaled (m : Nat) (e : Int) : Nat × Nat :=
  if 0 ≤ e then (m * 2 ^ e.toNat, 1) else (m, 2 ^ (-e).toNat)

def roundHalfEven (num den : Nat) : Nat :=
  let q := num / den
  let r := num % den
  if 2 * r < den then q
  else if den < 2 * r then q + 1
  else if q % 2 = 0 then q else q + 1

def floorLog2 (num den : Nat) : Int :=
  let l : Int := (num.log2 : Int) - den.log2
  let (n, d) := scaled den l
  if n ≤ num * d then l else l - 1

structure Layout where
  fractionBits : Nat
  exponentBits : Nat
  deriving DecidableEq, Repr

namespace Layout

def single : Layout := ⟨23, 8⟩

def double : Layout := ⟨52, 11⟩

def bias (f : Layout) : Nat := 2 ^ (f.exponentBits - 1) - 1

def minExponent (f : Layout) : Int := 1 - (f.bias : Int) - f.fractionBits

def infinity (f : Layout) : Nat := (2 ^ f.exponentBits - 1) * 2 ^ f.fractionBits

def signBit (f : Layout) : Nat := 2 ^ (f.fractionBits + f.exponentBits)

def canonicalNaN (f : Layout) : Nat := f.infinity + 2 ^ (f.fractionBits - 1)

def decode (f : Layout) (word : Nat) : Datum :=
  let fraction := word % 2 ^ f.fractionBits
  let exponent := word / 2 ^ f.fractionBits % 2 ^ f.exponentBits
  let negative := word / f.signBit % 2 == 1
  if exponent = 2 ^ f.exponentBits - 1 then
    if fraction = 0 then .infinite negative else .nan
  else if exponent = 0 then .finite negative fraction f.minExponent
  else .finite negative (fraction + 2 ^ f.fractionBits) (f.minExponent + exponent - 1)

/-- The word of the non-negative number nearest to `num / den`. -/
def nearest (f : Layout) (num den : Nat) : Nat :=
  if num = 0 then 0
  else
    let exponent := max f.minExponent (floorLog2 num den - f.fractionBits)
    let (n, d) := scaled den exponent
    let significand := roundHalfEven (num * d) n
    min f.infinity ((exponent - f.minExponent).toNat * 2 ^ f.fractionBits + significand)

def encode (f : Layout) : Datum → Nat
  | .nan => f.canonicalNaN
  | .infinite negative => cond negative (f.signBit + f.infinity) f.infinity
  | .finite negative significand exponent =>
    let (num, den) := scaled significand exponent
    let word := f.nearest num den
    cond negative (f.signBit + word) word

end Layout

end Metrology.Binary
