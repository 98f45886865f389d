import Metrology.Power

/-!
# Decimal digits

Digit strings of natural numbers and integers in base ten, without leading zeros; their length; and
the largest power of ten below a fraction.
-/

namespace Metrology.Decimal

open scoped Metrology.Power

def digits (n : Nat) : List Char := Nat.toDigits 10 n

def signedDigits (n : Int) : List Char :=
  if n < 0 then '-' :: digits n.natAbs else digits n.natAbs

def digitCount (n : Nat) : Nat := (digits n).length

def dropTrailing (c : Char) (s : List Char) : List Char :=
  (s.reverse.dropWhile (· == c)).reverse

/-- A fraction of two naturals that equals `m * 10 ^ e`. -/
def scaledByTen (m : Nat) (e : Int) : Nat × Nat :=
  if 0 ≤ e then (m * 10 ^ e.toNat, 1) else (m, 10 ^ (-e).toNat)

def floorLog10 (num den : Nat) : Int :=
  let l : Int := (digitCount num : Int) - digitCount den
  let (n, d) := scaledByTen den l
  if n ≤ num * d then l else l - 1

end Metrology.Decimal
