import Metrology.Binary.Layout
import Metrology.Decimal.Digits
import Mathlib.Algebra.Order.Field.Power
import Mathlib.Algebra.Order.Field.Rat

/-!
# Scaled fractions

A natural number times a power of a base, possibly a negative one, is kept as a fraction of two
naturals.  The base is two for words and ten for numerals.
-/

namespace Metrology

def scaledBy (b m : Nat) (e : Int) : Nat × Nat :=
  if 0 ≤ e then (m * b ^ e.toNat, 1) else (m, b ^ (-e).toNat)

theorem scaled_eq_scaledBy : Binary.scaled = scaledBy 2 := rfl

theorem scaledByTen_eq_scaledBy : Decimal.scaledByTen = scaledBy 10 := rfl

variable {b m : Nat} {e : Int}

theorem scaledBy_snd_pos (hb : 0 < b) : 0 < (scaledBy b m e).2 := by
  unfold scaledBy
  split
  · exact Nat.one_pos
  · exact Nat.pow_pos hb

theorem scaledBy_fst_pos (hb : 0 < b) (hm : 0 < m) : 0 < (scaledBy b m e).1 := by
  unfold scaledBy
  split
  · exact Nat.mul_pos hm (Nat.pow_pos hb)
  · exact hm

theorem scaledBy_value (hb : 0 < b) :
    ((scaledBy b m e).1 : ℚ) = m * b ^ e * (scaledBy b m e).2 := by
  have hb' : (b : ℚ) ≠ 0 := by exact_mod_cast hb.ne'
  unfold scaledBy
  split
  · obtain ⟨n, rfl⟩ := Int.eq_ofNat_of_zero_le ‹0 ≤ e›
    simp
  · obtain ⟨n, rfl⟩ := Int.exists_eq_neg_ofNat (by omega : e ≤ 0)
    simp [hb']

theorem scaledBy_le_iff (hb : 0 < b) {n : Nat} :
    (scaledBy b m e).1 ≤ n * (scaledBy b m e).2 ↔ (m : ℚ) * b ^ e ≤ n := by
  have hpos : (0 : ℚ) < (scaledBy b m e).2 := by exact_mod_cast scaledBy_snd_pos hb
  rw [← Nat.cast_le (α := ℚ), Nat.cast_mul, scaledBy_value hb, mul_le_mul_iff_left₀ hpos]

end Metrology
