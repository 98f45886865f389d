import Metrology.Proofs.Engineering.Mantissa

/-!
# A split makes up the nearest number of so many digits

Mantissa and power of a thousand make up the multiple of the last digit's unit that is nearest to
the value, the greater one on a tie.  The estimate of the exponent is mended in both directions, so
that it does not show in the result, and no mantissa is written with an exponent of its own.
-/

namespace Metrology

namespace Decimal

/-- No multiple of `unit` is nearer to `x` than the multiple `y`, and none that is as near is
greater. -/
structure IsNearestMultiple (unit x y : ℚ) : Prop where
  multiple : ∃ c : Int, y = c * unit
  nearest : ∀ c : Int, |y - x| ≤ |c * unit - x|
  upward : ∀ c : Int, |c * unit - x| = |y - x| → c * unit ≤ y

variable {unit x y z : ℚ}

theorem IsNearestMultiple.unique (hy : IsNearestMultiple unit x y)
    (hz : IsNearestMultiple unit x z) : y = z := by
  obtain ⟨c, rfl⟩ := hy.multiple
  obtain ⟨c', rfl⟩ := hz.multiple
  have hdist := le_antisymm (hy.nearest c') (hz.nearest c)
  exact le_antisymm (hz.upward c hdist) (hy.upward c' hdist.symm)

theorem le_round_of_abs_sub_eq {c : Int} (h : |c - x| = |round x - x|) : c ≤ round x := by
  by_contra hlt
  have hstep : ((round x : Int) : ℚ) + 1 ≤ c := by exact_mod_cast not_le.1 hlt
  have hround : x < round x + 1 / 2 := by
    have := Int.lt_floor_add_one (x + 1 / 2)
    rw [round_eq]
    linarith
  have hnear := abs_sub_round x
  rw [abs_sub_comm] at hnear
  rw [← h, abs_le] at hnear
  linarith [hnear.2]

theorem isNearestMultiple_round (hunit : 0 < unit) (x : ℚ) :
    IsNearestMultiple unit x (round (x / unit) * unit) := by
  have hcount (c : Int) : |c * unit - x| = |c - x / unit| * unit := by
    rw [← abs_of_pos hunit, ← abs_mul, abs_of_pos hunit, sub_mul, div_mul_cancel₀ _ hunit.ne']
  refine ⟨⟨_, rfl⟩, fun c => ?_, fun c h => ?_⟩
  · rw [hcount, hcount, abs_sub_comm, abs_sub_comm (c : ℚ)]
    exact mul_le_mul_of_nonneg_right (round_le _ c) hunit.le
  · rw [hcount, hcount, mul_left_inj' hunit.ne'] at h
    exact mul_le_mul_of_nonneg_right (by exact_mod_cast le_round_of_abs_sub_eq h) hunit.le

theorem isNearestMultiple_iff (hunit : 0 < unit) :
    IsNearestMultiple unit x y ↔ y = round (x / unit) * unit := by
  constructor
  · exact fun h => h.unique (isNearestMultiple_round hunit x)
  · rintro rfl
    exact isNearestMultiple_round hunit x

theorem isNearestMultiple_lastPlace_iff (hx : 0 < x) (n : Nat) :
    IsNearestMultiple (lastPlace n x) x y ↔ y = roundSignificant n x := by
  rw [isNearestMultiple_iff (lastPlace_pos n x), roundSignificant_of_pos hx, coefficient,
    abs_of_pos hx]

end Decimal

namespace Engineering

open Metrology.Decimal

variable {x : ℚ}

theorem isPositional_of_mantissa {m : ℚ} (hle : 1 ≤ m) (hlt : m < 1000) {k : Int}
    (hk : |k - Decadic.floorLog10 (α := Exact) m| ≤ 1) : isPositional k = true := by
  obtain ⟨hlow, hhigh⟩ := exponent_mem hle hlt
  rw [Exact.floorLog10_eq (lt_of_lt_of_le one_pos hle), abs_le] at hk
  simp only [isPositional, Bool.and_eq_true, decide_eq_true_eq]
  omega

/-- A number between two powers of ten is split into a mantissa from 1 up to 1000 and a power of a
thousand, which make up the nearest number of so many digits.  Neither the estimate of its exponent
nor one of the mantissa's makes a difference as long as it is at most one off. -/
theorem split_nearest_multiple {e : Int} (hle : 10 ^ e ≤ x) (hlt : x < 10 ^ (e + 1))
    {estimate : Int}
    (hest : |estimate - e| ≤ 1) (digits : Nat) :
    ∃ m t, split (α := Exact) estimate x digits = (m, t) ∧
      3 ∣ t ∧ 1 ≤ m ∧ m < 1000 ∧
      (∀ y, IsNearestMultiple (10 ^ (e - (max 1 (min 17 digits) : Nat) + 1 : Int)) x y ↔
        y = m * 10 ^ t) ∧
      (∀ other : Int, |other - e| ≤ 1 →
        split (α := Exact) other x digits = (m, t)) ∧
      ∀ k, |k - Decadic.floorLog10 (α := Exact) m| ≤ 1 → isPositional k = true := by
  have hx : 0 < x := lt_of_lt_of_le (by positivity) hle
  obtain rfl := exponent_eq hle hlt
  have hr := roundSignificant_pos hx (clampDigits_pos digits)
  have hone := one_le_mantissa hr
  have hthousand := mantissa_lt hr
  refine ⟨_, _, split_eq hx hest digits, Dvd.intro_left _ rfl, hone, hthousand, fun y => ?_,
    fun other hother => split_eq hx hother digits, fun k => isPositional_of_mantissa hone hthousand⟩
  rw [mantissa_mul_zpow]
  exact isNearestMultiple_lastPlace_iff hx (clampDigits digits)

/-- Four digits of 999.96 carry into the next power of a thousand, from an estimate that is one too
low. -/
theorem split_nearest_multiple_carry :
    (10 : ℚ) ^ (2 : Int) ≤ 999.96 ∧ (999.96 : ℚ) < 10 ^ (2 + 1 : Int) ∧ |(1 : Int) - 2| ≤ 1 ∧
      ∃ m t, split (α := Exact) 1 (999.96 : ℚ) 4 = (m, t) ∧
        3 ∣ t ∧ 1 ≤ m ∧ m < 1000 ∧
        (∀ y, IsNearestMultiple (10 ^ (2 - (max 1 (min 17 4) : Nat) + 1 : Int)) 999.96 y ↔
          y = m * 10 ^ t) ∧
        (∀ other : Int, |other - 2| ≤ 1 →
          split (α := Exact) other (999.96 : ℚ) 4 = (m, t)) ∧
        ∀ k, |k - Decadic.floorLog10 (α := Exact) m| ≤ 1 → isPositional k = true := by
  have hle : (10 : ℚ) ^ (2 : Int) ≤ 999.96 := by norm_num
  have hlt : (999.96 : ℚ) < 10 ^ (2 + 1 : Int) := by norm_num
  exact ⟨hle, hlt, by decide, split_nearest_multiple hle hlt (by decide) 4⟩

end Engineering

end Metrology
