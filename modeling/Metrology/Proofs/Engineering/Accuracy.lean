import Metrology.Proofs.Engineering.Reading

/-!
# Accuracy of engineering notation

What is shown is rounded twice: to the digits that are asked for, and to six.  The error is half a
unit of the last digit asked for, and half a unit of the sixth digit on top where more than six are
asked for.  There the second rounding can also carry the decimal to 1000, behind the back of the
choice of the prefix.
-/

namespace Metrology.Engineering

open Metrology.Decimal

variable {estimate : ℚ → Int} {x : ℚ}

theorem clampDigits_le_six {digits : Nat} (h : digits ≤ 6) : clampDigits digits ≤ 6 := by
  change max 1 (min maxDigits digits) ≤ 6
  omega

/-- The decimal lies from 1 up to 1000, and is 1000 exactly when the rounded mantissa is at least
999.9995.  Up to six digits are never enough for that. -/
theorem decimal_lt_thousand_iff (hest : IsEstimate estimate) (d : Dimension) (hx : x ≠ 0)
    (digits : Nat) (showPlus : Bool) :
    ∃ p v, parts? d (renderWith (α := Exact) estimate d x digits showPlus).result = some p ∧
      readDecimal? p.decimal = some v ∧ 1 ≤ v ∧ v ≤ 1000 ∧
      (v < 1000 ↔ mantissa (roundSignificant (clampDigits digits) |x|) < 999.9995) ∧
      (digits ≤ 6 → v < 1000) := by
  have hpos := abs_pos.2 hx
  have hr := roundSignificant_pos hpos (clampDigits_pos digits)
  have hle := one_le_mantissa hr
  have hlt := mantissa_lt hr
  have hlow := le_shown (k := 1) (mantissa_pos hr) (by exact_mod_cast hle)
  have hhigh := shown_le (k := 1000) (mantissa_pos hr) (by exact_mod_cast hlt)
  rw [Nat.cast_one] at hlow
  rw [Nat.cast_ofNat] at hhigh
  obtain ⟨p, hp, hwrites, -⟩ := reads_renderWith hest d hx digits showPlus
  refine ⟨p, _, hp, hwrites.read, hlow, hhigh, ?_, ?_⟩
  · rw [hhigh.lt_iff_ne, ← not_le]
    exact not_congr (shown_eq_thousand_iff hle hlt)
  · intro hdigits
    rw [shown_mantissa_roundSignificant hpos (clampDigits_pos digits) (clampDigits_le_six hdigits)]
    exact hlt

/-- With five digits 999.996 carries, and the decimal starts again from one. -/
theorem decimal_lt_thousand_iff_carry :
    IsEstimate (fun x => exponent x - 1) ∧ (999.996 : ℚ) ≠ 0 ∧
      ∃ p v, parts? Kind.length.dimension (renderWith (α := Exact) (fun x => exponent x - 1)
          Kind.length.dimension (999.996 : ℚ) 5 false).result = some p ∧
        readDecimal? p.decimal = some v ∧ 1 ≤ v ∧ v ≤ 1000 ∧
        (v < 1000 ↔ mantissa (roundSignificant (clampDigits 5) |999.996|) < 999.9995) ∧
        (5 ≤ 6 → v < 1000) := by
  have hest : IsEstimate (fun x => exponent x - 1) := fun x _ => by simp
  have hx : (999.996 : ℚ) ≠ 0 := by norm_num
  exact ⟨hest, hx, decimal_lt_thousand_iff hest Kind.length.dimension hx 5 false⟩

/-- Seven digits of 999.9999 are shown as 1000. -/
theorem decimal_reaches_thousand :
    ¬ ∀ (d : Dimension) (x : ℚ) (digits : Nat) (showPlus : Bool), x ≠ 0 →
      ∃ p v, parts? d (render (α := Exact) d x digits showPlus).result = some p ∧
        readDecimal? p.decimal = some v ∧ 1 ≤ v ∧ v < 1000 := by
  intro h
  obtain ⟨p, v, hp, hv, -, hlt⟩ := h Kind.length.dimension 999.9999 7 false (by norm_num)
  have hparts : parts? Kind.length.dimension
      (render (α := Exact) Kind.length.dimension (999.9999 : ℚ) 7 false).result =
      some ⟨false, ['1', '0', '0', '0'], none, ""⟩ := by
    decide +kernel
  rw [hparts] at hp
  cases hp
  have hvalue : readDecimal? ['1', '0', '0', '0'] = some 1000 := by decide +kernel
  rw [hvalue] at hv
  cases hv
  exact lt_irrefl _ hlt

theorem shown_mantissa_zpow (k : Int) : shown (mantissa (10 ^ k)) = mantissa (10 ^ k) := by
  have hpos : (0 : ℚ) < 10 ^ k := by positivity
  have hone : roundSignificant 1 (10 ^ k : ℚ) = 10 ^ k := by
    apply roundSignificant_of_eq_mul (c := 1) hpos
    simp [lastPlace]
  have h := shown_mantissa_roundSignificant hpos (n := 1) Nat.one_pos (by decide)
  rwa [hone] at h

theorem abs_shown_sub_roundSignificant_le (hx : 0 < x) {n : Nat} (hn : 0 < n) :
    |shown (mantissa (roundSignificant n x)) * 10 ^ thousands (roundSignificant n x) -
        roundSignificant n x| ≤ if n ≤ 6 then 0 else lastPlace 6 x / 2 := by
  have hr := roundSignificant_pos hx hn
  have hsixth := lastPlace_pos 6 x
  have hexact (h : shown (mantissa (roundSignificant n x)) = mantissa (roundSignificant n x)) :
      |shown (mantissa (roundSignificant n x)) * 10 ^ thousands (roundSignificant n x) -
        roundSignificant n x| = 0 := by
    rw [h, mantissa_mul_zpow, sub_self, abs_zero]
  split
  · rename_i hsix
    exact (hexact (shown_mantissa_roundSignificant hx hn hsix)).le
  · rcases exponent_roundSignificant hx hn with ⟨-, he⟩ | ⟨-, hcarry⟩
    · generalize roundSignificant n x = r at *
      have hpow : (0 : ℚ) < 10 ^ thousands r := by positivity
      have hplace : lastPlace 6 r = lastPlace 6 x := by rw [lastPlace, he, lastPlace]
      calc |shown (mantissa r) * 10 ^ thousands r - r|
          = |shown (mantissa r) - mantissa r| * 10 ^ thousands r := by
            rw [← abs_of_pos hpow, ← abs_mul, abs_of_pos hpow, sub_mul, mantissa_mul_zpow]
        _ ≤ lastPlace 6 (mantissa r) / 2 * 10 ^ thousands r := by
            have := abs_shown_sub_le (one_le_mantissa hr) (mantissa_lt hr)
            gcongr
        _ = lastPlace 6 x / 2 := by rw [div_mul_eq_mul_div, lastPlace_mantissa hr, hplace]
    · rw [hexact (by rw [hcarry]; exact shown_mantissa_zpow _)]
      positivity

/-- The number that a rendering denotes is off by half a unit of the last digit asked for, and by
half a unit of the sixth on top where more than six are asked for. -/
theorem number_error_le (hest : IsEstimate estimate) (d : Dimension) (hx : x ≠ 0) (digits : Nat)
    (showPlus : Bool) :
    ∃ v, number? d (renderWith (α := Exact) estimate d x digits showPlus).result = some v ∧
      |v - x| ≤ lastPlace (clampDigits digits) x / 2 +
        if clampDigits digits ≤ 6 then 0 else lastPlace 6 x / 2 := by
  have hn := clampDigits_pos digits
  obtain ⟨p, hp, -, -, -, hnumber⟩ := reads_renderWith hest d hx digits showPlus
  have hread := congrArg (Option.bind · Parts.number?) hp
  rw [Option.bind_some, hnumber] at hread
  refine ⟨_, hread, ?_⟩
  have hfirst := abs_roundSignificant_sub_le (clampDigits digits) |x|
  have hsecond := abs_shown_sub_roundSignificant_le (abs_pos.2 hx) hn
  rw [lastPlace_abs] at hfirst hsecond
  have hboth := (abs_sub_le _ _ _).trans (add_le_add hsecond hfirst)
  rw [add_comm] at hboth
  split
  · rename_i hneg
    rw [abs_of_neg hneg] at hboth ⊢
    rwa [← abs_neg, neg_sub, sub_neg_eq_add, add_comm, ← sub_neg_eq_add]
  · rename_i hneg
    rwa [abs_of_nonneg (not_lt.1 hneg)] at hboth ⊢

theorem number_error_le_three_digits :
    IsEstimate (fun x => exponent x - 1) ∧ (-1.2345678 : ℚ) ≠ 0 ∧
      ∃ v, number? Kind.mass.dimension (renderWith (α := Exact) (fun x => exponent x - 1)
          Kind.mass.dimension (-1.2345678 : ℚ) 3 true).result = some v ∧
        |v - (-1.2345678)| ≤ lastPlace (clampDigits 3) (-1.2345678) / 2 +
          if clampDigits 3 ≤ 6 then 0 else lastPlace 6 (-1.2345678) / 2 := by
  have hest : IsEstimate (fun x => exponent x - 1) := fun x _ => by simp
  have hx : (-1.2345678 : ℚ) ≠ 0 := by norm_num
  exact ⟨hest, hx, number_error_le hest Kind.mass.dimension hx 3 true⟩

/-- Eight digits of 1.2345678 are not delivered. -/
theorem number_misses_eighth_digit :
    ¬ ∀ (d : Dimension) (x : ℚ) (digits : Nat) (showPlus : Bool), x ≠ 0 → 1 ≤ digits →
      digits ≤ 17 →
      ∃ v, number? d (render (α := Exact) d x digits showPlus).result = some v ∧
        |v - x| ≤ lastPlace digits x / 2 := by
  intro h
  obtain ⟨v, hv, hle⟩ :=
    h Kind.length.dimension 1.2345678 8 false (by norm_num) (by decide) (by decide)
  have hnumber : number? Kind.length.dimension
      (render (α := Exact) Kind.length.dimension (1.2345678 : ℚ) 8 false).result =
      some 1.23457 := by
    decide +kernel
  rw [hnumber] at hv
  cases hv
  have hexponent : exponent 1.2345678 = 0 := exponent_eq (by norm_num) (by norm_num)
  rw [lastPlace, hexponent] at hle
  norm_num [abs_le] at hle

end Metrology.Engineering
