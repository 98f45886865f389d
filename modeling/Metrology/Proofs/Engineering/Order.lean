import Metrology.Proofs.Engineering.Reading
import Mathlib.Order.Monotone.Odd
import Mathlib.Data.Sign.Basic

/-!
# Renderings keep the order

The number that a rendering denotes grows with the value.  Both roundings stay between the powers of
ten around a positive value, so that values of different exponents stay in order whatever prefix or
exponent they are written with, and negative values mirror the positive ones.
-/

namespace Metrology.Engineering

open Metrology.Binary Metrology.Decimal

variable {estimate : ℚ → Int} {x y m m' : ℚ}

theorem zpow_exponent_le_shown (hle : 1 ≤ m) : 10 ^ exponent m ≤ shown m := by
  have hpos : 0 < m := lt_of_lt_of_le one_pos hle
  obtain ⟨k, hk⟩ : ∃ k : Nat, exponent m = k := by
    have h₀ := (zpow_le_iff (k := 0) hpos).1 (by simpa using hle)
    exact Int.eq_ofNat_of_zero_le h₀
  have hlow := zpow_exponent_le hpos
  rw [hk, zpow_natCast] at hlow ⊢
  exact_mod_cast le_shown (k := 10 ^ k) hpos (by exact_mod_cast hlow)

theorem shown_le_zpow_exponent (hle : 1 ≤ m) : shown m ≤ 10 ^ (exponent m + 1) := by
  have hpos : 0 < m := lt_of_lt_of_le one_pos hle
  obtain ⟨k, hk⟩ : ∃ k : Nat, exponent m + 1 = k := by
    have h₀ := (zpow_le_iff (k := 0) hpos).1 (by simpa using hle)
    exact Int.eq_ofNat_of_zero_le (by omega)
  have hhigh := lt_zpow_exponent hpos
  rw [hk, zpow_natCast] at hhigh ⊢
  exact_mod_cast shown_le (k := 10 ^ k) hpos (by exact_mod_cast hhigh)

theorem shown_le_shown (hm : 0 < m) (h : m ≤ m') (he : exponent m = exponent m') :
    shown m ≤ shown m' := by
  have hm' := hm.trans_le h
  have hden : (0 : ℚ) < m.den := by exact_mod_cast m.den_pos
  have hden' : (0 : ℚ) < m'.den := by exact_mod_cast m'.den_pos
  have hcross : m.num.natAbs * 10 ^ shownPlaces m' * m'.den ≤
      m'.num.natAbs * 10 ^ shownPlaces m' * m.den := by
    have hvalue : m * 10 ^ shownPlaces m' ≤ m' * 10 ^ shownPlaces m' := by gcongr
    rw [← scaled_num_div_den hm, ← scaled_num_div_den hm', div_le_div_iff₀ hden hden'] at hvalue
    exact_mod_cast hvalue
  have hle := roundHalfEven_le_roundHalfEven m.den_pos m'.den_pos hcross
  have hplaces : shownPlaces m = shownPlaces m' := by rw [shownPlaces, he, shownPlaces]
  rw [shown, shown, shownCoefficient, shownCoefficient, hplaces]
  gcongr

def shownNumber (x : ℚ) : ℚ := shown (mantissa x) * 10 ^ thousands x

theorem zpow_exponent_mantissa_mul (hx : 0 < x) :
    (10 : ℚ) ^ exponent (mantissa x) * 10 ^ thousands x = 10 ^ exponent x := by
  rw [← zpow_add₀ (by norm_num), exponent_mantissa hx, thousands, Int.emod_add_ediv_mul]

theorem zpow_exponent_le_shownNumber (hx : 0 < x) : 10 ^ exponent x ≤ shownNumber x := by
  have hle := zpow_exponent_le_shown (one_le_mantissa hx)
  rw [← zpow_exponent_mantissa_mul hx, shownNumber]
  gcongr

theorem shownNumber_le_zpow_exponent (hx : 0 < x) : shownNumber x ≤ 10 ^ (exponent x + 1) := by
  have hle := shown_le_zpow_exponent (one_le_mantissa hx)
  rw [zpow_add_one₀ (by norm_num)] at hle ⊢
  rw [← zpow_exponent_mantissa_mul hx, mul_right_comm, shownNumber]
  gcongr

theorem shownNumber_le_shownNumber (hx : 0 < x) (h : x ≤ y) : shownNumber x ≤ shownNumber y := by
  apply le_of_keeps_decades zpow_exponent_le_shownNumber shownNumber_le_zpow_exponent _ hx h
  intro x y hx h he
  have hthousands : thousands x = thousands y := by rw [thousands, he, thousands]
  have hmantissa : mantissa x ≤ mantissa y := by
    rw [mantissa, mantissa, hthousands]
    gcongr
  have hexponent : exponent (mantissa x) = exponent (mantissa y) := by
    rw [exponent_mantissa hx, exponent_mantissa (hx.trans_le h), he]
  have hle := shown_le_shown (mantissa_pos hx) hmantissa hexponent
  rw [shownNumber, shownNumber, hthousands]
  gcongr

variable {n : Nat}

/-- The number that `x` is shown as when it is rounded to `n` digits first. -/
def denoted (n : Nat) (x : ℚ) : ℚ := SignType.sign x * shownNumber (roundSignificant n |x|)

theorem denoted_of_pos (hx : 0 < x) : denoted n x = shownNumber (roundSignificant n x) := by
  rw [denoted, sign_pos hx, abs_of_pos hx, SignType.coe_one, one_mul]

theorem denoted_eq_ite (hx : x ≠ 0) :
    denoted n x = if x < 0 then -shownNumber (roundSignificant n |x|)
      else shownNumber (roundSignificant n |x|) := by
  rcases lt_or_gt_of_ne hx with hneg | hpos
  · rw [if_pos hneg, denoted, sign_neg hneg, SignType.coe_neg_one, neg_one_mul]
  · rw [if_neg hpos.not_gt, denoted_of_pos hpos, abs_of_pos hpos]

theorem denoted_zero : denoted n 0 = 0 := by simp [denoted]

theorem denoted_nonneg (hn : 0 < n) (hx : 0 ≤ x) : 0 ≤ denoted n x := by
  rcases hx.eq_or_lt with rfl | hpos
  · exact denoted_zero.ge
  · rw [denoted_of_pos hpos]
    exact (zpow_pos (by norm_num) _).le.trans
      (zpow_exponent_le_shownNumber (roundSignificant_pos hpos hn))

theorem denoted_mono (hn : 0 < n) : Monotone (denoted n) := by
  apply monotone_of_odd_of_monotoneOn_nonneg
  · intro x
    rw [denoted, denoted, abs_neg, Left.sign_neg, SignType.coe_neg, neg_mul]
  · intro x hx y _ h
    rcases (Set.mem_Ici.1 hx).eq_or_lt with rfl | hpos
    · rw [denoted_zero]
      exact denoted_nonneg hn h
    · rw [denoted_of_pos hpos, denoted_of_pos (hpos.trans_le h)]
      exact shownNumber_le_shownNumber (roundSignificant_pos hpos hn)
        (roundSignificant_le_roundSignificant hn hpos h)

theorem number?_renderWith_zero (estimate : ℚ → Int) (d : Dimension) (digits : Nat)
    (showPlus : Bool) :
    number? d (renderWith (α := Exact) estimate d 0 digits showPlus).result = some 0 := by
  have hspecial : specialText? (α := Exact) 0 = some "0" := by decide +kernel
  rw [renderWith_of_special hspecial]
  have hsign : (sign (α := Exact) 0 showPlus ++ "0").toList =
      (sign (α := Exact) 0 showPlus).toList ++ ['0'] := by simp
  have hread := readSign_sign (α := Exact) 0 showPlus (s := ['0']) (by decide) (by decide)
  have hunit : d.preferredSymbol.toList.dropSuffix? d.preferredSymbol.toList = some [] := by
    rw [List.dropSuffix?_eq_some_iff]
    exact ⟨d.preferredSymbol.toList, by simp, by simp⟩
  have hparts : parts? d ⟨sign (α := Exact) 0 showPlus ++ "0", d.preferredSymbol⟩ =
      some ⟨false, ['0'], none, ""⟩ := by
    rw [parts?, hsign, hread, lt_zero_eq_decide]
    dsimp only
    rw [hunit]
    rfl
  rw [number?, hparts]
  decide +kernel

theorem number?_renderWith (hest : IsEstimate estimate) (d : Dimension) (x : ℚ) (digits : Nat)
    (showPlus : Bool) :
    number? d (renderWith (α := Exact) estimate d x digits showPlus).result =
      some (denoted (clampDigits digits) x) := by
  by_cases hx : x = 0
  · rw [hx, denoted_zero]
    exact number?_renderWith_zero estimate d digits showPlus
  · obtain ⟨p, hp, -, -, -, hnumber⟩ := reads_renderWith hest d hx digits showPlus
    rw [number?, hp, Option.bind_some, hnumber, denoted_eq_ite hx, shownNumber]

/-- A greater value is never rendered as a lesser number. -/
theorem number_mono (hest : IsEstimate estimate) (d : Dimension) (digits : Nat) (showPlus : Bool)
    {a b : ℚ} (h : a ≤ b) :
    ∃ u v, number? d (renderWith (α := Exact) estimate d a digits showPlus).result = some u ∧
      number? d (renderWith (α := Exact) estimate d b digits showPlus).result = some v ∧ u ≤ v :=
  ⟨_, _, number?_renderWith hest d a digits showPlus, number?_renderWith hest d b digits showPlus,
    denoted_mono (clampDigits_pos digits) h⟩

/-- The lesser value is carried up to a thousand by the second rounding, the greater has the prefix.
-/
theorem number_mono_across_kilo :
    IsEstimate (fun x => exponent x + 1) ∧ (999.9999 : ℚ) ≤ 1000.4 ∧
      ∃ u v, number? Kind.length.dimension (renderWith (α := Exact) (fun x => exponent x + 1)
          Kind.length.dimension (999.9999 : ℚ) 7 false).result = some u ∧
        number? Kind.length.dimension (renderWith (α := Exact) (fun x => exponent x + 1)
          Kind.length.dimension (1000.4 : ℚ) 7 false).result = some v ∧ u ≤ v := by
  have hest : IsEstimate (fun x => exponent x + 1) := fun x _ => by simp
  have hle : (999.9999 : ℚ) ≤ 1000.4 := by norm_num
  exact ⟨hest, hle, number_mono hest Kind.length.dimension 7 false hle⟩

end Metrology.Engineering
