import Metrology.Proofs.Binary.Nearest
import Metrology.Proofs.Decimal.Fixed
import Metrology.Proofs.Engineering.Split

/-!
# The mantissa as it is shown

A mantissa is shown with six significant digits.  It is a second rounding, behind the one to the
digits that were asked for: it changes nothing where at most six were asked for, errs by half a unit
of the sixth digit at most, and reaches 1000 from 999.9995 on.
-/

namespace Metrology.Engineering

open Metrology.Binary Metrology.Decimal

def shownPlaces (m : ℚ) : Nat := (5 - exponent m).toNat

def shownCoefficient (m : ℚ) : Nat := roundHalfEven (m.num.natAbs * 10 ^ shownPlaces m) m.den

def shown (m : ℚ) : ℚ := shownCoefficient m / 10 ^ shownPlaces m

variable {m : ℚ}

theorem exponent_mem (hle : 1 ≤ m) (hlt : m < 1000) : 0 ≤ exponent m ∧ exponent m ≤ 2 := by
  have hpos : 0 < m := lt_of_lt_of_le one_pos hle
  have h₀ := zpow_le_iff (k := 0) hpos
  have h₃ := lt_zpow_iff (k := 3) hpos
  rw [zpow_zero] at h₀
  have hthree : (10 : ℚ) ^ (3 : Int) = 1000 := by norm_num
  rw [hthree] at h₃
  have := h₀.1 hle
  have := h₃.1 hlt
  omega

theorem writesDecimal_mantissaText (hle : 1 ≤ m) (hlt : m < 1000) :
    WritesDecimal (shown m) (mantissaText (α := Exact) m) ∧
      IsTrimmed (mantissaText (α := Exact) m) := by
  obtain ⟨h₀, h₂⟩ := exponent_mem hle hlt
  have hexponent := Exact.floorLog10_eq (lt_of_lt_of_le one_pos hle)
  have hpositional : isPositional (exponent m) = true := by
    simp [isPositional]
    omega
  have htext : mantissaText (α := Exact) m =
      trimZeros (fixed (shownPlaces m) m.num.natAbs m.den) := by
    unfold mantissaText
    dsimp only
    rw [hexponent, if_pos hpositional]
    rfl
  rw [htext]
  exact (writesDecimal_fixed _ _ _).trimZeros

theorem lastPlace_six (hle : 1 ≤ m) (hlt : m < 1000) :
    lastPlace 6 m = ((10 : ℚ) ^ shownPlaces m)⁻¹ := by
  obtain ⟨h₀, h₂⟩ := exponent_mem hle hlt
  rw [lastPlace, ← zpow_natCast, ← zpow_neg]
  congr 1
  unfold shownPlaces
  omega

theorem scaled_num_div_den (hpos : 0 < m) (k : Nat) :
    ((m.num.natAbs * 10 ^ k : Nat) : ℚ) / m.den = m * 10 ^ k := by
  rw [Nat.cast_mul, mul_div_right_comm, Exact.num_div_den_of_pos hpos, Nat.cast_pow, Nat.cast_ofNat]

theorem abs_shown_sub_le (hle : 1 ≤ m) (hlt : m < 1000) : |shown m - m| ≤ lastPlace 6 m / 2 := by
  have hpow : (0 : ℚ) < 10 ^ shownPlaces m := by positivity
  have herror := abs_roundHalfEven_sub_le (m.num.natAbs * 10 ^ shownPlaces m) m.den_pos
  rw [scaled_num_div_den (lt_of_lt_of_le one_pos hle)] at herror
  have hscale : shown m - m =
      (shownCoefficient m - m * 10 ^ shownPlaces m) * ((10 : ℚ) ^ shownPlaces m)⁻¹ := by
    rw [sub_mul, mul_assoc, mul_inv_cancel₀ hpow.ne', mul_one, shown, div_eq_mul_inv]
  rw [hscale, lastPlace_six hle hlt, abs_mul, abs_of_pos (inv_pos.2 hpow)]
  calc _ ≤ 1 / 2 * ((10 : ℚ) ^ shownPlaces m)⁻¹ := by gcongr; exact herror
    _ = ((10 : ℚ) ^ shownPlaces m)⁻¹ / 2 := by ring

theorem shown_eq_self (hle : 1 ≤ m) (hlt : m < 1000) {c : Int} (h : m = c * lastPlace 6 m) :
    shown m = m := by
  have hpos : 0 < m := lt_of_lt_of_le one_pos hle
  have hpow : (0 : ℚ) < 10 ^ shownPlaces m := by positivity
  have hden : (0 : ℚ) < m.den := by exact_mod_cast m.den_pos
  rw [lastPlace_six hle hlt, ← div_eq_mul_inv, eq_div_iff hpow.ne'] at h
  have hc : 0 < c := by
    have hcast : (0 : ℚ) < c := by rw [← h]; positivity
    exact_mod_cast hcast
  obtain ⟨k, rfl⟩ : ∃ k : Nat, c = k := ⟨c.toNat, by omega⟩
  rw [Int.cast_natCast] at h
  have hnum : m.num.natAbs * 10 ^ shownPlaces m = k * m.den := by
    have hcast := scaled_num_div_den hpos (shownPlaces m)
    rw [h, div_eq_iff hden.ne'] at hcast
    exact_mod_cast hcast
  rw [shown, shownCoefficient, hnum, roundHalfEven_mul_left m.den_pos, div_eq_iff hpow.ne', h]

theorem shown_mantissa_roundSignificant {x : ℚ} (hx : 0 < x) {n : Nat} (hpos : 0 < n) (hn : n ≤ 6) :
    shown (mantissa (roundSignificant n x)) = mantissa (roundSignificant n x) := by
  have hr := roundSignificant_pos hx hpos
  generalize hrounded : roundSignificant n x = r at hr
  have hfixed : (coefficient n r : ℚ) * lastPlace n r = r := by
    rw [← roundSignificant_of_pos hr, ← hrounded, roundSignificant_idem hx hpos]
  have hplace : lastPlace n r = ((10 ^ (6 - n) : Int) : ℚ) * lastPlace 6 r := by
    rw [pow_mul_lastPlace, lastPlace]
    congr 1
    omega
  apply shown_eq_self (c := coefficient n r * 10 ^ (6 - n)) (one_le_mantissa hr) (mantissa_lt hr)
  apply mul_right_cancel₀ (zpow_ne_zero (thousands r) (by norm_num : (10 : ℚ) ≠ 0))
  rw [mantissa_mul_zpow, mul_assoc, lastPlace_mantissa hr, Int.cast_mul, mul_assoc, ← hplace,
    hfixed]

theorem scaled_num_le_iff (hpos : 0 < m) (k : Nat) :
    k * 10 ^ shownPlaces m * m.den ≤ m.num.natAbs * 10 ^ shownPlaces m ↔ (k : ℚ) ≤ m := by
  have hden : (0 : ℚ) < m.den := by exact_mod_cast m.den_pos
  have hpow : (0 : ℚ) < 10 ^ shownPlaces m := by positivity
  rw [← Nat.cast_le (α := ℚ), Nat.cast_mul, ← le_div_iff₀ hden, scaled_num_div_den hpos,
    Nat.cast_mul, Nat.cast_pow, Nat.cast_ofNat, mul_le_mul_iff_left₀ hpow]

theorem le_shown (hpos : 0 < m) {k : Nat} (h : (k : ℚ) ≤ m) : (k : ℚ) ≤ shown m := by
  have hle := le_roundHalfEven m.den_pos ((scaled_num_le_iff hpos k).2 h)
  rw [shown, le_div_iff₀ (by positivity)]
  exact_mod_cast hle

theorem shown_le (hpos : 0 < m) {k : Nat} (h : m < k) : shown m ≤ k := by
  have hlt := not_le.1 (mt (scaled_num_le_iff hpos k).1 h.not_ge)
  have hle := roundHalfEven_le m.den_pos hlt
  rw [shown, div_le_iff₀ (by positivity)]
  exact_mod_cast hle

theorem shownPlaces_eq_three (hle : 100 ≤ m) (hlt : m < 1000) : shownPlaces m = 3 := by
  have hexponent : exponent m = 2 := exponent_eq (by norm_num; exact hle) (by norm_num; exact hlt)
  rw [shownPlaces, hexponent]
  rfl

theorem shown_eq_thousand_iff (hle : 1 ≤ m) (hlt : m < 1000) :
    shown m = 1000 ↔ 999.9995 ≤ m := by
  have hpos : 0 < m := lt_of_lt_of_le one_pos hle
  have hden : (0 : ℚ) < m.den := by exact_mod_cast m.den_pos
  rcases lt_or_ge m 100 with h | h
  · have hshown := shown_le (k := 100) hpos (by exact_mod_cast h)
    rw [Nat.cast_ofNat] at hshown
    exact iff_of_false (fun heq => by linarith) (fun hlow => by linarith)
  · have hplaces := shownPlaces_eq_three h hlt
    have hhigh : m.num.natAbs * 10 ^ 3 < (999999 + 1) * m.den := by
      have hiff := scaled_num_le_iff hpos 1000
      rw [hplaces] at hiff
      have := not_le.1 (mt hiff.1 (by exact_mod_cast hlt.not_ge))
      omega
    have htie : 1999999 * m.den ≤ 2 * (m.num.natAbs * 10 ^ 3) ↔ 999.9995 ≤ m := by
      rw [← Nat.cast_le (α := ℚ), Nat.cast_mul, Nat.cast_mul 2, ← le_div_iff₀ hden, mul_div_assoc,
        scaled_num_div_den hpos]
      norm_num
      constructor <;> intro <;> linarith
    have hcoefficient : shown m = 1000 ↔ roundHalfEven (m.num.natAbs * 10 ^ 3) m.den = 1000000 := by
      rw [shown, shownCoefficient, hplaces, div_eq_iff (by positivity)]
      norm_num
      exact_mod_cast Iff.rfl
    rw [hcoefficient, ← htie]
    exact roundHalfEven_eq_succ_iff (k := 999999) (by decide) m.den_pos hhigh

end Metrology.Engineering
