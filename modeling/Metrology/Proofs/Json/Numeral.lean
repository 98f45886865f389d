import Metrology.Json.Numeral
import Metrology.Scalar.Machine
import Metrology.Proofs.Binary.Nearest
import Metrology.Proofs.Decimal.Digits
import Metrology.Proofs.Json.Token
import Metrology.Proofs.Scalar.Machine
import Mathlib.Tactic.FieldSimp

/-!
# Exact numerals

A finite binary number is a decimal with finitely many digits.  Its exact numeral has no more digits
than can matter in its format, so that nothing is cut when it is read, and rounding settles on the
word it was written for.
-/

namespace Metrology.Json.Numeral

open Metrology.Binary Metrology.Decimal

theorem scaledByTen_value (m : Nat) (e : Int) :
    ((scaledByTen m e).1 : ℚ) = m * 10 ^ e * (scaledByTen m e).2 := by
  rw [scaledByTen_eq_scaledBy]
  exact_mod_cast scaledBy_value (b := 10) (m := m) (e := e) (by decide)

theorem digitCount_le {n k : Nat} (hk : 0 < k) (h : n < 10 ^ k) : digitCount n ≤ k :=
  (Nat.length_toDigits_le_iff (by decide) hk).2 h

variable {f : Layout} {n : Numeral} {word m : Nat} {e : Int} {negative : Bool}

theorem nearestWord_eq (h : f.decode word = .finite negative m e)
    (hv : (n.coefficient : ℚ) * 10 ^ n.exponent = m * 2 ^ e)
    (hdigits : digitCount n.coefficient ≤ digitLimit f)
    (hhigh : (digitCount n.coefficient : Int) + n.exponent ≤ 2 ^ f.exponentBits)
    (hlow : -(2 : Int) ^ f.exponentBits ≤ digitCount n.coefficient + n.exponent) :
    n.nearestWord f = word % f.signBit := by
  have hden : 0 < (scaledByTen n.coefficient n.exponent).2 := scaledBy_snd_pos (by decide)
  have hnear : f.nearest (scaledByTen n.coefficient n.exponent).1
      (scaledByTen n.coefficient n.exponent).2 = word % f.signBit := by
    apply Layout.nearest_eq hden h
    rw [scaledByTen_value, hv, mul_comm]
  unfold nearestWord
  dsimp only
  by_cases hzero : n.coefficient = 0
  · have hword : f.nearest 0 1 = word % f.signBit := by
      apply Layout.nearest_eq Nat.one_pos h
      rw [← hv, hzero]
      simp
    rw [if_pos hzero, ← hword]
    rfl
  · rw [if_neg hzero, if_neg (by omega), if_neg (by omega), cut, Nat.sub_eq_zero_of_le hdigits,
      if_pos rfl]
    exact hnear

def exact (negative : Bool) (m : Nat) (e : Int) : Numeral :=
  if 0 ≤ e then ⟨negative, m * 2 ^ e.toNat, 0, false⟩
  else ⟨negative, m * 5 ^ (-e).toNat, e, false⟩

theorem negative_exact : (exact negative m e).negative = negative := by
  unfold exact
  split <;> rfl

theorem integral_exact : (exact negative m e).integral = false := by
  unfold exact
  split <;> rfl

theorem exact_value : ((exact negative m e).coefficient : ℚ) * 10 ^ (exact negative m e).exponent =
    m * 2 ^ e := by
  unfold exact
  split
  · obtain ⟨n, rfl⟩ := Int.eq_ofNat_of_zero_le ‹0 ≤ e›
    simp
  · obtain ⟨n, rfl⟩ := Int.exists_eq_neg_ofNat (by omega : e ≤ 0)
    have hten : (10 : ℚ) ^ n = 5 ^ n * 2 ^ n := by rw [← mul_pow]; norm_num
    simp only [neg_neg, Int.toNat_natCast, Nat.cast_mul, Nat.cast_pow, Nat.cast_ofNat, zpow_neg,
      zpow_natCast, hten]
    field_simp

variable {p : Precision}

theorem coefficient_exact_lt (h : p.layout.decode word = .finite negative m e) :
    (exact negative m e).coefficient < 10 ^ digitLimit p.layout := by
  obtain ⟨hm, hlow, hhigh⟩ := Layout.decode_bounds h
  have hbound : 2 ^ (p.layout.fractionBits + 1) *
      5 ^ (-p.layout.minExponent).toNat < 10 ^ digitLimit p.layout ∧
      2 ^ (p.layout.fractionBits + 1) *
      2 ^ (p.layout.minExponent + 2 ^ p.layout.exponentBits).toNat < 10 ^ digitLimit p.layout := by
    cases p <;> decide +kernel
  unfold exact
  split
  · refine lt_of_le_of_lt ?_ hbound.2
    exact Nat.mul_le_mul hm.le (Nat.pow_le_pow_right (by decide) (by omega))
  · refine lt_of_le_of_lt ?_ hbound.1
    exact Nat.mul_le_mul hm.le (Nat.pow_le_pow_right (by decide) (by omega))

theorem digitCount_exact_le (h : p.layout.decode word = .finite negative m e) :
    digitCount (exact negative m e).coefficient ≤ digitLimit p.layout :=
  digitCount_le (by cases p <;> decide) (coefficient_exact_lt h)

theorem exponent_exact_bounds (h : p.layout.decode word = .finite negative m e) :
    p.layout.minExponent ≤ (exact negative m e).exponent ∧
      (exact negative m e).exponent ≤ 0 := by
  obtain ⟨-, hlow, -⟩ := Layout.decode_bounds h
  have hmin : p.layout.minExponent ≤ 0 := by cases p <;> decide
  unfold exact
  split
  · exact ⟨hmin, le_refl _⟩
  · dsimp only
    omega

theorem nearestWord_exact (h : p.layout.decode word = .finite negative m e) :
    (exact negative m e).nearestWord p.layout = word % p.layout.signBit := by
  have hdigits := digitCount_exact_le h
  obtain ⟨hlow, hhigh⟩ := exponent_exact_bounds h
  have hlimit : (digitLimit p.layout : Int) ≤ 2 ^ p.layout.exponentBits ∧
      -(2 : Int) ^ p.layout.exponentBits ≤ p.layout.minExponent := by
    cases p <;> decide
  exact nearestWord_eq h exact_value hdigits (by omega) (by omega)

theorem word?_exact (hword : word < 2 * p.layout.signBit)
    (h : p.layout.decode word = .finite negative m e) :
    (exact negative m e).word? p.layout = some word := by
  have hbelow : (exact negative m e).isBelowWords = false := by
    rw [isBelowWords, integral_exact]
    rfl
  have hmagnitude : (exact negative m e).magnitude? p.layout = some (word % p.layout.signBit) := by
    unfold magnitude?
    rw [hbelow, nearestWord_exact h]
    exact if_neg (Layout.mod_signBit_lt_infinity h).ne
  rw [word?, hmagnitude, negative_exact, (Layout.decode_eq_finite h).1, Option.map_some,
    Layout.sign_add_mod hword]

def text (n : Numeral) : List Char :=
  (if n.negative then ['-'] else []) ++ (digits n.coefficient ++ 'e' :: signedDigits n.exponent)

theorem someDigits_digits (n : Nat) {t : List Char} (ht : t.takeWhile Char.isDigit = [])
    (ht' : t.dropWhile Char.isDigit = t) : Leaves (someDigits (digits n ++ t)) (digits n) t := by
  have hds : ∀ c ∈ digits n, c.isDigit = true := fun c hc => isDigit_of_mem_digits hc
  rw [someDigits_leaves_iff, List.takeWhile_append_of_pos hds, List.dropWhile_append_of_pos hds, ht,
    List.append_nil]
  exact ⟨Nat.toDigits_ne_nil, rfl, ht'⟩

theorem exists_digits_eq_cons (n : Nat) : ∃ c ds, digits n = c :: ds ∧ c.isDigit = true := by
  obtain ⟨c, ds, hds⟩ := List.exists_cons_of_ne_nil (Nat.toDigits_ne_nil (n := n) (b := 10))
  exact ⟨c, ds, hds, isDigit_of_mem_digits (by rw [digits, hds]; simp)⟩

theorem integerPart_digits (n : Nat) {t : List Char} (ht : t.takeWhile Char.isDigit = [])
    (ht' : t.dropWhile Char.isDigit = t) : Leaves (integerPart (digits n ++ t)) (digits n) t := by
  refine integerPart_leaves_iff.2 ⟨someDigits_digits n ht ht', ?_⟩
  intro c ds h
  have hzero := (isNumeral_digits n).leading (by rw [h]; rfl)
  rw [h] at hzero
  cases hzero

theorem exponentSign_digits (n : Nat) :
    exponentSign (digits n) = (false, ⟨digits n, Nat.le_refl _⟩) := by
  obtain ⟨c, ds, hds, hc⟩ := exists_digits_eq_cons n
  have hne {d : Char} (hd : d.isDigit = false) : (digits n).head? ≠ some d := by
    rw [hds, List.head?_cons]
    exact fun h => ne_of_isDigit hc hd (Option.some.inj h)
  exact exponentSign_of_head_ne (hne rfl) (hne rfl)

theorem exponentPart_signedDigits (e : Int) :
    Leaves (exponentPart ('e' :: signedDigits e)) (some e) [] := by
  have hdigits := someDigits_digits e.natAbs (t := []) rfl rfl
  have hvalue : Nat.ofDigitChars 10 (digits e.natAbs) 0 = e.natAbs :=
    Nat.ofDigitChars_ten_toDigits
  rw [List.append_nil] at hdigits
  by_cases he : e < 0
  · have hsigned : signedDigits e = '-' :: digits e.natAbs := if_pos he
    rw [hsigned, exponentPart_cons_leaves_iff (.inl rfl)]
    refine ⟨digits e.natAbs, hdigits, ?_⟩
    change some e = some (-(Nat.ofDigitChars 10 (digits e.natAbs) 0 : Int))
    rw [hvalue]
    congr 1
    omega
  · have hsigned : signedDigits e = digits e.natAbs := if_neg he
    rw [hsigned, exponentPart_cons_leaves_iff (.inl rfl), exponentSign_digits]
    refine ⟨digits e.natAbs, hdigits, ?_⟩
    change some e = some (Nat.ofDigitChars 10 (digits e.natAbs) 0 : Int)
    rw [hvalue]
    congr 1
    omega

theorem scanNumber_digits (negative : Bool) (c : Nat) (e : Int) :
    Leaves (scanNumber negative (digits c ++ 'e' :: signedDigits e))
      ⟨negative, c, e, false⟩ [] := by
  refine scanNumber_leaves_iff.2 ⟨_, _, _, _, _, integerPart_digits c rfl rfl,
    ⟨_, fractionPart_of_head_ne (by simp)⟩, exponentPart_signedDigits e, ?_⟩
  simp [ofParts, dropTrailing, digits, Nat.ofDigitChars_ten_toDigits]

theorem exists_text_eq_cons (n : Numeral) : ∃ c s, n.text = c :: s ∧ isSpace c = false := by
  obtain ⟨negative, c, e, integral⟩ := n
  cases negative with
  | true => exact ⟨_, _, rfl, rfl⟩
  | false =>
      obtain ⟨d, ds, hds, hd⟩ := exists_digits_eq_cons c
      refine ⟨d, ds ++ 'e' :: signedDigits e, ?_, isSpace_of_isDigit hd⟩
      change digits c ++ 'e' :: signedDigits e = _
      rw [hds, List.cons_append]

theorem scans_text (hn : n.integral = false) : Scans n.text (.number n) [] := by
  obtain ⟨negative, c, e, integral⟩ := n
  cases hn
  cases negative with
  | true => exact scans_number_iff.2 (.inl ⟨_, rfl, scanNumber_digits true c e⟩)
  | false =>
      obtain ⟨d, ds, hds, hd⟩ := exists_digits_eq_cons c
      refine scans_number_iff.2 (.inr ⟨⟨d, ds ++ 'e' :: signedDigits e, ?_, hd⟩,
        scanNumber_digits false c e⟩)
      change digits c ++ 'e' :: signedDigits e = _
      rw [hds, List.cons_append]

end Metrology.Json.Numeral
