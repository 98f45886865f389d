import Metrology.Engineering
import Metrology.Proofs.Decimal.Significant
import Metrology.Proofs.Scalar.Exact

/-!
# Splitting a number exactly

Over the rational numbers a value is split without loss: mantissa and power of ten make up the value
rounded to significant digits, the mantissa lies from 1 up to 1000, and it makes no difference which
estimate of the exponent the splitting starts from, as long as it is at most one off.
-/

namespace Metrology

open Metrology.Decimal

section

variable {α : Precision → Type} [Arithmetic α] {u v : ℚ}

theorem Arithmetic.lt_iff_of_compare? {p : Precision} {x y : α p}
    (h : compare? x y = some (cmp u v)) :
    lt x y = true ↔ u < v := by
  rw [lt, h, beq_iff_eq, Option.some_inj, cmp_eq_lt_iff]

theorem Engineering.atLeast_iff_of_compare? {x y : α .double}
    (h : Arithmetic.compare? x y = some (cmp u v)) : atLeast x y = true ↔ v ≤ u := by
  rw [atLeast, h]
  rcases lt_trichotomy u v with hlt | rfl | hlt
  · rw [hlt.cmp_eq_lt]
    simp [hlt.not_ge]
  · rw [cmp_self_eq_eq]
    simp
  · rw [hlt.cmp_eq_gt]
    simp [hlt.le]

end

instance : Decadic Exact where
  floor x := (⌊x⌋ : ℚ)
  floorLog10 x := floorLog10 x.num.natAbs x.den
  isFinite _ := true
  toRat x := x

namespace Exact

theorem compare?_eq {p : Precision} (x y : Exact p) :
    Arithmetic.compare? x y = some (cmp x y) := rfl

theorem lt_iff {p : Precision} {x y : Exact p} : Arithmetic.lt x y = true ↔ x < y :=
  Arithmetic.lt_iff_of_compare? (compare?_eq x y)

theorem num_div_den_of_pos {x : ℚ} (hx : 0 < x) : (x.num.natAbs : ℚ) / x.den = x := by
  have hnum : ((x.num.natAbs : Int) : ℚ) = (x.num : Int) := by
    rw [Int.natAbs_of_nonneg (Rat.num_nonneg.2 hx.le)]
  rw [← Int.cast_natCast, hnum, Rat.num_div_den]

theorem floorLog10_eq {x : ℚ} (hx : 0 < x) :
    Decadic.floorLog10 (α := Exact) x = exponent x := by
  have hnum : 0 < x.num.natAbs := Int.natAbs_pos.2 (Rat.num_pos.2 hx).ne'
  have h := floorLog10_eq_exponent hnum x.den_pos
  rwa [num_div_den_of_pos hx] at h

end Exact

namespace Engineering

open Exact

/-- The exponent of the power of a thousand that leaves a mantissa from 1 up to 1000. -/
def thousands (x : ℚ) : Int := exponent x / 3 * 3

def mantissa (x : ℚ) : ℚ := x / 10 ^ thousands x

/-- An estimate of the exponent that is at most one off, in either direction. -/
def IsEstimate (estimate : ℚ → Int) : Prop :=
  ∀ x, 0 < x → |estimate x - exponent x| ≤ 1

variable {x : ℚ} {digits : Nat}

theorem isEstimate_floorLog10 : IsEstimate (Decadic.floorLog10 (α := Exact)) := by
  intro x hx
  simp [floorLog10_eq hx]

theorem atLeast_iff {x y : ℚ} : atLeast (α := Exact) x y = true ↔ y ≤ x :=
  atLeast_iff_of_compare? (α := Exact) (compare?_eq (p := .double) x y)

theorem shift_eq (x : ℚ) (n : Int) : shift (α := Exact) x n = x * 10 ^ n := by
  unfold shift shiftSteps
  split
  · change x * 10 ^ n.tdiv 2 * 10 ^ (n - n.tdiv 2) = x * 10 ^ n
    rw [mul_assoc, ← zpow_add₀ (by norm_num), add_sub_cancel]
  · rfl

theorem roundHalfUp_eq (x : ℚ) : roundHalfUp (α := Exact) x = round x := by
  have hle := Int.floor_le x
  have hlt := Int.lt_floor_add_one x
  unfold roundHalfUp
  change (if atLeast (α := Exact) (x - ⌊x⌋) (1 / 2) then (⌊x⌋ : ℚ) + 1 else ⌊x⌋) = round x
  split
  · rename_i h
    rw [atLeast_iff] at h
    have hround : round x = ⌊x⌋ + 1 := by
      rw [round_eq_iff]
      constructor <;> push_cast <;> linarith
    rw [hround, Int.cast_add, Int.cast_one]
  · rename_i h
    rw [atLeast_iff, not_le] at h
    have hround : round x = ⌊x⌋ := by
      rw [round_eq_iff]
      constructor <;> linarith
    rw [hround]

theorem clampDigits_pos (digits : Nat) : 0 < clampDigits digits :=
  Nat.lt_of_lt_of_le Nat.one_pos (Nat.le_max_left _ _)

theorem tenTo_eq (n : Int) : tenTo (α := Exact) n = (10 : ℚ) ^ n := rfl

theorem mul_tenTo_ten (n : Int) :
    Arithmetic.mul (α := Exact) (p := .double) (tenTo (α := Exact) (n - 1))
      (Arithmetic.ofRat (α := Exact) (p := .double) 10) = (10 : ℚ) ^ n := by
  change (10 : ℚ) ^ (n - 1) * 10 = 10 ^ n
  rw [← zpow_add_one₀ (by norm_num), sub_add_cancel]

theorem leadingExponent_eq {estimate : Int} (hx : 0 < x) (he : |estimate - exponent x| ≤ 1)
    (n : Nat) : leadingExponent (α := Exact) estimate x n = exponent x := by
  have hscaled : 0 < x * 10 ^ (n - 1 - estimate : Int) := by positivity
  have hbelow : Arithmetic.lt (α := Exact) (p := .double) (shift (α := Exact) x (n - 1 - estimate))
      (tenTo (α := Exact) (n - 1)) = true ↔ exponent x < estimate := by
    rw [lt_iff, shift_eq, tenTo_eq, lt_zpow_iff hscaled, exponent_mul_zpow hx]
    omega
  have habove : atLeast (α := Exact) (shift (α := Exact) x (n - 1 - estimate))
      (Arithmetic.mul (α := Exact) (p := .double) (tenTo (α := Exact) (n - 1))
        (Arithmetic.ofRat (α := Exact) (p := .double) 10)) = true ↔ estimate + 1 ≤ exponent x := by
    rw [atLeast_iff, shift_eq, mul_tenTo_ten, zpow_le_iff hscaled, exponent_mul_zpow hx]
    omega
  rw [abs_le] at he
  unfold leadingExponent
  dsimp only
  split
  · rename_i h
    have := hbelow.1 h
    omega
  · rename_i h
    have := mt hbelow.2 h
    split
    · rename_i h'
      have := habove.1 h'
      omega
    · rename_i h'
      have := mt habove.2 h'
      omega

theorem mantissa_mul_zpow (x : ℚ) : mantissa x * 10 ^ thousands x = x :=
  div_mul_cancel₀ _ (by positivity)

theorem mantissa_pos (hx : 0 < x) : 0 < mantissa x := by
  unfold mantissa
  positivity

theorem exponent_mantissa (hx : 0 < x) : exponent (mantissa x) = exponent x % 3 := by
  rw [mantissa, div_eq_mul_inv, ← zpow_neg, exponent_mul_zpow hx, thousands]
  omega

theorem lastPlace_mantissa (hx : 0 < x) (n : Nat) :
    lastPlace n (mantissa x) * 10 ^ thousands x = lastPlace n x := by
  rw [lastPlace, lastPlace, exponent_mantissa hx, thousands, ← zpow_add₀ (by norm_num)]
  congr 1
  omega

theorem one_le_mantissa (hx : 0 < x) : 1 ≤ mantissa x := by
  have h := exponent_mantissa hx
  have hle := zpow_le_iff (k := 0) (mantissa_pos hx)
  rw [zpow_zero] at hle
  exact hle.2 (by omega)

theorem mantissa_lt (hx : 0 < x) : mantissa x < 1000 := by
  have h := exponent_mantissa hx
  have hlt := (lt_zpow_iff (k := 3) (mantissa_pos hx)).2 (by omega)
  norm_num at hlt
  exact hlt

theorem roundHalfUp_shift (hx : 0 < x) (n : Nat) :
    roundHalfUp (α := Exact) (shift (α := Exact) x (n - 1 - exponent x)) =
      (coefficient n x : ℚ) := by
  have hplace : x * 10 ^ (n - 1 - exponent x : Int) = x / lastPlace n x := by
    rw [lastPlace, div_eq_mul_inv, ← zpow_neg]
    congr 2
    omega
  rw [roundHalfUp_eq, shift_eq, hplace, coefficient, abs_of_pos hx]

theorem atLeast_carry {n : Nat} (c : Int) :
    atLeast (α := Exact) (c : ℚ) (Arithmetic.mul (α := Exact) (p := .double)
      (tenTo (α := Exact) (n - 1)) (Arithmetic.ofRat (α := Exact) (p := .double) 10)) = true ↔
      10 ^ n ≤ c := by
  rw [atLeast_iff, mul_tenTo_ten, zpow_natCast]
  exact_mod_cast Iff.rfl

theorem scale_back (c : ℚ) (places : Int) :
    (if 0 ≤ places then Arithmetic.div (α := Exact) (p := .double) c (tenTo (α := Exact) places)
      else Arithmetic.mul (α := Exact) (p := .double) c (tenTo (α := Exact) (-places))) =
      c / 10 ^ places := by
  split
  · rfl
  · change c * 10 ^ (-places) = c / 10 ^ places
    rw [zpow_neg, div_eq_mul_inv]

theorem split_eq {estimate : Int} (hx : 0 < x) (he : |estimate - exponent x| ≤ 1) (digits : Nat) :
    split (α := Exact) estimate x digits =
      (mantissa (roundSignificant (clampDigits digits) x),
        thousands (roundSignificant (clampDigits digits) x)) := by
  have hn := clampDigits_pos digits
  unfold split
  dsimp only
  generalize clampDigits digits = n at hn ⊢
  rw [leadingExponent_eq hx he, roundHalfUp_shift hx, scale_back]
  rcases exponent_roundSignificant hx hn with ⟨hc, hr⟩ | ⟨hc, hr⟩
  · have hcarry := mt (atLeast_carry (n := n) (coefficient n x)).1 hc.not_ge
    rw [if_neg hcarry, if_neg hcarry, mantissa, thousands, hr, roundSignificant_of_pos hx,
      lastPlace, mul_div_assoc, ← zpow_sub₀ (by norm_num), div_eq_mul_inv, ← zpow_neg]
    congr 3
    omega
  · have hcarry := (atLeast_carry (n := n) (coefficient n x)).2 hc.ge
    have hpow : Arithmetic.div (α := Exact) (p := .double) (coefficient n x : ℚ)
        (Arithmetic.ofRat (α := Exact) (p := .double) 10) = (10 : ℚ) ^ (n - 1 : Int) := by
      change (coefficient n x : ℚ) / 10 = _
      rw [hc, zpow_sub_one₀ (by norm_num), zpow_natCast]
      push_cast
      rfl
    rw [if_pos hcarry, if_pos hcarry, mantissa, thousands, hr, exponent_zpow, hpow,
      ← zpow_sub₀ (by norm_num), ← zpow_sub₀ (by norm_num)]
    congr 2
    omega

end Engineering

end Metrology
