import Metrology.Proofs.Engineering.Reading

/-!
# Mantissas of inexact arithmetic

Arithmetic that rounds, but not by more than a thousandth, leaves a mantissa whose order of
magnitude is still right.  Powers of ten come from a library, and so does the estimate of the
exponent, which may be one off.  The mantissa is far within the numbers that are written without an
exponent, and the only exponent in a magnitude is the one that stands behind the mantissa.
-/

namespace Metrology

open Metrology.Decimal

/-! ## Close numbers -/

/-- Two numbers that are as close as `n` roundings leave them. -/
def IsClose (n : Nat) (u v : ℚ) : Prop := 0.999 ^ n * v ≤ u ∧ 0.999 ^ n * u ≤ v

namespace IsClose

variable {m n : Nat} {u v w : ℚ}

theorem refl (v : ℚ) : IsClose 0 v v := by
  simp [IsClose]

theorem trans (huv : IsClose m u v) (hvw : IsClose n v w) : IsClose (m + n) u w := by
  have hm : (0 : ℚ) ≤ 0.999 ^ m := by positivity
  have hn : (0 : ℚ) ≤ 0.999 ^ n := by positivity
  constructor
  · calc (0.999 : ℚ) ^ (m + n) * w = 0.999 ^ m * (0.999 ^ n * w) := by ring
      _ ≤ 0.999 ^ m * v := mul_le_mul_of_nonneg_left hvw.1 hm
      _ ≤ u := huv.1
  · calc (0.999 : ℚ) ^ (m + n) * u = 0.999 ^ n * (0.999 ^ m * u) := by ring
      _ ≤ 0.999 ^ n * v := mul_le_mul_of_nonneg_left huv.2 hn
      _ ≤ w := hvw.2

theorem mul {u' v' : ℚ} (hu : 0 ≤ u) (hv : 0 ≤ v) (hu' : 0 ≤ u') (hv' : 0 ≤ v')
    (h : IsClose m u v) (h' : IsClose n u' v') : IsClose (m + n) (u * u') (v * v') := by
  constructor
  · calc (0.999 : ℚ) ^ (m + n) * (v * v') = 0.999 ^ m * v * (0.999 ^ n * v') := by ring
      _ ≤ u * u' := mul_le_mul h.1 h'.1 (by positivity) hu
  · calc (0.999 : ℚ) ^ (m + n) * (u * u') = 0.999 ^ m * u * (0.999 ^ n * u') := by ring
      _ ≤ v * v' := mul_le_mul h.2 h'.2 (by positivity) hv

theorem inv (hu : 0 < u) (hv : 0 < v) (h : IsClose n u v) : IsClose n u⁻¹ v⁻¹ := by
  constructor
  · rw [← div_eq_mul_inv, div_le_iff₀ hv, inv_mul_eq_div, le_div_iff₀ hu]
    exact h.2
  · rw [← div_eq_mul_inv, div_le_iff₀ hu, inv_mul_eq_div, le_div_iff₀ hv]
    exact h.1

theorem hundredth_le_pow (hn : n ≤ 10) : (0.99 : ℚ) ≤ 0.999 ^ n :=
  calc (0.99 : ℚ) ≤ 0.999 ^ 10 := by norm_num
    _ ≤ 0.999 ^ n := pow_le_pow_of_le_one (by norm_num) (by norm_num) hn

theorem hundredth (h : IsClose n u v) (hu : 0 ≤ u) (hv : 0 ≤ v) (hn : n ≤ 10) :
    0.99 * v ≤ u ∧ 0.99 * u ≤ v :=
  ⟨(mul_le_mul_of_nonneg_right (hundredth_le_pow hn) hv).trans h.1,
    (mul_le_mul_of_nonneg_right (hundredth_le_pow hn) hu).trans h.2⟩

theorem le_of_le {u' v' : ℚ} (hu : IsClose m u' u) (hv : IsClose n v' v) (hpos : 0 ≤ u)
    (h : u' ≤ v') (hmn : m + n ≤ 10) : 0.99 * u ≤ v := by
  have hn : (0 : ℚ) ≤ 0.999 ^ n := by positivity
  calc 0.99 * u ≤ 0.999 ^ (m + n) * u := mul_le_mul_of_nonneg_right (hundredth_le_pow hmn) hpos
    _ = 0.999 ^ n * (0.999 ^ m * u) := by ring
    _ ≤ 0.999 ^ n * v' := mul_le_mul_of_nonneg_left (hu.1.trans h) hn
    _ ≤ v := hv.2

theorem multiple_le {u' v' unit : ℚ} (hu : IsClose m u' (u * unit)) (hv : IsClose n v' (v * unit))
    (hpos : 0 ≤ u) (hunit : 0 < unit) (h : u' ≤ v') (hmn : m + n ≤ 10) : 0.99 * u ≤ v := by
  have hmultiple := hu.le_of_le hv (mul_nonneg hpos hunit.le) h hmn
  rw [← mul_assoc] at hmultiple
  exact le_of_mul_le_mul_right hmultiple hunit

theorem pos (h : IsClose n u v) (hv : 0 < v) : 0 < u :=
  lt_of_lt_of_le (by positivity) h.1

theorem mono (h : IsClose m u v) (hu : 0 ≤ u) (hv : 0 ≤ v) (hmn : m ≤ n) : IsClose n u v := by
  have hpow : (0.999 : ℚ) ^ n ≤ 0.999 ^ m := pow_le_pow_of_le_one (by norm_num) (by norm_num) hmn
  exact ⟨(mul_le_mul_of_nonneg_right hpow hv).trans h.1,
    (mul_le_mul_of_nonneg_right hpow hu).trans h.2⟩

end IsClose

/-! ## Arithmetic that rounds -/

section

variable {α : Precision → Type} [Decadic α]

def Denotes (x : α .double) (v : ℚ) : Prop := Decadic.isFinite x = true ∧ Decadic.toRat x = v

def Approximates (n : Nat) (x : α .double) (v : ℚ) : Prop := ∃ u, Denotes x u ∧ IsClose n u v

end

/-- Arithmetic that is exact where it compares and takes floors, and a thousandth off at most where
it computes with positive numbers.  Products and quotients are held to this where they neither
overflow nor underflow, sums and differences where they do not overflow. -/
structure Faithful (α : Precision → Type) [Decadic α] : Prop where
  ofRat : ∀ v ∈ [(0 : ℚ), 1 / 2, 1, 10], Denotes (α := α) (Arithmetic.ofRat v) v
  abs {x : α .double} {u : ℚ} (hx : Denotes x u) : Denotes (Arithmetic.abs x) |u|
  compare? {x y : α .double} {u v : ℚ} (hx : Denotes x u) (hy : Denotes y v) :
    Arithmetic.compare? x y = some (cmp u v)
  add {x y : α .double} {u v : ℚ} (hx : Denotes x u) (hy : Denotes y v) (hu : 0 ≤ u) (hv : 0 ≤ v)
    (hhigh : u + v ≤ 10 ^ (300 : Int)) : Approximates 1 (Arithmetic.add x y) (u + v)
  sub {x y : α .double} {u v : ℚ} (hx : Denotes x u) (hy : Denotes y v) (hv : 0 ≤ v) (hvu : v ≤ u)
    (hhigh : u - v ≤ 10 ^ (300 : Int)) : Approximates 1 (Arithmetic.sub x y) (u - v)
  mul {x y : α .double} {u v : ℚ} (hx : Denotes x u) (hy : Denotes y v) (hu : 0 < u) (hv : 0 < v)
    (hlow : 10 ^ (-300 : Int) ≤ u * v) (hhigh : u * v ≤ 10 ^ (300 : Int)) :
    Approximates 1 (Arithmetic.mul x y) (u * v)
  div {x y : α .double} {u v : ℚ} (hx : Denotes x u) (hy : Denotes y v) (hu : 0 < u) (hv : 0 < v)
    (hlow : 10 ^ (-300 : Int) ≤ u / v) (hhigh : u / v ≤ 10 ^ (300 : Int)) :
    Approximates 1 (Arithmetic.div x y) (u / v)
  tenTo {n : Int} (hn : |n| ≤ 300) : Approximates (α := α) 1 (Engineering.tenTo n) (10 ^ n)
  floor {x : α .double} {u : ℚ} (hx : Denotes x u) : Denotes (Decadic.floor x) ⌊u⌋
  floorLog10 {x : α .double} {u : ℚ} (hx : Denotes x u) (hpos : 0 < u) :
    |Decadic.floorLog10 x - exponent u| ≤ 1

theorem faithful_exact : Faithful Exact := by
  have happrox {x v : ℚ} (h : x = v) (hv : 0 ≤ v) : Approximates (α := Exact) 1 x v :=
    ⟨v, ⟨rfl, h⟩, (IsClose.refl v).mono hv hv (by decide)⟩
  constructor
  case ofRat => exact fun v _ => ⟨rfl, rfl⟩
  case abs => rintro x _ ⟨-, rfl⟩; exact ⟨rfl, rfl⟩
  case compare? => rintro x y _ _ ⟨-, rfl⟩ ⟨-, rfl⟩; rfl
  case add => rintro x y _ _ ⟨-, rfl⟩ ⟨-, rfl⟩ hu hv -; exact happrox rfl (add_nonneg hu hv)
  case sub => rintro x y _ _ ⟨-, rfl⟩ ⟨-, rfl⟩ - hvu -; exact happrox rfl (sub_nonneg.2 hvu)
  case mul => rintro x y _ _ ⟨-, rfl⟩ ⟨-, rfl⟩ hu hv - -; exact happrox rfl (mul_pos hu hv).le
  case div => rintro x y _ _ ⟨-, rfl⟩ ⟨-, rfl⟩ hu hv - -; exact happrox rfl (div_pos hu hv).le
  case tenTo => exact fun {n} _ => happrox rfl (by positivity)
  case floor => rintro x _ ⟨-, rfl⟩; exact ⟨rfl, rfl⟩
  case floorLog10 =>
    rintro x _ ⟨-, rfl⟩ hpos
    exact Engineering.isEstimate_floorLog10 _ hpos

/-- Far enough from both ends of the range that a product or quotient stays within it. -/
def Moderate (v : ℚ) : Prop := 10 ^ (-200 : Int) ≤ v ∧ v ≤ 10 ^ (200 : Int)

theorem Moderate.pos {v : ℚ} (h : Moderate v) : 0 < v := lt_of_lt_of_le (by positivity) h.1

theorem IsClose.range {n : Nat} {u v : ℚ} (h : IsClose n u v) (hn : n ≤ 10) (hv : Moderate v) :
    10 ^ (-300 : Int) ≤ u ∧ u ≤ 10 ^ (300 : Int) := by
  obtain ⟨hlow, hhigh⟩ := h.hundredth (h.pos hv.pos).le hv.pos.le hn
  constructor
  · calc (10 : ℚ) ^ (-300 : Int) ≤ 10 ^ (-1 + -200 : Int) :=
          zpow_le_zpow_right₀ (by norm_num) (by omega)
      _ = 10 ^ (-1 : Int) * 10 ^ (-200 : Int) := zpow_add₀ (by norm_num) _ _
      _ ≤ 0.99 * v := mul_le_mul (by norm_num) hv.1 (by positivity) (by norm_num)
      _ ≤ u := hlow
  · have hpos := h.pos hv.pos
    calc u ≤ 10 * (0.99 * u) := by linarith
      _ ≤ 10 * 10 ^ (200 : Int) := mul_le_mul_of_nonneg_left (hhigh.trans hv.2) (by norm_num)
      _ = 10 ^ (1 + 200 : Int) := by rw [zpow_add₀ (by norm_num), zpow_one]
      _ ≤ 10 ^ (300 : Int) := zpow_le_zpow_right₀ (by norm_num) (by omega)

variable {α : Precision → Type} [Decadic α] {m n : Nat} {x y : α .double} {u v : ℚ}

namespace Approximates

theorem of_denotes (hx : Denotes x v) : Approximates 0 x v := ⟨v, hx, .refl v⟩

theorem mono (hx : Approximates m x v) (hmn : m ≤ n) (hv : 0 < v) : Approximates n x v := by
  obtain ⟨u, hu, hclose⟩ := hx
  exact ⟨u, hu, hclose.mono (hclose.pos hv).le hv.le hmn⟩

theorem mul (h : Faithful α) (hx : Approximates m x u) (hy : Approximates n y v) (hu : 0 < u)
    (hv : 0 < v) (hmn : m + n ≤ 10) (huv : Moderate (u * v)) :
    Approximates (1 + (m + n)) (Arithmetic.mul x y) (u * v) := by
  obtain ⟨u', hx', hu'⟩ := hx
  obtain ⟨v', hy', hv'⟩ := hy
  have hclose := IsClose.mul (hu'.pos hu).le hu.le (hv'.pos hv).le hv.le hu' hv'
  obtain ⟨hlow, hhigh⟩ := hclose.range hmn huv
  obtain ⟨w, hw, hwuv⟩ := h.mul hx' hy' (hu'.pos hu) (hv'.pos hv) hlow hhigh
  exact ⟨w, hw, hwuv.trans hclose⟩

theorem div (h : Faithful α) (hx : Approximates m x u) (hy : Approximates n y v) (hu : 0 < u)
    (hv : 0 < v) (hmn : m + n ≤ 10) (huv : Moderate (u / v)) :
    Approximates (1 + (m + n)) (Arithmetic.div x y) (u / v) := by
  obtain ⟨u', hx', hu'⟩ := hx
  obtain ⟨v', hy', hv'⟩ := hy
  have hpos := hv'.pos hv
  have hclose := IsClose.mul (hu'.pos hu).le hu.le (inv_nonneg.2 hpos.le) (inv_nonneg.2 hv.le) hu'
    (hv'.inv hpos hv)
  rw [← div_eq_mul_inv, ← div_eq_mul_inv] at hclose
  obtain ⟨hlow, hhigh⟩ := hclose.range hmn huv
  obtain ⟨w, hw, hwuv⟩ := h.div hx' hy' (hu'.pos hu) hpos hlow hhigh
  exact ⟨w, hw, hwuv.trans hclose⟩

end Approximates

namespace Engineering

variable (h : Faithful α)

include h in
theorem lt_iff_of_denotes (hx : Denotes x u) (hy : Denotes y v) :
    Arithmetic.lt x y = true ↔ u < v :=
  Arithmetic.lt_iff_of_compare? (h.compare? hx hy)

include h in
theorem atLeast_iff_of_denotes (hx : Denotes x u) (hy : Denotes y v) :
    atLeast x y = true ↔ v ≤ u :=
  atLeast_iff_of_compare? (h.compare? hx hy)

theorem moderate_zpow_mul {w : ℚ} (hlow : 10 ^ (-2 : Int) ≤ w) (hhigh : w ≤ 10 ^ (20 : Int))
    {k : Int} (hk : |k| ≤ 180) : Moderate (w * 10 ^ k) := by
  obtain ⟨h₁, h₂⟩ := abs_le.1 hk
  constructor
  · calc (10 : ℚ) ^ (-200 : Int) ≤ 10 ^ (-2 + k) := zpow_le_zpow_right₀ (by norm_num) (by omega)
      _ = 10 ^ (-2 : Int) * 10 ^ k := zpow_add₀ (by norm_num) _ _
      _ ≤ w * 10 ^ k := by gcongr
  · calc w * 10 ^ k ≤ 10 ^ (20 : Int) * 10 ^ k := by gcongr
      _ = 10 ^ (20 + k) := (zpow_add₀ (by norm_num) _ _).symm
      _ ≤ 10 ^ (200 : Int) := zpow_le_zpow_right₀ (by norm_num) (by omega)

theorem halves_le {k : Int} (hk : |k| ≤ 350) : |k.tdiv 2| ≤ 180 ∧ |k - k.tdiv 2| ≤ 180 := by
  have hhalf : k.tdiv 2 = k / 2 ∨ k.tdiv 2 = k / 2 + 1 := by
    rw [Int.tdiv_eq_ediv]
    split
    · exact .inl (add_zero _)
    · exact .inr rfl
  rw [abs_le] at hk
  rw [abs_le, abs_le]
  omega

include h in
theorem shift_approximates (hx : Denotes x v) (hv : 0 < v) {k : Int} (hk : |k| ≤ 350)
    (hlow : 10 ^ (-2 : Int) ≤ v * 10 ^ k) (hhigh : v * 10 ^ k ≤ 10 ^ (20 : Int)) :
    Approximates 4 (shift x k) (v * 10 ^ k) := by
  have hmoderate {j : Int} (hj : |j| ≤ 180) : Moderate (v * 10 ^ (k + j)) := by
    rw [zpow_add₀ (by norm_num), ← mul_assoc]
    exact moderate_zpow_mul hlow hhigh hj
  have hten (j : Int) : (0 : ℚ) < 10 ^ j := by positivity
  unfold shift shiftSteps
  split
  next hlong =>
    have hrange := halves_le hk
    generalize k.tdiv 2 = j at hrange ⊢
    have hsum : k + -(k - j) = j := by omega
    have hback : |-(k - j)| ≤ 180 := (abs_neg _).trans_le hrange.2
    have hmiddle : Moderate (v * 10 ^ j) := by simpa only [hsum] using hmoderate hback
    have hfirst := Approximates.mul h (.of_denotes hx) (h.tenTo (n := j) (by omega)) hv (hten j)
      (by decide) hmiddle
    have hboth : v * 10 ^ j * 10 ^ (k - j) = v * 10 ^ k := by
      rw [mul_assoc, ← zpow_add₀ (by norm_num), add_sub_cancel]
    have hsecond := Approximates.mul h hfirst (h.tenTo (n := k - j) (by omega))
      (mul_pos hv (hten j)) (hten _) (by decide)
      (by rw [hboth]; simpa using hmoderate (j := 0) (by decide))
    rw [hboth] at hsecond
    exact hsecond
  next hshort =>
    have hone := Approximates.mul h (.of_denotes hx) (h.tenTo (n := k) (by rw [abs_le]; omega)) hv
      (hten k) (by decide) (by simpa using hmoderate (j := 0) (by decide))
    exact hone.mono (by decide) (mul_pos hv (hten k))

/-! ## The leading digit -/

def InRange (v : ℚ) : Prop := -324 ≤ exponent v ∧ exponent v ≤ 308

/-- The power of ten to which the leading digit of `v` belongs, but for a twentieth. -/
def IsLeading (k : Int) (v : ℚ) : Prop := 0.95 ≤ v / 10 ^ k ∧ v / 10 ^ k ≤ 10.5

theorem shifted_eq (v : ℚ) (n k : Int) : v * 10 ^ (n - k) = v / 10 ^ k * 10 ^ n := by
  rw [zpow_sub₀ (by norm_num)]
  ring

theorem unit_range (hn : 1 ≤ n ∧ n ≤ 17) :
    (1 : ℚ) ≤ 10 ^ (n - 1 : Int) ∧ (10 : ℚ) ^ (n - 1 : Int) ≤ 10 ^ (16 : Int) :=
  ⟨one_le_zpow₀ (by norm_num) (by omega), zpow_le_zpow_right₀ (by norm_num) (by omega)⟩

include h in
theorem tenTo_approximates (hn : 1 ≤ n ∧ n ≤ 17) :
    Approximates (α := α) 1 (tenTo (n - 1)) (10 ^ (n - 1 : Int)) :=
  h.tenTo (by rw [abs_le]; omega)

include h in
theorem tenTo_mul_ten_approximates (hn : 1 ≤ n ∧ n ≤ 17) :
    Approximates (α := α) 2 (Arithmetic.mul (tenTo (n - 1)) (Arithmetic.ofRat 10))
      (10 ^ (n - 1 : Int) * 10) := by
  obtain ⟨hone, hmost⟩ := unit_range hn
  have hmoderate : Moderate (10 ^ (n - 1 : Int) * 10) := by
    generalize (10 : ℚ) ^ (n - 1 : Int) = unit at hone hmost
    constructor
    · norm_num
      linarith
    · norm_num at hmost ⊢
      linarith
  -- Stated by itself, since the goal has the roundings as a numeral and not as a sum.
  have hproduct := Approximates.mul h (tenTo_approximates h hn) (.of_denotes (h.ofRat 10 (by simp)))
    (by linarith) (by norm_num) (by decide) hmoderate
  exact hproduct

theorem quotient_range (hv : 0 < v) {k : Int} (hk : |k - exponent v| ≤ 1) :
    0.1 ≤ v / 10 ^ k ∧ v / 10 ^ k ≤ 100 := by
  have hten : (0 : ℚ) < 10 ^ k := by positivity
  obtain ⟨hleast, hgreatest⟩ := abs_le.1 hk
  constructor
  · rw [le_div_iff₀ hten]
    calc (0.1 : ℚ) * 10 ^ k = 10 ^ (k - 1) := by rw [zpow_sub_one₀ (by norm_num)]; ring
      _ ≤ v := (zpow_le_iff hv).2 (by omega)
  · rw [div_le_iff₀ hten]
    calc v ≤ 10 ^ (k + 2) := ((lt_zpow_iff hv).2 (by omega)).le
      _ = 100 * 10 ^ k := by rw [zpow_add₀ (by norm_num)]; norm_num [mul_comm]

include h in
theorem scaled_approximates (hx : Denotes x v) (hv : 0 < v) (hrange : InRange v) {k : Int}
    (hk : |k - exponent v| ≤ 1) (hn : 1 ≤ n ∧ n ≤ 17) :
    Approximates 4 (shift x (n - 1 - k)) (v / 10 ^ k * 10 ^ (n - 1 : Int)) := by
  obtain ⟨hleast, hgreatest⟩ := hrange
  obtain ⟨hone, hmost⟩ := unit_range hn
  obtain ⟨hlow, hhigh⟩ := quotient_range hv hk
  have hshift : |(n : Int) - 1 - k| ≤ 350 := by
    rw [abs_le] at hk ⊢
    omega
  have hscaled := shift_approximates h hx hv hshift
  rw [shifted_eq] at hscaled
  generalize v / 10 ^ k = t at *
  generalize (10 : ℚ) ^ (n - 1 : Int) = unit at *
  refine hscaled ?_ ?_
  · calc (10 : ℚ) ^ (-2 : Int) ≤ 0.1 * 1 := by norm_num
      _ ≤ t * unit := by gcongr
  · calc t * unit ≤ 100 * 10 ^ (16 : Int) := by gcongr
      _ ≤ 10 ^ (20 : Int) := by norm_num

theorem isLeading_of_short {k : Int} (hlow : 0.1 ≤ v / 10 ^ k) (hshort : 0.99 * (v / 10 ^ k) ≤ 1) :
    IsLeading (k - 1) v := by
  have hbelow : v / 10 ^ (k - 1) = v / 10 ^ k * 10 := by
    rw [zpow_sub_one₀ (by norm_num)]
    field_simp
  rw [IsLeading, hbelow]
  constructor <;> linarith

theorem isLeading_of_far {k : Int} (hhigh : v / 10 ^ k ≤ 100) (hfar : 0.99 * 10 ≤ v / 10 ^ k) :
    IsLeading (k + 1) v := by
  rw [IsLeading, zpow_add_one₀ (by norm_num), ← div_div]
  constructor <;> linarith

theorem isLeading_of_near {k : Int} (hlong : 0.99 * 1 ≤ v / 10 ^ k)
    (hnear : 0.99 * (v / 10 ^ k) ≤ 10) : IsLeading k v := by
  constructor <;> linarith

include h in
theorem isLeading_leadingExponent (hx : Denotes x v) (hv : 0 < v) (hrange : InRange v)
    {estimate : Int} (he : |estimate - exponent v| ≤ 1) (hn : 1 ≤ n ∧ n ≤ 17) :
    IsLeading (leadingExponent estimate x n) v := by
  obtain ⟨hlow, hhigh⟩ := quotient_range hv he
  obtain ⟨s, hs, hsclose⟩ := scaled_approximates h hx hv hrange he hn
  obtain ⟨p, hp, hpclose⟩ := tenTo_approximates h hn
  obtain ⟨q, hq, hqclose⟩ := tenTo_mul_ten_approximates h hn
  rw [← one_mul (10 ^ _)] at hpclose
  rw [mul_comm] at hqclose
  have hunit : (0 : ℚ) < 10 ^ (n - 1 : Int) := by positivity
  have hpos : 0 ≤ v / 10 ^ estimate := by positivity
  have hlt := lt_iff_of_denotes h hs hp
  have hle := atLeast_iff_of_denotes h hs hq
  unfold leadingExponent
  dsimp only
  split
  next hshort =>
    have hless := hsclose.multiple_le hpclose hpos hunit (hlt.1 hshort).le (by decide)
    exact isLeading_of_short hlow hless
  next hlong =>
    rw [hlt, not_lt] at hlong
    split
    next hfar =>
      have hmore := hqclose.multiple_le hsclose (by norm_num) hunit (hle.1 hfar) (by decide)
      exact isLeading_of_far hhigh hmore
    next hnear =>
      rw [hle, not_le] at hnear
      have hmore := hpclose.multiple_le hsclose zero_le_one hunit hlong (by decide)
      have hless := hsclose.multiple_le hqclose hpos hunit hnear.le (by decide)
      exact isLeading_of_near hmore hless

include h in
theorem roundHalfUp_denotes (hx : Denotes x v) (hlow : 0.9 ≤ v) (hhigh : v ≤ 10 ^ (20 : Int)) :
    ∃ w, Denotes (roundHalfUp x) w ∧ 0.4 * v ≤ w ∧ w ≤ 2.2 * v := by
  have hle := Int.floor_le v
  have hlt := Int.lt_floor_add_one v
  have hfloor := h.floor hx
  have hlarge : (10 : ℚ) ^ (20 : Int) + 1 ≤ 10 ^ (300 : Int) :=
    calc (10 : ℚ) ^ (20 : Int) + 1 ≤ 10 ^ (21 : Int) := by norm_num
      _ ≤ 10 ^ (300 : Int) := zpow_le_zpow_right₀ (by norm_num) (by omega)
  have hrange {w : ℚ} (hw : w ≤ v + 1) : w ≤ 10 ^ (300 : Int) :=
    hw.trans ((add_le_add_left hhigh 1).trans hlarge)
  have hwhole : (0 : ℚ) ≤ ⌊v⌋ := Int.cast_nonneg (Int.floor_nonneg.2 (by linarith))
  obtain ⟨f, hf, hfclose⟩ := h.sub hx hfloor hwhole hle (hrange (by linarith))
  have hhalf := atLeast_iff_of_denotes h hf (h.ofRat (1 / 2) (by simp))
  unfold roundHalfUp
  dsimp only
  split
  · obtain ⟨w, hw, hwclose⟩ := h.add hfloor (h.ofRat 1 (by simp)) hwhole
      zero_le_one (hrange (by linarith))
    obtain ⟨h₁, h₂⟩ := hwclose.hundredth (hwclose.pos (by linarith)).le (by linarith) (by decide)
    exact ⟨w, hw, by linarith, by linarith⟩
  next hbelow =>
    rw [hhalf, not_le] at hbelow
    have := hfclose.1
    exact ⟨⌊v⌋, hfloor, by linarith, by linarith⟩

/-! ## The mantissa -/

theorem IsLeading.exponent_mem {k : Int} (hk : IsLeading k v) (hv : 0 < v) :
    k - 1 ≤ exponent v ∧ exponent v ≤ k + 1 := by
  have hten : (0 : ℚ) < 10 ^ k := by positivity
  have hlow := (le_div_iff₀ hten).1 hk.1
  have hhigh := (div_le_iff₀ hten).1 hk.2
  have h₁ : k - 1 ≤ exponent v := by
    rw [← zpow_le_iff hv, zpow_sub_one₀ (by norm_num)]
    linarith
  have h₂ : exponent v < k + 2 := by
    rw [← lt_zpow_iff hv, zpow_add₀ (by norm_num)]
    norm_num
    linarith
  omega

include h in
theorem rounded_denotes (hx : Denotes x v) (hv : 0 < v)
    (hrange : InRange v) {leading : Int} (hlead : IsLeading leading v)
    (hn : 1 ≤ n ∧ n ≤ 17) :
    ∃ w, Denotes (roundHalfUp (shift x (n - 1 - leading))) w ∧
      0.3 * 10 ^ (n - 1 : Int) ≤ w ∧ w ≤ 24 * 10 ^ (n - 1 : Int) := by
  obtain ⟨hone, hmost⟩ := unit_range hn
  have hexponent := hlead.exponent_mem hv
  have hscaled := scaled_approximates h hx hv hrange (k := leading) (by rw [abs_le]; omega) hn
  obtain ⟨hlow, hhigh⟩ := hlead
  generalize v / 10 ^ leading = t at *
  generalize (10 : ℚ) ^ (n - 1 : Int) = unit at *
  have hlow' : 0.95 * unit ≤ t * unit := by gcongr
  have hhigh' : t * unit ≤ 10.5 * unit := by gcongr
  obtain ⟨s, hs, hclose⟩ := hscaled
  obtain ⟨h₁, h₂⟩ := hclose.hundredth (hclose.pos (by linarith)).le (by linarith) (by decide)
  obtain ⟨w, hw, h₃, h₄⟩ := roundHalfUp_denotes h hs (by linarith)
    (by norm_num at hmost ⊢; linarith)
  exact ⟨w, hw, by linarith, by linarith⟩

include h in
theorem carried_denotes (hy : Denotes y v) (hn : 1 ≤ n ∧ n ≤ 17)
    (hlow : 0.3 * 10 ^ (n - 1 : Int) ≤ v) (hhigh : v ≤ 24 * 10 ^ (n - 1 : Int)) :
    ∃ w, Denotes (if atLeast y (Arithmetic.mul (tenTo (n - 1)) (Arithmetic.ofRat 10)) = true
        then Arithmetic.div y (Arithmetic.ofRat 10) else y) w ∧
      0.3 * 10 ^ (n - 1 : Int) ≤ w ∧ w ≤ 10.5 * 10 ^ (n - 1 : Int) := by
  obtain ⟨hone, hmost⟩ := unit_range hn
  obtain ⟨q, hq, hqclose⟩ := tenTo_mul_ten_approximates h hn
  have hcarry := atLeast_iff_of_denotes h hy hq
  have hten := h.ofRat 10 (by simp)
  generalize (10 : ℚ) ^ (n - 1 : Int) = unit at *
  obtain ⟨h₁, h₂⟩ := hqclose.hundredth (hqclose.pos (by linarith)).le (by linarith) (by decide)
  split
  next hle =>
    rw [hcarry] at hle
    obtain ⟨w, hw, hclose⟩ := Approximates.div h (.of_denotes hy) (.of_denotes hten) (by linarith)
      (by norm_num) (by decide) (v := 10) ⟨by norm_num; linarith, by norm_num at hmost ⊢; linarith⟩
    obtain ⟨h₃, h₄⟩ := hclose.hundredth (hclose.pos (by linarith)).le (by linarith) (by decide)
    exact ⟨w, hw, by linarith, by linarith⟩
  next hlt =>
    rw [hcarry, not_le] at hlt
    exact ⟨v, hy, hlow, by linarith⟩

include h in
theorem placed_denotes (hy : Denotes y v) (hn : 1 ≤ n ∧ n ≤ 17)
    (hlow : 0.3 * 10 ^ (n - 1 : Int) ≤ v) (hhigh : v ≤ 10.5 * 10 ^ (n - 1 : Int)) {j : Int}
    (hj : 0 ≤ j ∧ j ≤ 2) :
    ∃ w, Denotes (if (0 : Int) ≤ n - 1 - j then Arithmetic.div y (tenTo (n - 1 - j))
        else Arithmetic.mul y (tenTo (-(n - 1 - j)))) w ∧
      10 ^ (-1 : Int) ≤ w ∧ w < 10 ^ (4 : Int) := by
  have hten (k : Int) : (0 : ℚ) < 10 ^ k := by positivity
  have hplace : v / 10 ^ (n - 1 - j : Int) = v / 10 ^ (n - 1 : Int) * 10 ^ j := by
    rw [zpow_sub₀ (by norm_num)]
    field_simp
  have hdigit : (1 : ℚ) ≤ 10 ^ j ∧ (10 : ℚ) ^ j ≤ 10 ^ (2 : Int) :=
    ⟨one_le_zpow₀ (by norm_num) hj.1, zpow_le_zpow_right₀ (by norm_num) hj.2⟩
  have hunit := hten (n - 1)
  have hleast : 0.3 ≤ v / 10 ^ (n - 1 : Int) := (le_div_iff₀ hunit).2 hlow
  have hgreatest : v / 10 ^ (n - 1 : Int) ≤ 10.5 := (div_le_iff₀ hunit).2 hhigh
  have hpos : 0 < v := lt_of_lt_of_le (by positivity) hlow
  have hmantissa : 0.3 ≤ v / 10 ^ (n - 1 - j : Int) ∧ v / 10 ^ (n - 1 - j : Int) ≤ 1050 := by
    rw [hplace]
    constructor
    · nlinarith
    · norm_num at hdigit
      nlinarith
  have happrox : Approximates 2 (if (0 : Int) ≤ n - 1 - j then Arithmetic.div y (tenTo (n - 1 - j))
      else Arithmetic.mul y (tenTo (-(n - 1 - j)))) (v / 10 ^ (n - 1 - j : Int)) := by
    have hmoderate : Moderate (v / 10 ^ (n - 1 - j : Int)) :=
      ⟨le_trans (by norm_num) hmantissa.1, hmantissa.2.trans (by norm_num)⟩
    split
    · have hquotient := Approximates.div h (.of_denotes hy)
        (h.tenTo (n := n - 1 - j) (by rw [abs_le]; omega)) hpos (hten _) (by decide) hmoderate
      exact hquotient
    · rw [div_eq_mul_inv, ← zpow_neg] at hmoderate ⊢
      have hproduct := Approximates.mul h (.of_denotes hy)
        (h.tenTo (n := -(n - 1 - j)) (by rw [abs_le]; omega)) hpos (hten _) (by decide) hmoderate
      exact hproduct
  obtain ⟨w, hw, hclose⟩ := happrox
  obtain ⟨h₁, h₂⟩ := hclose.hundredth (hclose.pos (by linarith)).le (by linarith) (by decide)
  exact ⟨w, hw, by norm_num; linarith, by norm_num; linarith⟩

theorem clampDigits_range (digits : Nat) : 1 ≤ clampDigits digits ∧ clampDigits digits ≤ 17 :=
  ⟨clampDigits_pos digits, Nat.max_le.2 ⟨by decide, Nat.min_le_left _ _⟩⟩

include h in
theorem split_denotes (hx : Denotes x v) (hv : 0 < v)
    (hrange : InRange v) {estimate : Int}
    (he : |estimate - exponent v| ≤ 1) (digits : Nat) :
    ∃ w, Denotes (split estimate x digits).1 w ∧ 10 ^ (-1 : Int) ≤ w ∧ w < 10 ^ (4 : Int) := by
  have hn := clampDigits_range digits
  have hlead := isLeading_leadingExponent h hx hv hrange he hn
  obtain ⟨r, hr, hrlow, hrhigh⟩ := rounded_denotes h hx hv hrange hlead hn
  obtain ⟨c, hc, hclow, hchigh⟩ := carried_denotes h hr hn hrlow hrhigh
  exact placed_denotes h hc hn hclow hchigh (by omega)

include h in
theorem isPositional_split (hx : Denotes x v) (hv : 0 < v)
    (hrange : InRange v) {estimate : Int}
    (he : |estimate - exponent v| ≤ 1) (digits : Nat) :
    isPositional (Decadic.floorLog10 (split estimate x digits).1) = true := by
  obtain ⟨w, hw, hlow, hhigh⟩ := split_denotes h hx hv hrange he digits
  have hpos : 0 < w := lt_of_lt_of_le (by positivity) hlow
  have := (zpow_le_iff hpos).1 hlow
  have := (lt_zpow_iff hpos).1 hhigh
  have := abs_le.1 (h.floorLog10 hw hpos)
  simp [isPositional]
  omega

end Engineering

end Metrology
