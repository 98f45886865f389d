import Metrology.Proofs.Scaling
import Metrology.Proofs.Decimal.Digits
import Mathlib.Algebra.Order.Round
import Mathlib.Data.Int.Log
import Mathlib.Data.Rat.Floor
import Mathlib.Tactic.Linarith
import Mathlib.Tactic.Positivity
import Mathlib.Tactic.Ring

/-!
# Significant digits

The exponent of a number is that of its leading decimal digit.  A number is rounded to `n`
significant digits by counting it in units of the last of them; half a unit is rounded away from
zero.  Rounding keeps the exponent, unless the digits carry over to the next power of ten, and the
order of two numbers, and what has been rounded once is not changed by rounding again.
-/

namespace Metrology.Decimal

def exponent (x : ℚ) : Int := Int.log 10 |x|

@[simp] theorem exponent_abs (x : ℚ) : exponent |x| = exponent x := by
  simp [exponent]

variable {x : ℚ} {k : Int}

theorem zpow_le_iff (hx : 0 < x) : (10 : ℚ) ^ k ≤ x ↔ k ≤ exponent x := by
  rw [exponent, abs_of_pos hx]
  exact_mod_cast Int.zpow_le_iff_le_log (b := 10) (by decide) hx

theorem lt_zpow_iff (hx : 0 < x) : x < (10 : ℚ) ^ k ↔ exponent x < k := by
  rw [exponent, abs_of_pos hx]
  exact_mod_cast Int.lt_zpow_iff_log_lt (b := 10) (by decide) hx

theorem zpow_exponent_le (hx : 0 < x) : (10 : ℚ) ^ exponent x ≤ x :=
  (zpow_le_iff hx).2 le_rfl

theorem lt_zpow_exponent (hx : 0 < x) : x < (10 : ℚ) ^ (exponent x + 1) :=
  (lt_zpow_iff hx).2 (Int.lt_succ _)

theorem exponent_eq (hle : (10 : ℚ) ^ k ≤ x) (hlt : x < (10 : ℚ) ^ (k + 1)) : exponent x = k := by
  have hx : 0 < x := lt_of_lt_of_le (by positivity) hle
  have h₁ := (zpow_le_iff hx).1 hle
  have h₂ := (lt_zpow_iff hx).1 hlt
  omega

@[simp] theorem exponent_zpow (k : Int) : exponent (10 ^ k) = k :=
  exponent_eq le_rfl (zpow_lt_zpow_right₀ (by norm_num) (Int.lt_succ k))

theorem exponent_mul_zpow (hx : 0 < x) (k : Int) : exponent (x * 10 ^ k) = exponent x + k := by
  apply exponent_eq
  · rw [zpow_add₀ (by norm_num)]
    have := zpow_exponent_le hx
    gcongr
  · rw [add_right_comm, zpow_add₀ (by norm_num)]
    have := lt_zpow_exponent hx
    gcongr

theorem pow_digitCount_le {n : Nat} (hn : 0 < n) : (10 : ℚ) ^ ((digitCount n : Int) - 1) ≤ n := by
  obtain ⟨k, hk⟩ : ∃ k, digitCount n = k + 1 :=
    Nat.exists_eq_add_one.2 (List.length_pos_iff.2 Nat.toDigits_ne_nil)
  rw [hk, Nat.cast_add_one, add_sub_cancel_right, zpow_natCast]
  rcases Nat.eq_zero_or_pos k with rfl | hpos
  · rw [pow_zero]
    exact_mod_cast hn
  · have hlt : ¬ n < 10 ^ k := by
      intro h
      have := (Nat.length_toDigits_le_iff (by decide) hpos).2 h
      change (Nat.toDigits 10 n).length = k + 1 at hk
      omega
    exact_mod_cast not_lt.1 hlt

theorem lt_pow_digitCount (n : Nat) : (n : ℚ) < 10 ^ (digitCount n : Int) := by
  have hpos : 0 < digitCount n := List.length_pos_iff.2 Nat.toDigits_ne_nil
  have h : n < 10 ^ digitCount n := (Nat.length_toDigits_le_iff (by decide) hpos).1 le_rfl
  exact_mod_cast h

theorem floorLog10_eq_exponent {num den : Nat} (hn : 0 < num) (hd : 0 < den) :
    floorLog10 num den = exponent (num / den) := by
  have hnum := pow_digitCount_le hn
  have hnum' := lt_pow_digitCount num
  have hden := pow_digitCount_le hd
  have hden' := lt_pow_digitCount den
  have hden₀ : (0 : ℚ) < den := by exact_mod_cast hd
  have hle_iff : (scaledByTen den ((digitCount num : Int) - digitCount den)).1 ≤
      num * (scaledByTen den ((digitCount num : Int) - digitCount den)).2 ↔
      (den : ℚ) * 10 ^ ((digitCount num : Int) - digitCount den) ≤ num := by
    rw [scaledByTen_eq_scaledBy]
    exact_mod_cast scaledBy_le_iff (b := 10) (by decide)
  unfold floorLog10
  dsimp only
  generalize (digitCount num : Int) = a at *
  generalize (digitCount den : Int) = b at *
  symm
  -- The digit counts leave two exponents to choose from; the comparison picks one.
  split
  · rename_i h
    apply exponent_eq
    · rw [le_div_iff₀ hden₀, mul_comm]
      exact hle_iff.1 h
    · rw [div_lt_iff₀ hden₀]
      calc (num : ℚ) < 10 ^ a := hnum'
        _ = 10 ^ (a - b + 1) * 10 ^ (b - 1) := by rw [← zpow_add₀ (by norm_num)]; congr 1; omega
        _ ≤ 10 ^ (a - b + 1) * den := by gcongr
  · rename_i h
    have hlt := not_le.1 fun hle => h (hle_iff.2 hle)
    apply exponent_eq
    · rw [le_div_iff₀ hden₀]
      calc (10 : ℚ) ^ (a - b - 1) * den ≤ 10 ^ (a - b - 1) * 10 ^ b := by gcongr
        _ = 10 ^ (a - 1) := by rw [← zpow_add₀ (by norm_num)]; congr 1; omega
        _ ≤ num := hnum
    · rw [div_lt_iff₀ hden₀, sub_add_cancel, mul_comm]
      exact hlt

/-- The unit of the last of `n` significant digits. -/
def lastPlace (n : Nat) (x : ℚ) : ℚ := 10 ^ (exponent x - n + 1)

/-- How many units of the last place, to the nearest. -/
def coefficient (n : Nat) (x : ℚ) : Int := round (|x| / lastPlace n x)

def roundSignificant (n : Nat) (x : ℚ) : ℚ :=
  if x < 0 then -(coefficient n x * lastPlace n x) else coefficient n x * lastPlace n x

variable {n : Nat}

theorem lastPlace_pos (n : Nat) (x : ℚ) : 0 < lastPlace n x := by
  unfold lastPlace
  positivity

@[simp] theorem lastPlace_abs (n : Nat) (x : ℚ) : lastPlace n |x| = lastPlace n x := by
  simp [lastPlace]

@[simp] theorem coefficient_abs (n : Nat) (x : ℚ) : coefficient n |x| = coefficient n x := by
  simp [coefficient]

theorem roundSignificant_of_pos (hx : 0 < x) :
    roundSignificant n x = coefficient n x * lastPlace n x :=
  if_neg hx.le.not_gt

theorem roundSignificant_abs (hx : x ≠ 0) :
    roundSignificant n |x| = coefficient n x * lastPlace n x := by
  rw [roundSignificant_of_pos (abs_pos.2 hx), coefficient_abs, lastPlace_abs]

theorem roundSignificant_eq_ite (hx : x ≠ 0) :
    roundSignificant n x = if x < 0 then -roundSignificant n |x| else roundSignificant n |x| := by
  rw [roundSignificant_abs hx, roundSignificant]

theorem pow_mul_lastPlace (m n : Nat) (x : ℚ) :
    ((10 ^ m : Int) : ℚ) * lastPlace n x = 10 ^ (exponent x - n + 1 + m) := by
  rw [lastPlace, Int.cast_pow, Int.cast_ofNat, ← zpow_natCast, ← zpow_add₀ (by norm_num), add_comm]

theorem zpow_exponent_eq (n : Nat) (x : ℚ) :
    (10 : ℚ) ^ exponent x = ((10 ^ n : Int) : ℚ) * lastPlace (n + 1) x := by
  rw [pow_mul_lastPlace, Nat.cast_add_one]
  congr 1
  omega

theorem zpow_exponent_add_one_eq (n : Nat) (x : ℚ) :
    (10 : ℚ) ^ (exponent x + 1) = ((10 ^ n : Int) : ℚ) * lastPlace n x := by
  rw [pow_mul_lastPlace]
  congr 1
  omega

theorem pow_le_coefficient (hx : 0 < x) : 10 ^ n ≤ coefficient (n + 1) x := by
  have hle := zpow_exponent_le hx
  rw [zpow_exponent_eq n, ← le_div_iff₀ (lastPlace_pos (n + 1) x)] at hle
  rw [coefficient, abs_of_pos hx, round_eq, Int.le_floor]
  linarith

theorem coefficient_le_pow (hx : 0 < x) : coefficient n x ≤ 10 ^ n := by
  have hlt := lt_zpow_exponent hx
  rw [zpow_exponent_add_one_eq n, ← div_lt_iff₀ (lastPlace_pos n x)] at hlt
  rw [coefficient, abs_of_pos hx, round_eq, ← Int.lt_add_one_iff, Int.floor_lt]
  push_cast at hlt ⊢
  linarith

theorem coefficient_eq_pow_iff (hx : 0 < x) :
    coefficient n x = 10 ^ n ↔ 10 ^ (exponent x + 1) * (1 - 1 / (2 * 10 ^ n)) ≤ x := by
  have hplace := lastPlace_pos n x
  have hbound : 10 ^ (exponent x + 1) * (1 - 1 / (2 * 10 ^ n)) =
      (((10 ^ n : Int) : ℚ) - 1 / 2) * lastPlace n x := by
    rw [zpow_exponent_add_one_eq n]
    push_cast
    field_simp
  rw [(coefficient_le_pow hx).ge_iff_eq.symm, coefficient, abs_of_pos hx, round_eq, Int.le_floor,
    hbound, ← le_div_iff₀ hplace, sub_le_iff_le_add]

theorem coefficient_pos (hx : 0 < x) (hn : 0 < n) : 0 < coefficient n x := by
  obtain ⟨m, rfl⟩ := Nat.exists_eq_add_one.2 hn
  exact lt_of_lt_of_le (by positivity) (pow_le_coefficient hx)

theorem roundSignificant_pos (hx : 0 < x) (hn : 0 < n) : 0 < roundSignificant n x := by
  rw [roundSignificant_of_pos hx]
  exact mul_pos (by exact_mod_cast coefficient_pos hx hn) (lastPlace_pos n x)

theorem abs_roundSignificant (hx : x ≠ 0) (hn : 0 < n) :
    |roundSignificant n x| = roundSignificant n |x| := by
  have hpos := roundSignificant_pos (abs_pos.2 hx) hn
  rw [roundSignificant_abs hx] at hpos ⊢
  unfold roundSignificant
  split
  · rw [abs_neg, abs_of_pos hpos]
  · exact abs_of_pos hpos

theorem roundSignificant_neg_iff (hx : x ≠ 0) (hn : 0 < n) : roundSignificant n x < 0 ↔ x < 0 := by
  have hpos := roundSignificant_pos (abs_pos.2 hx) hn
  rw [roundSignificant_abs hx] at hpos
  unfold roundSignificant
  split
  · simp [*]
  · simpa [*] using hpos.le

theorem abs_roundSignificant_sub_le (n : Nat) (x : ℚ) :
    |roundSignificant n x - x| ≤ lastPlace n x / 2 := by
  have hplace := lastPlace_pos n x
  have hround := abs_sub_round (|x| / lastPlace n x)
  have habs : |coefficient n x * lastPlace n x - (|x|)| ≤ lastPlace n x / 2 := by
    have heq : (coefficient n x : ℚ) * lastPlace n x - |x| =
        -((|x| / lastPlace n x - round (|x| / lastPlace n x)) * lastPlace n x) := by
      rw [sub_mul, div_mul_cancel₀ _ hplace.ne', coefficient]
      ring
    rw [heq, abs_neg, abs_mul, abs_of_pos hplace]
    calc _ ≤ 1 / 2 * lastPlace n x := by gcongr
      _ = lastPlace n x / 2 := by ring
  unfold roundSignificant
  split
  · rename_i hx
    rw [abs_of_neg hx, sub_neg_eq_add] at habs
    rwa [← abs_neg, neg_sub, sub_neg_eq_add, add_comm]
  · rename_i hx
    rwa [abs_of_nonneg (not_lt.1 hx)] at habs

theorem exponent_roundSignificant (hx : 0 < x) (hn : 0 < n) :
    coefficient n x < 10 ^ n ∧ exponent (roundSignificant n x) = exponent x ∨
      coefficient n x = 10 ^ n ∧ roundSignificant n x = 10 ^ (exponent x + 1) := by
  rw [roundSignificant_of_pos hx]
  rcases (coefficient_le_pow (n := n) hx).lt_or_eq with hlt | heq
  · refine .inl ⟨hlt, exponent_eq ?_ ?_⟩
    · obtain ⟨m, rfl⟩ := Nat.exists_eq_add_one.2 hn
      have hle := pow_le_coefficient (n := m) hx
      have := lastPlace_pos (m + 1) x
      rw [zpow_exponent_eq m]
      gcongr
    · rw [zpow_exponent_add_one_eq n]
      have := lastPlace_pos n x
      gcongr
  · exact .inr ⟨heq, by rw [heq, zpow_exponent_add_one_eq n]⟩

theorem roundSignificant_of_eq_mul (hx : 0 < x) {c : Int} (h : x = c * lastPlace n x) :
    roundSignificant n x = x := by
  have hc : coefficient n x = c := by
    rw [coefficient, abs_of_pos hx]
    nth_rewrite 1 [h]
    rw [mul_div_cancel_right₀ _ (lastPlace_pos n x).ne', round_intCast]
  rw [roundSignificant_of_pos hx, hc, ← h]

theorem roundSignificant_idem (hx : 0 < x) (hn : 0 < n) :
    roundSignificant n (roundSignificant n x) = roundSignificant n x := by
  have hpos := roundSignificant_pos hx hn
  rcases exponent_roundSignificant hx hn with ⟨-, he⟩ | ⟨-, hr⟩
  · apply roundSignificant_of_eq_mul (c := coefficient n x) hpos
    have hplace : lastPlace n (roundSignificant n x) = lastPlace n x := by
      rw [lastPlace, he, lastPlace]
    rw [hplace, roundSignificant_of_pos hx]
  · obtain ⟨m, rfl⟩ := Nat.exists_eq_add_one.2 hn
    apply roundSignificant_of_eq_mul (c := 10 ^ m) hpos
    rw [hr, ← zpow_exponent_eq, exponent_zpow]

variable {y : ℚ}

theorem exponent_le_exponent (hx : 0 < x) (h : x ≤ y) : exponent x ≤ exponent y :=
  (zpow_le_iff (hx.trans_le h)).1 ((zpow_exponent_le hx).trans h)

/-- What keeps to the powers of ten around each number, and keeps the order between them, keeps the
order of all positive numbers. -/
theorem le_of_keeps_decades {f : ℚ → ℚ} (hlow : ∀ {x}, 0 < x → 10 ^ exponent x ≤ f x)
    (hhigh : ∀ {x}, 0 < x → f x ≤ 10 ^ (exponent x + 1))
    (hsame : ∀ {x y}, 0 < x → x ≤ y → exponent x = exponent y → f x ≤ f y)
    (hx : 0 < x) (h : x ≤ y) : f x ≤ f y := by
  rcases (exponent_le_exponent hx h).lt_or_eq with hlt | heq
  · calc f x ≤ 10 ^ (exponent x + 1) := hhigh hx
      _ ≤ 10 ^ exponent y := zpow_le_zpow_right₀ (by norm_num) hlt
      _ ≤ f y := hlow (hx.trans_le h)
  · exact hsame hx h heq

theorem zpow_le_roundSignificant (hx : 0 < x) (hn : 0 < n) :
    10 ^ exponent x ≤ roundSignificant n x := by
  obtain ⟨m, rfl⟩ := Nat.exists_eq_add_one.2 hn
  have hle := pow_le_coefficient (n := m) hx
  have hplace := lastPlace_pos (m + 1) x
  rw [zpow_exponent_eq m, roundSignificant_of_pos hx]
  gcongr

theorem roundSignificant_le_zpow (hx : 0 < x) (n : Nat) :
    roundSignificant n x ≤ 10 ^ (exponent x + 1) := by
  have hle := coefficient_le_pow (n := n) hx
  have hplace := lastPlace_pos n x
  rw [zpow_exponent_add_one_eq n, roundSignificant_of_pos hx]
  gcongr

theorem coefficient_le_coefficient (hx : 0 < x) (h : x ≤ y) (he : exponent x = exponent y) :
    coefficient n x ≤ coefficient n y := by
  have hplace : lastPlace n x = lastPlace n y := by rw [lastPlace, he, lastPlace]
  have hpos := lastPlace_pos n y
  rw [coefficient, coefficient, abs_of_pos hx, abs_of_pos (hx.trans_le h), hplace, round_eq,
    round_eq]
  gcongr

theorem roundSignificant_le_roundSignificant (hn : 0 < n) (hx : 0 < x) (h : x ≤ y) :
    roundSignificant n x ≤ roundSignificant n y := by
  apply le_of_keeps_decades (fun hx => zpow_le_roundSignificant hx hn)
    (fun hx => roundSignificant_le_zpow hx n) _ hx h
  intro x y hx h he
  have hplace : lastPlace n x = lastPlace n y := by rw [lastPlace, he, lastPlace]
  have hle := coefficient_le_coefficient (n := n) hx h he
  have hpos := lastPlace_pos n y
  rw [roundSignificant_of_pos hx, roundSignificant_of_pos (hx.trans_le h), hplace]
  gcongr

end Metrology.Decimal
