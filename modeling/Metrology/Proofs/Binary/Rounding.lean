import Metrology.Proofs.Binary.Unpack
import Mathlib.Tactic.FieldSimp
import Mathlib.Tactic.Positivity

/-!
# Rounding to a word

The nearest word of a fraction is less than a unit in the last place off, unless the fraction is out
of range.  The library of floating-point numbers computes with whole significands, drops the bits
for which a word has no room, and rounds what is left.  A significand that has the leading bit of
its format is left off by one unit in its last place at most.  One from which nothing is dropped is
kept.
-/

namespace Metrology.Binary

open Float.Model (Format UnpackedFloat totalExponent)
open Float.Model.UnpackedFloat

namespace Layout

variable {f : Layout} {m : Nat} {e : Int}

def HasWord (f : Layout) (d : Datum) : Prop := ∃ word < 2 * f.signBit, f.decode word = d

theorem hasWord_of_canonical (negative : Bool) (hm : m < 2 ^ (f.fractionBits + 1))
    (he : f.minExponent ≤ e) (he' : e + 2 < f.minExponent + 2 ^ f.exponentBits)
    (h : 2 ^ f.fractionBits ≤ m ∨ e = f.minExponent) : f.HasWord (.finite negative m e) := by
  rcases Nat.lt_or_ge m (2 ^ f.fractionBits) with hlt | hge
  · obtain rfl := h.resolve_left (by omega)
    have hpow : ((2 ^ f.exponentBits : Nat) : Int) = 2 ^ f.exponentBits := by simp
    have hfields := decode_fields negative hlt (E := 0) (by omega)
    refine ⟨_, sign_add_lt ?_, hfields⟩
    calc 0 * 2 ^ f.fractionBits + m = m := by omega
      _ < 2 ^ f.fractionBits := hlt
      _ ≤ f.signBit := Nat.pow_le_pow_right two_pos (Nat.le_add_right _ _)
  · exact exists_word_of_normal negative hge hm he he'

end Layout

/-! ## The nearest word -/

namespace Layout

variable {f : Layout} {num den : Nat}

theorem decode_magnitude {E r : Nat} (hr : r < 2 ^ f.fractionBits)
    (hE : E + 2 < 2 ^ f.exponentBits) :
    (E + 1) * 2 ^ f.fractionBits + r < f.infinity ∧
      f.decode ((E + 1) * 2 ^ f.fractionBits + r) =
        .finite false (r + 2 ^ f.fractionBits) (f.minExponent + E) := by
  constructor
  · calc (E + 1) * 2 ^ f.fractionBits + r < (E + 1 + 1) * 2 ^ f.fractionBits := by
          rw [Nat.add_one_mul (E + 1)]
          omega
      _ ≤ f.infinity := Nat.mul_le_mul_right _ (by omega)
  · have hfields := decode_fields (f := f) false (E := E + 1) hr (by omega)
    rw [if_neg (Nat.succ_ne_zero E), cond_false, zero_add] at hfields
    rw [hfields]
    congr 1
    push_cast
    omega

theorem decode_carry {E r : Nat} (hlow : 2 ^ f.fractionBits ≤ r)
    (hhigh : r ≤ 2 ^ (f.fractionBits + 1))
    (hE : E + 3 < 2 ^ f.exponentBits) :
    E * 2 ^ f.fractionBits + r < f.infinity ∧ ∃ m e,
      f.decode (E * 2 ^ f.fractionBits + r) = .finite false m e ∧
        (m : ℚ) * 2 ^ e = r * 2 ^ (f.minExponent + E) := by
  obtain ⟨s, rfl⟩ := Nat.exists_eq_add_of_le' hlow
  have hword : E * 2 ^ f.fractionBits + (s + 2 ^ f.fractionBits) =
      (E + 1) * 2 ^ f.fractionBits + s := by
    rw [Nat.add_one_mul]
    omega
  rw [Nat.pow_succ] at hhigh
  rcases (by omega : s ≤ 2 ^ f.fractionBits).lt_or_eq with hlt | rfl
  · obtain ⟨hless, hdecode⟩ := decode_magnitude hlt (E := E) (by omega)
    rw [hword]
    exact ⟨hless, _, _, hdecode, rfl⟩
  · have hcarry : (E + 1) * 2 ^ f.fractionBits + 2 ^ f.fractionBits =
        (E + 1 + 1) * 2 ^ f.fractionBits + 0 := by
      rw [Nat.add_one_mul (E + 1)]
      rfl
    obtain ⟨hless, hdecode⟩ := decode_magnitude (f := f) (Nat.two_pow_pos _) (E := E + 1) (by omega)
    rw [hword, hcarry]
    refine ⟨hless, _, _, hdecode, ?_⟩
    rw [Nat.cast_add E, Nat.cast_one, ← add_assoc, zpow_add_one₀ two_ne_zero]
    push_cast
    ring

def significand (num den : Nat) (e : Int) : Nat :=
  roundHalfEven (num * (scaled den e).2) (scaled den e).1

theorem scaled_quotient (hd : 0 < den) (e : Int) :
    ((num * (scaled den e).2 : Nat) : ℚ) / (scaled den e).1 = num / den / 2 ^ e := by
  have hden : (0 : ℚ) < den := by exact_mod_cast hd
  have hsnd : (0 : ℚ) < (scaled den e).2 := by
    exact_mod_cast scaledBy_snd_pos (m := den) (e := e) two_pos
  rw [scaled_value]
  push_cast
  field_simp

theorem significand_error (num : Nat) (hd : 0 < den) (e : Int) :
    |(significand num den e : ℚ) - num / den / 2 ^ e| ≤ 1 / 2 := by
  rw [← scaled_quotient hd]
  exact abs_roundHalfEven_sub_le _ (scaledBy_fst_pos two_pos hd)

theorem significand_bounds (hn : 0 < num) (hd : 0 < den) {e : Int}
    (he : floorLog2 num den = f.fractionBits + e) :
    2 ^ f.fractionBits ≤ significand num den e ∧
      significand num den e ≤ 2 ^ (f.fractionBits + 1) := by
  have hden : (0 : ℚ) < den := by exact_mod_cast hd
  have hpow : (0 : ℚ) < 2 ^ e := by positivity
  have hpos : 0 < (scaled den e).1 := scaledBy_fst_pos two_pos hd
  have hfst : (0 : ℚ) < (scaled den e).1 := by exact_mod_cast hpos
  obtain ⟨hle, hlt⟩ := floorLog2_spec hn hd
  constructor
  · have hleast : (2 : ℚ) ^ f.fractionBits ≤ num / den / 2 ^ e := by
      rw [le_div_iff₀ hpow, le_div_iff₀ hden, ← zpow_natCast, ← zpow_add₀ two_ne_zero, ← he,
        mul_comm]
      exact hle
    rw [← scaled_quotient hd, le_div_iff₀ hfst] at hleast
    exact le_roundHalfEven hpos (by exact_mod_cast hleast)
  · have hmost : (num : ℚ) / den / 2 ^ e < 2 ^ (f.fractionBits + 1) := by
      rw [div_lt_iff₀ hpow, div_lt_iff₀ hden, ← zpow_natCast, ← zpow_add₀ two_ne_zero, mul_comm,
        Nat.cast_succ, add_right_comm, ← he]
      exact hlt
    rw [← scaled_quotient hd, div_lt_iff₀ hfst] at hmost
    exact roundHalfEven_le hpos (by exact_mod_cast hmost)

/-- Rounded to the nearest word, a fraction is off by less than its own last place. -/
theorem nearest_error (hn : 0 < num) (hd : 0 < den)
    (hlow : f.minExponent + f.fractionBits ≤ floorLog2 num den)
    (hhigh : floorLog2 num den + 3 < f.minExponent + f.fractionBits + 2 ^ f.exponentBits) :
    f.nearest num den < f.infinity ∧ ∃ m e, f.decode (f.nearest num den) = .finite false m e ∧
      |(m : ℚ) * 2 ^ e - num / den| ≤ num / den / 2 ^ f.fractionBits := by
  have hden : (0 : ℚ) < den := by exact_mod_cast hd
  have hcast : ((2 ^ f.exponentBits : Nat) : Int) = 2 ^ f.exponentBits := by simp
  obtain ⟨E, hE⟩ := Int.eq_ofNat_of_zero_le
    (by omega : 0 ≤ floorLog2 num den - f.fractionBits - f.minExponent)
  obtain ⟨hleast, hmost⟩ := significand_bounds (f := f) hn hd (e := f.minExponent + E) (by omega)
  obtain ⟨hless, m, e, hdecode, hsame⟩ := decode_carry hleast hmost (E := E) (by omega)
  have hnearest :
      f.nearest num den = E * 2 ^ f.fractionBits + significand num den (f.minExponent + E) := by
    have hmax :
        max f.minExponent (floorLog2 num den - f.fractionBits) = f.minExponent + E := by omega
    have hfield : (f.minExponent + E - f.minExponent).toNat = E := by omega
    unfold nearest
    rw [if_neg hn.ne', hmax]
    dsimp only
    rw [hfield]
    exact min_eq_right hless.le
  rw [hnearest]
  refine ⟨hless, m, e, hdecode, ?_⟩
  have herror := significand_error num hd (f.minExponent + E)
  have hpow : (0 : ℚ) < 2 ^ (f.minExponent + E : Int) := by positivity
  have hunit : (2 : ℚ) ^ (f.minExponent + E : Int) ≤ num / den / 2 ^ f.fractionBits := by
    rw [le_div_iff₀ (by positivity), le_div_iff₀ hden, ← zpow_natCast, ← zpow_add₀ two_ne_zero,
      mul_comm]
    refine le_trans (le_of_eq ?_) (floorLog2_spec hn hd).1
    congr 2
    omega
  calc |(m : ℚ) * 2 ^ e - num / den| = |((significand num den (f.minExponent + E) : ℚ) -
        num / den / 2 ^ (f.minExponent + E : Int)) * 2 ^ (f.minExponent + E : Int)| := by
        rw [hsame, sub_mul, div_mul_cancel₀ _ hpow.ne']
    _ ≤ 1 * 2 ^ (f.minExponent + E : Int) := by
        rw [abs_mul, abs_of_pos hpow]
        exact mul_le_mul_of_nonneg_right (herror.trans (by norm_num)) hpow.le
    _ ≤ num / den / 2 ^ f.fractionBits := by rwa [one_mul]

end Layout

theorem mantissa_shiftRight (em : ExtendedMantissa) (k : Nat) :
    (em >>> k).mantissa = em.mantissa / 2 ^ k := by
  change (k.repeat ExtendedMantissa.shiftRightOne em).mantissa = em.mantissa / 2 ^ k
  induction k with
  | zero => exact (Nat.div_one _).symm
  | succ k ih =>
      rw [Nat.repeat, ExtendedMantissa.shiftRightOne, ih, Nat.div_div_eq_div_mul, Nat.pow_succ]

theorem mantissa_ofMantissaAndAccuracy (m : Nat) (a : Accuracy) :
    (ExtendedMantissa.ofMantissaAndAccuracy m a).mantissa = m := by
  rcases a with _ | (_ | _ | _) <;> rfl

theorem roundedMantissa_bounds (em : ExtendedMantissa) :
    em.mantissa ≤ em.roundedMantissa ∧ em.roundedMantissa ≤ em.mantissa + 1 := by
  obtain ⟨m, round, sticky⟩ := em
  have hm := Nat.mod_lt m two_pos
  cases round <;> cases sticky <;>
    simp only [ExtendedMantissa.roundedMantissa, ExtendedMantissa.accuracy,
      Accuracy.roundToNearestEven] <;> omega

variable {spec : Format} {m : Nat} {e : Int} {a : Accuracy}

theorem targetExponent_eq (spec : Format) (m : Nat) (e : Int) :
    spec.targetExponent (totalExponent m e) =
      max (m.log2 + e - (Layout.ofFormat spec).fractionBits)
        (Layout.ofFormat spec).minExponent := by
  have hpow := Nat.two_pow_pos (spec.exponentBits - 1)
  have hcast : ((2 ^ (spec.exponentBits - 1) : Nat) : Int) = 2 ^ (spec.exponentBits - 1) := by simp
  unfold Format.targetExponent totalExponent Format.mantissaBits Format.minExponent
    Layout.minExponent Layout.bias Layout.ofFormat Format.mantissaBits
  dsimp only
  omega

theorem shiftToTargetExponent_eq (spec : Format) {k : Nat}
    (hk : (spec.targetExponent (totalExponent m e) - e).toNat = k) :
    shiftToTargetExponent spec m e a =
      (ExtendedMantissa.ofMantissaAndAccuracy m a >>> k, e + k) := by
  rw [shiftToTargetExponent, shiftToExponent, hk]

theorem shift_of_fits (hm : m < 2 ^ ((Layout.ofFormat spec).fractionBits + 1))
    (he : (Layout.ofFormat spec).minExponent ≤ e) :
    shiftToTargetExponent spec m e .exact = (⟨m, false, false⟩, e) := by
  have hlog : m.log2 ≤ (Layout.ofFormat spec).fractionBits := by
    rcases Nat.eq_zero_or_pos m with rfl | hpos
    · exact Nat.zero_le _
    · exact Nat.le_of_lt_succ ((Nat.log2_lt hpos.ne').2 hm)
  rw [shiftToTargetExponent_eq spec (k := 0) (by rw [targetExponent_eq]; omega)]
  exact Prod.ext rfl (add_zero e)

theorem shift_of_carry (spec : Format) (he : (Layout.ofFormat spec).minExponent ≤ e) :
    shiftToTargetExponent spec (2 ^ ((Layout.ofFormat spec).fractionBits + 1)) e .exact =
      (⟨2 ^ (Layout.ofFormat spec).fractionBits, false, false⟩, e + 1) := by
  rw [shiftToTargetExponent_eq spec (k := 1) (by rw [targetExponent_eq, Nat.log2_two_pow]; omega)]
  refine Prod.ext ?_ rfl
  change (⟨2 ^ (_ + 1) / 2, 2 ^ (_ + 1) % 2 != 0, false⟩ : ExtendedMantissa) = _
  rw [Nat.pow_succ, Nat.mul_div_cancel _ two_pos, Nat.mul_mod_left]
  rfl

/-! ## Rounding -/

theorem exists_roundWithAccuracy (negative : Bool) {em : ExtendedMantissa} {e₁ : Int}
    (hfirst : shiftToTargetExponent spec m e a = (em, e₁))
    (hle : em.roundedMantissa ≤ 2 ^ ((Layout.ofFormat spec).fractionBits + 1))
    (hlow : (Layout.ofFormat spec).minExponent ≤ e₁)
    (hhigh : e₁ + 3 < (Layout.ofFormat spec).minExponent + 2 ^ (Layout.ofFormat spec).exponentBits)
    (hcanonical : 2 ^ (Layout.ofFormat spec).fractionBits ≤ em.roundedMantissa ∨
      e₁ = (Layout.ofFormat spec).minExponent) :
    ∃ m' e', roundWithAccuracy spec (signOf negative) m e a =
      (Datum.finite negative m' e').unpacked ∧
      (Layout.ofFormat spec).HasWord (.finite negative m' e') ∧
      (m' : ℚ) * 2 ^ e' = em.roundedMantissa * 2 ^ e₁ := by
  have hsettled {m' : Nat} {e' : Int}
      (h : shiftToTargetExponent spec em.roundedMantissa e₁ .exact = (⟨m', false, false⟩, e')) :
      roundWithAccuracy spec (signOf negative) m e a = (Datum.finite negative m' e').unpacked := by
    unfold roundWithAccuracy
    rw [hfirst]
    dsimp only
    rw [h]
    dsimp only
    unfold Datum.unpacked
    rcases Nat.eq_zero_or_pos m' with rfl | hpos
    · rfl
    · rw [dif_neg hpos.ne']
      exact (dif_pos hpos).symm
  rcases hle.lt_or_eq with hlt | heq
  · refine ⟨_, _, hsettled (shift_of_fits hlt hlow), ?_, rfl⟩
    exact Layout.hasWord_of_canonical negative hlt hlow (by omega) hcanonical
  · have hcarry := shift_of_carry spec hlow
    rw [← heq] at hcarry
    refine ⟨_, _, hsettled hcarry, ?_, ?_⟩
    · exact Layout.hasWord_of_canonical negative (Nat.pow_lt_pow_succ one_lt_two) (by omega)
        (by omega) (.inl le_rfl)
    · rw [heq, zpow_add_one₀ two_ne_zero]
      push_cast
      ring

theorem shifted_error {r k : Nat} {x : ℚ} (hr : m / 2 ^ k ≤ r) (hr' : r ≤ m / 2 ^ k + 1)
    (hx : m ≤ x) (hx' : x ≤ m + 1) : |(r : ℚ) * 2 ^ k - x| ≤ 2 ^ k := by
  have hunit := Nat.two_pow_pos k
  have hlow : m / 2 ^ k * 2 ^ k ≤ m := Nat.div_mul_le_self m _
  have hhigh : m + 1 ≤ (m / 2 ^ k + 1) * 2 ^ k := by
    rw [mul_comm]
    exact Nat.lt_mul_div_succ m hunit
  have hbelow : r * 2 ^ k ≤ m + 2 ^ k :=
    calc r * 2 ^ k ≤ (m / 2 ^ k + 1) * 2 ^ k := Nat.mul_le_mul_right _ hr'
      _ = m / 2 ^ k * 2 ^ k + 2 ^ k := Nat.add_one_mul _ _
      _ ≤ m + 2 ^ k := Nat.add_le_add_right hlow _
  have habove : m + 1 ≤ r * 2 ^ k + 2 ^ k :=
    calc m + 1 ≤ (m / 2 ^ k + 1) * 2 ^ k := hhigh
      _ ≤ (r + 1) * 2 ^ k := Nat.mul_le_mul_right _ (by omega)
      _ = r * 2 ^ k + 2 ^ k := Nat.add_one_mul _ _
  have hbelow' : (r : ℚ) * 2 ^ k ≤ m + 2 ^ k := by exact_mod_cast hbelow
  have habove' : (m : ℚ) + 1 ≤ r * 2 ^ k + 2 ^ k := by exact_mod_cast habove
  rw [abs_le]
  constructor <;> linarith

/-- A significand with its leading bit is rounded by less than one of its last bits.  The number may
lie behind the significand by part of a unit. -/
theorem roundWithAccuracy_error (spec : Format) (negative : Bool) (a : Accuracy) {x : ℚ}
    (hm : 2 ^ (Layout.ofFormat spec).fractionBits ≤ m) (hx : m ≤ x) (hx' : x ≤ m + 1)
    (hlow : (Layout.ofFormat spec).minExponent + (Layout.ofFormat spec).fractionBits ≤ m.log2 + e)
    (hhigh : m.log2 + e + 3 < (Layout.ofFormat spec).minExponent +
      (Layout.ofFormat spec).fractionBits + 2 ^ (Layout.ofFormat spec).exponentBits) :
    ∃ m' e', roundWithAccuracy spec (signOf negative) m e a =
      (Datum.finite negative m' e').unpacked ∧
      (Layout.ofFormat spec).HasWord (.finite negative m' e') ∧
      |(m' : ℚ) * 2 ^ e' - x * 2 ^ e| ≤ x * 2 ^ e / 2 ^ (Layout.ofFormat spec).fractionBits := by
  have hne : m ≠ 0 := ((Nat.two_pow_pos _).trans_le hm).ne'
  obtain ⟨k, hk⟩ := Nat.exists_eq_add_of_le ((Nat.le_log2 hne).2 hm)
  have hfirst := shiftToTargetExponent_eq spec (m := m) (e := e) (a := a) (k := k)
    (by rw [targetExponent_eq]; omega)
  have hleast : 2 ^ (Layout.ofFormat spec).fractionBits ≤ m / 2 ^ k := by
    rw [Nat.le_div_iff_mul_le (Nat.two_pow_pos k), ← Nat.pow_add, ← hk]
    exact Nat.log2_self_le hne
  have hmost : m / 2 ^ k < 2 ^ ((Layout.ofFormat spec).fractionBits + 1) := by
    rw [Nat.div_lt_iff_lt_mul (Nat.two_pow_pos k), ← Nat.pow_add, Nat.add_right_comm, ← hk]
    exact Nat.lt_log2_self
  obtain ⟨hr, hr'⟩ := roundedMantissa_bounds (ExtendedMantissa.ofMantissaAndAccuracy m a >>> k)
  rw [mantissa_shiftRight, mantissa_ofMantissaAndAccuracy] at hr hr'
  obtain ⟨m', e', hround, hword, hvalue⟩ := exists_roundWithAccuracy negative hfirst (by omega)
    (by omega) (by omega) (.inl (hleast.trans hr))
  refine ⟨m', e', hround, hword, ?_⟩
  rw [hvalue]
  generalize (ExtendedMantissa.ofMantissaAndAccuracy m a >>> k).roundedMantissa = r at hr hr'
  have hunit : (2 : ℚ) ^ k ≤ x / 2 ^ (Layout.ofFormat spec).fractionBits := by
    rw [le_div_iff₀ (by positivity), ← pow_add, add_comm, ← hk]
    exact le_trans (by exact_mod_cast Nat.log2_self_le hne) hx
  have hpow : (0 : ℚ) < 2 ^ e := by positivity
  calc |(r : ℚ) * 2 ^ (e + k) - x * 2 ^ e| = |(r * 2 ^ k - x) * 2 ^ e| := by
        rw [zpow_add₀ two_ne_zero, zpow_natCast]
        ring_nf
    _ = |(r : ℚ) * 2 ^ k - x| * 2 ^ e := by rw [abs_mul, abs_of_pos hpow]
    _ ≤ x / 2 ^ (Layout.ofFormat spec).fractionBits * 2 ^ e :=
        mul_le_mul_of_nonneg_right ((shifted_error hr hr' hx hx').trans hunit) hpow.le
    _ = x * 2 ^ e / 2 ^ (Layout.ofFormat spec).fractionBits := by ring

theorem log2_mul_two_pow (hm : 0 < m) (k : Nat) : (m * 2 ^ k).log2 = m.log2 + k := by
  have hpos : 0 < m * 2 ^ k := Nat.mul_pos hm (Nat.two_pow_pos k)
  rw [Nat.log2_eq_iff hpos.ne', Nat.pow_add, Nat.add_right_comm, Nat.pow_add]
  exact ⟨Nat.mul_le_mul_right _ (Nat.log2_self_le hm.ne'),
    Nat.mul_lt_mul_of_pos_right Nat.lt_log2_self (Nat.two_pow_pos k)⟩

theorem round_error (spec : Format) (negative : Bool) (hbits : 1 < spec.exponentBits) (hm : 0 < m)
    (hlow : (Layout.ofFormat spec).minExponent ≤ e)
    (hhigh : m.log2 + e + 3 < (Layout.ofFormat spec).minExponent +
      (Layout.ofFormat spec).fractionBits + 2 ^ (Layout.ofFormat spec).exponentBits) :
    ∃ m' e', UnpackedFloat.round spec (signOf negative) m e =
        (Datum.finite negative m' e').unpacked ∧
      (Layout.ofFormat spec).HasWord (.finite negative m' e') ∧
      |(m' : ℚ) * 2 ^ e' - m * 2 ^ e| ≤ m * 2 ^ e / 2 ^ (Layout.ofFormat spec).fractionBits := by
  have htarget := targetExponent_eq spec m e
  generalize ht : spec.targetExponent (totalExponent m e) = t at htarget
  have hround : UnpackedFloat.round spec (signOf negative) m e =
      roundWithAccuracy spec (signOf negative) (m * 2 ^ (e - t).toNat) (e - (e - t).toNat)
        .exact := by
    rw [UnpackedFloat.round, ht, decreaseExponent, Nat.shiftLeft_eq]
  rw [hround]
  rcases lt_or_ge e t with hlt | hge
  · have hnone : (e - t).toNat = 0 := by omega
    have hmin : t = m.log2 + e - (Layout.ofFormat spec).fractionBits := by omega
    rw [hnone, pow_zero, mul_one, Nat.cast_zero, sub_zero]
    refine roundWithAccuracy_error spec negative .exact ?_ le_rfl (by linarith) (by omega) hhigh
    exact (Nat.le_log2 hm.ne').1 (by omega)
  · obtain ⟨k, hk⟩ : ∃ k : Nat, e - t = k := Int.eq_ofNat_of_zero_le (by omega)
    have hexponent : e - k = t := by omega
    rw [hk, Int.toNat_natCast, hexponent]
    have hlog := log2_mul_two_pow hm k
    have hfits : m * 2 ^ k < 2 ^ ((Layout.ofFormat spec).fractionBits + 1) :=
      Nat.lt_log2_self.trans_le (Nat.pow_le_pow_right two_pos (by omega))
    have hpos : m * 2 ^ k ≠ 0 := (Nat.mul_pos hm (Nat.two_pow_pos k)).ne'
    have hmin : (Layout.ofFormat spec).minExponent ≤ t := by omega
    have hrange : (3 : Int) < 2 ^ (Layout.ofFormat spec).exponentBits := by
      have hpow : 2 ^ 2 ≤ 2 ^ spec.exponentBits := Nat.pow_le_pow_right two_pos hbits
      exact_mod_cast hpow
    obtain ⟨m', e', hwritten, hword, hvalue⟩ := exists_roundWithAccuracy negative
      (shift_of_fits hfits hmin) hfits.le hmin (by omega) (by
        rcases eq_or_lt_of_le hmin with heq | hgt
        · exact .inr heq.symm
        · exact .inl ((Nat.le_log2 hpos).1 (by omega)))
    have hsame : (m' : ℚ) * 2 ^ e' = m * 2 ^ e := by
      rw [hvalue, ← hexponent, zpow_sub₀ two_ne_zero, zpow_natCast]
      change ((m * 2 ^ k : Nat) : ℚ) * (2 ^ e / 2 ^ k) = m * 2 ^ e
      push_cast
      field_simp
    refine ⟨m', e', hwritten, hword, ?_⟩
    rw [hsame, sub_self, abs_zero]
    positivity

end Metrology.Binary
