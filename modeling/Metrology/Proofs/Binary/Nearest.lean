import Metrology.Proofs.Scaling
import Mathlib.Tactic.Linarith
import Mathlib.Tactic.Ring

/-!
# The nearest word of a representable number

A number that a word stands for is rounded to that very word, whichever fraction it is given by, and
a greater fraction is never rounded to a lesser integer.
-/

namespace Metrology.Binary

theorem scaled_value (m : Nat) (e : Int) :
    ((scaled m e).1 : ℚ) = m * 2 ^ e * (scaled m e).2 := by
  rw [scaled_eq_scaledBy]
  exact_mod_cast scaledBy_value (m := m) (e := e) two_pos

theorem scaled_le_iff {m : Nat} {e : Int} {n : Nat} :
    (scaled m e).1 ≤ n * (scaled m e).2 ↔ (m : ℚ) * 2 ^ e ≤ n := by
  rw [scaled_eq_scaledBy]
  exact_mod_cast scaledBy_le_iff (m := m) (e := e) (n := n) two_pos

theorem two_pow_log2_le {n : Nat} (h : 0 < n) : (2 : ℚ) ^ (n.log2 : Int) ≤ n := by
  rw [zpow_natCast]
  exact_mod_cast Nat.log2_self_le h.ne'

theorem lt_two_pow_log2 (n : Nat) : (n : ℚ) < 2 ^ ((n.log2 : Int) + 1) := by
  have h : n < 2 ^ (n.log2 + 1) := Nat.lt_log2_self
  exact_mod_cast h

theorem floorLog2_spec {num den : Nat} (hn : 0 < num) (hd : 0 < den) :
    den * (2 : ℚ) ^ floorLog2 num den ≤ num ∧
      (num : ℚ) < den * 2 ^ (floorLog2 num den + 1) := by
  have hnum := two_pow_log2_le hn
  have hnum' := lt_two_pow_log2 num
  have hden := two_pow_log2_le hd
  have hden' := lt_two_pow_log2 den
  unfold floorLog2
  dsimp only
  generalize (num.log2 : Int) = a at *
  generalize (den.log2 : Int) = b at *
  split
  · rename_i h
    refine ⟨scaled_le_iff.1 h, ?_⟩
    calc (num : ℚ) < 2 ^ (a + 1) := hnum'
      _ = 2 ^ b * 2 ^ (a - b + 1) := by rw [← zpow_add₀ two_ne_zero]; congr 1; omega
      _ ≤ den * 2 ^ (a - b + 1) := by gcongr
  · rename_i h
    have hlt : (num : ℚ) < den * 2 ^ (a - b) := not_le.1 fun hle => h (scaled_le_iff.2 hle)
    refine ⟨?_, by rwa [sub_add_cancel]⟩
    calc (den : ℚ) * 2 ^ (a - b - 1) ≤ 2 ^ (b + 1) * 2 ^ (a - b - 1) := by gcongr
      _ = 2 ^ a := by rw [← zpow_add₀ two_ne_zero]; congr 1; omega
      _ ≤ num := hnum

theorem floorLog2_eq {num den : Nat} {l : Int} (hn : 0 < num) (hd : 0 < den)
    (hle : den * (2 : ℚ) ^ l ≤ num) (hlt : (num : ℚ) < den * 2 ^ (l + 1)) :
    floorLog2 num den = l := by
  have hden : (0 : ℚ) < den := by exact_mod_cast hd
  obtain ⟨hle', hlt'⟩ := floorLog2_spec hn hd
  have h₁ := (mul_lt_mul_iff_right₀ hden).1 (hle.trans_lt hlt')
  have h₂ := (mul_lt_mul_iff_right₀ hden).1 (hle'.trans_lt hlt)
  rw [zpow_lt_zpow_iff_right₀ one_lt_two] at h₁ h₂
  omega

theorem roundHalfEven_mul_left {m n : Nat} (hn : 0 < n) : roundHalfEven (m * n) n = m := by
  simp [roundHalfEven, Nat.mul_div_cancel m hn, hn]

theorem le_roundHalfEven {k num den : Nat} (hd : 0 < den) (h : k * den ≤ num) :
    k ≤ roundHalfEven num den := by
  have hk := (Nat.le_div_iff_mul_le hd).2 h
  unfold roundHalfEven
  dsimp only
  split_ifs <;> omega

theorem roundHalfEven_le {k num den : Nat} (hd : 0 < den) (h : num < k * den) :
    roundHalfEven num den ≤ k := by
  have hk := (Nat.div_lt_iff_lt_mul hd).2 h
  unfold roundHalfEven
  dsimp only
  split_ifs <;> omega

theorem roundHalfEven_le_roundHalfEven {a b c d : Nat} (hb : 0 < b) (hd : 0 < d)
    (h : a * d ≤ c * b) : roundHalfEven a b ≤ roundHalfEven c d := by
  have ha := Nat.div_add_mod' a b
  have hc := Nat.div_add_mod' c d
  have hquot : a / b ≤ c / d := by
    rw [Nat.le_div_iff_mul_le hd]
    refine Nat.le_of_mul_le_mul_right ?_ hb
    calc a / b * d * b = a / b * b * d := Nat.mul_right_comm ..
      _ ≤ a * d := Nat.mul_le_mul_right d (Nat.div_mul_le_self a b)
      _ ≤ c * b := h
  rcases hquot.lt_or_eq with hlt | heq
  · have hbelow := roundHalfEven_le hb ((Nat.div_lt_iff_lt_mul hb).1 hlt)
    exact hbelow.trans (le_roundHalfEven hd (Nat.div_mul_le_self c d))
  · have hrem : a % b * d ≤ c % d * b := by
      rw [← ha, ← hc, heq, Nat.add_mul, Nat.add_mul, Nat.mul_right_comm] at h
      exact Nat.le_of_add_le_add_left h
    have hbelow : b < 2 * (a % b) → d < 2 * (c % d) := fun hlt => by
      by_contra hge
      nlinarith
    have htie : b ≤ 2 * (a % b) → d ≤ 2 * (c % d) := fun hle => by
      by_contra hge
      nlinarith
    unfold roundHalfEven
    dsimp only
    rw [heq]
    split_ifs <;> omega

theorem roundHalfEven_of_odd {k num den : Nat} (hk : k % 2 = 1) (hlow : (2 * k + 1) * den ≤ 2 * num)
    (hhigh : num < (k + 1) * den) : roundHalfEven num den = k + 1 := by
  have hsucc := Nat.add_one_mul k den
  have hdouble : (2 * k + 1) * den = 2 * (k * den) + den := by ring
  have hquot : num / den = k := Nat.div_eq_of_lt_le (by omega) hhigh
  have hnum := Nat.div_add_mod' num den
  rw [hquot] at hnum
  unfold roundHalfEven
  dsimp only
  rw [hquot, if_neg (by omega)]
  split_ifs <;> omega

theorem roundHalfEven_error (num : Nat) {den : Nat} (hd : 0 < den) :
    2 * (roundHalfEven num den * den) ≤ 2 * num + den ∧
      2 * num ≤ 2 * (roundHalfEven num den * den) + den := by
  have hmod := Nat.mod_lt num hd
  have hnum := Nat.div_add_mod' num den
  have hsucc := Nat.add_one_mul (num / den) den
  unfold roundHalfEven
  dsimp only
  split_ifs <;> omega

theorem roundHalfEven_eq_succ_iff {k num den : Nat} (hk : k % 2 = 1) (hd : 0 < den)
    (hhigh : num < (k + 1) * den) :
    roundHalfEven num den = k + 1 ↔ (2 * k + 1) * den ≤ 2 * num := by
  constructor
  · intro hround
    have herror := (roundHalfEven_error num hd).1
    have hsplit : 2 * ((k + 1) * den) = (2 * k + 1) * den + den := by ring
    rw [hround] at herror
    omega
  · intro hlow
    exact roundHalfEven_of_odd hk hlow hhigh

theorem abs_roundHalfEven_sub_le (num : Nat) {den : Nat} (hd : 0 < den) :
    |(roundHalfEven num den : ℚ) - num / den| ≤ 1 / 2 := by
  have hden : (0 : ℚ) < den := by exact_mod_cast hd
  obtain ⟨hlow, hhigh⟩ := roundHalfEven_error num hd
  have hlow' : 2 * (roundHalfEven num den * den : ℚ) ≤ 2 * num + den := by exact_mod_cast hlow
  have hhigh' : 2 * (num : ℚ) ≤ 2 * (roundHalfEven num den * den) + den := by exact_mod_cast hhigh
  rw [abs_sub_le_iff]
  constructor
  · rw [sub_le_iff_le_add, add_comm, ← sub_le_iff_le_add, le_div_iff₀ hden]
    linarith
  · rw [sub_le_iff_le_add, div_le_iff₀ hden]
    linarith

namespace Layout

variable {f : Layout} {word m : Nat} {e : Int} {negative : Bool}

theorem decode_eq_finite (h : f.decode word = .finite negative m e) :
    negative = (word / f.signBit % 2 == 1) ∧
    ∃ E r, r < 2 ^ f.fractionBits ∧ E + 1 < 2 ^ f.exponentBits ∧
      word % f.signBit = E * 2 ^ f.fractionBits + r ∧
      (E = 0 ∧ m = r ∧ e = f.minExponent ∨
        0 < E ∧ m = r + 2 ^ f.fractionBits ∧ e = f.minExponent + E - 1) := by
  have hr := Nat.mod_lt word (Nat.two_pow_pos f.fractionBits)
  have hE := Nat.mod_lt (word / 2 ^ f.fractionBits) (Nat.two_pow_pos f.exponentBits)
  have hword : word % f.signBit = word / 2 ^ f.fractionBits % 2 ^ f.exponentBits *
      2 ^ f.fractionBits + word % 2 ^ f.fractionBits := by
    rw [signBit, Nat.pow_add, Nat.mod_mul, Nat.add_comm, Nat.mul_comm (2 ^ f.fractionBits)]
  unfold decode at h
  dsimp only at h
  split at h
  · split at h <;> cases h
  · split at h
    · cases h
      exact ⟨rfl, _, _, hr, by omega, hword, .inl ⟨‹_›, rfl, rfl⟩⟩
    · cases h
      exact ⟨rfl, _, _, hr, by omega, hword, .inr ⟨by omega, rfl, rfl⟩⟩

theorem decode_bounds (h : f.decode word = .finite negative m e) :
    m < 2 ^ (f.fractionBits + 1) ∧ f.minExponent ≤ e ∧ e < f.minExponent + 2 ^ f.exponentBits := by
  have hpow : ((2 ^ f.exponentBits : Nat) : Int) = 2 ^ f.exponentBits := by simp
  rw [Nat.pow_succ]
  obtain ⟨-, E, r, hr, hE, -, ⟨rfl, rfl, rfl⟩ | ⟨hpos, rfl, rfl⟩⟩ := decode_eq_finite h
  · omega
  · omega

theorem sign_add_mod (hword : word < 2 * f.signBit) :
    cond (word / f.signBit % 2 == 1) (f.signBit + word % f.signBit) (word % f.signBit) = word := by
  have hdiv : word / f.signBit < 2 := Nat.div_lt_of_lt_mul (by rwa [Nat.mul_comm] at hword)
  have hsum := Nat.div_add_mod word f.signBit
  rcases Nat.le_one_iff_eq_zero_or_eq_one.1 (Nat.le_of_lt_succ hdiv) with h | h
  · rw [h, Nat.mul_zero, Nat.zero_add] at hsum
    rw [h]
    exact hsum
  · rw [h, Nat.mul_one] at hsum
    rw [h]
    exact hsum

theorem mod_signBit_lt_infinity (h : f.decode word = .finite negative m e) :
    word % f.signBit < f.infinity := by
  obtain ⟨-, E, r, hr, hE, hword, -⟩ := decode_eq_finite h
  have hle : (E + 1) * 2 ^ f.fractionBits ≤ f.infinity := Nat.mul_le_mul_right _ (by omega)
  rw [Nat.add_one_mul] at hle
  omega

theorem toNat_sub_mul_add (h : f.decode word = .finite negative m e) :
    (e - f.minExponent).toNat * 2 ^ f.fractionBits + m = word % f.signBit := by
  obtain ⟨-, E, r, -, -, hword, ⟨rfl, rfl, rfl⟩ | ⟨hpos, rfl, rfl⟩⟩ := decode_eq_finite h
  · simpa using hword.symm
  · obtain ⟨k, rfl⟩ := Nat.exists_eq_add_of_le' hpos
    have hk : (f.minExponent + ((k + 1 : Nat) : Int) - 1 - f.minExponent).toNat = k := by omega
    rw [hk, hword, Nat.add_one_mul]
    omega

theorem max_floorLog2_eq {num den : Nat} (hn : 0 < num) (hd : 0 < den)
    (h : f.decode word = .finite negative m e) (hv : (num : ℚ) = den * (m * 2 ^ e)) :
    max f.minExponent (floorLog2 num den - f.fractionBits) = e := by
  have hden : (0 : ℚ) < den := by exact_mod_cast hd
  obtain ⟨hle, hlt⟩ := floorLog2_spec hn hd
  obtain ⟨-, E, r, hr, -, -, ⟨-, rfl, rfl⟩ | ⟨hE, rfl, rfl⟩⟩ := decode_eq_finite h
  · have hlog : (2 : ℚ) ^ floorLog2 num den < 2 ^ (f.fractionBits + f.minExponent) := by
      have hr' : (m : ℚ) < 2 ^ f.fractionBits := by exact_mod_cast hr
      rw [hv, mul_le_mul_iff_right₀ hden] at hle
      calc (2 : ℚ) ^ floorLog2 num den ≤ m * 2 ^ f.minExponent := hle
        _ < 2 ^ f.fractionBits * 2 ^ f.minExponent := by gcongr
        _ = 2 ^ (f.fractionBits + f.minExponent) := by rw [zpow_add₀ two_ne_zero, zpow_natCast]
    rw [zpow_lt_zpow_iff_right₀ one_lt_two] at hlog
    omega
  · have hlog : floorLog2 num den = f.fractionBits + (f.minExponent + E - 1) := by
      have hr' : (r : ℚ) < 2 ^ f.fractionBits := by exact_mod_cast hr
      have hpow : (0 : ℚ) < 2 ^ (f.minExponent + E - 1) := by positivity
      apply floorLog2_eq hn hd
      · rw [hv, mul_le_mul_iff_right₀ hden, zpow_add₀ two_ne_zero, zpow_natCast,
          mul_le_mul_iff_left₀ hpow]
        push_cast
        linarith
      · rw [hv, mul_lt_mul_iff_right₀ hden, add_right_comm, zpow_add₀ two_ne_zero,
          zpow_add_one₀ two_ne_zero, zpow_natCast, mul_lt_mul_iff_left₀ hpow]
        push_cast
        linarith
    omega

theorem nearest_eq {num den : Nat} (hd : 0 < den) (h : f.decode word = .finite negative m e)
    (hv : (num : ℚ) = den * (m * 2 ^ e)) : f.nearest num den = word % f.signBit := by
  rcases Nat.eq_zero_or_pos num with rfl | hn
  · have hden : (den : ℚ) ≠ 0 := by exact_mod_cast hd.ne'
    have hpow : (2 : ℚ) ^ e ≠ 0 := zpow_ne_zero e two_ne_zero
    have hm : m = 0 := by
      have hzero : (m : ℚ) = 0 := by simpa [hden, hpow] using hv.symm
      exact_mod_cast hzero
    obtain ⟨-, E, r, -, -, hword, ⟨rfl, rfl, -⟩ | ⟨-, rfl, -⟩⟩ := decode_eq_finite h
    · rw [hword, hm]
      simp [nearest]
    · have := Nat.two_pow_pos f.fractionBits
      omega
  · have hnum : num * (scaled den e).2 = m * (scaled den e).1 := by
      have hcast : (num : ℚ) * (scaled den e).2 = m * (scaled den e).1 := by
        rw [scaled_value, hv]
        ring
      exact_mod_cast hcast
    have hpos : 0 < (scaled den e).1 := scaledBy_fst_pos two_pos hd
    unfold nearest
    rw [if_neg hn.ne']
    dsimp only
    rw [max_floorLog2_eq hn hd h hv, hnum, roundHalfEven_mul_left hpos, toNat_sub_mul_add h]
    exact min_eq_right (mod_signBit_lt_infinity h).le

end Layout

end Metrology.Binary
