import Metrology.Proofs.Binary.Nearest
import Mathlib.Order.Compare
import Mathlib.Order.WithBot

/-!
# The order of words

A word that is a number stands for a rational number or for one of two infinities.  Two finite words
of one layout are in the order of these numbers when their exponents and then their significands
are, since each is written with the least exponent that leaves room for its significand.  A layout
with room for more in both fields has a word for each number of the other.
-/

namespace Metrology.Binary

abbrev Extended : Type := WithBot (WithTop ℚ)

def signed (negative : Bool) (x : ℚ) : ℚ := cond negative (-x) x

namespace Datum

def extended? : Datum → Option Extended
  | .nan => none
  | .infinite negative => some (cond negative ⊥ ⊤)
  | .finite negative m e => some ((signed negative (m * 2 ^ e) : WithTop ℚ) : Extended)

theorem extended?_eq_none_iff {d : Datum} : d.extended? = none ↔ d = .nan := by
  cases d <;> simp [extended?]

/-- Two data are the same but for the exponent that their significands are written with. -/
inductive Same : Datum → Datum → Prop
  | nan : Same .nan .nan
  | infinite (negative : Bool) : Same (.infinite negative) (.infinite negative)
  | finite {negative : Bool} {m m' : Nat} {e e' : Int} (hv : (m : ℚ) * 2 ^ e = m' * 2 ^ e') :
      Same (.finite negative m e) (.finite negative m' e')

theorem Same.extended?_eq {d d' : Datum} (h : d.Same d') : d.extended? = d'.extended? := by
  cases h with
  | nan => rfl
  | infinite => rfl
  | finite hv => rw [extended?, extended?, hv]

end Datum

namespace Layout

variable {f g : Layout} {word word' m m' : Nat} {e e' : Int} {negative negative' : Bool}

theorem magnitude_lt_of_exponent_lt (h : f.decode word = .finite negative m e)
    (h' : f.decode word' = .finite negative' m' e') (he : e < e') :
    (m : ℚ) * 2 ^ e < m' * 2 ^ e' := by
  obtain ⟨hm, hlow, -⟩ := decode_bounds h
  have hm' : 2 ^ f.fractionBits ≤ m' := by
    obtain ⟨-, E, r, -, -, -, ⟨-, -, rfl⟩ | ⟨-, rfl, -⟩⟩ := decode_eq_finite h'
    · omega
    · exact Nat.le_add_left ..
  have hm_cast : (m : ℚ) < 2 ^ (f.fractionBits + 1) := by exact_mod_cast hm
  have hm'_cast : (2 : ℚ) ^ f.fractionBits ≤ m' := by exact_mod_cast hm'
  calc (m : ℚ) * 2 ^ e < 2 ^ (f.fractionBits + 1) * 2 ^ e := by gcongr
    _ = 2 ^ f.fractionBits * 2 ^ (e + 1) := by rw [pow_succ, zpow_add_one₀ two_ne_zero]; ring
    _ ≤ 2 ^ f.fractionBits * 2 ^ e' := by gcongr <;> [norm_num; omega]
    _ ≤ m' * 2 ^ e' := by gcongr

theorem cmp_magnitude (h : f.decode word = .finite negative m e)
    (h' : f.decode word' = .finite negative' m' e') :
    cmp ((m : ℚ) * 2 ^ e) (m' * 2 ^ e') = (compare e e').then (compare m m') := by
  rcases lt_trichotomy e e' with he | rfl | he
  · rw [(magnitude_lt_of_exponent_lt h h' he).cmp_eq_lt, compare_lt_iff_lt.2 he]
    rfl
  · have hpow : (0 : ℚ) < 2 ^ e := by positivity
    rw [cmp_mul_pos_right hpow, Nat.strictMono_cast.cmp_map_eq, cmp_eq_compare,
      compare_eq_iff_eq.2 rfl]
    rfl
  · rw [(magnitude_lt_of_exponent_lt h' h he).cmp_eq_gt, compare_gt_iff_gt.2 he]
    rfl

theorem encode_eq (hword : word < 2 * f.signBit) (h : f.decode word = .finite negative m' e')
    (hv : (m : ℚ) * 2 ^ e = m' * 2 ^ e') : f.encode (.finite negative m e) = word := by
  have hnearest : f.nearest (scaled m e).1 (scaled m e).2 = word % f.signBit := by
    apply nearest_eq _ h
    · rw [scaled_value, hv, mul_comm]
    · rw [scaled_eq_scaledBy]
      exact scaledBy_snd_pos two_pos
  change cond negative (f.signBit + f.nearest (scaled m e).1 (scaled m e).2)
    (f.nearest (scaled m e).1 (scaled m e).2) = word
  rw [hnearest, (decode_eq_finite h).1, sign_add_mod hword]

theorem sign_add_lt {magnitude : Nat} (h : magnitude < f.signBit) :
    cond negative f.signBit 0 + magnitude < 2 * f.signBit := by
  have hsign : cond negative f.signBit 0 ≤ f.signBit := by cases negative <;> simp
  omega

theorem decode_fields (negative : Bool) {E r : Nat} (hr : r < 2 ^ f.fractionBits)
    (hE : E + 1 < 2 ^ f.exponentBits) :
    f.decode (cond negative f.signBit 0 + (E * 2 ^ f.fractionBits + r)) =
      if E = 0 then .finite negative r f.minExponent
      else .finite negative (r + 2 ^ f.fractionBits) (f.minExponent + E - 1) := by
  have hunit := Nat.two_pow_pos f.fractionBits
  have hsign : cond negative f.signBit 0 =
      (cond negative 1 0 * 2 ^ f.exponentBits) * 2 ^ f.fractionBits := by
    cases negative <;> simp [signBit, pow_add, mul_comm]
  have hword : cond negative f.signBit 0 + (E * 2 ^ f.fractionBits + r) =
      r + (E + cond negative 1 0 * 2 ^ f.exponentBits) * 2 ^ f.fractionBits := by
    rw [hsign]
    ring
  rw [hword]
  generalize hn : (cond negative 1 0 : Nat) = n
  have hquotient : (r + (E + n * 2 ^ f.exponentBits) * 2 ^ f.fractionBits) / 2 ^ f.fractionBits =
      E + n * 2 ^ f.exponentBits := by
    rw [Nat.add_mul_div_right _ _ hunit, Nat.div_eq_of_lt hr, zero_add]
  have hfraction : (r + (E + n * 2 ^ f.exponentBits) * 2 ^ f.fractionBits) % 2 ^ f.fractionBits =
      r := by
    rw [Nat.add_mul_mod_self_right, Nat.mod_eq_of_lt hr]
  have hexponent : (E + n * 2 ^ f.exponentBits) % 2 ^ f.exponentBits = E := by
    rw [Nat.add_mul_mod_self_right, Nat.mod_eq_of_lt (by omega)]
  have hnegative : ((E + n * 2 ^ f.exponentBits) / 2 ^ f.exponentBits % 2 == 1) = negative := by
    rw [Nat.add_mul_div_right _ _ (Nat.two_pow_pos _), Nat.div_eq_of_lt (by omega), zero_add, ← hn]
    cases negative <;> rfl
  unfold decode
  dsimp only
  rw [signBit, pow_add, ← Nat.div_div_eq_div_mul, hquotient, hfraction, hexponent, hnegative,
    if_neg (by omega)]

theorem exists_word_of_normal (negative : Bool) (hlow : 2 ^ f.fractionBits ≤ m)
    (hhigh : m < 2 ^ (f.fractionBits + 1)) (he : f.minExponent ≤ e)
    (he' : e + 2 < f.minExponent + 2 ^ f.exponentBits) :
    ∃ word < 2 * f.signBit, f.decode word = .finite negative m e := by
  have hpow : ((2 ^ f.exponentBits : Nat) : Int) = 2 ^ f.exponentBits := by simp
  obtain ⟨E, hE⟩ := Int.eq_ofNat_of_zero_le (by omega : 0 ≤ e - f.minExponent)
  obtain ⟨r, rfl⟩ := Nat.exists_eq_add_of_le' hlow
  rw [pow_succ] at hhigh
  have hfields := decode_fields (f := f) negative (E := E + 1) (r := r) (by omega) (by omega)
  rw [if_neg (Nat.succ_ne_zero E)] at hfields
  refine ⟨_, sign_add_lt ?_, hfields.trans ?_⟩
  · calc (E + 1) * 2 ^ f.fractionBits + r < (E + 1 + 1) * 2 ^ f.fractionBits := by
          rw [Nat.add_one_mul (E + 1)]
          omega
      _ ≤ 2 ^ f.exponentBits * 2 ^ f.fractionBits := Nat.mul_le_mul_right _ (by omega)
      _ = f.signBit := by rw [signBit, pow_add, mul_comm]
  · congr 1
    push_cast
    omega

theorem exists_word_of_short (negative : Bool) (hm : 0 < m) (hlog : m.log2 ≤ f.fractionBits)
    (he : f.minExponent + f.fractionBits ≤ e + m.log2)
    (he' : e + m.log2 + 2 < f.minExponent + f.fractionBits + 2 ^ f.exponentBits) :
    ∃ word < 2 * f.signBit, ∃ m' e', f.decode word = .finite negative m' e' ∧
      (m : ℚ) * 2 ^ e = m' * 2 ^ e' := by
  have hle := Nat.log2_self_le hm.ne'
  have hlt : m < 2 ^ (m.log2 + 1) := Nat.lt_log2_self
  obtain ⟨k, hk⟩ := Nat.exists_eq_add_of_le hlog
  have hnormal : 2 ^ f.fractionBits ≤ m * 2 ^ k := by
    rw [hk, pow_add]
    exact Nat.mul_le_mul_right _ hle
  have hroom : m * 2 ^ k < 2 ^ (f.fractionBits + 1) := by
    rw [hk, add_right_comm, pow_add]
    exact Nat.mul_lt_mul_of_pos_right hlt (Nat.two_pow_pos k)
  obtain ⟨word, hword, hdecode⟩ :=
    exists_word_of_normal negative (e := e - k) hnormal hroom (by omega) (by omega)
  refine ⟨word, hword, _, _, hdecode, ?_⟩
  rw [Nat.cast_mul, Nat.cast_pow, Nat.cast_ofNat, mul_assoc, ← zpow_natCast,
    ← zpow_add₀ two_ne_zero, add_sub_cancel]

/-- Even the least number of `f` has room for the fraction of `g`, and the greatest is within
reach. -/
structure Widens (f g : Layout) : Prop where
  fractionBits : f.fractionBits ≤ g.fractionBits
  minExponent : g.minExponent + g.fractionBits ≤ f.minExponent
  exponentBits : f.minExponent + 2 ^ f.exponentBits + 1 < g.minExponent + 2 ^ g.exponentBits

theorem widens_single_double : Widens .single .double where
  fractionBits := by decide
  minExponent := by decide
  exponentBits := by decide

theorem Widens.exists_word (hfg : Widens f g) (h : f.decode word = .finite negative m e) :
    ∃ word' < 2 * g.signBit, ∃ m' e', g.decode word' = .finite negative m' e' ∧
      (m : ℚ) * 2 ^ e = m' * 2 ^ e' := by
  obtain ⟨hm, hlow, hhigh⟩ := decode_bounds h
  obtain ⟨hfraction, hmin, hmax⟩ := hfg
  rcases Nat.eq_zero_or_pos m with rfl | hpos
  · have hone : 0 + 1 < 2 ^ g.exponentBits := by
      have hpow : ((2 ^ g.exponentBits : Nat) : Int) = 2 ^ g.exponentBits := by simp
      have : (0 : Int) < 2 ^ f.exponentBits := by positivity
      omega
    have hzero := decode_fields negative (Nat.two_pow_pos g.fractionBits) hone
    refine ⟨_, sign_add_lt ?_, _, _, hzero, by simp⟩
    rw [zero_mul]
    exact Nat.two_pow_pos _
  · have hlog : m.log2 < f.fractionBits + 1 := (Nat.log2_lt hpos.ne').2 hm
    exact exists_word_of_short negative hpos (by omega) (by omega) (by omega)

end Layout

end Metrology.Binary
