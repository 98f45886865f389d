import Metrology.Proofs.Binary.Rounding
import Metrology.Proofs.Engineering.Finite
import Mathlib.Analysis.SpecialFunctions.Log.Base

/-!
# Arithmetic of double precision

A word holds 53 significant bits, so that a sum, difference, product or quotient is far less than a
thousandth off.  Powers of ten, logarithms and floors are functions of the C library.  With these as
accurate as they are documented to be, the whole arithmetic is faithful.
-/

namespace Metrology.Machine

open Metrology.Binary Metrology.Decimal Engineering
open Float.Model (Format UnpackedFloat totalExponent)
open Float.Model.UnpackedFloat (Accuracy Sign accuracyOfFraction divCore normalize
  roundWithAccuracy)

variable {p : Precision}

theorem ofUnpacked_datum (x : Machine p) : ofUnpacked p (datum x).unpacked = x :=
  (ofWord_eq (word_lt x)).symm.trans (ofWord_word x)

theorem datum_ofUnpacked {d : Datum} (h : p.layout.HasWord d) :
    datum (ofUnpacked p d.unpacked) = d := by
  obtain ⟨word, hword, rfl⟩ := h
  rw [← ofWord_eq hword, datum_ofWord hword]

theorem denotes_of_datum {x : Machine .double} {negative : Bool} {m : Nat} {e : Int}
    (h : datum x = .finite negative m e) :
    Denotes (α := Machine) x (signed negative (m * 2 ^ e)) := by
  rw [denotes_iff, extended?, h, Datum.extended?]

theorem denotes_zero (s : Sign) :
    Denotes (α := Machine) (ofUnpacked .double (.zero s)) 0 := by
  have hzero (negative : Bool) :
      Denotes (α := Machine) (ofUnpacked .double (.zero (signOf negative))) 0 := by
    have hword : Layout.double.HasWord (.finite negative 0 Layout.double.minExponent) :=
      Layout.hasWord_of_canonical negative (by decide) le_rfl (by decide) (.inr rfl)
    have hdenotes := denotes_of_datum (datum_ofUnpacked (p := .double) hword)
    rwa [signed_zero] at hdenotes
  cases s with
  | positive => exact hzero false
  | negative => exact hzero true

theorem isClose_of_error {u v : ℚ} (hv : 0 ≤ v) (h : |u - v| ≤ v / 2 ^ 52) : IsClose 1 u v := by
  obtain ⟨hlow, hhigh⟩ := abs_le.1 h
  have hsmall : v / 2 ^ 52 ≤ v / 2000 := div_le_div_of_nonneg_left hv (by norm_num) (by norm_num)
  constructor <;> rw [pow_one] <;> linarith

theorem approximates_ofUnpacked {m : Nat} {e : Int} {v : ℚ}
    (hword : Layout.double.HasWord (.finite false m e)) (hv : 0 ≤ v)
    (herror : |(m : ℚ) * 2 ^ e - v| ≤ v / 2 ^ 52) :
    Approximates (α := Machine) 1 (ofUnpacked .double (Datum.finite false m e).unpacked) v :=
  ⟨_, denotes_of_datum (datum_ofUnpacked (p := .double) hword), isClose_of_error hv herror⟩

theorem ten_pow_le : (10 : ℚ) ^ (300 : Int) ≤ 2 ^ (1000 : Int) :=
  calc (10 : ℚ) ^ (300 : Int) = (10 ^ 3) ^ 100 := by rw [← pow_mul]; rfl
    _ ≤ (2 ^ 10) ^ 100 := pow_le_pow_left₀ (by positivity) (by norm_num) 100
    _ = 2 ^ (1000 : Int) := by rw [← pow_mul]; rfl

theorem le_ten_pow : (2 : ℚ) ^ (-1000 : Int) ≤ 10 ^ (-300 : Int) := by
  rw [zpow_neg, zpow_neg]
  exact inv_anti₀ (by positivity) ten_pow_le

theorem log2_add_le {m : Nat} {e : Int} (hm : 0 < m) (h : (m : ℚ) * 2 ^ e ≤ 10 ^ (300 : Int)) :
    m.log2 + e ≤ 1000 := by
  have hpow : (2 : ℚ) ^ (m.log2 + e) ≤ 2 ^ (1000 : Int) :=
    calc (2 : ℚ) ^ (m.log2 + e) = 2 ^ (m.log2 : Int) * 2 ^ e := zpow_add₀ two_ne_zero _ _
      _ ≤ m * 2 ^ e := mul_le_mul_of_nonneg_right (two_pow_log2_le hm) (by positivity)
      _ ≤ 2 ^ (1000 : Int) := h.trans ten_pow_le
  exact (zpow_le_zpow_iff_right₀ one_lt_two).1 hpow

theorem le_log2_add {m : Nat} {e : Int} {x : ℚ} (hx : x ≤ m + 1)
    (h : 10 ^ (-300 : Int) ≤ x * 2 ^ e) :
    -1000 ≤ m.log2 + 1 + e := by
  have hm : (m : ℚ) + 1 ≤ 2 ^ ((m.log2 : Int) + 1) := by
    have hlt : m + 1 ≤ 2 ^ (m.log2 + 1) := Nat.lt_log2_self
    exact_mod_cast hlt
  have hpow : (2 : ℚ) ^ (-1000 : Int) ≤ 2 ^ (m.log2 + 1 + e) :=
    calc (2 : ℚ) ^ (-1000 : Int) ≤ x * 2 ^ e := le_ten_pow.trans h
      _ ≤ 2 ^ ((m.log2 : Int) + 1) * 2 ^ e :=
        mul_le_mul_of_nonneg_right (hx.trans hm) (by positivity)
      _ = 2 ^ (m.log2 + 1 + e) := (zpow_add₀ two_ne_zero _ _).symm
  exact (zpow_le_zpow_iff_right₀ one_lt_two).1 hpow

/-! ## Rounding a result -/

theorem approximates_roundWithAccuracy {m : Nat} {e : Int} {x : ℚ} (a : Accuracy) (hm : 2 ^ 52 ≤ m)
    (hx : m ≤ x) (hx' : x ≤ m + 1) (hlow : 10 ^ (-300 : Int) ≤ x * 2 ^ e)
    (hhigh : x * 2 ^ e ≤ 10 ^ (300 : Int)) :
    Approximates (α := Machine) 1
      (ofUnpacked .double (roundWithAccuracy .binary64 .positive m e a)) (x * 2 ^ e) := by
  have hle := log2_add_le (e := e) (by omega)
    ((mul_le_mul_of_nonneg_right hx (by positivity)).trans hhigh)
  have hge := le_log2_add hx' hlow
  have hmin : Layout.double.minExponent = -1074 := by decide
  obtain ⟨m', e', hround, hword, herror⟩ := roundWithAccuracy_error .binary64 (e := e)
    false a hm hx hx' (by change Layout.double.minExponent + 52 ≤ _; omega)
    (by change _ < Layout.double.minExponent + 52 + 2 ^ 11; omega)
  change roundWithAccuracy .binary64 .positive m e a = _ at hround
  rw [hround]
  exact approximates_ofUnpacked hword (le_trans (by positivity) hlow) herror

theorem approximates_normalize {n e : Int} (hn : 0 ≤ n) (he : -1074 ≤ e)
    (hhigh : (n : ℚ) * 2 ^ e ≤ 10 ^ (300 : Int)) :
    Approximates (α := Machine) 1 (ofUnpacked .double (normalize .binary64 n e .positive))
      (n * 2 ^ e) := by
  obtain ⟨m, rfl⟩ := Int.eq_ofNat_of_zero_le hn
  rcases Nat.eq_zero_or_pos m with rfl | hm
  · have hzero := denotes_zero .positive
    refine ⟨0, hzero, ?_⟩
    simp [IsClose]
  · have hle := log2_add_le hm hhigh
    have hmin : Layout.double.minExponent = -1074 := by decide
    obtain ⟨m', e', hround, hword, herror⟩ := round_error .binary64 (e := e) false (by decide) hm
      (by change Layout.double.minExponent ≤ e; omega)
      (by change _ < Layout.double.minExponent + 52 + 2 ^ 11; omega)
    have hnormalize : normalize .binary64 m e .positive =
        UnpackedFloat.round .binary64 .positive m e := by
      rw [UnpackedFloat.normalize, Int.compare_eq_gt.2 (by omega)]
      rfl
    change UnpackedFloat.round .binary64 .positive m e = _ at hround
    rw [hnormalize, hround]
    exact approximates_ofUnpacked hword (by positivity) herror

theorem exists_significand {x : Machine .double} {u : ℚ} (hx : Denotes (α := Machine) x u)
    (hu : 0 < u) :
    ∃ m e, ∃ hm : 0 < m, (datum x).unpacked = .finite .positive m e hm ∧ u = m * 2 ^ e ∧
      m < 2 ^ 53 ∧ -1074 ≤ e ∧ (2 ^ 52 ≤ m ∨ e = -1074) := by
  obtain ⟨negative, m, e, hd, rfl⟩ := exists_datum (denotes_iff.1 hx)
  have hm : 0 < m := Nat.pos_of_ne_zero fun h0 => hu.ne' (by rw [h0, signed_zero])
  obtain ⟨hlt, he, -⟩ := double_bounds hd
  cases negative with
  | true =>
      have hneg : -((m : ℚ) * 2 ^ e) ≤ 0 := neg_nonpos.2 (by positivity)
      exact absurd hu hneg.not_gt
  | false =>
      exact ⟨m, e, hm, by rw [hd, unpacked_of_pos hm]; rfl, rfl, hlt, he, double_leading hd⟩

theorem exists_sign {x : Machine .double} (hx : Denotes (α := Machine) x 0) :
    ∃ s, (datum x).unpacked = .zero s := by
  obtain ⟨negative, m, e, hd, hzero⟩ := exists_datum (denotes_iff.1 hx)
  have hm : m = 0 := by
    have hpow : (2 : ℚ) ^ e ≠ 0 := zpow_ne_zero e two_ne_zero
    cases negative <;> simpa [signed, hpow] using hzero
  exact ⟨signOf negative, by rw [hd, hm, unpacked_of_zero]⟩

/-! ## Operations -/

variable {x y : Machine .double} {u v : ℚ}

theorem add_eq (x y : Machine .double) : Arithmetic.add x y =
    ofUnpacked .double (.add .binary64 (datum x).unpacked (datum y).unpacked) :=
  congrArg₂ (fun a b => Float.ofModel (.pack (.add .binary64 a b))) (unpack_eq _) (unpack_eq _)

theorem sub_eq (x y : Machine .double) : Arithmetic.sub x y =
    ofUnpacked .double (.sub .binary64 (datum x).unpacked (datum y).unpacked) :=
  congrArg₂ (fun a b => Float.ofModel (.pack (.sub .binary64 a b))) (unpack_eq _) (unpack_eq _)

theorem mul_eq (x y : Machine .double) : Arithmetic.mul x y =
    ofUnpacked .double (.mul .binary64 (datum x).unpacked (datum y).unpacked) :=
  congrArg₂ (fun a b => Float.ofModel (.pack (.mul .binary64 a b))) (unpack_eq _) (unpack_eq _)

theorem div_eq (x y : Machine .double) : Arithmetic.div x y =
    ofUnpacked .double (.div .binary64 (datum x).unpacked (datum y).unpacked) :=
  congrArg₂ (fun a b => Float.ofModel (.pack (.div .binary64 a b))) (unpack_eq _) (unpack_eq _)

theorem aligned_value (m : Nat) {e t : Int} (ht : t ≤ e) :
    ((m <<< (e - t).toNat : Nat) : ℚ) * 2 ^ t = m * 2 ^ e := by
  obtain ⟨k, hk⟩ := Int.eq_ofNat_of_zero_le (sub_nonneg.2 ht)
  have he : e = k + t := by omega
  rw [hk, Int.toNat_natCast, Nat.shiftLeft_eq, he, zpow_add₀ two_ne_zero, zpow_natCast]
  push_cast
  ring

theorem approximates_of_eq {z : Machine .double} {w : ℚ} (hz : Denotes (α := Machine) z w)
    (hw : 0 ≤ w) : Approximates (α := Machine) 1 z w :=
  ⟨w, hz, (IsClose.refl w).mono hw hw (by decide)⟩

theorem add_approximates (hx : Denotes (α := Machine) x u) (hy : Denotes (α := Machine) y v)
    (hu : 0 ≤ u) (hv : 0 ≤ v) (hhigh : u + v ≤ 10 ^ (300 : Int)) :
    Approximates (α := Machine) 1 (Arithmetic.add x y) (u + v) := by
  have hx' := ofUnpacked_datum x
  have hy' := ofUnpacked_datum y
  rw [add_eq]
  rcases hu.eq_or_lt with rfl | hu
  · obtain ⟨s, hs⟩ := exists_sign hx
    rw [zero_add, hs]
    rcases hv.eq_or_lt with rfl | hv
    · obtain ⟨s', hs'⟩ := exists_sign hy
      rw [hs']
      refine approximates_of_eq ?_ le_rfl
      cases s <;> cases s' <;> exact denotes_zero _
    · obtain ⟨m, e, hm, hd, -⟩ := exists_significand hy hv
      rw [hd] at hy' ⊢
      exact approximates_of_eq (hy'.symm ▸ hy) hv.le
  · obtain ⟨m, e, hm, hd, rfl, -, he, -⟩ := exists_significand hx hu
    rw [hd] at hx' ⊢
    rcases hv.eq_or_lt with rfl | hv
    · obtain ⟨s', hs'⟩ := exists_sign hy
      rw [add_zero, hs']
      exact approximates_of_eq (hx'.symm ▸ hx) hu.le
    · obtain ⟨m', e', hm', hd', rfl, -, he', -⟩ := exists_significand hy hv
      rw [hd']
      rw [← aligned_value m (min_le_left e e'), ← aligned_value m' (min_le_right e e'),
        ← add_mul] at hhigh ⊢
      have hsum := approximates_normalize (n := (m <<< (e - min e e').toNat : Nat) +
        (m' <<< (e' - min e e').toNat : Nat)) (by positivity) (le_min he he')
        (by exact_mod_cast hhigh)
      exact_mod_cast hsum

theorem sub_approximates (hx : Denotes (α := Machine) x u) (hy : Denotes (α := Machine) y v)
    (hv : 0 ≤ v) (hvu : v ≤ u) (hhigh : u - v ≤ 10 ^ (300 : Int)) :
    Approximates (α := Machine) 1 (Arithmetic.sub x y) (u - v) := by
  have hx' := ofUnpacked_datum x
  rw [sub_eq]
  rcases hv.eq_or_lt with rfl | hv
  · obtain ⟨s, hs⟩ := exists_sign hy
    rw [sub_zero, hs]
    rcases hvu.eq_or_lt with rfl | hu
    · obtain ⟨s', hs'⟩ := exists_sign hx
      rw [hs']
      refine approximates_of_eq ?_ le_rfl
      cases s <;> cases s' <;> exact denotes_zero _
    · obtain ⟨m, e, hm, hd, -⟩ := exists_significand hx hu
      rw [hd] at hx' ⊢
      exact approximates_of_eq (hx'.symm ▸ hx) hu.le
  · obtain ⟨m, e, hm, hd, rfl, -, he, -⟩ := exists_significand hx (hv.trans_le hvu)
    obtain ⟨m', e', hm', hd', rfl, -, he', -⟩ := exists_significand hy hv
    rw [hd, hd']
    rw [← aligned_value m (min_le_left e e'), ← aligned_value m' (min_le_right e e')] at hvu
    have hle := le_of_mul_le_mul_right hvu (by positivity)
    rw [← aligned_value m (min_le_left e e'), ← aligned_value m' (min_le_right e e'),
      ← sub_mul] at hhigh ⊢
    have hdiff := approximates_normalize (n := (m <<< (e - min e e').toNat : Nat) -
      (m' <<< (e' - min e e').toNat : Nat)) (sub_nonneg.2 (by exact_mod_cast hle)) (le_min he he')
      (by exact_mod_cast hhigh)
    rw [Int.cast_sub, Int.cast_natCast, Int.cast_natCast] at hdiff
    exact hdiff

theorem mul_approximates (hx : Denotes (α := Machine) x u) (hy : Denotes (α := Machine) y v)
    (hu : 0 < u) (hv : 0 < v) (hlow : 10 ^ (-300 : Int) ≤ u * v)
    (hhigh : u * v ≤ 10 ^ (300 : Int)) :
    Approximates (α := Machine) 1 (Arithmetic.mul x y) (u * v) := by
  obtain ⟨m, e, hm, hd, rfl, hlt, -, hcanonical⟩ := exists_significand hx hu
  obtain ⟨m', e', hm', hd', rfl, hlt', -, hcanonical'⟩ := exists_significand hy hv
  have hvalue : (m : ℚ) * 2 ^ e * (m' * 2 ^ e') = (m * m' : Nat) * 2 ^ (e + e') := by
    rw [zpow_add₀ two_ne_zero]
    push_cast
    ring
  rw [hvalue] at hlow hhigh ⊢
  have hproduct : 0 < m * m' := Nat.mul_pos hm hm'
  have hlarge : 2 ^ 52 ≤ m * m' := by
    rcases hcanonical with hm₁ | rfl
    · exact hm₁.trans (Nat.le_mul_of_pos_right m hm')
    · rcases hcanonical' with hm₁ | rfl
      · exact hm₁.trans (Nat.le_mul_of_pos_left m' hm)
      · have hlog := le_log2_add (m := m * m') (by linarith) hlow
        have hmost : (m * m').log2 < 53 + 53 := by
          rw [Nat.log2_lt hproduct.ne', Nat.pow_add]
          exact Nat.mul_lt_mul'' hlt hlt'
        omega
  rw [mul_eq, hd, hd']
  exact approximates_roundWithAccuracy .exact hlarge le_rfl (by linarith) hlow hhigh

theorem totalExponent_sub_lt {m m' : Nat} {e e' : Int} (hm' : 0 < m')
    (hlow : 10 ^ (-300 : Int) ≤ (m : ℚ) * 2 ^ e / (m' * 2 ^ e')) :
    -1000 < m.log2 + 1 + e - (m'.log2 + e') := by
  rw [← zpow_lt_zpow_iff_right₀ (one_lt_two (α := ℚ)), zpow_sub₀ two_ne_zero,
    lt_div_iff₀ (by positivity)]
  calc (2 : ℚ) ^ (-1000 : Int) * 2 ^ (m'.log2 + e') ≤
        m * 2 ^ e / (m' * 2 ^ e') * (m' * 2 ^ e') := by
        rw [zpow_add₀ two_ne_zero]
        gcongr
        · exact le_ten_pow.trans hlow
        · exact two_pow_log2_le hm'
    _ = m * 2 ^ e := div_mul_cancel₀ _ (by positivity)
    _ < 2 ^ ((m.log2 : Int) + 1) * 2 ^ e := by
        gcongr
        exact lt_two_pow_log2 m
    _ = 2 ^ (m.log2 + 1 + e) := (zpow_add₀ two_ne_zero _ _).symm

theorem divCore_eq {m m' : Nat} {e e' : Int} (hm : 0 < m) (hm' : 0 < m') (hlt : m < 2 ^ 53)
    (hlow : 10 ^ (-300 : Int) ≤ (m : ℚ) * 2 ^ e / (m' * 2 ^ e')) :
    ∃ q t a, divCore .binary64 m e m' e' = (q, t, a) ∧ 2 ^ 52 ≤ q ∧
      ∃ x : ℚ, q ≤ x ∧ x ≤ q + 1 ∧ x * 2 ^ t = m * 2 ^ e / (m' * 2 ^ e') := by
  have hlog : m.log2 < 53 := (Nat.log2_lt hm.ne').2 hlt
  have hrange := totalExponent_sub_lt hm' hlow
  obtain ⟨k, hk⟩ := Nat.exists_eq_add_of_le (by omega : m.log2 ≤ 53 + m'.log2)
  have htarget : min (e - e') (Format.binary64.targetExponent
      (totalExponent m e - totalExponent m' e')) = e - e' - k := by
    have hbits : (Format.binary64.mantissaBits : Int) = 53 := rfl
    have hmin : Format.binary64.minExponent = -1074 := by decide
    rw [Format.targetExponent, totalExponent, totalExponent, hbits, hmin]
    omega
  have hshift : (e - e' - (e - e' - k)).toNat = k := by omega
  have hcore : divCore .binary64 m e m' e' =
      (m * 2 ^ k / m', e - e' - k, accuracyOfFraction (m * 2 ^ k % m') m') := by
    rw [divCore, htarget, hshift, Nat.shiftLeft_eq]
  refine ⟨_, _, _, hcore, ?_, ((m * 2 ^ k : Nat) : ℚ) / m', Nat.cast_div_le, ?_, ?_⟩
  · rw [Nat.le_div_iff_mul_le hm']
    calc 2 ^ 52 * m' ≤ 2 ^ 52 * 2 ^ (m'.log2 + 1) := Nat.mul_le_mul_left _ Nat.lt_log2_self.le
      _ = 2 ^ m.log2 * 2 ^ k := by rw [← Nat.pow_add, ← Nat.pow_add]; congr 1; omega
      _ ≤ m * 2 ^ k := Nat.mul_le_mul_right _ (Nat.log2_self_le hm.ne')
  · have hle : m * 2 ^ k ≤ (m * 2 ^ k / m' + 1) * m' := by
      rw [mul_comm _ m']
      exact (Nat.lt_mul_div_succ (m * 2 ^ k) hm').le
    rw [div_le_iff₀ (by positivity)]
    exact_mod_cast hle
  · rw [zpow_sub₀ two_ne_zero, zpow_sub₀ two_ne_zero, zpow_natCast]
    push_cast
    field_simp

theorem div_approximates (hx : Denotes (α := Machine) x u) (hy : Denotes (α := Machine) y v)
    (hu : 0 < u) (hv : 0 < v) (hlow : 10 ^ (-300 : Int) ≤ u / v)
    (hhigh : u / v ≤ 10 ^ (300 : Int)) :
    Approximates (α := Machine) 1 (Arithmetic.div x y) (u / v) := by
  obtain ⟨m, e, hm, hd, rfl, hlt, -⟩ := exists_significand hx hu
  obtain ⟨m', e', hm', hd', rfl, -⟩ := exists_significand hy hv
  obtain ⟨q, t, a, hcore, hlarge, w, hle, hge, hvalue⟩ := divCore_eq hm hm' hlt hlow
  rw [← hvalue] at hlow hhigh ⊢
  rw [div_eq, hd, hd', UnpackedFloat.div, hcore]
  exact approximates_roundWithAccuracy a hlarge hle hge hlow hhigh

/-! ## Constants, comparing, and the absolute value -/

theorem denotes_ofRat_zero : Denotes (α := Machine) (Arithmetic.ofRat 0) 0 :=
  denotes_iff.2 extended?_zero

theorem ofRat_eq_ofWord {q : ℚ} {word m : Nat} {e : Int} (hword : word < 2 * p.layout.signBit)
    (hdecode : p.layout.decode word = .finite (decide (q.num < 0)) m e) (hq : |q| = m * 2 ^ e) :
    (Arithmetic.ofRat q : Machine p) = ofWord p word := by
  have hden : (0 : ℚ) < q.den := by exact_mod_cast q.den_pos
  have hnum : (q.num.natAbs : ℚ) = q.den * (m * 2 ^ e) :=
    calc (q.num.natAbs : ℚ) = |q * q.den| := by
          rw [Rat.mul_den_eq_num, Nat.cast_natAbs, Int.cast_abs]
      _ = |q| * q.den := by rw [abs_mul, abs_of_pos hden]
      _ = q.den * (m * 2 ^ e) := by rw [hq, mul_comm]
  have hsign := Layout.sign_add_mod hword
  rw [← (Layout.decode_eq_finite hdecode).1, ← Layout.nearest_eq q.den_pos hdecode hnum] at hsign
  refine congrArg (ofWord p) (Eq.trans ?_ hsign)
  by_cases hneg : q.num < 0 <;> simp [hneg]

theorem signed_abs (q : ℚ) : signed (decide (q.num < 0)) |q| = q := by
  by_cases hneg : q.num < 0
  · rw [decide_eq_true hneg, abs_of_neg (Rat.num_neg.1 hneg)]
    exact neg_neg q
  · rw [decide_eq_false hneg, abs_of_nonneg (Rat.num_nonneg.1 (not_lt.1 hneg))]
    rfl

theorem denotes_ofRat {q : ℚ} {m : Nat} {e : Int} (hq : |q| = m * 2 ^ e) (hm : 0 < m)
    (hlt : m < 2 ^ 53) (hlow : -1022 ≤ e) (hhigh : e ≤ 971) :
    Denotes (α := Machine) (Arithmetic.ofRat q) q := by
  have hmin : Layout.double.minExponent = -1074 := by decide
  have hbits : Layout.double.fractionBits = 52 := rfl
  have hrange : (2 : Int) ^ Layout.double.exponentBits = 2048 := by decide
  have hlog : m.log2 < 53 := (Nat.log2_lt hm.ne').2 hlt
  obtain ⟨word, hword, m', e', hdecode, hvalue⟩ :=
    Layout.exists_word_of_short (f := .double) (e := e)
    (decide (q.num < 0)) hm (by omega) (by omega) (by omega)
  rw [hvalue] at hq
  have hdenotes := denotes_of_datum (x := ofWord .double word) ((datum_ofWord hword).trans hdecode)
  rw [← hq, signed_abs] at hdenotes
  rwa [ofRat_eq_ofWord (p := .double) hword hdecode hq]

theorem denotes_intCast {n : Int} (hn : |n| < 2 ^ 53) :
    Denotes (α := Machine) (Arithmetic.ofRat n) n := by
  rcases eq_or_ne n 0 with rfl | hne
  · exact denotes_ofRat_zero
  · refine denotes_ofRat (m := n.natAbs) (e := 0) ?_ (Int.natAbs_pos.2 hne)
      (by rw [abs_lt] at hn; omega) (by decide) (by decide)
    rw [zpow_zero, mul_one, Nat.cast_natAbs, Int.cast_abs]

theorem ofRat_of_pos {q : ℚ} (hq : 0 < q) : (Arithmetic.ofRat q : Machine p) =
    ofWord p (p.layout.nearest q.num.natAbs q.den) := by
  have hnum : ¬q.num < 0 := (Rat.num_pos.2 hq).le.not_gt
  change ofWord p (if q.num < 0 then _ else _) = _
  rw [if_neg hnum]

theorem ofRat_approximates {q : ℚ} (hlow : 10 ^ (-300 : Int) ≤ q) (hhigh : q ≤ 10 ^ (300 : Int)) :
    Approximates (α := Machine) 1 (Arithmetic.ofRat q) q := by
  have hpos : 0 < q := lt_of_lt_of_le (by positivity) hlow
  have hnum : 0 < q.num.natAbs := Int.natAbs_pos.2 (Rat.num_pos.2 hpos).ne'
  have hden : (0 : ℚ) < q.den := by exact_mod_cast q.den_pos
  have hquotient := Exact.num_div_den_of_pos hpos
  have hmin : Layout.double.minExponent + Layout.double.fractionBits = -1022 := by decide
  have hrange : (2 : Int) ^ Layout.double.exponentBits = 2048 := by decide
  obtain ⟨hle, hlt⟩ := floorLog2_spec hnum q.den_pos
  rw [mul_comm, ← le_div_iff₀ hden, hquotient] at hle
  rw [mul_comm, ← div_lt_iff₀ hden, hquotient] at hlt
  have hleast := (zpow_lt_zpow_iff_right₀ one_lt_two).1 ((le_ten_pow.trans hlow).trans_lt hlt)
  have hmost := (zpow_le_zpow_iff_right₀ one_lt_two).1 (hle.trans (hhigh.trans ten_pow_le))
  obtain ⟨hless, m, e, hdecode, herror⟩ := Layout.nearest_error (f := .double) hnum q.den_pos
    (by omega) (by omega)
  rw [hquotient] at herror
  rw [ofRat_of_pos hpos]
  have hword : Layout.double.infinity ≤ 2 * Layout.double.signBit := by decide
  exact ⟨_, denotes_of_datum ((datum_ofWord (p := .double) (hless.trans_le hword)).trans hdecode),
    isClose_of_error hpos.le herror⟩

theorem compare?_of_denotes (hx : Denotes (α := Machine) x u) (hy : Denotes (α := Machine) y v) :
    Arithmetic.compare? x y = some (cmp u v) := by
  rw [compare?_eq, denotes_iff.1 hx, denotes_iff.1 hy]
  exact congrArg some (cmp_coe u v)

theorem denotes_abs (hx : Denotes (α := Machine) x u) :
    Denotes (α := Machine) (Arithmetic.abs x) |u| := by
  have hmagnitude {z : Machine .double} {m : Nat} {e : Int} (hd : datum z = .finite false m e) :
      Denotes (α := Machine) (Arithmetic.abs z) (m * 2 ^ e) := by
    have hself := ofUnpacked_datum z
    have habs : (datum z).unpacked.abs = (datum z).unpacked := by
      rcases unpacked_finite false m e with hu | ⟨hm, hu⟩ <;> rw [hd, hu] <;> rfl
    rw [abs_eq, habs, hself]
    exact denotes_of_datum hd
  obtain ⟨negative, m, e, hd, rfl⟩ := exists_datum (denotes_iff.1 hx)
  rw [abs_signed negative (by positivity)]
  cases negative with
  | false => exact hmagnitude hd
  | true =>
      rw [← abs_neg]
      exact hmagnitude (by rw [datum_neg, hd]; rfl)

/-! ## The functions of the library -/

/-- Powers of ten are a thousandth off at most, logarithms one, and floors are exact. -/
structure AccurateLibrary (pow : Machine .double → Machine .double → Machine .double)
    (log10 floor : Machine .double → Machine .double) : Prop where
  pow {x y : Machine .double} {n : Int} (hx : Denotes (α := Machine) x 10)
    (hy : Denotes (α := Machine) y n) (hn : |n| ≤ 300) :
    Approximates (α := Machine) 1 (pow x y) (10 ^ n)
  log10 {x : Machine .double} {u : ℚ} (hx : Denotes (α := Machine) x u) (hu : 0 < u) :
    ∃ w : ℚ, Denotes (α := Machine) (log10 x) w ∧ |(w : ℝ) - Real.logb 10 u| ≤ 1
  floor {x : Machine .double} {u : ℚ} (hx : Denotes (α := Machine) x u) :
    Denotes (α := Machine) (floor x) ⌊u⌋

theorem exponent_eq_floor_logb (hu : 0 < u) : exponent u = ⌊Real.logb 10 u⌋ := by
  have hu' : (0 : ℝ) < u := by exact_mod_cast hu
  refine eq_of_forall_le_iff fun k => ?_
  rw [← zpow_le_iff hu, Int.le_floor, Real.le_logb_iff_rpow_le (by norm_num) hu', Real.rpow_intCast,
    ← Rat.cast_le (K := ℝ), Rat.cast_zpow, Rat.cast_ofNat]

theorem denotes_ofRat_floor (hx : Denotes (α := Machine) x u) :
    Denotes (α := Machine) (Arithmetic.ofRat ⌊u⌋) ⌊u⌋ := by
  obtain ⟨negative, m, e, hd, hvalue⟩ := exists_datum (denotes_iff.1 hx)
  obtain ⟨hlt, -, hhigh⟩ := double_bounds hd
  have habs : |u| = m * 2 ^ e := by rw [← hvalue, abs_signed negative (by positivity)]
  rcases lt_or_ge e 0 with hneg | hnonneg
  · have hsmall : |u| < 2 ^ 52 := by
      have hm : (m : ℚ) < 2 ^ 53 := by exact_mod_cast hlt
      calc |u| = m * 2 ^ e := habs
        _ ≤ m * 2 ^ (-1 : Int) :=
          mul_le_mul_of_nonneg_left (zpow_le_zpow_right₀ one_le_two (by omega)) (by positivity)
        _ < 2 ^ 52 := by norm_num; linarith
    have hfloor := Int.floor_le u
    have hceil := Int.lt_floor_add_one u
    rw [abs_lt] at hsmall
    have hbelow : -(2 ^ 53 : Int) < ⌊u⌋ := by
      have h : (-(2 ^ 53) : ℚ) < ⌊u⌋ := by linarith
      exact_mod_cast h
    have habove : ⌊u⌋ < (2 ^ 53 : Int) := by
      have h : (⌊u⌋ : ℚ) < 2 ^ 53 := by linarith
      exact_mod_cast h
    exact denotes_intCast (abs_lt.2 ⟨hbelow, habove⟩)
  · obtain ⟨k, rfl⟩ := Int.eq_ofNat_of_zero_le hnonneg
    have hwhole : (⌊u⌋ : ℚ) = u := by
      rw [← hvalue, signed]
      cases negative with
      | false => exact_mod_cast congrArg _ (Int.floor_natCast (R := ℚ) (m * 2 ^ k))
      | true => exact_mod_cast congrArg _ (Int.floor_intCast (R := ℚ) (-(m * 2 ^ k : Nat)))
    rw [hwhole]
    rcases Nat.eq_zero_or_pos m with rfl | hm
    · have hzero : u = 0 := by simpa using habs
      rw [hzero]
      exact denotes_ofRat_zero
    · exact denotes_ofRat habs hm hlt (by omega) hhigh

theorem exists_accurateLibrary : ∃ pow log10 floor, AccurateLibrary pow log10 floor := by
  refine ⟨fun x y =>
      Arithmetic.ofRat (α := Machine) (toRat (p := .double) x ^ ⌊toRat (p := .double) y⌋),
    fun x => Arithmetic.ofRat (α := Machine) (exponent (toRat (p := .double) x)),
    fun x => Arithmetic.ofRat (α := Machine) ⌊toRat (p := .double) x⌋, ?_, ?_, ?_⟩
  · intro x y n hx hy hn
    obtain ⟨hlow, hhigh⟩ := abs_le.1 hn
    have hten : toRat (p := .double) x = 10 := hx.2
    have hexponent : toRat (p := .double) y = n := hy.2
    rw [hten, hexponent, Int.floor_intCast]
    exact ofRat_approximates (zpow_le_zpow_right₀ (by norm_num) hlow)
      (zpow_le_zpow_right₀ (by norm_num) hhigh)
  · intro x u hx hu
    obtain ⟨hlow, hhigh⟩ := inRange (denotes_iff.1 hx) hu.ne'
    have hvalue : toRat (p := .double) x = u := hx.2
    rw [hvalue]
    refine ⟨exponent u, denotes_intCast (by rw [abs_lt]; omega), ?_⟩
    rw [exponent_eq_floor_logb hu, Rat.cast_intCast, abs_le]
    have hle := Int.floor_le (Real.logb 10 u)
    have hlt := Int.lt_floor_add_one (Real.logb 10 u)
    constructor <;> linarith
  · intro x u hx
    have hvalue : toRat (p := .double) x = u := hx.2
    rw [hvalue]
    exact denotes_ofRat_floor hx

variable {pow : Machine .double → Machine .double → Machine .double}
  {log10 floor : Machine .double → Machine .double}

theorem AccurateLibrary.floor_log10 (h : AccurateLibrary pow log10 floor)
    (hx : Denotes (α := Machine) x u) (hu : 0 < u) :
    |⌊toRat (p := .double) (floor (log10 x))⌋ - exponent u| ≤ 1 := by
  obtain ⟨w, hw, hclose⟩ := h.log10 hx hu
  have hvalue : toRat (p := .double) (floor (log10 x)) = ⌊w⌋ := (h.floor hw).2
  obtain ⟨hlow, hhigh⟩ := abs_le.1 hclose
  have hbelow := Int.floor_le_floor (sub_le_iff_le_add'.1 hhigh)
  have habove := Int.floor_le_floor (neg_le_sub_iff_le_add.1 hlow)
  rw [Int.floor_add_one] at hbelow habove
  rw [hvalue, Int.floor_intCast, exponent_eq_floor_logb hu, ← Rat.floor_cast (α := ℝ) w, abs_le]
  omega

/-- With an accurate library the arithmetic of double precision is faithful. -/
theorem faithful (h : AccurateLibrary Float.pow Float.log10 Float.floor) : Faithful Machine where
  ofRat v hv := by
    simp only [List.mem_cons, List.not_mem_nil, or_false] at hv
    rcases hv with rfl | rfl | rfl | rfl
    · exact denotes_ofRat_zero
    · exact denotes_ofRat (m := 1) (e := -1) (by norm_num) (by decide) (by decide) (by decide)
        (by decide)
    · exact_mod_cast denotes_intCast (n := 1) (by decide)
    · exact_mod_cast denotes_intCast (n := 10) (by decide)
  abs := denotes_abs
  compare? := compare?_of_denotes
  add := add_approximates
  sub := sub_approximates
  mul := mul_approximates
  div := div_approximates
  tenTo hn := h.pow (by exact_mod_cast denotes_intCast (n := 10) (by decide))
    (denotes_intCast (lt_of_le_of_lt hn (by decide))) hn
  floor := h.floor
  floorLog10 := h.floor_log10

end Metrology.Machine
