import Metrology.Proofs.Engineering.Inexact
import Metrology.Proofs.Scalar.Sign
import Metrology.Quantity.Text

/-!
# Finite machine scalars

A machine scalar is finite when it stands for a rational number, and that number is its exact value.
Numbers of double precision other than zero have decimal exponents from -324 up to 308.
-/

namespace Metrology

open Metrology.Binary Metrology.Decimal

theorem Binary.abs_signed (negative : Bool) {x : ℚ} (hx : 0 ≤ x) : |signed negative x| = x := by
  cases negative with
  | false => exact abs_of_nonneg hx
  | true => exact (abs_neg x).trans (abs_of_nonneg hx)

namespace Machine

variable {p : Precision}

theorem mkRat_scaled (m : Nat) (e : Int) :
    mkRat (scaled m e).1 (scaled m e).2 = (m : ℚ) * 2 ^ e := by
  have hpos : (0 : ℚ) < (scaled m e).2 := by
    rw [scaled_eq_scaledBy]
    exact_mod_cast scaledBy_snd_pos two_pos
  rw [Rat.mkRat_eq_div, Int.cast_natCast, div_eq_iff hpos.ne', scaled_value]

theorem finite_iff {x : Machine p} {v : ℚ} :
    (isFinite x = true ∧ toRat x = v) ↔ x.extended? = some ((v : WithTop ℚ) : Extended) := by
  unfold isFinite toRat extended?
  cases datum x with
  | nan => simp [Datum.extended?]
  | infinite negative => cases negative <;> simp [Datum.extended?]
  | finite negative m e =>
      have hvalue : cond negative (-mkRat (scaled m e).1 (scaled m e).2)
          (mkRat (scaled m e).1 (scaled m e).2) = signed negative (m * 2 ^ e) := by
        rw [mkRat_scaled, signed]
      dsimp only
      rw [hvalue, Datum.extended?, Option.some_inj, WithBot.coe_inj, WithTop.coe_inj]
      exact and_iff_right rfl

variable {x : Machine .double} {v : ℚ}

theorem denotes_iff :
    Denotes (α := Machine) x v ↔ x.extended? = some ((v : WithTop ℚ) : Extended) :=
  finite_iff

theorem exists_datum {x : Machine p} (hx : x.extended? = some ((v : WithTop ℚ) : Extended)) :
    ∃ negative m e, datum x = .finite negative m e ∧ signed negative (m * 2 ^ e) = v := by
  unfold extended? at hx
  cases hd : datum x with
  | nan => simp [hd, Datum.extended?] at hx
  | infinite negative =>
      rw [hd, Datum.extended?, Option.some_inj] at hx
      cases negative with
      | false => exact absurd (WithBot.coe_inj.1 hx) WithTop.top_ne_coe
      | true => exact absurd hx WithBot.bot_ne_coe
  | finite negative m e =>
      rw [hd, Datum.extended?, Option.some_inj, WithBot.coe_inj, WithTop.coe_inj] at hx
      exact ⟨negative, m, e, rfl, hx⟩

theorem two_pow_le : (2 : ℚ) ^ (1023 : Int) ≤ 10 ^ (308 : Int) :=
  calc (2 : ℚ) ^ (1023 : Int) = (2 ^ 93) ^ 11 := by rw [← pow_mul]; rfl
    _ ≤ (10 ^ 28) ^ 11 := pow_le_pow_left₀ (by positivity) (by norm_num) 11
    _ = 10 ^ (308 : Int) := by rw [← pow_mul]; rfl

theorem double_bounds {negative : Bool} {m : Nat} {e : Int}
    (h : datum x = .finite negative m e) : m < 2 ^ 53 ∧ -1074 ≤ e ∧ e ≤ 971 := by
  have hmin : Layout.double.minExponent = -1074 := by decide
  obtain ⟨hm, hlow, -⟩ := Layout.decode_bounds (f := .double) h
  obtain ⟨-, E, r, -, hE, -, ⟨-, -, he⟩ | ⟨-, -, he⟩⟩ := Layout.decode_eq_finite (f := .double) h
  · exact ⟨hm, by omega, by omega⟩
  · have hfield : E + 1 < 2048 := hE
    exact ⟨hm, by omega, by omega⟩

theorem double_leading {negative : Bool} {m : Nat} {e : Int} (h : datum x = .finite negative m e) :
    2 ^ 52 ≤ m ∨ e = -1074 := by
  have hmin : Layout.double.minExponent = -1074 := by decide
  obtain ⟨-, E, r, -, -, -, ⟨-, -, he⟩ | ⟨-, hr, -⟩⟩ := Layout.decode_eq_finite (f := .double) h
  · exact .inr (he.trans hmin)
  · exact .inl (by rw [hr]; exact Nat.le_add_left _ _)

theorem inRange (hx : x.extended? = some ((v : WithTop ℚ) : Extended)) (hv : v ≠ 0) :
    Engineering.InRange v := by
  obtain ⟨negative, m, e, hd, rfl⟩ := exists_datum hx
  obtain ⟨hm, hlow, hhigh⟩ := double_bounds hd
  have habs : |signed negative (m * 2 ^ e)| = m * 2 ^ e := abs_signed negative (by positivity)
  have hpos := abs_pos.2 hv
  rw [Engineering.InRange, ← exponent_abs, ← zpow_le_iff hpos, ← Int.lt_add_one_iff,
    ← lt_zpow_iff hpos, habs]
  have hone : 1 ≤ m := by
    rw [habs] at hpos
    exact Nat.one_le_iff_ne_zero.2 fun h0 => by simp [h0] at hpos
  constructor
  · calc (10 : ℚ) ^ (-324 : Int) = (10 ^ (308 : Int) * 10 ^ (16 : Int))⁻¹ := by
          rw [← zpow_add₀ (by norm_num), ← zpow_neg]
          rfl
      _ ≤ (2 ^ (1023 : Int) * 2 ^ (51 : Int))⁻¹ := by
          have := two_pow_le
          gcongr
          norm_num
      _ = 2 ^ (-1074 : Int) := by
          rw [← zpow_add₀ (by norm_num), ← zpow_neg]
          rfl
      _ ≤ 2 ^ e := zpow_le_zpow_right₀ (by norm_num) hlow
      _ ≤ m * 2 ^ e := le_mul_of_one_le_left (by positivity) (by exact_mod_cast hone)
  · calc (m : ℚ) * 2 ^ e < 2 ^ (53 : Int) * 2 ^ e := by
          gcongr
          exact_mod_cast hm
      _ = 2 ^ (53 + e) := (zpow_add₀ (by norm_num) _ _).symm
      _ ≤ 2 ^ (1023 + 1 : Int) := zpow_le_zpow_right₀ (by norm_num) (by omega)
      _ = 2 ^ (1023 : Int) * 2 := zpow_add_one₀ (by norm_num) _
      _ ≤ 10 ^ (308 : Int) * 10 := mul_le_mul two_pow_le (by norm_num) (by norm_num) (by positivity)
      _ = 10 ^ (308 + 1 : Int) := (zpow_add_one₀ (by norm_num) _).symm

theorem specialText?_eq_none_iff : Engineering.specialText? (α := Machine) x = none ↔
    ∃ v : ℚ, x.extended? = some ((v : WithTop ℚ) : Extended) ∧ v ≠ 0 := by
  have hfinite : Decadic.isFinite (α := Machine) x = isFinite x := rfl
  rw [Engineering.specialText?, compare?_eq, extended?_zero, hfinite]
  unfold extended? isFinite
  cases datum x with
  | nan => simp [Datum.extended?]
  | infinite negative =>
      have hcmp : cmp (cond negative ⊥ ⊤ : Extended) 0 = cond negative .lt .gt :=
        cmp_infinite_coe 0 negative
      simp only [Datum.extended?, Option.map₂_some_some, hcmp]
      cases negative <;> simp
  | finite negative m e =>
      have hcmp : cmp ((signed negative (m * 2 ^ e) : WithTop ℚ) : Extended) 0 =
          cmp (signed negative (m * 2 ^ e)) 0 := cmp_coe _ 0
      simp only [Datum.extended?, Option.map₂_some_some, hcmp, Option.some_inj, WithBot.coe_inj,
        WithTop.coe_inj, exists_eq_left']
      rcases lt_trichotomy (signed negative (m * 2 ^ e)) 0 with h | h | h
      · simp [h.cmp_eq_lt, h.ne]
      · simp [h]
      · simp [h.cmp_eq_gt, h.ne']

end Machine

end Metrology
