import Metrology.Quantity.Text
import Metrology.Proofs.Engineering.Reading

/-!
# Magnitude and unit of a quantity, each on its own

The unit is given on its own with the default number of digits only.  Next to a magnitude of another
number of digits it is the wrong one where rounding carries over to a power of a thousand with one
of the two numbers and not with the other, provided that the unit takes prefixes.
-/

namespace Metrology

open Metrology.Decimal

namespace Engineering

/-- Rounding to `n` significant digits carries `x` over to the `k`-th power of a thousand. -/
def CarriesTo (n : Nat) (x : ℚ) (k : Int) : Prop :=
  1000 ^ k * (1 - 1 / (2 * 10 ^ n)) ≤ |x| ∧ |x| < 1000 ^ k

instance (n : Nat) (x : ℚ) (k : Int) : Decidable (CarriesTo n x k) :=
  inferInstanceAs (Decidable (_ ∧ _))

variable {m n : Nat} {x : ℚ} {k : Int}

theorem carriesTo_abs : CarriesTo n |x| k ↔ CarriesTo n x k := by
  simp [CarriesTo]

theorem not_carriesTo_zero : ¬ CarriesTo n 0 k := by
  rintro ⟨hle, -⟩
  have hhalf : (1 : ℚ) / (2 * 10 ^ n) < 1 := by
    rw [div_lt_one (by positivity)]
    have : (1 : ℚ) ≤ 10 ^ n := one_le_pow₀ (by norm_num)
    linarith
  have : (0 : ℚ) < 1000 ^ k * (1 - 1 / (2 * 10 ^ n)) := mul_pos (by positivity) (by linarith)
  rw [abs_zero] at hle
  linarith

theorem thousand_zpow (k : Int) : (1000 : ℚ) ^ k = 10 ^ (k * 3) := by
  rw [mul_comm, zpow_mul]
  norm_num

theorem carriesTo_iff (hx : 0 < x) :
    CarriesTo n x k ↔ coefficient n x = 10 ^ n ∧ exponent x + 1 = k * 3 := by
  rw [CarriesTo, abs_of_pos hx, thousand_zpow, coefficient_eq_pow_iff hx]
  constructor
  · rintro ⟨hle, hlt⟩
    have hpow : (1 : ℚ) ≤ 10 ^ n := one_le_pow₀ (by norm_num)
    have htenth : (10 : ℚ)⁻¹ ≤ 1 - 1 / (2 * 10 ^ n) := by
      have : (1 : ℚ) / (2 * 10 ^ n) ≤ 1 / (2 * 1) := by gcongr
      linarith
    have hlow : (10 : ℚ) ^ (k * 3 - 1) ≤ x := by
      rw [zpow_sub_one₀ (by norm_num)]
      exact (mul_le_mul_of_nonneg_left htenth (by positivity)).trans hle
    have hexponent : exponent x + 1 = k * 3 := by
      have := (zpow_le_iff hx).1 hlow
      have := (lt_zpow_iff hx).1 hlt
      omega
    rw [hexponent]
    exact ⟨hle, rfl⟩
  · rintro ⟨hle, hexponent⟩
    rw [← hexponent]
    exact ⟨hle, lt_zpow_exponent hx⟩

theorem CarriesTo.eq (h : CarriesTo n x k) (hx : 0 < x) : k = exponent x / 3 + 1 := by
  obtain ⟨-, hexponent⟩ := (carriesTo_iff hx).1 h
  omega

theorem thousands_roundSignificant (hx : 0 < x) (hn : 0 < n) :
    thousands (roundSignificant n x) =
      (if CarriesTo n x (exponent x / 3 + 1) then exponent x / 3 + 1 else exponent x / 3) * 3 := by
  unfold thousands
  rcases exponent_roundSignificant hx hn with ⟨hlt, he⟩ | ⟨hc, hr⟩
  · rw [he, if_neg fun h => hlt.ne ((carriesTo_iff hx).1 h).1]
  · rw [hr, exponent_zpow]
    split
    · rename_i h
      rw [((carriesTo_iff hx).1 h).2]
      omega
    · rename_i h
      have hne : exponent x + 1 ≠ (exponent x / 3 + 1) * 3 := fun he =>
        h ((carriesTo_iff hx).2 ⟨hc, he⟩)
      omega

theorem prefixFor_of_takes {d : Dimension} (hd : d.isSingle = true ∧ d ≠ Kind.mass.dimension)
    (k : Int) :
    prefixFor d (k * 3) = if -8 ≤ k ∧ k ≤ 8 then prefixText (k * 3) else "" :=
  if_congr ((takesPrefix_mul_three_iff d k).trans (and_iff_right hd)) rfl rfl

theorem prefixFor_of_not_takes {d : Dimension}
    (hd : ¬(d.isSingle = true ∧ d ≠ Kind.mass.dimension)) (k : Int) : prefixFor d (k * 3) = "" :=
  if_neg fun h => hd ((takesPrefix_mul_three_iff d k).1 h).1

theorem prefixFor_succ_eq_iff (d : Dimension) (k : Int) :
    prefixFor d ((k + 1) * 3) = prefixFor d (k * 3) ↔
      ¬((d.isSingle = true ∧ d ≠ Kind.mass.dimension) ∧ -9 ≤ k ∧ k ≤ 8) := by
  by_cases hd : d.isSingle = true ∧ d ≠ Kind.mass.dimension
  · rw [prefixFor_of_takes hd, prefixFor_of_takes hd, and_iff_right hd]
    by_cases hk : -9 ≤ k ∧ k ≤ 8
    · have hall : ∀ k ∈ Finset.Icc (-9 : Int) 8,
          (if -8 ≤ k + 1 ∧ k + 1 ≤ 8 then prefixText ((k + 1) * 3) else "") ≠
            if -8 ≤ k ∧ k ≤ 8 then prefixText (k * 3) else "" := by
        decide
      exact iff_of_false (hall k (Finset.mem_Icc.2 hk)) (not_not_intro hk)
    · have hnext : ¬(-8 ≤ k + 1 ∧ k + 1 ≤ 8) := by omega
      have hthis : ¬(-8 ≤ k ∧ k ≤ 8) := by omega
      rw [if_neg hnext, if_neg hthis]
      exact iff_of_true rfl hk
  · rw [prefixFor_of_not_takes hd, prefixFor_of_not_takes hd]
    exact iff_of_true rfl fun h => hd h.1

theorem forall_carriesTo_iff (hx : 0 < x) :
    (∀ k, -8 ≤ k → k ≤ 9 → (CarriesTo m x k ↔ CarriesTo n x k)) ↔
      (-9 ≤ exponent x / 3 ∧ exponent x / 3 ≤ 8 →
        (CarriesTo m x (exponent x / 3 + 1) ↔ CarriesTo n x (exponent x / 3 + 1))) := by
  constructor
  · rintro h ⟨hlow, hhigh⟩
    exact h _ (by omega) (by omega)
  · intro h k hlow hhigh
    by_cases hk : k = exponent x / 3 + 1
    · subst hk
      exact h ⟨by omega, by omega⟩
    · exact iff_of_false (fun hm => hk (hm.eq hx)) (fun hn => hk (hn.eq hx))

theorem prefixFor_thousands_eq_iff (d : Dimension) (hx : 0 < x) (hm : 0 < m) (hn : 0 < n) :
    prefixFor d (thousands (roundSignificant m x)) =
        prefixFor d (thousands (roundSignificant n x)) ↔
      (d.isSingle = true ∧ d ≠ Kind.mass.dimension →
        ∀ k, -8 ≤ k → k ≤ 9 → (CarriesTo m x k ↔ CarriesTo n x k)) := by
  -- Both powers are the one below `x` or the next, so only neighbours have to be compared.
  have hsucc := prefixFor_succ_eq_iff d (exponent x / 3)
  rw [forall_carriesTo_iff hx, thousands_roundSignificant hx hm, thousands_roundSignificant hx hn,
    ← and_imp]
  by_cases hcm : CarriesTo m x (exponent x / 3 + 1) <;>
    by_cases hcn : CarriesTo n x (exponent x / 3 + 1)
  · simp [hcm, hcn]
  · simpa [hcm, hcn] using hsucc
  · rw [eq_comm]
    simpa [hcm, hcn] using hsucc
  · simp [hcm, hcn]

end Engineering

namespace Quantity

open Engineering

section

variable {α : Precision → Type} [Decadic α]

def takenOut (q : Quantity α) (digits : Nat) : Int :=
  (split (Decadic.floorLog10 (Arithmetic.abs q.scalar.toDouble)) (Arithmetic.abs q.scalar.toDouble)
    digits).2

theorem unit_engineering (q : Quantity α) (digits : Nat) (showPlus : Bool) :
    (q.engineering digits showPlus).result.unit =
      if specialText? q.scalar.toDouble = none
        then prefixFor q.dimension (q.takenOut digits) ++ q.dimension.preferredSymbol
        else q.dimension.preferredSymbol := by
  unfold engineering render
  split
  · rename_i h
    rw [renderWith_of_ordinary h]
    rfl
  · rename_i h
    obtain ⟨text, htext⟩ := Option.ne_none_iff_exists'.1 h
    rw [renderWith_of_special htext]

theorem text_of_parts_iff (q : Quantity α) (digits : Nat) (showPlus : Bool) :
    (q.engineeringMagnitude digits showPlus).result ++ " " ++ q.engineeringUnit.result =
        (q.engineeringText digits showPlus).result ↔
      specialText? q.scalar.toDouble = none →
        prefixFor q.dimension (q.takenOut digits) =
          prefixFor q.dimension (q.takenOut defaultDigits) := by
  simp only [engineeringMagnitude, engineeringUnit, engineeringText, Logged.map, text]
  rw [String.append_right_inj, unit_engineering, unit_engineering]
  by_cases h : specialText? q.scalar.toDouble = none
  · simp [h, eq_comm]
  · simp [h]

end

theorem takenOut_exact (q : Quantity Exact) (hx : q.scalar.number ≠ 0) (digits : Nat) :
    q.takenOut digits = thousands (roundSignificant (clampDigits digits) |q.scalar.number|) := by
  have hpos := abs_pos.2 hx
  unfold takenOut
  rw [Scalar.toDouble_eq_number]
  change (split (α := Exact) (Decadic.floorLog10 (α := Exact) |q.scalar.number|)
    |q.scalar.number| digits).2 = _
  rw [split_eq hpos (isEstimate_floorLog10 _ hpos)]

/-- In any arithmetic magnitude and unit make up the text if and only if both numbers of digits lead
to one prefix.  Over the rationals they fail to where the unit takes prefixes and one of the two
roundings alone carries over to a power of a thousand within reach of the prefixes. -/
theorem magnitude_space_unit_eq_text_iff :
    (∀ (α : Precision → Type) [Decadic α] (q : Quantity α) (digits : Nat) (showPlus : Bool),
      (q.engineeringMagnitude digits showPlus).result ++ " " ++ q.engineeringUnit.result =
          (q.engineeringText digits showPlus).result ↔
        specialText? q.scalar.toDouble = none →
          prefixFor q.dimension (q.takenOut digits) =
            prefixFor q.dimension (q.takenOut defaultDigits)) ∧
    (∀ (q : Quantity Exact) (digits : Nat) (showPlus : Bool),
      (q.engineeringMagnitude digits showPlus).result ++ " " ++ q.engineeringUnit.result =
          (q.engineeringText digits showPlus).result ↔
        q.dimension.isSingle = true ∧ q.dimension ≠ Kind.mass.dimension →
          ∀ k, -8 ≤ k → k ≤ 9 →
            (CarriesTo (clampDigits digits) q.scalar.number k ↔
              CarriesTo defaultDigits q.scalar.number k)) := by
  refine ⟨fun α _ q digits showPlus => q.text_of_parts_iff digits showPlus, ?_⟩
  intro q digits showPlus
  rw [text_of_parts_iff]
  by_cases hx : q.scalar.number = 0
  · have hspecial : specialText? (α := Exact) 0 = some "0" := by decide +kernel
    simp [Scalar.toDouble_eq_number, hx, hspecial, not_carriesTo_zero]
  · have hdefault : clampDigits defaultDigits = defaultDigits := rfl
    rw [takenOut_exact q hx, takenOut_exact q hx, Scalar.toDouble_eq_number,
      imp_iff_right (specialText?_eq_none hx),
      prefixFor_thousands_eq_iff _ (abs_pos.2 hx) (clampDigits_pos _) (clampDigits_pos _), hdefault]
    simp only [carriesTo_abs]

end Quantity

/-- Machine numbers whose powers, floors and decimal exponents are computed exactly and rounded
once. -/
def Rounded (p : Precision) : Type := Machine p

namespace Rounded

def exact {p : Precision} (x : Rounded p) : ℚ := Machine.toRat (p := p) x

instance : Arithmetic Rounded :=
  { (inferInstanceAs (Arithmetic Machine) : Arithmetic Rounded) with
    power := fun x n => Machine.ofRat (exact x ^ n) }

instance : Decadic Rounded where
  floor x := Machine.ofRat (p := .double) ⌊exact x⌋
  floorLog10 x := floorLog10 (exact x).num.natAbs (exact x).den
  isFinite := Machine.isFinite (p := .double)
  toRat := exact

end Rounded

namespace Quantity

def nearlyKilometer : Quantity Rounded :=
  ⟨Kind.length.dimension, ⟨.double, Machine.ofRat (p := .double) 999.96⟩, by decide⟩

/-- Four digits of 999.96 m are 1 km, but the unit on its own is the metre. -/
theorem magnitude_space_unit_ne_text :
    ¬ ∀ (q : Quantity Rounded) (digits : Nat) (showPlus : Bool),
      (q.engineeringMagnitude digits showPlus).result ++ " " ++ q.engineeringUnit.result =
        (q.engineeringText digits showPlus).result := by
  intro h
  have hparts := h nearlyKilometer 4 false
  have htext : (nearlyKilometer.engineeringText 4 false).result = "1 km" := by decide +kernel
  have hmagnitude : (nearlyKilometer.engineeringMagnitude 4 false).result = "1" := by decide +kernel
  have hunit : nearlyKilometer.engineeringUnit.result = "m" := by decide +kernel
  rw [htext, hmagnitude, hunit] at hparts
  revert hparts
  decide

end Quantity

end Metrology
