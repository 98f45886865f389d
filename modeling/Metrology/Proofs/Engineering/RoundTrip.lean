import Metrology.Proofs.Engineering.Reading

/-!
# Round trip of engineering notation

With at most six digits a rendering says exactly what the value is rounded to, and rendering that
number again gives the same texts.
-/

namespace Metrology.Engineering

open Metrology.Decimal

variable {estimate : ℚ → Int} {x : ℚ}

theorem clampDigits_of_le {digits : Nat} (h : digits ≤ maxDigits) :
    clampDigits digits = max digits 1 := by
  change max 1 (min maxDigits digits) = max digits 1
  omega

theorem sign_roundSignificant (hx : x ≠ 0) {n : Nat} (hn : 0 < n) (showPlus : Bool) :
    sign (α := Exact) (roundSignificant n x) showPlus = sign (α := Exact) x showPlus := by
  have hneg : Arithmetic.lt (α := Exact) (p := .double) (roundSignificant n x) Arithmetic.zero =
      Arithmetic.lt (α := Exact) (p := .double) x Arithmetic.zero := by
    rw [Bool.eq_iff_iff, Exact.lt_iff, Exact.lt_iff]
    exact roundSignificant_neg_iff hx hn
  unfold sign
  rw [hneg]

theorem renderWith_roundSignificant (hest : IsEstimate estimate) (d : Dimension) (hx : x ≠ 0)
    (digits : Nat) (showPlus : Bool) :
    (renderWith (α := Exact) estimate d (roundSignificant (clampDigits digits) x) digits
        showPlus).result =
      (renderWith (α := Exact) estimate d x digits showPlus).result := by
  have hn := clampDigits_pos digits
  have habs := abs_roundSignificant hx hn
  have hne : roundSignificant (clampDigits digits) x ≠ 0 := by
    rw [← abs_pos, habs]
    exact roundSignificant_pos (abs_pos.2 hx) hn
  rw [renderWith_eq hest d hne, renderWith_eq hest d hx, sign_roundSignificant hx hn, habs,
    roundSignificant_idem (abs_pos.2 hx) hn]

theorem number?_eq_roundSignificant (hest : IsEstimate estimate) (d : Dimension) (hx : x ≠ 0)
    {digits : Nat} (hdigits : clampDigits digits ≤ 6) (showPlus : Bool) :
    number? d (renderWith (α := Exact) estimate d x digits showPlus).result =
      some (roundSignificant (clampDigits digits) x) := by
  obtain ⟨p, hp, -, -, -, hnumber⟩ := reads_renderWith hest d hx digits showPlus
  rw [shown_mantissa_roundSignificant (abs_pos.2 hx) (clampDigits_pos digits) hdigits,
    mantissa_mul_zpow, ← roundSignificant_eq_ite hx] at hnumber
  rw [number?, hp, Option.bind_some, hnumber]

/-- A rendering with at most six digits is taken apart into a trimmed decimal and a power of a
thousand that is written once.  The parts denote the value as it is rounded to those digits, and the
rounded value is rendered by the same texts. -/
theorem renderWith_reads_back (hest : IsEstimate estimate) (d : Dimension) (hx : x ≠ 0)
    {digits : Nat} (hdigits : digits ≤ 6) (showPlus : Bool) :
    let rendered := (renderWith (α := Exact) estimate d x digits showPlus).result
    let rounded := roundSignificant (max digits 1) x
    ∃ p, parts? d rendered = some p ∧ p.number? = some rounded ∧
      (p.multiplier = "" ∨ p.exponent? = none) ∧ IsTrimmed p.decimal ∧
      (renderWith (α := Exact) estimate d rounded digits showPlus).result = rendered := by
  have hmax : digits ≤ maxDigits := hdigits.trans (by decide)
  have hsix : clampDigits digits ≤ 6 := by
    rw [clampDigits_of_le hmax]
    omega
  obtain ⟨p, hp, -, htrimmed, honce, -⟩ := reads_renderWith hest d hx digits showPlus
  have hnumber := number?_eq_roundSignificant hest d hx hsix showPlus
  rw [number?, hp, Option.bind_some] at hnumber
  have hagain := renderWith_roundSignificant hest d hx digits showPlus
  rw [clampDigits_of_le hmax] at hnumber hagain
  exact ⟨p, hp, hnumber, honce, htrimmed, hagain⟩

/-- A carry to the next prefix, from an estimate that is one too high. -/
theorem renderWith_reads_back_carry :
    IsEstimate (fun x => exponent x + 1) ∧ (-999.9996 : ℚ) ≠ 0 ∧ 6 ≤ 6 ∧
      let rendered := (renderWith (α := Exact) (fun x => exponent x + 1) Kind.length.dimension
        (-999.9996 : ℚ) 6 true).result
      let rounded := roundSignificant (max 6 1) (-999.9996)
      ∃ p, parts? Kind.length.dimension rendered = some p ∧ p.number? = some rounded ∧
        (p.multiplier = "" ∨ p.exponent? = none) ∧ IsTrimmed p.decimal ∧
        (renderWith (α := Exact) (fun x => exponent x + 1) Kind.length.dimension rounded 6
          true).result = rendered := by
  have hest : IsEstimate (fun x => exponent x + 1) := fun x _ => by simp
  have hx : (-999.9996 : ℚ) ≠ 0 := by norm_num
  exact ⟨hest, hx, le_rfl, renderWith_reads_back hest Kind.length.dimension hx le_rfl true⟩

end Metrology.Engineering
