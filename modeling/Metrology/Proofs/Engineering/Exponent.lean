import Metrology.Proofs.Engineering.Inexact
import Metrology.Proofs.Engineering.Sign

/-!
# The exponent of a magnitude

An exponent that is not written as a prefix stands behind the mantissa, and the record of a
rendering names it.  Whoever knows the mantissa finds it there in any arithmetic.  Where the
arithmetic is faithful the mantissa has no exponent of its own, and the exponent can be told from
the magnitude alone.
-/

namespace Metrology.Engineering

open Metrology.Decimal

variable {α : Precision → Type} [Decadic α] {x : α .double} {d : Dimension} {digits : Nat}
  {showPlus : Bool}

/-- The mantissa of `x` and the exponent of the power of ten that is taken out of it. -/
def scale (x : α .double) (digits : Nat) : α .double × Int :=
  split (Decadic.floorLog10 (Arithmetic.abs x)) (Arithmetic.abs x) digits

def signedMantissa (x : α .double) (digits : Nat) (showPlus : Bool) : List Char :=
  (sign x showPlus).toList ++ mantissaText (scale x digits).1

def suffix (exponent : Int) : List Char := 'e' :: (toString exponent).toList

/-- Texts and records of a rendering: of a special value, of a mantissa with a prefixed or plain
unit, and of a mantissa with an exponent behind it. -/
inductive Rendered (d : Dimension) (x : α .double) (digits : Nat) (showPlus : Bool) :
    Logged Engineering → Prop
  | special {text : String} {e : Engineering} (h : specialText? x = some text)
      (hmagnitude : e.magnitude.toList = (sign x showPlus).toList ++ text.toList)
      (hunit : e.unit = d.preferredSymbol) : Rendered d x digits showPlus ⟨e, []⟩
  | prefixed {k : Int} {e : Engineering} (h : specialText? x = none)
      (htakes : takesPrefix d k = true)
      (hmagnitude : e.magnitude.toList = signedMantissa x digits showPlus)
      (hunit : e.unit = prefixText k ++ d.preferredSymbol) : Rendered d x digits showPlus ⟨e, []⟩
  | exponent {k : Int} {e : Engineering} (h : specialText? x = none)
      (htakes : takesPrefix d k = false)
      (hmagnitude : e.magnitude.toList = signedMantissa x digits showPlus ++ suffix k)
      (hunit : e.unit = d.preferredSymbol) :
      Rendered d x digits showPlus ⟨e, [inexpressible k e.unit]⟩

theorem render_of_ordinary (h : specialText? x = none) (d : Dimension) (digits : Nat)
    (showPlus : Bool) :
    render d x digits showPlus =
      if takesPrefix d (scale x digits).2 then
        ⟨⟨sign x showPlus ++ String.ofList (mantissaText (scale x digits).1),
          prefixText (scale x digits).2 ++ d.preferredSymbol⟩, []⟩
      else
        ⟨⟨sign x showPlus ++ String.ofList (mantissaText (scale x digits).1) ++ "e" ++
            toString (scale x digits).2, d.preferredSymbol⟩,
          [inexpressible (scale x digits).2 d.preferredSymbol]⟩ := by
  rw [render, renderWith, h]
  rfl

theorem rendered_render (d : Dimension) (x : α .double) (digits : Nat) (showPlus : Bool) :
    Rendered d x digits showPlus (render d x digits showPlus) := by
  cases h : specialText? x with
  | some text =>
      rw [render, renderWith, h]
      exact .special h (by simp) rfl
  | none =>
      rw [render_of_ordinary h]
      cases htakes : takesPrefix d (scale x digits).2 with
      | true => exact .prefixed h htakes (by simp [signedMantissa]) rfl
      | false => exact .exponent h htakes (by simp [signedMantissa, suffix]) rfl

def writtenExponent? (e : Engineering) : Option Int :=
  match e.unsigned.dropWhile (· != 'e') with
  | [] => none
  | _ :: s => readInteger? s

/-- The records of a rendering as its texts tell them. -/
def report (e : Engineering) : List LogRecord :=
  e.writtenExponent?.toList.map (inexpressible · e.unit)

theorem exists_writesDecimal_mantissaText (h : isPositional (Decadic.floorLog10 x) = true) :
    ∃ v, WritesDecimal v (mantissaText x) := by
  unfold mantissaText
  dsimp only
  rw [if_pos h]
  exact ⟨_, (writesDecimal_fixed _ _ _).trimZeros.1⟩

theorem Rendered.records_eq {r : Logged Engineering} (hr : Rendered d x digits showPlus r)
    (hpositional : specialText? x = none →
      isPositional (Decadic.floorLog10 (scale x digits).1) = true) :
    r.records = r.result.report := by
  cases hr with
  | special h hmagnitude hunit =>
      have hbody := unsigned_eq hmagnitude fun c hc => by
        rcases specialText_cases h with rfl | rfl | rfl <;> rcases hc with rfl | rfl <;> decide
      rw [report, writtenExponent?, hbody]
      rcases specialText_cases h with rfl | rfl | rfl <;> rfl
  | prefixed h htakes hmagnitude hunit =>
      obtain ⟨v, hv⟩ := exists_writesDecimal_mantissaText (hpositional h)
      rw [signedMantissa, ← List.append_nil (mantissaText _)] at hmagnitude
      have hbody := unsigned_eq hmagnitude fun c hc => head?_mantissaText_ne _ _ hc
      rw [report, writtenExponent?, hbody, (cut_at_mark hv (.inl rfl)).2]
      rfl
  | exponent h htakes hmagnitude hunit =>
      obtain ⟨v, hv⟩ := exists_writesDecimal_mantissaText (hpositional h)
      rw [signedMantissa, List.append_assoc] at hmagnitude
      have hbody := unsigned_eq hmagnitude fun c hc => head?_mantissaText_ne _ _ hc
      rw [report, writtenExponent?, hbody, suffix, (cut_at_mark hv (.inr ⟨_, rfl⟩)).2]
      simp [readInteger?_repr]

theorem isPositional_scale (hα : Faithful α) {v : ℚ} (hx : Denotes x v) (hv : v ≠ 0)
    (hrange : InRange v) (digits : Nat) :
    isPositional (Decadic.floorLog10 (scale x digits).1) = true := by
  have habs := hα.abs hx
  have hpos := abs_pos.2 hv
  rw [InRange, ← exponent_abs] at hrange
  exact isPositional_split hα habs hpos hrange (hα.floorLog10 habs hpos) digits

theorem denotes_of_ordinary (hα : Faithful α) (h : specialText? x = none) :
    ∃ v, Denotes x v ∧ v ≠ 0 := by
  have hzero := hα.ofRat 0 (by simp)
  unfold specialText? at h
  split at h
  · cases h
  · cases h
  next c hne heq =>
    split at h
    next hfinite =>
      have hx : Denotes x (Decadic.toRat x) := ⟨hfinite, rfl⟩
      refine ⟨_, hx, fun h0 => ?_⟩
      have hcompare := hα.compare? hx hzero
      rw [h0, cmp_self_eq_eq] at hcompare
      exact hne (Option.some.inj (heq.symm.trans hcompare))
    · cases h

theorem records_render (hα : Faithful α) (hrange : ∀ v, Denotes x v → v ≠ 0 → InRange v)
    (d : Dimension) (digits : Nat) (showPlus : Bool) :
    (render d x digits showPlus).records = (render d x digits showPlus).result.report := by
  refine (rendered_render d x digits showPlus).records_eq fun h => ?_
  obtain ⟨v, hx, hv⟩ := denotes_of_ordinary hα h
  exact isPositional_scale hα hx hv (hrange v hx hv) digits

end Metrology.Engineering
