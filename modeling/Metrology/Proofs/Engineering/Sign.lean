import Metrology.Proofs.Engineering.Reading

/-!
# The sign of a rendering

A magnitude is a sign and a text that the sign has no part in: it starts with a digit or a letter,
and it belongs to the absolute value.  This holds of any arithmetic.
-/

namespace Metrology.Engineering

open Metrology.Decimal

variable {α : Precision → Type} [Decadic α] {x y : α .double} {d : Dimension} {digits : Nat}

def IsSign (c : Char) : Prop := c = '-' ∨ c = '+'

def unsigned (e : Engineering) : List Char := (readSign e.magnitude.toList).2

theorem unsigned_eq {e : Engineering} {s : List Char}
    {showPlus : Bool} (h : e.magnitude.toList = (sign x showPlus).toList ++ s)
    (hs : ∀ c, IsSign c → s.head? ≠ some c) : e.unsigned = s := by
  rw [unsigned, h, readSign_sign x showPlus (hs _ (.inl rfl)) (hs _ (.inr rfl))]

theorem head?_mantissaText_ne (x : α .double) (t : List Char) {c : Char} (hc : IsSign c) :
    (mantissaText x ++ t).head? ≠ some c := by
  have hdigit : c.isDigit = false := by rcases hc with rfl | rfl <;> rfl
  have hpoint : c ≠ '.' := by rcases hc with rfl | rfl <;> decide
  unfold mantissaText
  dsimp only
  split
  · exact head?_append_ne (writesDecimal_fixed _ _ _).trimZeros.1 hdigit hpoint
  · rw [scientificText, List.append_assoc]
    exact head?_append_ne (writesDecimal_placePoint _ _).trimZeros.1 hdigit hpoint

theorem specialText_cases {text : String} (h : specialText? x = some text) :
    text = "NaN" ∨ text = "0" ∨ text = "inf" := by
  unfold specialText? at h
  split at h
  · exact .inl (Option.some.inj h).symm
  · exact .inr (.inl (Option.some.inj h).symm)
  · split at h
    · cases h
    · exact .inr (.inr (Option.some.inj h).symm)

def body (d : Dimension) (x : α .double) (digits : Nat) : List Char :=
  match specialText? x with
  | some text => text.toList
  | none =>
    let (mantissa, exponent) :=
      split (Decadic.floorLog10 (Arithmetic.abs x)) (Arithmetic.abs x) digits
    mantissaText mantissa ++
      if takesPrefix d exponent then [] else 'e' :: (toString exponent).toList

theorem toList_magnitude_render (d : Dimension) (x : α .double) (digits : Nat) (showPlus : Bool) :
    (render d x digits showPlus).result.magnitude.toList =
      (sign x showPlus).toList ++ body d x digits := by
  unfold render body
  split
  next text h => simp [renderWith_of_special h]
  next h =>
    rw [renderWith_of_ordinary h]
    dsimp only
    split <;> simp [compose, *]

theorem head?_body_ne {c : Char} (hc : IsSign c) : (body d x digits).head? ≠ some c := by
  unfold body
  split
  next text h =>
    rcases specialText_cases h with rfl | rfl | rfl <;> rcases hc with rfl | rfl <;> decide
  next h => exact head?_mantissaText_ne _ _ hc

theorem unsigned_render (d : Dimension) (x : α .double) (digits : Nat) (showPlus : Bool) :
    (render d x digits showPlus).result.unsigned = body d x digits :=
  unsigned_eq (toList_magnitude_render d x digits showPlus) fun _ hc => head?_body_ne hc

theorem head?_magnitude_render (d : Dimension) (x : α .double) (digits : Nat) (showPlus : Bool) :
    ((render d x digits showPlus).result.magnitude.toList.head? = some '-' ↔
      Arithmetic.lt x Arithmetic.zero = true) ∧
    ((render d x digits showPlus).result.magnitude.toList.head? = some '+' ↔
      showPlus = true ∧ Arithmetic.lt x Arithmetic.zero = false) := by
  have hminus : (body d x digits).head? ≠ some '-' := head?_body_ne (.inl rfl)
  have hplus : (body d x digits).head? ≠ some '+' := head?_body_ne (.inr rfl)
  rw [toList_magnitude_render, sign]
  cases Arithmetic.lt x Arithmetic.zero <;> cases showPlus <;> simp [hminus, hplus]

theorem body_congr (habs : Arithmetic.abs y = Arithmetic.abs x)
    (hspecial : specialText? y = specialText? x) : body d y digits = body d x digits := by
  rw [body, body, habs, hspecial]

theorem unit_render_congr (habs : Arithmetic.abs y = Arithmetic.abs x)
    (hspecial : specialText? y = specialText? x) (showPlus : Bool) :
    (render d y digits showPlus).result.unit = (render d x digits showPlus).result.unit := by
  cases h : specialText? x with
  | some text =>
      rw [render, render, renderWith_of_special h, renderWith_of_special (hspecial.trans h)]
  | none =>
      rw [render, render, renderWith_of_ordinary h, renderWith_of_ordinary (hspecial.trans h), habs]
      rfl

end Metrology.Engineering
