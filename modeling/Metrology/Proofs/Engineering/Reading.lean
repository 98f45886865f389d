import Metrology.Proofs.Engineering.Mantissa
import Metrology.Unit.Multiplier
import Mathlib.Order.Interval.Finset.Basic
import Mathlib.Data.Int.Interval

/-!
# Reading a rendering back

A rendering is taken apart into sign, decimal, exponent and multiplier prefix, the prefix being what
stands in front of the preferred symbol of the dimension.  The parts denote a number.  For a value
that is not zero they are known exactly: the decimal shows the mantissa of the value rounded to
significant digits, and its power of a thousand is written once, as a prefix or as an exponent.
-/

namespace Metrology.Engineering

open Metrology.Decimal

structure Parts where
  negative : Bool
  decimal : List Char
  exponent? : Option Int
  multiplier : String
  deriving DecidableEq, Repr

def readSign : List Char → Bool × List Char
  | '-' :: s => (true, s)
  | '+' :: s => (false, s)
  | s => (false, s)

def readInteger? : List Char → Option Int
  | '-' :: s => (readNatural? s).map fun n => -n
  | s => (readNatural? s).map fun n => n

def readExponent? : List Char → Option (Option Int)
  | [] => some none
  | _ :: s => (readInteger? s).map some

def parts? (d : Dimension) (e : Engineering) : Option Parts := do
  let (negative, magnitude) := readSign e.magnitude.toList
  let exponent? ← readExponent? (magnitude.dropWhile (· != 'e'))
  let multiplier ← e.unit.toList.dropSuffix? d.preferredSymbol.toList
  return ⟨negative, magnitude.takeWhile (· != 'e'), exponent?, String.ofList multiplier⟩

def multiplierFactor? (symbol : String) : Option ℚ :=
  if symbol = "" then some 1
  else
    match (lookupPrefix (α := Exact) symbol).result with
    | .ok s => some s.number
    | .error _ => none

def Parts.number? (p : Parts) : Option ℚ := do
  let decimal ← readDecimal? p.decimal
  let factor ← multiplierFactor? p.multiplier
  let magnitude := decimal * 10 ^ p.exponent?.getD 0 * factor
  return if p.negative then -magnitude else magnitude

theorem readSign_of_head_ne {s : List Char} (hm : s.head? ≠ some '-') (hp : s.head? ≠ some '+') :
    readSign s = (false, s) := by
  unfold readSign
  split
  · simp at hm
  · simp at hp
  · rfl

theorem readNatural?_digits (n : Nat) : readNatural? (digits n) = some n :=
  (isNumeral_digits n).read

theorem readInteger?_repr (k : Int) : readInteger? k.repr.toList = some k := by
  cases k with
  | ofNat n =>
      have htext : (Int.ofNat n).repr.toList = digits n := by
        simp [Int.repr, Nat.repr, digits]
      rw [htext]
      unfold readInteger?
      split
      · rename_i s hs
        have := isDigit_of_mem_digits (n := n) (c := '-') (by simp [hs])
        simp at this
      · simp [readNatural?_digits]
  | negSucc n =>
      have htext : (Int.negSucc n).repr.toList = '-' :: digits (n + 1) := by
        simp [Int.repr, Nat.repr, digits]
      rw [htext]
      simp [readInteger?, readNatural?_digits, Int.negSucc_eq]

/-- The multiplier prefix that stands for a power of a thousand, if one does. -/
def prefixFor (d : Dimension) (exponent : Int) : String :=
  if takesPrefix d exponent then prefixText exponent else ""

theorem takesPrefix_mul_three_iff (d : Dimension) (k : Int) :
    takesPrefix d (k * 3) = true ↔
      (d.isSingle = true ∧ d ≠ Kind.mass.dimension) ∧ -8 ≤ k ∧ k ≤ 8 := by
  have hrange : leastExponent ≤ k * 3 ∧ k * 3 ≤ greatestExponent ↔ -8 ≤ k ∧ k ≤ 8 := by
    unfold leastExponent greatestExponent
    omega
  rw [← hrange]
  simp [takesPrefix, and_assoc]

theorem ofSymbol?_prefixText {k : Int} (hlow : -8 ≤ k) (hhigh : k ≤ 8) (hk : k ≠ 0) :
    ∃ u, DecimalPrefix.ofSymbol? (prefixText (k * 3)) = some u ∧ u.exponent = k * 3 := by
  have hall : ∀ k ∈ Finset.Icc (-8 : Int) 8, k ≠ 0 →
      (DecimalPrefix.ofSymbol? (prefixText (k * 3))).map (·.exponent) = some (k * 3) := by
    decide
  exact Option.map_eq_some_iff.1 (hall k (Finset.mem_Icc.2 ⟨hlow, hhigh⟩) hk)

theorem prefixText_ne_empty {k : Int} (hlow : -8 ≤ k) (hhigh : k ≤ 8) (hk : k ≠ 0) :
    prefixText (k * 3) ≠ "" := by
  intro h
  obtain ⟨u, hu, -⟩ := ofSymbol?_prefixText hlow hhigh hk
  rw [h] at hu
  cases hu

theorem multiplierFactor?_prefixText {k : Int} (hlow : -8 ≤ k) (hhigh : k ≤ 8) :
    multiplierFactor? (prefixText (k * 3)) = some (10 ^ (k * 3)) := by
  by_cases hk : k = 0
  · subst hk
    rfl
  · obtain ⟨u, hu, he⟩ := ofSymbol?_prefixText hlow hhigh hk
    rw [multiplierFactor?, if_neg (prefixText_ne_empty hlow hhigh hk), lookupPrefix, hu]
    change some (u.factor : ℚ) = _
    rw [DecimalPrefix.factor, he]

section

variable {α : Precision → Type} [Decadic α] {estimate : α .double → Int} {x : α .double}

/-- Puts the texts together from sign, mantissa and power of a thousand. -/
def compose (d : Dimension) (sign : String) (mantissa : α .double) (exponent : Int) : Engineering :=
  ⟨sign ++ String.ofList (mantissaText mantissa) ++
      (if takesPrefix d exponent then "" else "e" ++ toString exponent),
    prefixFor d exponent ++ d.preferredSymbol⟩

theorem renderWith_of_special {text : String} (h : specialText? x = some text) (d : Dimension)
    (digits : Nat) (showPlus : Bool) :
    (renderWith estimate d x digits showPlus).result =
      ⟨sign x showPlus ++ text, d.preferredSymbol⟩ := by
  simp [renderWith, h]

theorem renderWith_of_ordinary (h : specialText? x = none) (d : Dimension) (digits : Nat)
    (showPlus : Bool) :
    (renderWith estimate d x digits showPlus).result =
      compose d (sign x showPlus)
        (split (estimate (Arithmetic.abs x)) (Arithmetic.abs x) digits).1
        (split (estimate (Arithmetic.abs x)) (Arithmetic.abs x) digits).2 := by
  unfold renderWith compose prefixFor
  dsimp only
  rw [h]
  dsimp only
  split
  · simp
  · simp [String.append_assoc]

end

theorem specialText?_eq_none {x : ℚ} (hx : x ≠ 0) : specialText? (α := Exact) x = none := by
  have hzero : (Arithmetic.zero : Exact .double) = (0 : ℚ) := rfl
  rw [specialText?, hzero, Exact.compare?_eq]
  rcases lt_or_gt_of_ne hx with h | h
  · rw [h.cmp_eq_lt]
    rfl
  · rw [h.cmp_eq_gt]
    rfl

variable {estimate : ℚ → Int} {x : ℚ}

theorem renderWith_eq (hest : IsEstimate estimate) (d : Dimension) (hx : x ≠ 0) (digits : Nat)
    (showPlus : Bool) :
    (renderWith (α := Exact) estimate d x digits showPlus).result =
      compose (α := Exact) d (sign (α := Exact) x showPlus)
        (mantissa (roundSignificant (clampDigits digits) |x|))
        (thousands (roundSignificant (clampDigits digits) |x|)) := by
  rw [renderWith_of_ordinary (specialText?_eq_none hx)]
  change compose (α := Exact) d _ (split (α := Exact) (estimate |x|) |x| digits).1
    (split (α := Exact) (estimate |x|) |x| digits).2 = _
  rw [split_eq (abs_pos.2 hx) (hest |x| (abs_pos.2 hx))]

theorem readSign_sign {α : Precision → Type} [Decadic α] (x : α .double) (showPlus : Bool)
    {s : List Char} (hm : s.head? ≠ some '-') (hp : s.head? ≠ some '+') :
    readSign ((sign x showPlus).toList ++ s) = (Arithmetic.lt x Arithmetic.zero, s) := by
  unfold sign
  cases Arithmetic.lt x Arithmetic.zero with
  | true => simp [readSign]
  | false =>
      cases showPlus with
      | true => simp [readSign]
      | false => simp [readSign_of_head_ne hm hp]

theorem lt_zero_eq_decide (x : ℚ) :
    Arithmetic.lt (α := Exact) (p := .double) x Arithmetic.zero = decide (x < 0) := by
  rw [Bool.eq_iff_iff, decide_eq_true_iff]
  exact Exact.lt_iff

theorem ne_of_mem_decimal {v : ℚ} {s : List Char} (h : WritesDecimal v s) {c d : Char}
    (hc : c ∈ s) (hd : d.isDigit = false) (hp : d ≠ '.') : c ≠ d := by
  rintro rfl
  rcases h.mem hc with rfl | hdigit
  · exact hp rfl
  · rw [hd] at hdigit
    cases hdigit

theorem head?_append_ne {v : ℚ} {s t : List Char} (h : WritesDecimal v s) {d : Char}
    (hd : d.isDigit = false) (hp : d ≠ '.') : (s ++ t).head? ≠ some d := by
  obtain ⟨c, r, rfl⟩ := List.exists_cons_of_ne_nil h.ne_nil
  intro hhead
  exact ne_of_mem_decimal h (c := c) (by simp) hd hp (by simpa using hhead)

theorem cut_at_mark {v : ℚ} {s t : List Char} (h : WritesDecimal v s)
    (ht : t = [] ∨ ∃ r, t = 'e' :: r) :
    (s ++ t).takeWhile (· != 'e') = s ∧ (s ++ t).dropWhile (· != 'e') = t := by
  have hne : ∀ c ∈ s, (c != 'e') = true := by
    intro c hc
    simpa using ne_of_mem_decimal h hc (d := 'e') rfl (by decide)
  rw [List.takeWhile_append_of_pos hne, List.dropWhile_append_of_pos hne]
  rcases ht with rfl | ⟨r, rfl⟩
  · simp
  · simp

theorem parts?_compose (d : Dimension) (x : ℚ) (showPlus : Bool) {m : ℚ} (hle : 1 ≤ m)
    (hlt : m < 1000) (k : Int) :
    parts? d (compose (α := Exact) d (sign (α := Exact) x showPlus) m k) =
      some ⟨decide (x < 0), mantissaText (α := Exact) m, if takesPrefix d k then none else some k,
        prefixFor d k⟩ := by
  obtain ⟨hm, -⟩ := writesDecimal_mantissaText hle hlt
  generalize hs : (if takesPrefix d k then "" else "e" ++ toString k).toList = suffix
  have hmark : suffix = [] ∨ ∃ r, suffix = 'e' :: r := by
    rw [← hs]
    split
    · exact .inl rfl
    · exact .inr ⟨(toString k).toList, by simp⟩
  have hread : readExponent? suffix = some (if takesPrefix d k then none else some k) := by
    rw [← hs]
    split
    · rfl
    · simp [readExponent?, readInteger?_repr]
  have hmagnitude : (compose (α := Exact) d (sign (α := Exact) x showPlus) m k).magnitude.toList =
      (sign (α := Exact) x showPlus).toList ++ (mantissaText (α := Exact) m ++ suffix) := by
    simp [compose, ← hs]
  have hunit : (compose (α := Exact) d (sign (α := Exact) x showPlus) m k).unit.toList.dropSuffix?
      d.preferredSymbol.toList = some (prefixFor d k).toList := by
    rw [List.dropSuffix?_eq_some_iff]
    exact ⟨d.preferredSymbol.toList, by simp [compose], by simp⟩
  obtain ⟨htake, hdrop⟩ := cut_at_mark hm hmark
  rw [parts?, hmagnitude, readSign_sign (α := Exact) x showPlus (head?_append_ne hm rfl (by decide))
    (head?_append_ne hm rfl (by decide)), lt_zero_eq_decide]
  dsimp only
  rw [htake, hdrop, hread, hunit]
  simp

theorem number?_of_decimal {v : ℚ} {s : List Char} (h : WritesDecimal v s) (d : Dimension)
    (negative : Bool) (j : Int) :
    Parts.number? ⟨negative, s, if takesPrefix d (j * 3) then none else some (j * 3),
        prefixFor d (j * 3)⟩ =
      some (if negative then -(v * 10 ^ (j * 3)) else v * 10 ^ (j * 3)) := by
  unfold Parts.number? prefixFor
  rw [h.read]
  by_cases htakes : takesPrefix d (j * 3) = true
  · obtain ⟨-, hlow, hhigh⟩ := (takesPrefix_mul_three_iff d j).1 htakes
    simp [htakes, multiplierFactor?_prefixText hlow hhigh]
  · simp [htakes, multiplierFactor?]

def number? (d : Dimension) (e : Engineering) : Option ℚ := (parts? d e).bind Parts.number?

theorem reads_renderWith (hest : IsEstimate estimate) (d : Dimension) (hx : x ≠ 0) (digits : Nat)
    (showPlus : Bool) :
    ∃ p, parts? d (renderWith (α := Exact) estimate d x digits showPlus).result = some p ∧
      WritesDecimal (shown (mantissa (roundSignificant (clampDigits digits) |x|))) p.decimal ∧
      IsTrimmed p.decimal ∧ (p.multiplier = "" ∨ p.exponent? = none) ∧
      p.number? = some (if x < 0
        then -(shown (mantissa (roundSignificant (clampDigits digits) |x|)) *
          10 ^ thousands (roundSignificant (clampDigits digits) |x|))
        else shown (mantissa (roundSignificant (clampDigits digits) |x|)) *
          10 ^ thousands (roundSignificant (clampDigits digits) |x|)) := by
  have hr := roundSignificant_pos (abs_pos.2 hx) (clampDigits_pos digits)
  rw [renderWith_eq hest d hx]
  generalize roundSignificant (clampDigits digits) |x| = r at hr
  obtain ⟨hwrites, htrimmed⟩ := writesDecimal_mantissaText (one_le_mantissa hr) (mantissa_lt hr)
  refine ⟨_, parts?_compose d x showPlus (one_le_mantissa hr) (mantissa_lt hr) _, hwrites, htrimmed,
    ?_, ?_⟩
  · by_cases htakes : takesPrefix d (thousands r) = true
    · exact .inr (if_pos htakes)
    · exact .inl (if_neg htakes)
  · rw [thousands, number?_of_decimal hwrites]
    simp

end Metrology.Engineering
