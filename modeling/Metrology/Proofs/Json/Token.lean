import Metrology.Json.Token
import Metrology.Except

/-!
# Tokens in front of further text

A number ends before the first character that cannot go on with it, so a number that is read at the
end of a text is read in front of a comma as well.  A string of plain characters is read up to its
closing quote.
-/

namespace Metrology.Json

open Metrology.Text

variable {s t r : List Char}

def Leaves {α : Type} {P : List Char → Prop} (result : Except Fault (α × { r // P r })) (x : α)
    (r : List Char) : Prop :=
  ∃ h, result = .ok (x, ⟨r, h⟩)

def EndsNumber (t : List Char) : Prop :=
  ∀ c, t.head? = some c → c.isDigit = false ∧ c ≠ '.' ∧ c ≠ 'e' ∧ c ≠ 'E'

/-! ## Digits -/

theorem ne_of_isDigit {c d : Char} (hc : c.isDigit = true) (hd : d.isDigit = false) : c ≠ d := by
  rintro rfl
  rw [hc] at hd
  cases hd

theorem isSpace_of_isDigit {c : Char} (hc : c.isDigit = true) : isSpace c = false := by
  have hne {d : Char} (hd : d.isDigit = false) : (c == d) = false :=
    beq_eq_false_iff_ne.2 (ne_of_isDigit hc hd)
  rw [isSpace, hne rfl, hne rfl, hne rfl, hne rfl]
  rfl

theorem takeWhile_isDigit_append (ht : EndsNumber t) :
    (s ++ t).takeWhile Char.isDigit = s.takeWhile Char.isDigit := by
  induction s with
  | nil =>
      cases t with
      | nil => rfl
      | cons c t => simp [(ht c rfl).1]
  | cons c s ih =>
      by_cases hc : c.isDigit = true
      · simp [hc, ih]
      · simp [hc]

theorem dropWhile_isDigit_append (ht : EndsNumber t) :
    (s ++ t).dropWhile Char.isDigit = s.dropWhile Char.isDigit ++ t := by
  induction s with
  | nil =>
      cases t with
      | nil => rfl
      | cons c t => simp [(ht c rfl).1]
  | cons c s ih =>
      by_cases hc : c.isDigit = true
      · simp [hc, ih]
      · simp [hc]

theorem someDigits_of_nil (h : s.takeWhile Char.isDigit = []) :
    ∃ f, someDigits s = .error f := by
  have hrun : digitRun s = ([], skip Char.isDigit s) := Prod.ext h rfl
  unfold someDigits
  split
  · exact ⟨_, rfl⟩
  · exact ⟨_, rfl⟩
  · rename_i hne
    exact absurd hrun (hne _)

theorem someDigits_of_ne_nil (h : s.takeWhile Char.isDigit ≠ []) :
    someDigits s = .ok (digitRun s) := by
  have hfst : (digitRun s).1 ≠ [] := h
  unfold someDigits
  split
  · rename_i heq
    exact absurd (congrArg Prod.fst heq) hfst
  · rename_i heq
    exact absurd (congrArg Prod.fst heq) hfst
  · rfl

theorem someDigits_leaves_iff {ds : List Char} :
    Leaves (someDigits s) ds r ↔
      ds ≠ [] ∧ s.takeWhile Char.isDigit = ds ∧ s.dropWhile Char.isDigit = r := by
  constructor
  · rintro ⟨h, hok⟩
    have hne : s.takeWhile Char.isDigit ≠ [] := by
      intro hnil
      obtain ⟨f, hf⟩ := someDigits_of_nil hnil
      rw [hf] at hok
      cases hok
    rw [someDigits_of_ne_nil hne] at hok
    cases hok
    exact ⟨hne, rfl, rfl⟩
  · rintro ⟨hne, rfl, rfl⟩
    exact ⟨length_dropWhile_le _ _, someDigits_of_ne_nil hne⟩

theorem someDigits_append {ds : List Char} (ht : EndsNumber t) (h : Leaves (someDigits s) ds r) :
    Leaves (someDigits (s ++ t)) ds (r ++ t) := by
  obtain ⟨hne, hds, hr⟩ := someDigits_leaves_iff.1 h
  rw [someDigits_leaves_iff, takeWhile_isDigit_append ht, dropWhile_isDigit_append ht, hr]
  exact ⟨hne, hds, rfl⟩

theorem integerPart_leaves_iff {ds : List Char} :
    Leaves (integerPart s) ds r ↔
      Leaves (someDigits s) ds r ∧ ∀ c ds', ds ≠ '0' :: c :: ds' := by
  unfold integerPart
  split
  · rename_i heq
    rw [heq]
    constructor
    · rintro ⟨h, hok⟩
      cases hok
    · rintro ⟨⟨h, hok⟩, hzero⟩
      cases hok
      exact absurd rfl (hzero _ _)
  · rename_i hne
    refine ⟨fun hok => ⟨hok, ?_⟩, fun h => h.1⟩
    rintro c ds' rfl
    obtain ⟨h, hok⟩ := hok
    exact hne _ _ _ hok

theorem integerPart_append {ds : List Char} (ht : EndsNumber t)
    (h : Leaves (integerPart s) ds r) : Leaves (integerPart (s ++ t)) ds (r ++ t) := by
  obtain ⟨hds, hzero⟩ := integerPart_leaves_iff.1 h
  exact integerPart_leaves_iff.2 ⟨someDigits_append ht hds, hzero⟩

theorem fractionPart_of_head_ne (h : s.head? ≠ some '.') :
    fractionPart s = .ok ([], ⟨s, Nat.le_refl _⟩) := by
  unfold fractionPart
  split
  · exact absurd rfl h
  · rfl

theorem fractionPart_point_leaves_iff {ds : List Char} :
    Leaves (fractionPart ('.' :: s)) ds r ↔ Leaves (someDigits s) ds r := by
  unfold Leaves fractionPart
  constructor
  · rintro ⟨h, hok⟩
    obtain ⟨⟨ds', q⟩, hds, hq⟩ := bind_eq_ok.1 hok
    cases hq
    exact ⟨q.2, hds⟩
  · rintro ⟨h, hok⟩
    exact ⟨Nat.le_succ_of_le h, bind_eq_ok.2 ⟨_, hok, rfl⟩⟩

theorem fractionPart_append {ds : List Char} (ht : EndsNumber t)
    (h : Leaves (fractionPart s) ds r) : Leaves (fractionPart (s ++ t)) ds (r ++ t) := by
  by_cases hs : s.head? = some '.'
  · obtain ⟨s, rfl⟩ := List.head?_eq_some_iff.1 hs
    rw [List.cons_append, fractionPart_point_leaves_iff]
    exact someDigits_append ht (fractionPart_point_leaves_iff.1 h)
  · rw [fractionPart_of_head_ne hs] at h
    obtain ⟨_, hok⟩ := h
    cases hok
    have hst : (s ++ t).head? ≠ some '.' := by
      cases s with
      | nil => exact fun hc => (ht _ hc).2.1 rfl
      | cons c s => exact hs
    exact ⟨Nat.le_refl _, fractionPart_of_head_ne hst⟩

theorem exponentPart_of_head_ne (h : ∀ c, s.head? = some c → c ≠ 'e' ∧ c ≠ 'E') :
    exponentPart s = .ok (none, ⟨s, Nat.le_refl _⟩) := by
  cases s with
  | nil => rfl
  | cons c s =>
      have hc : ¬ ((c = 'e' || c = 'E') = true) := by simpa using h c rfl
      rw [exponentPart, if_neg hc]

theorem exponentPart_cons_leaves_iff {c : Char} {x : Option Int} (hc : c = 'e' ∨ c = 'E') :
    Leaves (exponentPart (c :: s)) x r ↔ ∃ ds, Leaves (someDigits (exponentSign s).2.1) ds r ∧
      x = some (if (exponentSign s).1 then -(Nat.ofDigitChars 10 ds 0 : Int)
        else Nat.ofDigitChars 10 ds 0) := by
  have hc' : (c = 'e' || c = 'E') = true := by simpa using hc
  rw [exponentPart, if_pos hc']
  constructor
  · rintro ⟨h, hok⟩
    obtain ⟨⟨ds, q⟩, hds, hq⟩ := bind_eq_ok.1 hok
    cases hq
    exact ⟨ds, ⟨q.2, hds⟩, rfl⟩
  · rintro ⟨ds, ⟨h, hok⟩, rfl⟩
    exact ⟨Nat.le_succ_of_le (Nat.le_trans h (exponentSign s).2.2), bind_eq_ok.2 ⟨_, hok, rfl⟩⟩

theorem exponentSign_of_head_ne (hm : s.head? ≠ some '-') (hp : s.head? ≠ some '+') :
    exponentSign s = (false, ⟨s, Nat.le_refl _⟩) := by
  unfold exponentSign
  split
  · exact absurd rfl hm
  · exact absurd rfl hp
  · rfl

theorem exponentSign_append (hs : s ≠ []) :
    (exponentSign (s ++ t)).1 = (exponentSign s).1 ∧
      (exponentSign (s ++ t)).2.1 = (exponentSign s).2.1 ++ t := by
  obtain ⟨c, s, rfl⟩ := List.exists_cons_of_ne_nil hs
  by_cases hm : c = '-'
  · subst hm
    exact ⟨rfl, rfl⟩
  · by_cases hp : c = '+'
    · subst hp
      exact ⟨rfl, rfl⟩
    · have hsign (s : List Char) : exponentSign (c :: s) = (false, ⟨c :: s, Nat.le_refl _⟩) :=
        exponentSign_of_head_ne (by simpa using hm) (by simpa using hp)
      rw [List.cons_append, hsign, hsign]
      exact ⟨rfl, rfl⟩

theorem exponentPart_append {x : Option Int} (ht : EndsNumber t)
    (h : Leaves (exponentPart s) x r) : Leaves (exponentPart (s ++ t)) x (r ++ t) := by
  by_cases hs : ∃ c s', s = c :: s' ∧ (c = 'e' ∨ c = 'E')
  · obtain ⟨c, s, rfl, hc⟩ := hs
    obtain ⟨ds, hds, rfl⟩ := (exponentPart_cons_leaves_iff hc).1 h
    have hne : s ≠ [] := by
      rintro rfl
      exact (someDigits_leaves_iff.1 hds).1 (someDigits_leaves_iff.1 hds).2.1.symm
    obtain ⟨hsign, hrest⟩ := exponentSign_append (t := t) hne
    rw [List.cons_append, exponentPart_cons_leaves_iff hc, hsign, hrest]
    exact ⟨ds, someDigits_append ht hds, rfl⟩
  · have hhead : ∀ c, s.head? = some c → c ≠ 'e' ∧ c ≠ 'E' := by
      intro c hc
      obtain ⟨s', rfl⟩ := List.head?_eq_some_iff.1 hc
      exact not_or.1 fun he => hs ⟨c, s', rfl, he⟩
    rw [exponentPart_of_head_ne hhead] at h
    obtain ⟨_, hok⟩ := h
    cases hok
    have hst : ∀ c, (s ++ t).head? = some c → c ≠ 'e' ∧ c ≠ 'E' := by
      cases s with
      | nil => exact fun c hc => (ht c hc).2.2
      | cons c s => exact hhead
    exact ⟨Nat.le_refl _, exponentPart_of_head_ne hst⟩

/-! ## Numbers -/

def Numeral.ofParts (negative : Bool) (whole fraction : List Char) (exponent : Option Int) :
    Numeral :=
  let places := Decimal.dropTrailing '0' fraction
  { negative := negative
    coefficient := Nat.ofDigitChars 10 (whole ++ places) 0
    exponent := exponent.getD 0 - places.length
    integral := fraction.isEmpty && exponent.isNone }

theorem scanNumber_leaves_iff {negative : Bool} {n : Numeral} :
    Leaves (scanNumber negative s) n r ↔
      ∃ whole r₁ fraction r₂ exponent, Leaves (integerPart s) whole r₁ ∧
        Leaves (fractionPart r₁) fraction r₂ ∧ Leaves (exponentPart r₂) exponent r ∧
        n = .ofParts negative whole fraction exponent := by
  constructor
  · rintro ⟨h, hok⟩
    obtain ⟨⟨whole, r₁⟩, h₁, hok⟩ := bind_eq_ok.1 hok
    obtain ⟨⟨fraction, r₂⟩, h₂, hok⟩ := bind_eq_ok.1 hok
    obtain ⟨⟨exponent, r₃⟩, h₃, hok⟩ := bind_eq_ok.1 hok
    cases hok
    exact ⟨whole, r₁.1, fraction, r₂.1, exponent, ⟨r₁.2, h₁⟩, ⟨r₂.2, h₂⟩, ⟨r₃.2, h₃⟩, rfl⟩
  · rintro ⟨whole, r₁, fraction, r₂, exponent, ⟨l₁, h₁⟩, ⟨l₂, h₂⟩, ⟨l₃, h₃⟩, rfl⟩
    refine ⟨Nat.le_trans l₃ (Nat.le_trans l₂ l₁), ?_⟩
    exact bind_eq_ok.2 ⟨_, h₁, bind_eq_ok.2 ⟨_, h₂, bind_eq_ok.2 ⟨_, h₃, rfl⟩⟩⟩

theorem scanNumber_append {negative : Bool} {n : Numeral} (ht : EndsNumber t)
    (h : Leaves (scanNumber negative s) n r) :
    Leaves (scanNumber negative (s ++ t)) n (r ++ t) := by
  obtain ⟨whole, r₁, fraction, r₂, exponent, h₁, h₂, h₃, hn⟩ := scanNumber_leaves_iff.1 h
  exact scanNumber_leaves_iff.2 ⟨whole, r₁ ++ t, fraction, r₂ ++ t, exponent,
    integerPart_append ht h₁, fractionPart_append ht h₂, exponentPart_append ht h₃, hn⟩

def Scans (s : List Char) (token : Token) (r : List Char) : Prop :=
  (scanToken s).1 = token ∧ (scanToken s).2.1 = r

theorem number_eq_iff {negative : Bool} {n : Numeral} :
    (number negative s).1 = .number n ∧ (number negative s).2.1 = r ↔
      Leaves (scanNumber negative s) n r := by
  unfold number Leaves
  split
  · rename_i m q heq
    rw [heq]
    constructor
    · rintro ⟨hm, rfl⟩
      cases hm
      exact ⟨q.2, rfl⟩
    · rintro ⟨h, hok⟩
      cases hok
      exact ⟨rfl, rfl⟩
  · rename_i f heq
    rw [heq]
    simp

theorem literal_ne_number {token : Token} {word : List Char} {n : Numeral}
    (h : token ≠ .number n) : (literal token word s).1 ≠ .number n := by
  unfold literal
  split
  · exact h
  · simp

theorem scans_number_iff {n : Numeral} :
    Scans s (.number n) r ↔
      (∃ s', s = '-' :: s' ∧ Leaves (scanNumber true s') n r) ∨
        (∃ c s', s = c :: s' ∧ c.isDigit = true) ∧ Leaves (scanNumber false s) n r := by
  unfold Scans scanToken
  split
  · simp
  · simp
  · simp
  · split
    · simp
    · simp
  · simpa using number_eq_iff
  · rename_i c s _ _ _ hminus
    have hneg : ¬ ∃ s', c :: s = '-' :: s' ∧ Leaves (scanNumber true s') n r := by
      rintro ⟨s', hs, -⟩
      exact hminus (List.cons.inj hs).1
    rw [or_iff_right hneg]
    by_cases hd : c.isDigit = true
    · rw [if_neg (ne_of_isDigit hd rfl), if_neg (ne_of_isDigit hd rfl),
        if_neg (ne_of_isDigit hd rfl), if_pos hd, number_eq_iff]
      exact (and_iff_right ⟨c, s, rfl, hd⟩).symm
    · have hno : ¬ ∃ c' s', c :: s = c' :: s' ∧ c'.isDigit = true := by
        rintro ⟨c', s', hs, hd'⟩
        exact hd ((List.cons.inj hs).1 ▸ hd')
      refine iff_of_false ?_ fun h => hno h.1
      rintro ⟨htoken, -⟩
      revert htoken
      split
      · exact literal_ne_number (by simp)
      split
      · exact literal_ne_number (by simp)
      split
      · exact literal_ne_number (by simp)
      · simp

theorem scans_number_append {n : Numeral} (ht : EndsNumber t) (h : Scans s (.number n) r) :
    Scans (s ++ t) (.number n) (r ++ t) := by
  rcases scans_number_iff.1 h with ⟨s', rfl, hn⟩ | ⟨⟨c, s', rfl, hd⟩, hn⟩
  · exact scans_number_iff.2 (.inl ⟨s' ++ t, rfl, scanNumber_append ht hn⟩)
  · exact scans_number_iff.2 (.inr ⟨⟨c, s' ++ t, rfl, hd⟩, scanNumber_append ht hn⟩)

theorem scans_null : Scans ("null".toList ++ t) .null t := ⟨rfl, rfl⟩

def isPlain (c : Char) : Bool := c != '"' && c != '\\' && 32 ≤ c.toNat

theorem scanString_plain {cs : List Char} (hcs : cs.all isPlain = true) :
    Leaves (scanString (cs ++ '"' :: r)) cs r := by
  induction cs with
  | nil =>
      rw [List.nil_append, scanString]
      exact ⟨_, rfl⟩
  | cons c cs ih =>
      rw [List.all_cons, Bool.and_eq_true] at hcs
      obtain ⟨hc, hcs⟩ := hcs
      simp only [isPlain, Bool.and_eq_true, bne_iff_ne, decide_eq_true_eq] at hc
      obtain ⟨⟨hquote, hslash⟩, hlow⟩ := hc
      obtain ⟨h, hok⟩ := ih hcs
      rw [List.cons_append, scanString]
      · rw [if_neg (by omega), hok]
        exact ⟨_, rfl⟩
      · exact hquote
      · exact hslash

theorem scans_string {cs : List Char} (hcs : cs.all isPlain = true) :
    Scans ('"' :: cs ++ '"' :: r) (.string (String.ofList cs)) r := by
  obtain ⟨h, hok⟩ := scanString_plain (r := r) hcs
  unfold Scans
  rw [List.cons_append, scanToken, hok]
  exact ⟨rfl, rfl⟩

end Metrology.Json
