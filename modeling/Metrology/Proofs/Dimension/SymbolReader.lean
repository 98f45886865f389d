import Metrology.Dimension.Symbol
import Metrology.Proofs.Decimal.Digits
import Mathlib.Data.List.Basic
import Mathlib.Data.List.Forall2

/-!
# Reading base symbols

A base symbol is cut into words at its spaces, every word is read as a label and an exponent, and
the exponents are put back into base order.  The reader recovers every dimension from its symbol, so
that no two dimensions share one.
-/

namespace Metrology.Dimension

open Metrology.Decimal

inductive WritesExponent : Int → List Char → Prop
  | one : WritesExponent 1 []
  | plus {n : Nat} {s : List Char} (h : 1 < n) (hs : IsNumeral n s) :
      WritesExponent n ('+' :: s)
  | minus {n : Nat} {s : List Char} (h : 0 < n) (hs : IsNumeral n s) :
      WritesExponent (-n) ('-' :: s)

def WritesComponent (entry : String × Int) (word : List Char) : Prop :=
  ∃ s, WritesExponent entry.2 s ∧ word = entry.1.toList ++ s

def entries (d : Dimension) : List (String × Int) :=
  (labels.zip d.exponents).filter fun entry => entry.2 != 0

def words (text : String) : List (List Char) :=
  if text = "" then [] else text.toList.splitOn ' '

theorem ne_zero_of_mem_entries {d : Dimension} {entry : String × Int} (h : entry ∈ d.entries) :
    entry.2 ≠ 0 := by
  simpa using (List.mem_filter.1 h).2

theorem label_mem_of_mem_entries {d : Dimension} {entry : String × Int} (h : entry ∈ d.entries) :
    entry.1 ∈ labels :=
  (List.of_mem_zip (List.mem_of_mem_filter h)).1

theorem writesExponent_exponentText {e : Int} (h : e ≠ 0) : WritesExponent e (exponentText e) := by
  unfold exponentText
  rcases Int.lt_trichotomy e 1 with hlt | rfl | hgt
  · obtain ⟨n, rfl⟩ := Int.exists_eq_neg_ofNat (by omega : e ≤ 0)
    have hn : 0 < n := by omega
    rw [if_neg (by omega), if_neg (by omega), signedDigits, if_pos (by omega), Int.natAbs_neg,
      Int.natAbs_natCast]
    exact .minus hn (isNumeral_digits n)
  · exact .one
  · obtain ⟨n, rfl⟩ := Int.eq_ofNat_of_zero_le (by omega : 0 ≤ e)
    rw [if_neg (by omega), if_pos hgt, signedDigits, if_neg (by omega), Int.natAbs_natCast]
    exact .plus (by omega) (isNumeral_digits n)

theorem components_eq_map (d : Dimension) :
    d.components = d.entries.map fun entry => component entry.1 entry.2 := by
  unfold components entries
  induction labels.zip d.exponents with
  | nil => rfl
  | cons entry rest ih =>
      by_cases h : entry.2 = 0
      · simp [h, ih]
      · simp [h, ih]

theorem writesComponent_components (d : Dimension) :
    List.Forall₂ WritesComponent d.entries d.components := by
  rw [components_eq_map, List.forall₂_map_right_iff, List.forall₂_same]
  intro entry hentry
  exact ⟨_, writesExponent_exponentText (ne_zero_of_mem_entries hentry), rfl⟩

theorem WritesExponent.head?_isAlpha {e : Int} {s : List Char} (h : WritesExponent e s) :
    ∀ c, s.head? = some c → c.isAlpha = false := by
  cases h with
  | one => simp
  | plus | minus =>
      intro c hc
      cases hc
      rfl

theorem WritesExponent.space_not_mem {e : Int} {s : List Char} (h : WritesExponent e s) :
    ' ' ∉ s := by
  cases h with
  | one => simp
  | plus _ hs | minus _ hs =>
      intro hmem
      have := hs.digits ' ' (by simpa using hmem)
      simp at this

theorem isAlpha_of_mem_labels {label : String} (h : label ∈ labels) :
    ∀ c ∈ label.toList, c.isAlpha = true := by
  have hall : (labels.all fun label => label.toList.all Char.isAlpha) = true := rfl
  exact List.all_eq_true.1 (List.all_eq_true.1 hall label h)

theorem WritesComponent.space_not_mem {entry : String × Int} {word : List Char}
    (hl : entry.1 ∈ labels) (h : WritesComponent entry word) : ' ' ∉ word := by
  obtain ⟨s, hs, rfl⟩ := h
  intro hmem
  rcases List.mem_append.1 hmem with hmem | hmem
  · have := isAlpha_of_mem_labels hl _ hmem
    simp at this
  · exact hs.space_not_mem hmem

theorem WritesComponent.ne_nil {entry : String × Int} {word : List Char}
    (hl : entry.1 ∈ labels) (h : WritesComponent entry word) : word ≠ [] := by
  obtain ⟨s, hs, rfl⟩ := h
  have hne : entry.1.toList ≠ [] := by
    revert hl
    generalize entry.1 = label
    revert label
    decide
  simp [hne]

theorem exists_entry_of_mem_components {d : Dimension} {word : List Char}
    (h : word ∈ d.components) :
    ∃ entry ∈ d.entries, entry.1 ∈ labels ∧ WritesComponent entry word := by
  rw [components_eq_map] at h
  obtain ⟨entry, hentry, rfl⟩ := List.mem_map.1 h
  exact ⟨entry, hentry, label_mem_of_mem_entries hentry, _,
    writesExponent_exponentText (ne_zero_of_mem_entries hentry), rfl⟩

theorem words_symbol (d : Dimension) : words d.symbol = d.components := by
  have hspace : ∀ word ∈ d.components, ' ' ∉ word := by
    intro word hword
    obtain ⟨entry, -, hl, hw⟩ := exists_entry_of_mem_components hword
    exact hw.space_not_mem hl
  unfold words symbol
  cases h : d.components with
  | nil => rfl
  | cons word rest =>
      have hword : word ∈ d.components := by simp [h]
      obtain ⟨entry, -, hl, hw⟩ := exists_entry_of_mem_components hword
      have hne : String.ofList ([' '].intercalate (word :: rest)) ≠ "" := by
        intro hempty
        have hlist := congrArg String.toList hempty
        cases rest <;> simp [hw.ne_nil hl] at hlist
      rw [if_neg hne, String.toList_ofList,
        List.splitOn_intercalate ' ' (h ▸ hspace) (List.cons_ne_nil _ _)]

theorem WritesExponent.mem {e : Int} {s : List Char} (h : WritesExponent e s) {c : Char}
    (hc : c ∈ s) : c = '+' ∨ c = '-' ∨ c.isAlphanum = true := by
  have hdigit {n : Nat} {s : List Char} (hs : IsNumeral n s) (hc : c ∈ s) :
    c.isAlphanum = true := by
    simp [Char.isAlphanum, hs.digits c hc]
  cases h with
  | one => cases hc
  | plus _ hs =>
      rcases List.mem_cons.1 hc with rfl | hc
      · exact .inl rfl
      · exact .inr (.inr (hdigit hs hc))
  | minus _ hs =>
      rcases List.mem_cons.1 hc with rfl | hc
      · exact .inr (.inl rfl)
      · exact .inr (.inr (hdigit hs hc))

theorem mem_or_mem_of_mem_intercalate {α : Type} {sep : List α} {ls : List (List α)} {x : α}
    (h : x ∈ sep.intercalate ls) : x ∈ sep ∨ ∃ l ∈ ls, x ∈ l := by
  induction ls with
  | nil => cases h
  | cons l ls ih =>
      cases ls with
      | nil => exact .inr ⟨l, by simp, by simpa using h⟩
      | cons l' ls =>
          rw [List.intercalate_cons_cons, List.mem_append, List.mem_append] at h
          rcases h with (h | h) | h
          · exact .inr ⟨l, by simp, h⟩
          · exact .inl h
          · rcases ih h with h | ⟨l'', hl, h⟩
            · exact .inl h
            · exact .inr ⟨l'', by simp [hl], h⟩

theorem mem_symbol {d : Dimension} {c : Char} (hc : c ∈ d.symbol.toList) :
    c = ' ' ∨ c = '+' ∨ c = '-' ∨ c.isAlphanum = true := by
  rw [symbol, String.toList_ofList] at hc
  rcases mem_or_mem_of_mem_intercalate hc with hc | ⟨word, hword, hc⟩
  · exact .inl (by simpa using hc)
  · obtain ⟨entry, -, hl, s, hs, rfl⟩ := exists_entry_of_mem_components hword
    rcases List.mem_append.1 hc with hc | hc
    · exact .inr (.inr (.inr (by simp [Char.isAlphanum, isAlpha_of_mem_labels hl c hc])))
    · exact .inr (hs.mem hc)

def readExponent? : List Char → Option Int
  | [] => some 1
  | '+' :: s => (readNatural? s).map fun n => n
  | '-' :: s => (readNatural? s).map fun n => -n
  | _ => none

def readComponent? (word : List Char) : Option (String × Int) := do
  let label ← labels.find? fun label => label.toList == word.takeWhile Char.isAlpha
  return (label, ← readExponent? (word.dropWhile Char.isAlpha))

/-- The dimension with the given exponents, zero where none is given. -/
def ofEntries? (entries : List (String × Int)) : Option Dimension :=
  ofExponents? (labels.map fun label => (entries.lookup label).getD 0)

def ofSymbol? (text : String) : Option Dimension := do
  ofEntries? (← (words text).mapM readComponent?)

theorem WritesExponent.read {e : Int} {s : List Char} (h : WritesExponent e s) :
    readExponent? s = some e := by
  cases h with
  | one => rfl
  | plus _ hs => simp [readExponent?, hs.read]
  | minus _ hs => simp [readExponent?, hs.read]

theorem find?_label {label : String} (h : label ∈ labels) :
    (labels.find? fun l => l.toList == label.toList) = some label := by
  revert label
  decide

theorem WritesComponent.read {entry : String × Int} {word : List Char}
    (hl : entry.1 ∈ labels) (h : WritesComponent entry word) :
    readComponent? word = some entry := by
  obtain ⟨s, hs, rfl⟩ := h
  have halpha := isAlpha_of_mem_labels hl
  have htake : s.takeWhile Char.isAlpha = [] := by
    cases s with
    | nil => rfl
    | cons c s => simp [hs.head?_isAlpha c rfl]
  have hdrop : s.dropWhile Char.isAlpha = s := by
    cases s with
    | nil => rfl
    | cons c s => simp [hs.head?_isAlpha c rfl]
  simp only [readComponent?, List.takeWhile_append_of_pos halpha, htake, List.append_nil,
    find?_label hl, List.dropWhile_append_of_pos halpha, hdrop, hs.read]
  rfl

theorem mapM_map_eq_some {α β : Type} {write : α → β} {read : β → Option α} {l : List α}
    (h : ∀ x ∈ l, read (write x) = some x) : (l.map write).mapM read = some l := by
  induction l with
  | nil => rfl
  | cons x l ih =>
      rw [List.map_cons, List.mapM_cons, h x (by simp), ih fun y hy => h y (by simp [hy])]
      rfl

theorem mapM_readComponent?_components (d : Dimension) :
    d.components.mapM readComponent? = some d.entries := by
  rw [components_eq_map]
  apply mapM_map_eq_some
  intro entry hentry
  have hw : WritesComponent entry (component entry.1 entry.2) :=
    ⟨_, writesExponent_exponentText (ne_zero_of_mem_entries hentry), rfl⟩
  exact hw.read (label_mem_of_mem_entries hentry)

theorem map_lookup_filter_zip {names : List String} {exponents : List Int}
    (hn : names.Nodup) (hl : names.length = exponents.length) :
    (names.map fun name =>
      (((names.zip exponents).filter fun entry => entry.2 != 0).lookup name).getD 0) =
      exponents := by
  induction names generalizing exponents with
  | nil => simpa using (List.eq_nil_of_length_eq_zero hl.symm).symm
  | cons name names ih =>
      obtain ⟨e, exponents, rfl⟩ := List.exists_cons_of_length_eq_add_one hl.symm
      obtain ⟨hname, hn⟩ := List.nodup_cons.1 hn
      have hnone : ((names.zip exponents).filter fun entry => entry.2 != 0).lookup name = none := by
        rw [List.lookup_eq_none_iff]
        intro entry hentry
        have hmem := (List.of_mem_zip (List.mem_of_mem_filter hentry)).1
        exact bne_iff_ne.2 fun h : name = entry.1 => hname (h ▸ hmem)
      have htail : (names.map fun n =>
          ((((name :: names).zip (e :: exponents)).filter fun entry =>
            entry.2 != 0).lookup n).getD 0) = exponents := by
        refine Eq.trans (List.map_congr_left fun n hmem => ?_) (ih hn (by simpa using hl))
        have hne : (n == name) = false := beq_eq_false_iff_ne.2 fun h => hname (h ▸ hmem)
        by_cases he : e = 0 <;> simp [he, List.lookup_cons, hne]
      rw [List.map_cons, htail]
      by_cases he : e = 0 <;> simp [he, hnone]

theorem ofEntries?_entries (d : Dimension) : ofEntries? d.entries = some d := by
  rw [ofEntries?, entries, map_lookup_filter_zip (by decide) rfl, ofExponents?_exponents]

theorem ofSymbol?_symbol (d : Dimension) : ofSymbol? d.symbol = some d := by
  rw [ofSymbol?, words_symbol, mapM_readComponent?_components]
  exact ofEntries?_entries d

theorem symbol_injective : Function.Injective symbol := by
  intro a b h
  have hread := congrArg ofSymbol? h
  rw [ofSymbol?_symbol, ofSymbol?_symbol] at hread
  exact Option.some.inj hread

theorem symbol_eq_empty_iff (d : Dimension) : d.symbol = "" ↔ ∀ e ∈ d.exponents, e = 0 := by
  have hempty : d.symbol = "" ↔ d = dimensionless :=
    ⟨fun h => symbol_injective (h.trans rfl), fun h => h ▸ rfl⟩
  rw [hempty, ← isDimensionless_iff, isDimensionless, List.all_eq_true]
  simp only [beq_iff_eq]

/-- A base symbol can be read back, hence belongs to one dimension only and is empty for the
dimensionless one only.  Cut at its spaces, it has one word for each non-zero exponent, in base
order. -/
theorem symbol_lossless :
    (∀ d : Dimension, ofSymbol? d.symbol = some d) ∧
    (∀ a b : Dimension, a.symbol = b.symbol ↔ a = b) ∧
    (∀ d : Dimension, d.symbol = "" ↔ ∀ e ∈ d.exponents, e = 0) ∧
    ∀ d : Dimension, List.Forall₂ WritesComponent d.entries (words d.symbol) := by
  refine ⟨ofSymbol?_symbol, fun a b => symbol_injective.eq_iff, symbol_eq_empty_iff, fun d => ?_⟩
  rw [words_symbol]
  exact writesComponent_components d

end Metrology.Dimension
