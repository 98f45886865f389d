import Metrology.Unit.Named
import Metrology.Proofs.Dimension.SymbolReader

/-!
# Unit symbols

No two dimensions share a preferred symbol.  A named symbol that could be read as a base symbol is
the base symbol of its own dimension, and every way to spell a unit starts with a symbol of the
table.
-/

namespace Metrology

namespace NamedUnit

theorem lookup_eq_some {d : Dimension} {unit : NamedUnit} (h : lookup d = some unit) :
    unit ∈ table ∧ unit.dimension = d :=
  ⟨List.mem_of_find?_eq_some h, by simpa using List.find?_some h⟩

theorem eq_of_symbol_eq {u v : NamedUnit} (hu : u ∈ table) (hv : v ∈ table)
    (h : u.symbol = v.symbol) : u = v := by
  have hall : ∀ u ∈ table, ∀ v ∈ table, u.symbol = v.symbol → u = v := by decide
  exact hall u hu v hv h

theorem symbol_ne_tail_symbol {u v : NamedUnit} (hu : u ∈ table) (hv : v ∈ table) :
    u.symbol.toList ≠ v.symbol.toList.tail := by
  have hall : ∀ u ∈ table, ∀ v ∈ table, u.symbol.toList ≠ v.symbol.toList.tail := by decide
  exact hall u hu v hv

theorem ofSymbol?_of_mem_table {unit : NamedUnit} (h : unit ∈ table) :
    Dimension.ofSymbol? unit.symbol = none ∨
      Dimension.ofSymbol? unit.symbol = some unit.dimension := by
  revert unit
  decide

theorem dimension_eq_of_symbol_eq {unit : NamedUnit} {d : Dimension} (hu : unit ∈ table)
    (h : unit.symbol = d.symbol) : unit.dimension = d := by
  have hread := Dimension.ofSymbol?_symbol d
  rw [← h] at hread
  rcases ofSymbol?_of_mem_table hu with hnone | hsome
  · rw [hnone] at hread
    cases hread
  · rw [hsome] at hread
    exact Option.some.inj hread

end NamedUnit

namespace Dimension

open NamedUnit

theorem preferredSymbol_injective : Function.Injective preferredSymbol := by
  intro d e h
  unfold preferredSymbol at h
  cases hd : lookup d with
  | some u =>
      obtain ⟨hu, rfl⟩ := lookup_eq_some hd
      cases he : lookup e with
      | some v =>
          obtain ⟨hv, rfl⟩ := lookup_eq_some he
          rw [hd, he] at h
          rw [eq_of_symbol_eq hu hv h]
      | none =>
          rw [hd, he] at h
          exact dimension_eq_of_symbol_eq hu h
  | none =>
      cases he : lookup e with
      | some v =>
          obtain ⟨hv, rfl⟩ := lookup_eq_some he
          rw [hd, he] at h
          exact (dimension_eq_of_symbol_eq hv h.symm).symm
      | none =>
          rw [hd, he] at h
          exact symbol_injective h

/-- The ways to spell the unit of a dimension. -/
def spellings (d : Dimension) : List String := d.symbol :: (rows d).map (·.symbol)

theorem preferredSymbol_mem_spellings (d : Dimension) : d.preferredSymbol ∈ d.spellings := by
  unfold preferredSymbol
  cases hd : lookup d with
  | none => exact List.mem_cons_self
  | some unit =>
      obtain ⟨hunit, rfl⟩ := lookup_eq_some hd
      refine List.mem_cons_of_mem _ (List.mem_map_of_mem (List.mem_filter.2 ⟨hunit, ?_⟩))
      exact beq_self_eq_true _

def endsSymbol (c : Char) : Bool := c == ' ' || c == '+' || c == '-'

def leadingSymbol (text : List Char) : List Char := text.takeWhile (!endsSymbol ·)

theorem WritesExponent.endsSymbol_head {e : Int} {s : List Char} (h : WritesExponent e s)
    (t : List Char) : ∀ c, (s ++ ' ' :: t).head? = some c → endsSymbol c = true := by
  intro c hc
  cases h <;> (cases hc; rfl)

theorem symbol_eq_component {d : Dimension} (h : d ≠ dimensionless) :
    ∃ label ∈ labels, ∃ s, d.symbol.toList = label.toList ++ s ∧
      ∀ c, s.head? = some c → endsSymbol c = true := by
  cases hcomponents : d.components with
  | nil =>
      have hempty : d.symbol = "" := by simp [symbol, hcomponents]
      exact absurd (symbol_injective (hempty.trans rfl)) h
  | cons word rest =>
      have hmem : word ∈ d.components := by simp [hcomponents]
      obtain ⟨entry, -, hl, s, hs, rfl⟩ := exists_entry_of_mem_components hmem
      cases rest with
      | nil =>
          refine ⟨entry.1, hl, s, by simp [symbol, hcomponents], ?_⟩
          intro c hc
          exact hs.endsSymbol_head [] c (by simp [hc])
      | cons word rest =>
          refine ⟨entry.1, hl, s ++ ' ' :: [' '].intercalate (word :: rest),
            by simp [symbol, hcomponents], hs.endsSymbol_head _⟩

theorem leadingSymbol_append {s t : List Char} (hs : ∀ c ∈ s, endsSymbol c = false)
    (ht : ∀ c, t.head? = some c → endsSymbol c = true) : leadingSymbol (s ++ t) = s := by
  rw [leadingSymbol, List.takeWhile_append_of_pos (by simpa using hs)]
  cases t with
  | nil => simp
  | cons c t => simp [ht c rfl]

theorem leadingSymbol_symbol {d : Dimension} (h : d ≠ dimensionless) :
    ∃ unit ∈ table, leadingSymbol d.symbol.toList = unit.symbol.toList := by
  obtain ⟨label, hl, s, hs, hends⟩ := symbol_eq_component h
  -- A test on each character; a quantifier over characters would try all that there are.
  have hplain : ∀ label ∈ labels, label.toList.all (!endsSymbol ·) = true ∧
      ∃ unit ∈ table, label = unit.symbol := by
    decide
  obtain ⟨hlabel, unit, hunit, rfl⟩ := hplain label hl
  exact ⟨unit, hunit, by rw [hs, leadingSymbol_append (by simpa using hlabel) hends]⟩

theorem leadingSymbol_of_mem_spellings {d : Dimension} (h : d ≠ dimensionless) {text : String}
    (htext : text ∈ d.spellings) :
    ∃ unit ∈ table, leadingSymbol text.toList = unit.symbol.toList := by
  rcases List.mem_cons.1 htext with rfl | hnamed
  · exact leadingSymbol_symbol h
  · obtain ⟨unit, hrow, rfl⟩ := List.mem_map.1 hnamed
    have hplain : ∀ unit ∈ table, leadingSymbol unit.symbol.toList = unit.symbol.toList := by
      decide
    have hunit := (List.mem_filter.1 hrow).1
    exact ⟨unit, hunit, hplain unit hunit⟩

end Dimension

end Metrology
