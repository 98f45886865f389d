import Metrology.Engineering
import Metrology.Proofs.Dimension.Base
import Metrology.Proofs.Unit.Symbol
import Mathlib.Data.List.Nodup
import Mathlib.Data.List.Perm.Basic

/-!
# Looking up units

No two rows of the table name one dimension, so that a lookup does not depend on their order.  The
table names every base dimension, and by its base symbol.  That a dimension has one unit symbol to
itself thus means that it has a row, and one whose base symbol is a bare label takes prefixes unless
it is the mass.
-/

namespace Metrology

namespace NamedUnit

open Dimension

variable {d : Dimension} {unit : NamedUnit}

theorem length_rows_le_one (d : Dimension) : (rows d).length ≤ 1 := by
  have hnodup : (table.map (·.dimension)).Nodup := by decide
  have hcount := List.nodup_iff_count_le_one.1 hnodup d
  rwa [List.count_eq_countP, List.countP_map, List.countP_eq_length_filter] at hcount

theorem eq_of_perm_of_length_le_one {α : Type} {s t : List α} (h : s.Perm t) (ht : t.length ≤ 1) :
    s = t := by
  match t with
  | [] => exact h.eq_nil
  | [x] => exact List.perm_singleton.1 h
  | x :: y :: t => simp at ht

theorem find?_of_perm {t : List NamedUnit} (h : t.Perm table) (d : Dimension) :
    t.find? (·.dimension == d) = lookup d := by
  have hrows : t.filter (·.dimension == d) = rows d :=
    eq_of_perm_of_length_le_one (h.filter _) (length_rows_le_one d)
  rw [lookup, ← List.head?_filter, ← List.head?_filter, hrows, rows]

theorem lookup_dimension (h : unit ∈ table) : lookup unit.dimension = some unit := by
  revert unit
  decide

theorem lookup_of_isBase (hfits : d.FitsWords) (h : d.isBase = true) :
    ∃ unit, lookup d = some unit ∧ unit.symbol = d.symbol := by
  have hall : ∀ i ≤ 6, ∃ unit ∈ table,
      ofExponents? (List.replicate i 0 ++ 1 :: List.replicate (6 - i) 0) = some unit.dimension ∧
        unit.symbol = unit.dimension.symbol := by
    decide
  obtain ⟨i, hi, hexponents⟩ := exponents_of_isBase hfits h
  obtain ⟨unit, hunit, hdimension, hsymbol⟩ := hall i hi
  rw [← hexponents, ofExponents?_exponents, Option.some_inj] at hdimension
  subst hdimension
  exact ⟨unit, lookup_dimension hunit, hsymbol⟩

theorem isSingle_iff (hfits : d.FitsWords) : d.isSingle = true ↔ ∃ unit, lookup d = some unit := by
  rw [← Option.isSome_iff_exists, isSingle, Bool.or_eq_true, or_iff_right_iff_imp]
  intro h
  obtain ⟨unit, hunit, -⟩ := lookup_of_isBase hfits h
  simp [hunit]

theorem preferredSymbol_of_isBase (hfits : d.FitsWords) (h : d.isBase = true) :
    d.preferredSymbol = d.symbol := by
  obtain ⟨unit, hunit, hsymbol⟩ := lookup_of_isBase hfits h
  simp [preferredSymbol, hunit, hsymbol]

theorem lookup_of_symbol_mem_labels (h : d.symbol ∈ labels) : (lookup d).isSome = true := by
  have hlabels : ∀ label ∈ labels, ∃ unit ∈ table, unit.symbol = label := by decide
  obtain ⟨unit, hunit, hsymbol⟩ := hlabels d.symbol h
  rw [← dimension_eq_of_symbol_eq hunit hsymbol, lookup_dimension hunit]
  rfl

end NamedUnit

open NamedUnit Engineering

theorem Engineering.takesPrefix_of_isSingle {d : Dimension} (hsingle : d.isSingle = true)
    (hmass : d ≠ Kind.mass.dimension) (exponent : Int) :
    takesPrefix d exponent = true ↔ leastExponent ≤ exponent ∧ exponent ≤ greatestExponent := by
  simp [takesPrefix, hsingle, hmass]

structure LookupLaws (d : Dimension) : Prop where
  unique : (rows d).length ≤ 1
  order : ∀ t : List NamedUnit, t.Perm table → t.find? (·.dimension == d) = lookup d
  base : d.FitsWords → d.isBase = true → ∃ unit, lookup d = some unit ∧ unit.symbol = d.symbol
  single : d.FitsWords → (d.isSingle = true ↔ ∃ unit, lookup d = some unit)
  preferred : d.FitsWords → d.isBase = true → d.preferredSymbol = d.symbol
  label : d.symbol ∈ Dimension.labels → d = Kind.mass.dimension ∨
    ∀ exponent, takesPrefix d exponent = true ↔
      leastExponent ≤ exponent ∧ exponent ≤ greatestExponent

/-- A dimension has one named unit at most, whatever the order of the table, and a base dimension has
the one that its symbol names. -/
theorem NamedUnit.lookup_lawful (d : Dimension) : LookupLaws d where
  unique := length_rows_le_one d
  order _ h := find?_of_perm h d
  base := lookup_of_isBase
  single := isSingle_iff
  preferred := preferredSymbol_of_isBase
  label h := by
    have hsingle : d.isSingle = true := by simp [Dimension.isSingle, lookup_of_symbol_mem_labels h]
    by_cases hmass : d = Kind.mass.dimension
    · exact .inl hmass
    · exact .inr (takesPrefix_of_isSingle hsingle hmass)

end Metrology
