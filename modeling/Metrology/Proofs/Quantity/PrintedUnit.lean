import Metrology.Proofs.Quantity.Engineering
import Metrology.Proofs.Unit.Symbol

/-!
# The printed unit

The unit of a rendering is a prefix in front of a preferred symbol.  Prefixes share letters with
unit symbols, but each is one letter, and no symbol is another one without its first letter, so that
the dimension and the prefix can be told from the unit.
-/

namespace Metrology

namespace Engineering

open NamedUnit Dimension

theorem prefix_singleton {p : String} (hp : p ∈ prefixes) (hne : p ≠ "") :
    ∃ c, p.toList = [c] ∧ endsSymbol c = false := by
  have hall : ∀ p ∈ prefixes, p ≠ "" →
      p.toList.length = 1 ∧ p.toList.all (!endsSymbol ·) = true := by
    decide
  obtain ⟨hlength, hplain⟩ := hall p hp hne
  obtain ⟨c, hc⟩ := List.length_eq_one_iff.1 hlength
  exact ⟨c, hc, by simpa [hc] using hplain⟩

theorem prefix_append_ne_spelling {p : String} (hp : p ∈ prefixes) (hne : p ≠ "") {d : Dimension}
    (hd : d ≠ dimensionless) (e : Dimension) {s t : String} (hs : s ∈ d.spellings)
    (ht : t ∈ e.spellings) : p ++ s ≠ t := by
  rintro rfl
  obtain ⟨c, hc, hplain⟩ := prefix_singleton hp hne
  have hlead : leadingSymbol (p ++ s).toList = p.toList ++ leadingSymbol s.toList := by
    simp [leadingSymbol, hc, hplain]
  by_cases he : e = dimensionless
  · subst he
    have hempty : p ++ s = "" := by
      have hspell : dimensionless.spellings = [""] := by decide
      simpa [hspell] using ht
    exact hne (String.append_eq_empty_iff.1 hempty).1
  · obtain ⟨u, hu, hleads⟩ := leadingSymbol_of_mem_spellings hd hs
    obtain ⟨v, hv, hleadt⟩ := leadingSymbol_of_mem_spellings he ht
    rw [hlead, hleads, hc] at hleadt
    exact symbol_ne_tail_symbol hu hv (congrArg List.tail hleadt)

theorem prefix_append_preferredSymbol_inj {p q : String} (hp : p ∈ prefixes) (hq : q ∈ prefixes)
    {d e : Dimension} (hd : d ≠ dimensionless) (he : e ≠ dimensionless) :
    p ++ d.preferredSymbol = q ++ e.preferredSymbol ↔ p = q ∧ d = e := by
  constructor
  · intro h
    by_cases hp0 : p = ""
    · by_cases hq0 : q = ""
      · rw [hp0, hq0, String.empty_append, String.empty_append] at h
        exact ⟨hp0.trans hq0.symm, preferredSymbol_injective h⟩
      · rw [hp0, String.empty_append] at h
        exact absurd h.symm (prefix_append_ne_spelling hq hq0 he d
          (preferredSymbol_mem_spellings e) (preferredSymbol_mem_spellings d))
    · by_cases hq0 : q = ""
      · rw [hq0, String.empty_append] at h
        exact absurd h (prefix_append_ne_spelling hp hp0 hd e
          (preferredSymbol_mem_spellings d) (preferredSymbol_mem_spellings e))
      · obtain ⟨a, ha, -⟩ := prefix_singleton hp hp0
        obtain ⟨b, hb, -⟩ := prefix_singleton hq hq0
        have hlist := congrArg String.toList h
        rw [String.toList_append, String.toList_append, ha, hb] at hlist
        obtain ⟨rfl, hrest⟩ := List.cons.inj hlist
        exact ⟨String.toList_injective (ha.trans hb.symm),
          preferredSymbol_injective (String.toList_injective hrest)⟩
  · rintro ⟨rfl, rfl⟩
    rfl

theorem prefixText_mem {k : Int} (hlow : -8 ≤ k) (hhigh : k ≤ 8) :
    prefixText (k * 3) ∈ prefixes := by
  have hall : ∀ k ∈ Finset.Icc (-8 : Int) 8, prefixText (k * 3) ∈ prefixes := by decide
  exact hall k (Finset.mem_Icc.2 ⟨hlow, hhigh⟩)

theorem prefixText_inj {j k : Int} (hj : -8 ≤ j ∧ j ≤ 8) (hk : -8 ≤ k ∧ k ≤ 8) :
    prefixText (j * 3) = prefixText (k * 3) ↔ j * 3 = k * 3 := by
  refine ⟨fun h => ?_, congrArg prefixText⟩
  have hfactor := congrArg multiplierFactor? h
  rw [multiplierFactor?_prefixText hj.1 hj.2, multiplierFactor?_prefixText hk.1 hk.2,
    Option.some_inj] at hfactor
  exact zpow_right_injective₀ (by norm_num) (by norm_num) hfactor

end Engineering

namespace Quantity

open Engineering

variable {α : Precision → Type} [Decadic α]

/-- The exponent of the multiplier prefix that is chosen for the unit, zero where there is no
prefix. -/
def chosenExponent (q : Quantity α) (digits : Nat) : Int :=
  if specialText? q.scalar.toDouble = none ∧ takesPrefix q.dimension (q.takenOut digits) = true
    then q.takenOut digits
    else 0

theorem exists_chosenExponent_eq (q : Quantity α) (digits : Nat) :
    ∃ k, q.chosenExponent digits = k * 3 ∧ -8 ≤ k ∧ k ≤ 8 := by
  unfold chosenExponent
  split
  · rename_i h
    obtain ⟨k, hk⟩ : ∃ k, q.takenOut digits = k * 3 := ⟨_, rfl⟩
    rw [hk] at h ⊢
    exact ⟨k, rfl, ((takesPrefix_mul_three_iff _ k).1 h.2).2⟩
  · exact ⟨0, by decide⟩

theorem unit_engineering_eq (q : Quantity α) (digits : Nat) (showPlus : Bool) :
    (q.engineering digits showPlus).result.unit =
      prefixText (q.chosenExponent digits) ++ q.dimension.preferredSymbol := by
  have hzero : prefixText 0 = "" := by decide
  rw [unit_engineering, chosenExponent, prefixFor]
  by_cases hspecial : specialText? q.scalar.toDouble = none
  · by_cases htakes : takesPrefix q.dimension (q.takenOut digits) = true
    · simp [hspecial, htakes]
    · simp [hspecial, htakes, hzero]
  · simp [hspecial, hzero]

theorem unit_engineering_eq_iff (a b : Quantity α) (m n : Nat) (s t : Bool) :
    (a.engineering m s).result.unit = (b.engineering n t).result.unit ↔
      a.dimension = b.dimension ∧ a.chosenExponent m = b.chosenExponent n := by
  obtain ⟨j, hj, hjrange⟩ := a.exists_chosenExponent_eq m
  obtain ⟨k, hk, hkrange⟩ := b.exists_chosenExponent_eq n
  have ha := mt (Dimension.isDimensionless_iff a.dimension).2 (by simp [a.dimensional])
  have hb := mt (Dimension.isDimensionless_iff b.dimension).2 (by simp [b.dimensional])
  rw [unit_engineering_eq, unit_engineering_eq, hj, hk,
    prefix_append_preferredSymbol_inj (prefixText_mem hjrange.1 hjrange.2)
      (prefixText_mem hkrange.1 hkrange.2) ha hb,
    prefixText_inj hjrange hkrange, and_comm]

/-- Two renderings share their unit where they share dimension and prefix.  Preferred symbols differ
from each other, and none of them is another one, or a base symbol, behind a prefix. -/
theorem printed_unit_identifies :
    (∀ (α : Precision → Type) [Decadic α] (a b : Quantity α) (m n : Nat) (s t : Bool),
      (a.engineering m s).result.unit = (b.engineering n t).result.unit ↔
        a.dimension = b.dimension ∧ a.chosenExponent m = b.chosenExponent n) ∧
    Function.Injective Dimension.preferredSymbol ∧
    ∀ p ∈ prefixes, p ≠ "" → ∀ d e : Dimension, d ≠ .dimensionless →
      ∀ s ∈ d.spellings, ∀ t ∈ e.spellings, p ++ s ≠ t :=
  ⟨fun _ _ a b m n s t => unit_engineering_eq_iff a b m n s t, Dimension.preferredSymbol_injective,
    fun _ hp hne _ e hd _ hs _ ht => prefix_append_ne_spelling hp hne hd e hs ht⟩

end Quantity

end Metrology
