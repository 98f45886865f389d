import Metrology.Dimension.Basic
import Mathlib.Algebra.BigOperators.Group.List.Basic
import Mathlib.Algebra.Ring.Int.Defs

/-!
# Base dimensions

A base dimension has one exponent that is one and six that are zero.  The exponents are added up in
a word of 32 bits, so that vectors of any shape come to a sum of one.  Where a single exponent is
not zero, though, it is the sum itself, and the word holds it as it is.
-/

namespace Metrology.Dimension

open scoped Metrology.Power

def FitsWords (d : Dimension) : Prop := ∀ e ∈ d.exponents, -2 ^ 31 ≤ e ∧ e < 2 ^ 31

instance (d : Dimension) : Decidable d.FitsWords :=
  inferInstanceAs (Decidable (∀ e ∈ d.exponents, -2 ^ 31 ≤ e ∧ e < 2 ^ 31))

theorem length_exponents (d : Dimension) : d.exponents.length = 7 := rfl

theorem foldl_wrapped (sum : Int) (es : List Int) :
    es.foldl (fun sum e => (sum + e).bmod (2 ^ 32)) (sum.bmod (2 ^ 32)) =
      (sum + es.sum).bmod (2 ^ 32) := by
  induction es generalizing sum with
  | nil => simp
  | cons e es ih =>
      rw [List.foldl_cons, Int.bmod_add_bmod, ih, List.sum_cons, Int.add_assoc]

theorem wrappedSum_eq (es : List Int) : wrappedSum es = es.sum.bmod (2 ^ 32) := by
  simpa [wrappedSum] using foldl_wrapped 0 es

theorem wrappedSum_map_toInt (ws : List Int32) :
    wrappedSum (ws.map Int32.toInt) = ws.sum.toInt := by
  rw [wrappedSum_eq]
  induction ws with
  | nil => rfl
  | cons w ws ih =>
      rw [List.map_cons, List.sum_cons, List.sum_cons, Int32.toInt_add, ← ih, Int.add_bmod_bmod]

theorem bmod_of_fits {e : Int} (hlow : -2 ^ 31 ≤ e) (hhigh : e < 2 ^ 31) :
    e.bmod (2 ^ 32) = e :=
  Int.bmod_eq_of_le (by omega) (by omega)

theorem eq_replicate_of_single {es : List Int} (h : es.countP (· != 0) = 1) :
    ∃ i j e, e ≠ 0 ∧ es = List.replicate i 0 ++ e :: List.replicate j 0 := by
  induction es with
  | nil => simp at h
  | cons e es ih =>
      by_cases he : e = 0
      · subst he
        obtain ⟨i, j, e, hne, rfl⟩ := ih (by simpa using h)
        exact ⟨i + 1, j, e, hne, by simp [List.replicate_succ]⟩
      · have hzero : ∀ b ∈ es, b = 0 := by simpa [List.countP_cons, he] using h
        exact ⟨0, es.length, e, he, by simp [← List.eq_replicate_of_mem hzero]⟩

theorem countP_add_count (es : List Int) : es.countP (· != 0) + es.count 0 = es.length := by
  induction es with
  | nil => rfl
  | cons e es ih => by_cases he : e = 0 <;> simp [he] <;> omega

theorem isBase_iff_single (d : Dimension) :
    d.isBase = true ↔
      d.exponents.countP (· != 0) = 1 ∧ d.exponents.sum.bmod (2 ^ 32) = 1 := by
  simp [isBase, wrappedSum_eq]

theorem exponents_of_isBase {d : Dimension} (hfits : d.FitsWords) (h : d.isBase = true) :
    ∃ i ≤ 6, d.exponents = List.replicate i 0 ++ 1 :: List.replicate (6 - i) 0 := by
  obtain ⟨hsingle, hsum⟩ := (isBase_iff_single d).1 h
  obtain ⟨i, j, e, -, hexponents⟩ := eq_replicate_of_single hsingle
  obtain ⟨hlow, hhigh⟩ := hfits e (by simp [hexponents])
  have hlength := length_exponents d
  have hone : e.bmod (2 ^ 32) = 1 := by simpa [hexponents] using hsum
  have he : e = 1 := (bmod_of_fits hlow hhigh).symm.trans hone
  have hj : i + (j + 1) = 7 := by simpa [hexponents] using hlength
  refine ⟨i, by omega, ?_⟩
  rw [hexponents, he, show 6 - i = j by omega]

/-- The running sum is that of words of 32 bits.  However it wraps around, a vector passes for a
base dimension if and only if it is one, and never if all exponents are zero. -/
theorem isBase_iff_count {d : Dimension} (hfits : d.FitsWords) :
    (∀ ws : List Int32, wrappedSum (ws.map Int32.toInt) = ws.sum.toInt) ∧
      (d.isBase = true ↔ d.exponents.count 1 = 1 ∧ d.exponents.count 0 = 6) ∧
      ¬(d.isDimensionless = true ∧ d.isBase = true) := by
  refine ⟨wrappedSum_map_toInt, ⟨fun h => ?_, fun ⟨hone, hzero⟩ => ?_⟩, ?_⟩
  · obtain ⟨i, hi, hexponents⟩ := exponents_of_isBase hfits h
    simp [hexponents, List.count_replicate]
    omega
  · have hsingle : d.exponents.countP (· != 0) = 1 := by
      have := countP_add_count d.exponents
      rw [hzero, length_exponents] at this
      omega
    obtain ⟨i, j, e, -, hexponents⟩ := eq_replicate_of_single hsingle
    have he : e = 1 := by
      by_contra hne
      simp [hexponents, List.count_replicate, hne] at hone
    rw [isBase_iff_single]
    exact ⟨hsingle, by simp [hexponents, he]⟩
  · rintro ⟨hdimensionless, hbase⟩
    rw [(isDimensionless_iff d).1 hdimensionless] at hbase
    revert hbase
    decide

/-- Words that add up to one, but are far from a base dimension. -/
theorem isBase_iff_count_wrapped_to_one :
    let d : Dimension := ⟨2147483647, 2147483647, 3, 0, 0, 0, 0⟩
    d.FitsWords ∧ wrappedSum d.exponents = 1 ∧ d.isBase = false := by
  intro d
  have hfits : d.FitsWords := by decide
  refine ⟨hfits, by decide, ?_⟩
  rw [← Bool.not_eq_true, (isBase_iff_count hfits).2.1]
  decide

end Metrology.Dimension
