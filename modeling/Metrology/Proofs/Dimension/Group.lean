import Metrology.Dimension.Basic
import Mathlib.Algebra.Group.Basic

/-!
# The group of dimensions

Dimensions form a commutative group: they multiply by adding exponents, the dimensionless vector is
the neutral element, and the integer power multiplies every exponent.
-/

namespace Metrology

attribute [ext] Dimension

namespace Dimension

instance : One Dimension := ⟨dimensionless⟩

instance : Inv Dimension := ⟨reciprocal⟩

theorem power_zero (a : Dimension) : a.power 0 = 1 := by
  ext <;> exact Int.mul_zero _

theorem power_add_one (a : Dimension) (n : Int) : a.power (n + 1) = a.power n * a := by
  have distrib (e : Int) : e * (n + 1) = e * n + e := by rw [Int.mul_add, Int.mul_one]
  ext <;> exact distrib _

theorem power_neg (a : Dimension) (n : Int) : a.power (-n) = (a.power n)⁻¹ := by
  ext <;> exact Int.mul_neg ..

instance : CommGroup Dimension where
  mul_assoc a b c := by ext <;> exact Int.add_assoc ..
  mul_comm a b := by ext <;> exact Int.add_comm ..
  one_mul a := by ext <;> exact Int.zero_add _
  mul_one a := by ext <;> exact Int.add_zero _
  inv_mul_cancel a := by ext <;> exact Int.add_left_neg _
  div_eq_mul_inv a b := by ext <;> exact Int.sub_eq_add_neg
  npow n a := a.power n
  npow_zero a := a.power_zero
  npow_succ n a := a.power_add_one n
  zpow n a := a.power n
  zpow_zero' a := a.power_zero
  zpow_succ' n a := a.power_add_one n
  zpow_neg' n a := a.power_neg n.succ

@[simp] theorem isDimensionless_eq_true_iff (a : Dimension) :
    a.isDimensionless = true ↔ a = 1 :=
  isDimensionless_iff a

@[simp] theorem isDimensionless_eq_false_iff (a : Dimension) :
    a.isDimensionless = false ↔ a ≠ 1 := by
  rw [← Bool.not_eq_true, isDimensionless_eq_true_iff]

variable {d : Dimension} {n : Int}

theorem eq_one_iff : d = 1 ↔ ∀ e ∈ d.exponents, e = 0 := by
  rw [← isDimensionless_eq_true_iff, isDimensionless, List.all_eq_true]
  simp only [beq_iff_eq]

theorem exists_exponent_ne_zero (h : d ≠ 1) : ∃ e ∈ d.exponents, e ≠ 0 := by
  by_contra hall
  refine h (eq_one_iff.2 fun e he => ?_)
  by_contra hne
  exact hall ⟨e, he, hne⟩

theorem power_eq_one_iff (h : d ≠ 1) : d.power n = 1 ↔ n = 0 := by
  obtain ⟨e, he, hne⟩ := exists_exponent_ne_zero h
  constructor
  · intro hpower
    have hzero := eq_one_iff.1 hpower (e * n) (List.mem_map_of_mem (f := (· * n)) he)
    exact (Int.mul_eq_zero.1 hzero).resolve_left hne
  · rintro rfl
    exact d.power_zero

theorem root_ne_one (h : d ≠ 1) (hroot : d.HasRoot n) : d.root n ≠ 1 := by
  obtain ⟨e, he, hne⟩ := exists_exponent_ne_zero h
  intro hone
  have hquot : e.tdiv n = 0 := eq_one_iff.1 hone (e.tdiv n)
    (List.mem_map_of_mem (f := (·.tdiv n)) he)
  have hsplit := Int.mul_tdiv_add_tmod e n
  rw [hquot, hroot e he] at hsplit
  exact hne (by simpa using hsplit.symm)

end Dimension

end Metrology
