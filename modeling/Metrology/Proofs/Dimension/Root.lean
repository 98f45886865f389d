import Metrology.Proofs.Dimension.Group

/-!
# Roots undo powers

A root divides every exponent and cuts fractions off toward zero, and it is taken only where nothing
is cut off.  So it inverts the power of its degree, also where degree and exponents have different
signs, and what holds of powers carries over to roots.
-/

namespace Metrology.Dimension

variable {d e : Dimension} {n m : Int}

theorem hasRoot_iff_dvd : d.HasRoot n ↔ ∀ x ∈ d.exponents, n ∣ x := by
  simp only [HasRoot, Int.dvd_iff_tmod_eq_zero]

theorem hasRoot_power (d : Dimension) (n : Int) : (d.power n).HasRoot n := by
  simp [hasRoot_iff_dvd, power]

theorem root_power (hn : n ≠ 0) : (d.power n).root n = d := by
  ext <;> exact Int.mul_tdiv_cancel _ hn

theorem power_root (h : d.HasRoot n) : (d.root n).power n = d := by
  have hdvd := hasRoot_iff_dvd.1 h
  ext <;> exact Int.tdiv_mul_cancel (hdvd _ (by simp [exponents]))

theorem hasRoot_iff_exists_power : d.HasRoot n ↔ ∃ e : Dimension, e.power n = d := by
  constructor
  · intro h
    exact ⟨d.root n, power_root h⟩
  · rintro ⟨e, rfl⟩
    exact hasRoot_power e n

theorem eq_root_of_power_eq (hn : n ≠ 0) (h : e.power n = d) : e = d.root n := by
  rw [← h, root_power hn]

theorem power_mul (d : Dimension) (n m : Int) : d.power (n * m) = (d.power m).power n := by
  rw [Int.mul_comm]
  exact zpow_mul d m n

theorem hasRoot_mul_iff (hn : n ≠ 0) :
    d.HasRoot (n * m) ↔ d.HasRoot n ∧ (d.root n).HasRoot m := by
  constructor
  · intro h
    obtain ⟨e, rfl⟩ := hasRoot_iff_exists_power.1 h
    rw [power_mul, root_power hn]
    exact ⟨hasRoot_power _ n, hasRoot_power e m⟩
  · rintro ⟨h, hroot⟩
    obtain ⟨e, he⟩ := hasRoot_iff_exists_power.1 hroot
    refine hasRoot_iff_exists_power.2 ⟨e, ?_⟩
    rw [power_mul, he, power_root h]

theorem root_mul (hn : n ≠ 0) (hm : m ≠ 0) (h : d.HasRoot (n * m)) :
    d.root (n * m) = (d.root n).root m := by
  obtain ⟨e, rfl⟩ := hasRoot_iff_exists_power.1 h
  rw [root_power (Int.mul_ne_zero hn hm), power_mul, root_power hn, root_power hm]

theorem mul_self_eq_power (d : Dimension) : d * d = d.power 2 := (pow_two d).symm

theorem mul_mul_self_eq_power (d : Dimension) : d * d * d = d.power 3 :=
  (pow_three' d).symm

end Metrology.Dimension
