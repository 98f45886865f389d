import Metrology.Proofs.Dimension.Root
import Metrology.Proofs.Quantity.Kind
import Metrology.Scalar.Machine

/-!
# Roots of quantities

Roots of quantities are taken where their dimension is a power of the degree, and lead back to the
dimension that was raised.  A root of a quantity is never a bare scalar.
-/

namespace Metrology

structure Dimension.RootLaws (d : Dimension) (n m : Int) : Prop where
  accepted : d.HasRoot n ↔ ∃ e : Dimension, e.power n = d
  unique : ∀ e : Dimension, e.power n = d → e = d.root n
  power : (d.power n).HasRoot n ∧ (d.power n).root n = d
  composite : d.HasRoot (n * m) ↔ d.HasRoot n ∧ (d.root n).HasRoot m
  nested : d.HasRoot (n * m) → d.root (n * m) = (d.root n).root m
  square : d * d = d.power 2
  cube : d * d * d = d.power 3

theorem Dimension.rootLaws {n m : Int} (hn : n ≠ 0) (hm : m ≠ 0) (d : Dimension) :
    d.RootLaws n m where
  accepted := hasRoot_iff_exists_power
  unique _ h := eq_root_of_power_eq hn h
  power := ⟨hasRoot_power d n, root_power hn⟩
  composite := hasRoot_mul_iff hn
  nested := root_mul hn hm
  square := mul_self_eq_power d
  cube := mul_mul_self_eq_power d

namespace Value

variable {α : Precision → Type}

structure SameShape (v w : Value α) : Prop where
  kind : v.isScalar = w.isScalar
  dimension : v.dimension = w.dimension

theorem SameShape.of_dimension {v w : Value α} (h : v.dimension = w.dimension) :
    v.SameShape w := by
  refine ⟨?_, h⟩
  rw [Bool.eq_iff_iff, isScalar_iff, isScalar_iff, h]

end Value

namespace Quantity

variable {α : Precision → Type} [Roots α]

theorem root_eq_ok_iff {q : Quantity α} {n : Int} {v : Value α} :
    q.root n = .ok v ↔
      q.dimension.HasRoot n ∧ v = .collapse (q.dimension.root n) (q.scalar.root n) := by
  unfold root
  split <;> simp [*, eq_comm]

theorem dimension_of_root {q : Quantity α} {n : Int} {v : Value α} (h : q.root n = .ok v) :
    v.dimension = q.dimension.root n := by
  rw [(root_eq_ok_iff.1 h).2, Value.dimension_collapse]

theorem sqrt_eq_ok_iff {q : Quantity α} {v : Value α} :
    q.sqrt = .ok v ↔
      q.dimension.HasRoot 2 ∧ v = .collapse (q.dimension.root 2) q.scalar.sqrt := by
  unfold sqrt
  split <;> simp [*, eq_comm]

theorem exists_root_eq_ok_iff {q : Quantity α} {n : Int} :
    (∃ v, q.root n = .ok v) ↔ q.dimension.HasRoot n := by
  simp [root_eq_ok_iff]

theorem exists_root_eq_quantity {q : Quantity α} {n : Int} (h : q.dimension.HasRoot n) :
    ∃ r : Quantity α, q.root n = .ok (.quantity r) ∧ r.dimension = q.dimension.root n := by
  have hne := Dimension.root_ne_one q.dimension_ne_one h
  have hdim : (q.dimension.root n).isDimensionless = false := by simpa using hne
  refine ⟨⟨q.dimension.root n, q.scalar.root n, hdim⟩, ?_, rfl⟩
  rw [root_eq_ok_iff, Value.collapse_of_ne_one hdim]
  exact ⟨h, rfl⟩

structure RootLaws (q : Quantity α) (n m : Int) : Prop where
  accepted : (∃ v, q.root n = .ok v) ↔ ∃ e : Dimension, e.power n = q.dimension
  dimension : ∀ v, q.root n = .ok v →
    v.isScalar = false ∧ ∀ e : Dimension, e.power n = q.dimension ↔ e = v.dimension
  power : ∃ r s : Quantity α, q.power n = .quantity r ∧ r.root n = .ok (.quantity s) ∧
    s.dimension = q.dimension
  composite : (∃ v, q.root (n * m) = .ok v) ↔
    ∃ (r : Quantity α) (v : Value α), q.root n = .ok (.quantity r) ∧ r.root m = .ok v
  nested : ∀ (r : Quantity α) (v w : Value α), q.root n = .ok (.quantity r) → r.root m = .ok v →
    q.root (n * m) = .ok w → v.SameShape w
  sqrt_accepted : (∃ v, q.sqrt = .ok v) ↔ ∃ v, q.root 2 = .ok v
  sqrt_shape : ∀ v w, q.sqrt = .ok v → q.root 2 = .ok w → v.SameShape w
  square : q.square.SameShape (q.power 2)
  cube : q.cube.SameShape (q.power 3)

theorem rootLaws {n m : Int} (hn : n ≠ 0) (hm : m ≠ 0) (q : Quantity α) : q.RootLaws n m where
  accepted := exists_root_eq_ok_iff.trans Dimension.hasRoot_iff_exists_power
  dimension v hv := by
    have hroot := exists_root_eq_ok_iff.1 ⟨v, hv⟩
    rw [← Bool.not_eq_true, Value.isScalar_iff, dimension_of_root hv]
    constructor
    · exact Dimension.root_ne_one q.dimension_ne_one hroot
    · intro e
      exact ⟨Dimension.eq_root_of_power_eq hn, fun h => h ▸ Dimension.power_root hroot⟩
  power := by
    have hne := mt (Dimension.power_eq_one_iff q.dimension_ne_one).1 hn
    obtain ⟨s, hs, hdim⟩ := exists_root_eq_quantity (n := n)
      (q := ⟨q.dimension.power n, q.scalar.power n, by simpa using hne⟩)
      (Dimension.hasRoot_power _ n)
    exact ⟨_, s, Value.collapse_of_ne_one _ _, hs, hdim.trans (Dimension.root_power hn)⟩
  composite := by
    rw [exists_root_eq_ok_iff, Dimension.hasRoot_mul_iff hn]
    constructor
    · rintro ⟨h, hroot⟩
      obtain ⟨r, hr, hdim⟩ := exists_root_eq_quantity h
      obtain ⟨v, hv⟩ := exists_root_eq_ok_iff.2 (hdim ▸ hroot)
      exact ⟨r, v, hr, hv⟩
    · rintro ⟨r, v, hr, hv⟩
      have hdim : r.dimension = q.dimension.root n := dimension_of_root hr
      exact ⟨exists_root_eq_ok_iff.1 ⟨_, hr⟩, hdim ▸ exists_root_eq_ok_iff.1 ⟨v, hv⟩⟩
  nested r v w hr hv hw := by
    have hdim : r.dimension = q.dimension.root n := dimension_of_root hr
    have hroot := exists_root_eq_ok_iff.1 ⟨w, hw⟩
    refine .of_dimension ?_
    rw [dimension_of_root hv, dimension_of_root hw, hdim, Dimension.root_mul hn hm hroot]
  sqrt_accepted := by simp [sqrt_eq_ok_iff, root_eq_ok_iff]
  sqrt_shape v w hv hw := by
    refine .of_dimension ?_
    rw [(sqrt_eq_ok_iff.1 hv).2, Value.dimension_collapse, dimension_of_root hw]
  square := .of_dimension <| by
    rw [Quantity.square, Quantity.power, Value.dimension_collapse, Value.dimension_collapse,
      Dimension.mul_self_eq_power]
  cube := .of_dimension <| by
    rw [Quantity.cube, Quantity.power, Value.dimension_collapse, Value.dimension_collapse,
      Dimension.mul_mul_self_eq_power]

/-- Roots are exactly the inverses of powers, for every dimension and for the quantities of it. -/
theorem root_inverts_power {n m : Int} (hn : n ≠ 0) (hm : m ≠ 0) (d : Dimension)
    (q : Quantity α) : d.RootLaws n m ∧ q.RootLaws n m :=
  ⟨d.rootLaws hn hm, q.rootLaws hn hm⟩

theorem root_inverts_power_of_unlike_signs :
    (-2 : Int) ≠ 0 ∧ (3 : Int) ≠ 0 ∧
      (⟨12, -6, 0, 0, 0, 0, 18⟩ : Dimension).RootLaws (-2) 3 ∧
      (⟨⟨12, -6, 0, 0, 0, 0, 18⟩, .one .single, by decide⟩ : Quantity Machine).RootLaws (-2) 3 :=
  ⟨by decide, by decide, root_inverts_power (by decide) (by decide) _ _⟩

end Quantity

end Metrology
