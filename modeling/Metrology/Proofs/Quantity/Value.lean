import Metrology.Quantity.Operation
import Metrology.Proofs.Dimension.Group

/-!
# Kind, dimension and magnitude of a value

A value is known by its dimension and its magnitude: it is the bare scalar where the dimension is
one and the quantity everywhere else.  In these terms the four ways to multiply are one, and so are
the four ways to divide.
-/

namespace Metrology.Value

variable {α : Precision → Type}

def isScalar : Value α → Bool
  | .scalar _ => true
  | .quantity _ => false

def dimension : Value α → Dimension
  | .scalar _ => 1
  | .quantity q => q.dimension

def magnitude : Value α → Scalar α
  | .scalar s => s
  | .quantity q => q.scalar

theorem collapse_one (s : Scalar α) : collapse 1 s = .scalar s := rfl

theorem collapse_of_ne_one {d : Dimension} (h : d.isDimensionless = false) (s : Scalar α) :
    collapse d s = .quantity ⟨d, s, h⟩ := by
  simp [collapse, h]

@[simp] theorem dimension_collapse (d : Dimension) (s : Scalar α) :
    (collapse d s).dimension = d := by
  by_cases h : d.isDimensionless = true
  · have hd : d = 1 := d.isDimensionless_eq_true_iff.1 h
    rw [hd, collapse_one, dimension]
  · rw [collapse_of_ne_one (by simpa using h), dimension]

@[simp] theorem magnitude_collapse (d : Dimension) (s : Scalar α) :
    (collapse d s).magnitude = s := by
  unfold collapse
  split <;> rfl

@[simp] theorem collapse_dimension_magnitude (v : Value α) :
    collapse v.dimension v.magnitude = v := by
  cases v with
  | scalar s => exact collapse_one s
  | quantity q => exact collapse_of_ne_one q.dimensional q.scalar

theorem ext_magnitude {v w : Value α} (hd : v.dimension = w.dimension)
    (hm : v.magnitude = w.magnitude) : v = w := by
  rw [← collapse_dimension_magnitude v, hd, hm, collapse_dimension_magnitude]

/-- No quantity is dimensionless, so that the dimension alone decides the kind. -/
theorem isScalar_iff (v : Value α) : v.isScalar = true ↔ v.dimension = 1 := by
  cases v with
  | scalar s => simp [isScalar, dimension]
  | quantity q => simpa [isScalar, dimension] using q.dimensional

variable [Arithmetic α]

theorem mul_eq (a b : Value α) :
    a.mul b = if a.isScalar && b.isScalar then .error .typeMismatch
      else .ok (collapse (a.dimension * b.dimension) (a.magnitude.mul b.magnitude)) := by
  cases a with
  | scalar s =>
      cases b with
      | scalar t => rfl
      | quantity q =>
          simp only [mul, isScalar, dimension, magnitude, one_mul, Bool.and_false]
          exact congrArg Except.ok (collapse_of_ne_one q.dimensional _).symm
  | quantity q =>
      cases b with
      | scalar s =>
          simp only [mul, isScalar, dimension, magnitude, mul_one, Bool.and_true]
          exact congrArg Except.ok (collapse_of_ne_one q.dimensional _).symm
      | quantity r => rfl

theorem div_eq (a b : Value α) :
    a.div b = if a.isScalar && b.isScalar then .error .typeMismatch
      else .ok (collapse (a.dimension / b.dimension) (a.magnitude.div b.magnitude)) := by
  cases a with
  | scalar s =>
      cases b with
      | scalar t => rfl
      | quantity q =>
          simp only [div, isScalar, dimension, magnitude, one_div, Bool.and_false]
          rfl
  | quantity q =>
      cases b with
      | scalar s =>
          simp only [div, isScalar, dimension, magnitude, div_one, Bool.and_true]
          exact congrArg Except.ok (collapse_of_ne_one q.dimensional _).symm
      | quantity r => rfl

end Metrology.Value
