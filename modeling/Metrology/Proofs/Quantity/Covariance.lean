import Metrology.Proofs.Dimension.UnitChange
import Metrology.Proofs.Quantity.Expression
import Metrology.Proofs.Quantity.Value
import Metrology.Proofs.Scalar.Exact
import Mathlib

/-!
# Covariance under changes of unit

Over exact scalars a change of unit commutes with every operator: it makes no difference whether the
operands are converted or the result.  Hence an expression has a result after the change exactly
when it had one before, of the same kind and dimension, and no comparison depends on the choice of
units.
-/

namespace Metrology

/-! ## Multiples of a scalar -/

namespace Scalar

def scale (k : ℚ) (s : Scalar Exact) : Scalar Exact := ⟨s.precision, k * s.number⟩

variable (j k : ℚ) (a b : Scalar Exact)

@[simp] theorem number_scale : (a.scale k).number = k * a.number := rfl

theorem scale_one : a.scale 1 = a :=
  ext_number rfl (one_mul _)

theorem mul_scale : (a.scale j).mul (b.scale k) = (a.mul b).scale (j * k) := by
  refine ext_number rfl ?_
  simp only [number_mul, number_scale]
  ring

theorem div_scale : (a.scale j).div (b.scale k) = (a.div b).scale (j / k) := by
  refine ext_number rfl ?_
  simp only [number_div, number_scale]
  exact mul_div_mul_comm ..

theorem add_scale : (a.scale k).add (b.scale k) = (a.add b).scale k := by
  refine ext_number rfl ?_
  simp only [number_add, number_scale]
  ring

theorem sub_scale : (a.scale k).sub (b.scale k) = (a.sub b).scale k := by
  refine ext_number rfl ?_
  simp only [number_sub, number_scale]
  ring

theorem neg_scale : (a.scale k).neg = a.neg.scale k :=
  ext_number rfl (mul_neg ..).symm

theorem abs_scale {k : ℚ} (hk : 0 < k) : (a.scale k).abs = a.abs.scale k := by
  refine ext_number rfl ?_
  simp only [number_abs, number_scale, abs_mul, abs_of_pos hk]

theorem square_scale : (a.scale k).square = a.square.scale (k * k) := by
  refine ext_number rfl ?_
  simp only [number_square, number_scale]
  ring

theorem cube_scale : (a.scale k).cube = a.cube.scale (k * k * k) := by
  refine ext_number rfl ?_
  simp only [number_cube, number_scale]
  ring

theorem power_scale (n : Int) : (a.scale k).power n = (a.power n).scale (k ^ n) := by
  refine ext_number rfl ?_
  simp only [number_power, number_scale, mul_zpow]

theorem compare?_scale {k : ℚ} (hk : 0 < k) :
    (a.scale k).compare? (b.scale k) = a.compare? b := by
  simp only [compare?_eq_cmp, number_scale, cmp_mul_pos_left hk]

theorem assigned_scale {f : ℚ → ℚ → ℚ} (hf : ∀ x y, f (j * x) (k * y) = j * f x y) :
    assigned (α := Exact) (fun x y => f x y) (a.scale j) (b.scale k) =
      (assigned (α := Exact) (fun x y => f x y) a b).scale j := by
  refine ext_number rfl ?_
  simp only [number_assigned, number_scale, hf]

end Scalar

namespace UnitChange

/-- The same quantity, counted in the changed units. -/
def convertQuantity (u : UnitChange) (q : Quantity Exact) : Quantity Exact :=
  q.withScalar (q.scalar.scale (u.factor q.dimension))

def convert (u : UnitChange) : Value Exact → Value Exact
  | .scalar s => .scalar s
  | .quantity q => .quantity (u.convertQuantity q)

variable (u : UnitChange)

@[simp] theorem dimension_convertQuantity (q : Quantity Exact) :
    (u.convertQuantity q).dimension = q.dimension := rfl

@[simp] theorem precision_convertQuantity (q : Quantity Exact) :
    (u.convertQuantity q).scalar.precision = q.scalar.precision := rfl

@[simp] theorem number_convertQuantity (q : Quantity Exact) :
    (u.convertQuantity q).scalar.number = u.factor q.dimension * q.scalar.number := rfl

@[simp] theorem isScalar_convert (v : Value Exact) : (u.convert v).isScalar = v.isScalar := by
  cases v <;> rfl

@[simp] theorem dimension_convert (v : Value Exact) :
    (u.convert v).dimension = v.dimension := by
  cases v <;> rfl

@[simp] theorem magnitude_convert (v : Value Exact) :
    (u.convert v).magnitude = v.magnitude.scale (u.factor v.dimension) := by
  cases v with
  | scalar s => simp [convert, Value.dimension, Value.magnitude, Scalar.scale_one]
  | quantity q => rfl

theorem convert_collapse (d : Dimension) (s : Scalar Exact) :
    u.convert (.collapse d s) = .collapse d (s.scale (u.factor d)) := by
  apply Value.ext_magnitude <;> simp

/-! ## Products, quotients and powers -/

theorem mul_convert (v w : Value Exact) :
    (u.convert v).mul (u.convert w) = (v.mul w).map u.convert := by
  simp only [Value.mul_eq, isScalar_convert, dimension_convert, magnitude_convert,
    Scalar.mul_scale, ← factor_mul]
  split
  · rfl
  · exact congrArg Except.ok (u.convert_collapse _ _).symm

theorem div_convert (v w : Value Exact) :
    (u.convert v).div (u.convert w) = (v.div w).map u.convert := by
  simp only [Value.div_eq, isScalar_convert, dimension_convert, magnitude_convert,
    Scalar.div_scale, ← factor_div]
  split
  · rfl
  · exact congrArg Except.ok (u.convert_collapse _ _).symm

theorem rational_convertQuantity (op : RationalOperation) (q : Quantity Exact) :
    op.applyQuantity (u.convertQuantity q) = u.convert (op.applyQuantity q) := by
  have hk := u.factor_pos q.dimension
  cases op with
  | neg => exact congrArg (fun s => Value.quantity (q.withScalar s)) (Scalar.neg_scale ..)
  | pos => rfl
  | abs => exact congrArg (fun s => Value.quantity (q.withScalar s)) (Scalar.abs_scale _ hk)
  | square =>
      rw [RationalOperation.applyQuantity, RationalOperation.applyQuantity, Quantity.square,
        Quantity.square, convert_collapse, factor_mul, ← Scalar.square_scale]
      rfl
  | cube =>
      rw [RationalOperation.applyQuantity, RationalOperation.applyQuantity, Quantity.cube,
        Quantity.cube, convert_collapse, factor_mul, factor_mul, ← Scalar.cube_scale]
      rfl
  | power n =>
      rw [RationalOperation.applyQuantity, RationalOperation.applyQuantity, Quantity.power,
        Quantity.power, convert_collapse, factor_power, ← Scalar.power_scale]
      rfl

theorem rational_convert (op : RationalOperation) (v : Value Exact) :
    op.apply (u.convert v) = (op.apply v).map u.convert := by
  cases v with
  | scalar s => rfl
  | quantity q => exact congrArg Except.ok (u.rational_convertQuantity op q)

theorem sameDimension_convertQuantity (a b : Quantity Exact) :
    Quantity.sameDimension (u.convertQuantity a) (u.convertQuantity b) =
      (Quantity.sameDimension a b).map fun (x, y) =>
        (x.scale (u.factor a.dimension), y.scale (u.factor a.dimension)) := by
  by_cases h : a.dimension = b.dimension
  · simp [Quantity.sameDimension, convertQuantity, Quantity.withScalar, h, Except.map]
  · simp [Quantity.sameDimension, convertQuantity, Quantity.withScalar, h, Except.map]

theorem onScalars_convertQuantity {f : Scalar Exact → Scalar Exact → Scalar Exact}
    (hf : ∀ k x y, f (x.scale k) (y.scale k) = (f x y).scale k) (a b : Quantity Exact) :
    (do
      let (x, y) ← Quantity.sameDimension (u.convertQuantity a) (u.convertQuantity b)
      return (u.convertQuantity a).withScalar (f x y)) =
    Except.map u.convertQuantity (do
      let (x, y) ← Quantity.sameDimension a b
      return a.withScalar (f x y)) := by
  rw [sameDimension_convertQuantity]
  cases Quantity.sameDimension a b with
  | error e => rfl
  | ok xy => exact congrArg (fun s => Except.ok (a.withScalar s)) (hf _ xy.1 xy.2)

theorem select_eq (o : Ordering) (a b : Quantity Exact) :
    Quantity.select (fun x y => Arithmetic.compare? x y == some o) a b =
      if a.dimension = b.dimension then
        if b.scalar.precision = a.scalar.precision then
          .ok (if cmp b.scalar.number a.scalar.number = o then b else a)
        else .error .typeMismatch
      else .error .dimensionMismatch := by
  obtain ⟨d, ⟨p, x⟩, hd⟩ := a
  obtain ⟨e, ⟨q, y⟩, he⟩ := b
  by_cases h : d = e
  · by_cases hp : q = p
    · subst h hp
      have hcmp : Arithmetic.compare? y x = some (cmp y x) := rfl
      simp [Quantity.select, Quantity.sameDimension, Scalar.number, hcmp, bind, Except.bind,
        pure, Except.pure]
      rfl
    · simp [Quantity.select, Quantity.sameDimension, h, hp, bind, Except.bind, throw, throwThe,
        MonadExceptOf.throw]
  · simp [Quantity.select, Quantity.sameDimension, h, bind, Except.bind]

theorem select_convertQuantity (o : Ordering) (a b : Quantity Exact) :
    Quantity.select (fun x y => Arithmetic.compare? x y == some o)
        (u.convertQuantity a) (u.convertQuantity b) =
      (Quantity.select (fun x y => Arithmetic.compare? x y == some o) a b).map
        u.convertQuantity := by
  rw [select_eq, select_eq]
  by_cases h : a.dimension = b.dimension
  · have hk := u.factor_pos b.dimension
    simp only [dimension_convertQuantity, precision_convertQuantity, number_convertQuantity, h,
      cmp_mul_pos_left hk, if_true]
    split
    · split <;> rfl
    · rfl
  · simp [h, Except.map]

theorem compare?_convertQuantity (a b : Quantity Exact) :
    (u.convertQuantity a).compare? (u.convertQuantity b) = a.compare? b := by
  unfold Quantity.compare?
  rw [sameDimension_convertQuantity]
  cases Quantity.sameDimension a b with
  | error e => rfl
  | ok xy =>
      have hk := u.factor_pos a.dimension
      exact congrArg Except.ok (Scalar.compare?_scale xy.1 xy.2 hk)

theorem onQuantities_convert {f : Quantity Exact → Quantity Exact → Except OperationError
    (Quantity Exact)}
    (hf : ∀ a b, f (u.convertQuantity a) (u.convertQuantity b) =
      (f a b).map u.convertQuantity) (v w : Value Exact) :
    Value.onQuantities f (u.convert v) (u.convert w) =
      (Value.onQuantities f v w).map u.convert := by
  cases v with
  | scalar s => rfl
  | quantity a =>
      cases w with
      | scalar s => rfl
      | quantity b =>
          change (do return .quantity (← f (u.convertQuantity a) (u.convertQuantity b))) =
            Except.map u.convert (do return .quantity (← f a b))
          rw [hf]
          cases f a b <;> rfl

theorem binary_convert (op : BinaryOperation) (v w : Value Exact) :
    op.apply (u.convert v) (u.convert w) = (op.apply v w).map u.convert := by
  cases op with
  | mul => exact u.mul_convert v w
  | div => exact u.div_convert v w
  | add =>
      exact u.onQuantities_convert (u.onScalars_convertQuantity Scalar.add_scale) v w
  | sub =>
      exact u.onQuantities_convert (u.onScalars_convertQuantity Scalar.sub_scale) v w
  | min => exact u.onQuantities_convert (u.select_convertQuantity .lt) v w
  | max => exact u.onQuantities_convert (u.select_convertQuantity .gt) v w

theorem assign_convert (op : AssignOperation) (v w : Value Exact) :
    op.apply (u.convert v) (u.convert w) = (op.apply v w).map u.convertQuantity := by
  cases v with
  | scalar s => rfl
  | quantity a =>
      cases op with
      | add =>
          cases w with
          | scalar s => rfl
          | quantity b =>
              refine u.onScalars_convertQuantity (fun k x y => ?_) a b
              exact Scalar.assigned_scale k k x y fun _ _ => (mul_add ..).symm
      | sub =>
          cases w with
          | scalar s => rfl
          | quantity b =>
              refine u.onScalars_convertQuantity (fun k x y => ?_) a b
              exact Scalar.assigned_scale k k x y fun _ _ => (mul_sub ..).symm
      | mul =>
          cases w with
          | quantity b => rfl
          | scalar s =>
              have h := Scalar.assigned_scale (f := fun x y => x * y) (u.factor a.dimension) 1
                a.scalar s fun x y => by ring
              rw [Scalar.scale_one] at h
              exact congrArg (fun s => Except.ok (a.withScalar s)) h
      | div =>
          cases w with
          | quantity b => rfl
          | scalar s =>
              have h := Scalar.assigned_scale (f := fun x y => x / y) (u.factor a.dimension) 1
                a.scalar s fun x y => by ring
              rw [Scalar.scale_one] at h
              exact congrArg (fun s => Except.ok (a.withScalar s)) h

/-! ## Expressions -/

theorem eval_convert (e : Expression Exact) :
    (e.map u.convert).eval = e.eval.map u.convert := by
  induction e with
  | value v => rfl
  | unary op a ih =>
      simp only [Expression.map, Expression.eval, ih]
      cases a.eval with
      | error e => rfl
      | ok v => exact u.rational_convert op v
  | binary op a b iha ihb =>
      simp only [Expression.map, Expression.eval, iha, ihb]
      cases a.eval with
      | error e => rfl
      | ok v =>
          cases b.eval with
          | error e => rfl
          | ok w => exact u.binary_convert op v w
  | assign op a b iha ihb =>
      simp only [Expression.map, Expression.eval, iha, ihb]
      cases a.eval with
      | error e => rfl
      | ok v =>
          cases b.eval with
          | error e => rfl
          | ok w =>
              change (do return .quantity (← op.apply (u.convert v) (u.convert w))) =
                Except.map u.convert (do return .quantity (← op.apply v w))
              rw [assign_convert]
              cases op.apply v w <;> rfl

theorem compare_convert (a b : Expression Exact) :
    (a.map u.convert).compare (b.map u.convert) = a.compare b := by
  unfold Expression.compare
  rw [eval_convert, eval_convert]
  rcases a.eval with e | ⟨s | p⟩
  · rfl
  · rfl
  · rcases b.eval with e | ⟨s | q⟩
    · rfl
    · rfl
    · exact congrArg (Except.map Comparison.mk) (u.compare?_convertQuantity p q)

/-- A change of units converts the result of every expression and settles no comparison.  Converting
keeps kind and dimension and multiplies the number by the factor of the dimension; a bare scalar
stays as it is. -/
theorem covariance (u : UnitChange) :
    (∀ e : Expression Exact, (e.map u.convert).eval = e.eval.map u.convert) ∧
    (∀ a b : Expression Exact, (a.map u.convert).compare (b.map u.convert) = a.compare b) ∧
    (∀ v : Value Exact, (u.convert v).isScalar = v.isScalar ∧
      (u.convert v).dimension = v.dimension ∧
      (u.convert v).magnitude.number = u.factor v.dimension * v.magnitude.number) ∧
    ∀ s : Scalar Exact, u.convert (.scalar s) = .scalar s :=
  ⟨u.eval_convert, u.compare_convert,
    fun v => ⟨u.isScalar_convert v, u.dimension_convert v, by simp⟩, fun _ => rfl⟩

end UnitChange

end Metrology
