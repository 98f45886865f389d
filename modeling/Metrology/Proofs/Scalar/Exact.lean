import Metrology.Scalar.Basic
import Mathlib.Algebra.Order.Field.Rat
import Mathlib.Algebra.Order.Field.Power
import Mathlib.Order.Compare

/-!
# Exact scalars

The rational numbers as an arithmetic in which nothing is rounded.  Both precisions hold the same
numbers, so that widening and narrowing change nothing; the precision of a scalar is still recorded.
A quotient by zero is zero.  A scalar is known by its precision and its number, and each operation
is described by what it does to the two.
-/

namespace Metrology

abbrev Exact (_ : Precision) : Type := ℚ

instance : Arithmetic Exact where
  ofRat q := q
  neg x := -x
  abs x := |x|
  add x y := x + y
  sub x y := x - y
  mul x y := x * y
  div x y := x / y
  compare? x y := some (cmp x y)
  power x n := x ^ n
  widen x := x
  narrow x := x

namespace Exact

variable {p q : Precision}

theorem promoteLeft_eq (x : Exact p) :
    (Arithmetic.promoteLeft x : Exact (p.join q)) = x := by
  cases p <;> cases q <;> rfl

theorem promoteRight_eq (x : Exact q) :
    (Arithmetic.promoteRight x : Exact (p.join q)) = x := by
  cases p <;> cases q <;> rfl

theorem cast_eq (x : Exact p) : (Arithmetic.cast q x : Exact q) = x := by
  cases p <;> cases q <;> rfl

end Exact

namespace Scalar

@[simp] theorem precision_mul {α : Precision → Type} [Arithmetic α] (a b : Scalar α) :
    (a.mul b).precision = a.precision.join b.precision := rfl

@[simp] theorem precision_div {α : Precision → Type} [Arithmetic α] (a b : Scalar α) :
    (a.div b).precision = a.precision.join b.precision := rfl

def number (s : Scalar Exact) : ℚ := s.value

theorem ext_number {a b : Scalar Exact} (hp : a.precision = b.precision)
    (hn : a.number = b.number) : a = b := by
  obtain ⟨p, x⟩ := a
  obtain ⟨q, y⟩ := b
  cases hp
  cases hn
  rfl

variable (a b : Scalar Exact)

@[simp] theorem number_add : (a.add b).number = a.number + b.number :=
  congrArg₂ (· + ·) (Exact.promoteLeft_eq _) (Exact.promoteRight_eq _)

@[simp] theorem number_sub : (a.sub b).number = a.number - b.number :=
  congrArg₂ (· - ·) (Exact.promoteLeft_eq _) (Exact.promoteRight_eq _)

@[simp] theorem number_mul : (a.mul b).number = a.number * b.number :=
  congrArg₂ (· * ·) (Exact.promoteLeft_eq _) (Exact.promoteRight_eq _)

@[simp] theorem number_div : (a.div b).number = a.number / b.number :=
  congrArg₂ (· / ·) (Exact.promoteLeft_eq _) (Exact.promoteRight_eq _)

@[simp] theorem number_neg : a.neg.number = -a.number := rfl

@[simp] theorem number_abs : a.abs.number = |a.number| := rfl

@[simp] theorem number_square : a.square.number = a.number * a.number := rfl

@[simp] theorem number_cube : a.cube.number = a.number * a.number * a.number := rfl

@[simp] theorem number_power (n : Int) : (a.power n).number = a.number ^ n := rfl

theorem number_assigned (f : ℚ → ℚ → ℚ) :
    (assigned (α := Exact) (fun x y => f x y) a b).number = f a.number b.number :=
  congrArg (f a.number) (Exact.cast_eq _)

theorem toDouble_eq_number : a.toDouble = a.number := by
  obtain ⟨p, x⟩ := a
  cases p <;> rfl

theorem compare?_eq_cmp : a.compare? b = some (cmp a.number b.number) :=
  congrArg₂ (fun x y => some (cmp x y)) (Exact.promoteLeft_eq a.value)
    (Exact.promoteRight_eq b.value)

end Scalar

end Metrology
