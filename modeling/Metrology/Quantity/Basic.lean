import Metrology.Dimension.Basic
import Metrology.Scalar.Basic

/-!
# Quantities

A quantity is a scalar, counted in coherent units, with a dimension that is not dimensionless.  The
result of an operation is a *value*: a quantity, or the bare scalar that is left when all exponents
cancel.  Which operands an operation accepts depends on their kinds and dimensions alone, never on
their numbers.
-/

namespace Metrology

structure Quantity (α : Precision → Type) where
  dimension : Dimension
  scalar : Scalar α
  dimensional : dimension.isDimensionless = false

inductive Value (α : Precision → Type) where
  | scalar (s : Scalar α)
  | quantity (q : Quantity α)

inductive OperationError where
  | dimensionless
  | dimensionMismatch
  | typeMismatch
  | fractionalRoot
  deriving DecidableEq, Repr

/-- A scalar of dimension `d`, as a bare one where `d` is dimensionless. -/
def Value.collapse {α : Precision → Type} (d : Dimension) (s : Scalar α) : Value α :=
  if h : d.isDimensionless then .scalar s else .quantity ⟨d, s, by simpa using h⟩

namespace Quantity

variable {α : Precision → Type}

def ofScalar? (d : Dimension) (s : Scalar α) : Except OperationError (Quantity α) :=
  if h : d.isDimensionless then .error .dimensionless else .ok ⟨d, s, by simpa using h⟩

def withScalar (q : Quantity α) (s : Scalar α) : Quantity α := { q with scalar := s }

def sameDimension (a b : Quantity α) : Except OperationError (Scalar α × Scalar α) :=
  if a.dimension = b.dimension then .ok (a.scalar, b.scalar) else .error .dimensionMismatch

variable [Arithmetic α]

def neg (q : Quantity α) : Quantity α := q.withScalar q.scalar.neg

def abs (q : Quantity α) : Quantity α := q.withScalar q.scalar.abs

def cast (p : Precision) (q : Quantity α) : Quantity α := q.withScalar (q.scalar.cast p)

def mul (a b : Quantity α) : Value α :=
  .collapse (a.dimension * b.dimension) (a.scalar.mul b.scalar)

def div (a b : Quantity α) : Value α :=
  .collapse (a.dimension / b.dimension) (a.scalar.div b.scalar)

def mulScalar (q : Quantity α) (s : Scalar α) : Quantity α := q.withScalar (q.scalar.mul s)

def divScalar (q : Quantity α) (s : Scalar α) : Quantity α := q.withScalar (q.scalar.div s)

def scalarMul (s : Scalar α) (q : Quantity α) : Quantity α := q.withScalar (s.mul q.scalar)

def scalarDiv (s : Scalar α) (q : Quantity α) : Value α :=
  .collapse q.dimension.reciprocal (s.div q.scalar)

def square (q : Quantity α) : Value α :=
  .collapse (q.dimension * q.dimension) q.scalar.square

def cube (q : Quantity α) : Value α :=
  .collapse (q.dimension * q.dimension * q.dimension) q.scalar.cube

def power (q : Quantity α) (n : Int) : Value α :=
  .collapse (q.dimension.power n) (q.scalar.power n)

def add (a b : Quantity α) : Except OperationError (Quantity α) := do
  let (x, y) ← sameDimension a b
  return a.withScalar (x.add y)

def sub (a b : Quantity α) : Except OperationError (Quantity α) := do
  let (x, y) ← sameDimension a b
  return a.withScalar (x.sub y)

def compare? (a b : Quantity α) : Except OperationError (Option Ordering) := do
  let (x, y) ← sameDimension a b
  return x.compare? y

/-- `b` if it beats `a` strictly, `a` otherwise.  The precisions must agree, too. -/
def select (beats : {p : Precision} → α p → α p → Bool) (a b : Quantity α) :
    Except OperationError (Quantity α) := do
  let (⟨p, x⟩, ⟨q, y⟩) ← sameDimension a b
  if h : q = p then return if beats (h ▸ y) x then b else a
  else throw .typeMismatch

def min (a b : Quantity α) : Except OperationError (Quantity α) :=
  select Arithmetic.lt a b

def max (a b : Quantity α) : Except OperationError (Quantity α) :=
  select Arithmetic.gt a b

def addAssign (a b : Quantity α) : Except OperationError (Quantity α) := do
  let (x, y) ← sameDimension a b
  return a.withScalar (x.assigned Arithmetic.add y)

def subAssign (a b : Quantity α) : Except OperationError (Quantity α) := do
  let (x, y) ← sameDimension a b
  return a.withScalar (x.assigned Arithmetic.sub y)

def mulAssign (a : Quantity α) (s : Scalar α) : Quantity α :=
  a.withScalar (a.scalar.assigned Arithmetic.mul s)

def divAssign (a : Quantity α) (s : Scalar α) : Quantity α :=
  a.withScalar (a.scalar.assigned Arithmetic.div s)

end Quantity

namespace Quantity

variable {α : Precision → Type} [Roots α]

def root (q : Quantity α) (n : Int) : Except OperationError (Value α) :=
  if q.dimension.HasRoot n then .ok (.collapse (q.dimension.root n) (q.scalar.root n))
  else .error .fractionalRoot

def sqrt (q : Quantity α) : Except OperationError (Value α) :=
  if q.dimension.HasRoot 2 then .ok (.collapse (q.dimension.root 2) q.scalar.sqrt)
  else .error .fractionalRoot

end Quantity

end Metrology
