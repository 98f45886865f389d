import Metrology.Quantity.Basic

/-!
# Operations on values

The operators as they apply to values of any kind.  A product or quotient takes at least one
quantity, every other operation quantities only, and the right operand of a scaling assignment must
be a bare scalar.
-/

namespace Metrology

inductive UnaryOperation where
  | clone
  | neg
  | pos
  | abs
  | square
  | cube
  | sqrt
  | power (n : Int)
  | root (n : Int)
  | cast (p : Precision)
  | widen
  deriving DecidableEq, Repr

inductive BinaryOperation where
  | mul
  | div
  | add
  | sub
  | min
  | max
  deriving DecidableEq, Repr

inductive AssignOperation where
  | add
  | sub
  | mul
  | div
  deriving DecidableEq, Repr

namespace Value

variable {α : Precision → Type}

def toQuantity : Value α → Except OperationError (Quantity α)
  | .quantity q => .ok q
  | .scalar _ => .error .typeMismatch

def toScalar : Value α → Except OperationError (Scalar α)
  | .scalar s => .ok s
  | .quantity _ => .error .typeMismatch

section

variable [Arithmetic α]

def mul : Value α → Value α → Except OperationError (Value α)
  | .quantity a, .quantity b => .ok (a.mul b)
  | .quantity a, .scalar s => .ok (.quantity (a.mulScalar s))
  | .scalar s, .quantity b => .ok (.quantity (Quantity.scalarMul s b))
  | .scalar _, .scalar _ => .error .typeMismatch

def div : Value α → Value α → Except OperationError (Value α)
  | .quantity a, .quantity b => .ok (a.div b)
  | .quantity a, .scalar s => .ok (.quantity (a.divScalar s))
  | .scalar s, .quantity b => .ok (Quantity.scalarDiv s b)
  | .scalar _, .scalar _ => .error .typeMismatch

def onQuantities (f : Quantity α → Quantity α → Except OperationError (Quantity α))
    (a b : Value α) : Except OperationError (Value α) := do
  let a ← a.toQuantity
  let b ← b.toQuantity
  return .quantity (← f a b)

end

end Value

def BinaryOperation.apply {α : Precision → Type} [Arithmetic α] :
    BinaryOperation → Value α → Value α → Except OperationError (Value α)
  | .mul, a, b => a.mul b
  | .div, a, b => a.div b
  | .add, a, b => Value.onQuantities Quantity.add a b
  | .sub, a, b => Value.onQuantities Quantity.sub a b
  | .min, a, b => Value.onQuantities Quantity.min a b
  | .max, a, b => Value.onQuantities Quantity.max a b

def UnaryOperation.applyQuantity {α : Precision → Type} [Roots α] :
    UnaryOperation → Quantity α → Except OperationError (Value α)
  | .clone, q => .ok (.quantity q)
  | .neg, q => .ok (.quantity q.neg)
  | .pos, q => .ok (.quantity q)
  | .abs, q => .ok (.quantity q.abs)
  | .square, q => .ok q.square
  | .cube, q => .ok q.cube
  | .sqrt, q => q.sqrt
  | .power n, q => .ok (q.power n)
  | .root n, q => q.root n
  | .cast p, q => .ok (.quantity (q.cast p))
  | .widen, q => .ok (.quantity (q.cast .double))

def UnaryOperation.apply {α : Precision → Type} [Roots α] (op : UnaryOperation) (a : Value α) :
    Except OperationError (Value α) := do
  op.applyQuantity (← a.toQuantity)

def AssignOperation.apply {α : Precision → Type} [Arithmetic α] (op : AssignOperation)
    (a b : Value α) : Except OperationError (Quantity α) := do
  let a ← a.toQuantity
  match op with
  | .add => a.addAssign (← b.toQuantity)
  | .sub => a.subAssign (← b.toQuantity)
  | .mul => return a.mulAssign (← b.toScalar)
  | .div => return a.divAssign (← b.toScalar)

end Metrology
