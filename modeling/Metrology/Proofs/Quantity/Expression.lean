import Metrology.Quantity.Operation
import Metrology.Worksheet

/-!
# Expressions

An expression is built from given values with the operators that need no roots.  It is evaluated as
a worksheet evaluates its steps: an operator that does not accept its operands refuses the whole
expression.
-/

namespace Metrology

/-- The unary operations that stay within the rational numbers. -/
inductive RationalOperation where
  | neg
  | pos
  | abs
  | square
  | cube
  | power (n : Int)
  deriving DecidableEq, Repr

namespace RationalOperation

def toUnary : RationalOperation → UnaryOperation
  | .neg => .neg
  | .pos => .pos
  | .abs => .abs
  | .square => .square
  | .cube => .cube
  | .power n => .power n

variable {α : Precision → Type}

def applyQuantity [Arithmetic α] : RationalOperation → Quantity α → Value α
  | .neg, q => .quantity q.neg
  | .pos, q => .quantity q
  | .abs, q => .quantity q.abs
  | .square, q => q.square
  | .cube, q => q.cube
  | .power n, q => q.power n

def apply [Arithmetic α] (op : RationalOperation) (v : Value α) :
    Except OperationError (Value α) := do
  return op.applyQuantity (← v.toQuantity)

theorem apply_toUnary [Roots α] (op : RationalOperation) (v : Value α) :
    op.toUnary.apply v = op.apply v := by
  cases v with
  | scalar s => rfl
  | quantity q => cases op <;> rfl

end RationalOperation

inductive Expression (α : Precision → Type) where
  | value (v : Value α)
  | unary (op : RationalOperation) (a : Expression α)
  | binary (op : BinaryOperation) (a b : Expression α)
  | assign (op : AssignOperation) (a b : Expression α)

namespace Expression

variable {α : Precision → Type}

def map (f : Value α → Value α) : Expression α → Expression α
  | .value v => .value (f v)
  | .unary op a => .unary op (a.map f)
  | .binary op a b => .binary op (a.map f) (b.map f)
  | .assign op a b => .assign op (a.map f) (b.map f)

variable [Arithmetic α]

def eval : Expression α → Except OperationError (Value α)
  | .value v => .ok v
  | .unary op a => do op.apply (← a.eval)
  | .binary op a b => do op.apply (← a.eval) (← b.eval)
  | .assign op a b => do return .quantity (← op.apply (← a.eval) (← b.eval))

def compare (a b : Expression α) : Except OperationError Comparison := do
  let a ← (← a.eval).toQuantity
  let b ← (← b.eval).toQuantity
  return ⟨← a.compare? b⟩

end Expression

end Metrology
