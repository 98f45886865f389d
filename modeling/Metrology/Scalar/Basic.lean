/-!
# Scalars of two precisions

A scalar is a number in single or double precision.  Arithmetic on one precision is given by the
class `Arithmetic`; when two precisions meet, both operands are widened first, and an assignment
casts its right operand to the precision of its left one.
-/

namespace Metrology

inductive Precision where
  | single
  | double
  deriving DecidableEq, Repr

namespace Precision

def width : Precision → Nat
  | .single => 4
  | .double => 8

def join : Precision → Precision → Precision
  | .single, .single => .single
  | _, _ => .double

end Precision

/-- Numbers of each precision.  Every operation stays within one precision; only `widen` and
`narrow` cross over. -/
class Arithmetic (α : Precision → Type) where
  ofRat {p : Precision} : Rat → α p
  neg {p : Precision} : α p → α p
  abs {p : Precision} : α p → α p
  add {p : Precision} : α p → α p → α p
  sub {p : Precision} : α p → α p → α p
  mul {p : Precision} : α p → α p → α p
  div {p : Precision} : α p → α p → α p
  compare? {p : Precision} : α p → α p → Option Ordering
  power {p : Precision} : α p → Int → α p
  widen : α .single → α .double
  narrow : α .double → α .single

class Roots (α : Precision → Type) extends Arithmetic α where
  sqrt {p : Precision} : α p → α p
  root {p : Precision} : α p → Int → α p

namespace Arithmetic

variable {α : Precision → Type} [Arithmetic α]

def zero {p : Precision} : α p := ofRat 0

def one {p : Precision} : α p := ofRat 1

def toDouble : {p : Precision} → α p → α .double
  | .single, x => widen x
  | .double, x => x

def ofDouble : (p : Precision) → α .double → α p
  | .single, x => narrow x
  | .double, x => x

/-- Converts between precisions by way of double precision. -/
def cast {p : Precision} (q : Precision) (x : α p) : α q := ofDouble q (toDouble x)

def promoteLeft : {p q : Precision} → α p → α (p.join q)
  | .single, .single, x => x
  | .single, .double, x => widen x
  | .double, .single, x => x
  | .double, .double, x => x

def promoteRight : {p q : Precision} → α q → α (p.join q)
  | .single, .single, x => x
  | .single, .double, x => x
  | .double, .single, x => widen x
  | .double, .double, x => x

def lt {p : Precision} (x y : α p) : Bool := compare? x y == some .lt

def gt {p : Precision} (x y : α p) : Bool := compare? x y == some .gt

end Arithmetic

structure Scalar (α : Precision → Type) where
  precision : Precision
  value : α precision

namespace Scalar

open Arithmetic

variable {α : Precision → Type} [Arithmetic α]

def zero (p : Precision) : Scalar α := ⟨p, Arithmetic.zero⟩

def one (p : Precision) : Scalar α := ⟨p, Arithmetic.one⟩

def ofRat (q : Rat) : Scalar α := ⟨.double, Arithmetic.ofRat q⟩

def map (f : {p : Precision} → α p → α p) (s : Scalar α) : Scalar α := ⟨s.precision, f s.value⟩

def promoteLeft (a b : Scalar α) : Scalar α :=
  ⟨a.precision.join b.precision, Arithmetic.promoteLeft a.value⟩

def promoteRight (a b : Scalar α) : Scalar α :=
  ⟨a.precision.join b.precision, Arithmetic.promoteRight b.value⟩

def promoted (f : {p : Precision} → α p → α p → α p) (a b : Scalar α) : Scalar α :=
  ⟨a.precision.join b.precision,
    f (Arithmetic.promoteLeft a.value) (Arithmetic.promoteRight b.value)⟩

/-- An operation that keeps the precision of its left operand. -/
def assigned (f : {p : Precision} → α p → α p → α p) (a b : Scalar α) : Scalar α :=
  ⟨a.precision, f a.value (Arithmetic.cast a.precision b.value)⟩

def add (a b : Scalar α) : Scalar α := promoted Arithmetic.add a b

def sub (a b : Scalar α) : Scalar α := promoted Arithmetic.sub a b

def mul (a b : Scalar α) : Scalar α := promoted Arithmetic.mul a b

def div (a b : Scalar α) : Scalar α := promoted Arithmetic.div a b

def neg (s : Scalar α) : Scalar α := s.map Arithmetic.neg

def abs (s : Scalar α) : Scalar α := s.map Arithmetic.abs

def square (s : Scalar α) : Scalar α := s.map fun x => Arithmetic.mul x x

def cube (s : Scalar α) : Scalar α := s.map fun x => Arithmetic.mul (Arithmetic.mul x x) x

def power (s : Scalar α) (n : Int) : Scalar α := s.map (Arithmetic.power · n)

def cast (p : Precision) (s : Scalar α) : Scalar α := ⟨p, Arithmetic.cast p s.value⟩

def toDouble (s : Scalar α) : α .double := Arithmetic.toDouble s.value

def compare? (a b : Scalar α) : Option Ordering :=
  Arithmetic.compare? (a.promoteLeft b).value (a.promoteRight b).value

end Scalar

namespace Scalar

variable {α : Precision → Type} [Roots α]

def sqrt (s : Scalar α) : Scalar α := s.map Roots.sqrt

def root (s : Scalar α) (n : Int) : Scalar α := s.map (Roots.root · n)

end Scalar

end Metrology
