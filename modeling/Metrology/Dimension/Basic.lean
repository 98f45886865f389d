import Metrology.Power

/-!
# Dimension vectors

A dimension is a vector of seven integer exponents over the SI base quantities, in the order
length, mass, time, electric current, thermodynamic temperature, amount of substance, luminous
intensity.  Dimensions multiply by adding exponents; the all-zero vector is the neutral element and
is called dimensionless.
-/

namespace Metrology

open scoped Metrology.Power

structure Dimension where
  length : Int
  mass : Int
  time : Int
  current : Int
  temperature : Int
  amount : Int
  luminosity : Int
  deriving DecidableEq, Repr

namespace Dimension

def dimensionless : Dimension := ⟨0, 0, 0, 0, 0, 0, 0⟩

instance : Inhabited Dimension := ⟨dimensionless⟩

def exponents (d : Dimension) : List Int :=
  [d.length, d.mass, d.time, d.current, d.temperature, d.amount, d.luminosity]

def ofExponents? : List Int → Option Dimension
  | [l, m, t, i, k, n, j] => some ⟨l, m, t, i, k, n, j⟩
  | _ => none

def map (f : Int → Int) (d : Dimension) : Dimension :=
  ⟨f d.length, f d.mass, f d.time, f d.current, f d.temperature, f d.amount, f d.luminosity⟩

def zipWith (f : Int → Int → Int) (a b : Dimension) : Dimension :=
  ⟨f a.length b.length, f a.mass b.mass, f a.time b.time, f a.current b.current,
    f a.temperature b.temperature, f a.amount b.amount, f a.luminosity b.luminosity⟩

@[simp] theorem ofExponents?_exponents (d : Dimension) : ofExponents? d.exponents = some d := rfl

@[simp] theorem exponents_map (f : Int → Int) (d : Dimension) :
    (d.map f).exponents = d.exponents.map f := rfl

@[simp] theorem exponents_zipWith (f : Int → Int → Int) (a b : Dimension) :
    (zipWith f a b).exponents = List.zipWith f a.exponents b.exponents := rfl

instance : Mul Dimension := ⟨zipWith (· + ·)⟩

instance : Div Dimension := ⟨zipWith (· - ·)⟩

def reciprocal (d : Dimension) : Dimension := d.map (- ·)

def power (d : Dimension) (n : Int) : Dimension := d.map (· * n)

def HasRoot (d : Dimension) (n : Int) : Prop := ∀ e ∈ d.exponents, e.tmod n = 0

instance (d : Dimension) (n : Int) : Decidable (d.HasRoot n) :=
  inferInstanceAs (Decidable (∀ e ∈ d.exponents, e.tmod n = 0))

/-- Divides every exponent by `n`, cutting fractions off toward zero. -/
def root (d : Dimension) (n : Int) : Dimension := d.map (·.tdiv n)

def isDimensionless (d : Dimension) : Bool := d.exponents.all (· == 0)

/-- Sum of the exponents as a 32-bit word holds it: the running sum wraps around. -/
def wrappedSum (exponents : List Int) : Int :=
  exponents.foldl (fun sum e => (sum + e).bmod (2 ^ (32 : Nat))) 0

/-- A single exponent is non-zero, and the exponents add up to one. -/
def isBase (d : Dimension) : Bool :=
  d.exponents.countP (· != 0) == 1 && wrappedSum d.exponents == 1

theorem isDimensionless_iff (d : Dimension) : d.isDimensionless = true ↔ d = dimensionless := by
  cases d
  simp [isDimensionless, exponents, dimensionless]

end Dimension

end Metrology
