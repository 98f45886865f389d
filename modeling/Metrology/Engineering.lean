import Metrology.Dimension.Kind
import Metrology.Unit.Named
import Metrology.Scalar.Basic
import Metrology.Decimal.Fixed
import Metrology.Log

/-!
# Engineering notation

A value is rounded to a number of significant digits and split into a mantissa from 1 up to 1000 and
a power of ten whose exponent is a multiple of three.  The power becomes a multiplier prefix of the
unit where one symbol alone stands for the dimension; the kilogram, which has a prefix already, and
every other unit keep it behind the mantissa: `1.5 km`, `2e0 kg`, `5e0 m+2`.

The decimal exponent is first estimated.  An estimate that is one off in either direction is mended
before the value is rounded.
-/

namespace Metrology

open Metrology.Decimal

open scoped Metrology.Power

/-- Arithmetic in which numbers of double precision can be scaled and written in base ten. -/
class Decadic (α : Precision → Type) extends Arithmetic α where
  floor : α .double → α .double
  floorLog10 : α .double → Int
  isFinite : α .double → Bool
  toRat : α .double → Rat

structure Engineering where
  magnitude : String
  unit : String
  deriving DecidableEq, Repr

namespace Engineering

open Arithmetic

def prefixes : List String :=
  ["y", "z", "a", "f", "p", "n", "µ", "m", "", "k", "M", "G", "T", "P", "E", "Z", "Y"]

def leastExponent : Int := -24

def greatestExponent : Int := 24

def defaultDigits : Nat := 6

def maxDigits : Nat := 17

def takesPrefix (d : Dimension) (exponent : Int) : Bool :=
  d.isSingle && d != Kind.mass.dimension && leastExponent ≤ exponent && exponent ≤ greatestExponent

def prefixText (exponent : Int) : String :=
  (prefixes[((exponent - leastExponent) / 3).toNat]?).getD ""

section

variable {α : Precision → Type}

section

variable [Arithmetic α]

def tenTo (n : Int) : α .double := power (ofRat 10) n

/-- The powers of ten that a number is multiplied by to be shifted `n` places.  A single one would
leave the range of the format for a long shift. -/
def shiftSteps (n : Int) : List Int :=
  if 300 < n.natAbs then [n.tdiv 2, n - n.tdiv 2] else [n]

def shift (x : α .double) (n : Int) : α .double :=
  (shiftSteps n).foldl (fun x k => mul x (tenTo k)) x

def clampDigits (digits : Nat) : Nat := Nat.max 1 (Nat.min maxDigits digits)

def atLeast (x y : α .double) : Bool :=
  match compare? x y with
  | some .lt | none => false
  | _ => true

/-- The exponent of the leading digit, from an estimate that may be one off. -/
def leadingExponent (estimate : Int) (x : α .double) (digits : Nat) : Int :=
  let scaled := shift x (digits - 1 - estimate)
  let lowest : α .double := tenTo (digits - 1)
  if lt scaled lowest then estimate - 1
  else if atLeast scaled (mul lowest (ofRat 10)) then estimate + 1
  else estimate

end

variable [Decadic α]

def roundHalfUp (x : α .double) : α .double :=
  let whole := Decadic.floor x
  if atLeast (sub x whole) (ofRat (1 / 2)) then add whole one else whole

/-- Rounds the positive `x` to significant digits and splits it into a mantissa from 1 up to 1000
and an exponent that is a multiple of three. -/
def split (estimate : Int) (x : α .double) (digits : Nat) : α .double × Int :=
  let digits := clampDigits digits
  let lowest : α .double := tenTo (digits - 1)
  let leading := leadingExponent estimate x digits
  let rounded := roundHalfUp (shift x (digits - 1 - leading))
  let carried := atLeast rounded (mul lowest (ofRat 10))
  let rounded := if carried then div rounded (ofRat 10) else rounded
  let leading := if carried then leading + 1 else leading
  let exponent := leading / 3 * 3
  let places := digits - 1 - (leading - exponent)
  (if 0 ≤ places then div rounded (tenTo places) else mul rounded (tenTo (-places)), exponent)

def isPositional (exponent : Int) : Bool := -4 ≤ exponent && exponent < 6

def scientificText (num den : Nat) : List Char :=
  let e := floorLog10 num den
  let (n, d) := scaledByTen 1 (e - 5)
  let coefficient := Binary.roundHalfEven (num * d) (den * n)
  let (coefficient, e) :=
    if coefficient = 10 ^ (6 : Nat) then (10 ^ (5 : Nat), e + 1) else (coefficient, e)
  trimZeros (placePoint coefficient 5) ++ 'e' :: signedDigits e

def mantissaText (x : α .double) : List Char :=
  let exact := Decadic.toRat x
  let exponent := Decadic.floorLog10 x
  if isPositional exponent then
    trimZeros (fixed (5 - exponent).toNat exact.num.natAbs exact.den)
  else scientificText exact.num.natAbs exact.den

def specialText? (x : α .double) : Option String :=
  match compare? x zero with
  | none => some "NaN"
  | some .eq => some "0"
  | some _ => if Decadic.isFinite x then none else some "inf"

def sign (x : α .double) (showPlus : Bool) : String :=
  if lt x zero then "-" else if showPlus then "+" else ""

def inexpressible (exponent : Int) (symbol : String) : LogRecord :=
  ⟨.trace, "eng format: exponent " ++ toString exponent ++ " not expressible as a prefix of '"
    ++ symbol ++ "'"⟩

/-- Renders `x` in the unit of `d`, given an estimate of the decimal exponent of a positive
number. -/
def renderWith (estimate : α .double → Int) (d : Dimension) (x : α .double) (digits : Nat)
    (showPlus : Bool) : Logged Engineering :=
  let symbol := d.preferredSymbol
  let sign := sign x showPlus
  match specialText? x with
  | some text => ⟨⟨sign ++ text, symbol⟩, []⟩
  | none =>
    let (mantissa, exponent) := split (estimate (abs x)) (abs x) digits
    let text := sign ++ String.ofList (mantissaText mantissa)
    if takesPrefix d exponent then ⟨⟨text, prefixText exponent ++ symbol⟩, []⟩
    else ⟨⟨text ++ "e" ++ toString exponent, symbol⟩, [inexpressible exponent symbol]⟩

def render (d : Dimension) (x : α .double) (digits : Nat) (showPlus : Bool) :
    Logged Engineering :=
  renderWith Decadic.floorLog10 d x digits showPlus

def text (e : Engineering) : String := e.magnitude ++ " " ++ e.unit

end

end Engineering

end Metrology
