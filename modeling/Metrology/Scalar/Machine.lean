import Metrology.Scalar.Basic
import Metrology.Binary.Layout

/-!
# Machine scalars

The binary floating-point numbers as an arithmetic.  Constants, widening and narrowing go through
exact values: a word is decoded, and the word nearest to its value is taken in the other format.
-/

namespace Metrology

open Metrology.Binary

def Precision.layout : Precision → Layout
  | .single => .single
  | .double => .double

abbrev Machine : Precision → Type
  | .single => Float32
  | .double => Float

namespace Machine

def ofWord : (p : Precision) → Nat → Machine p
  | .single, w => Float32.ofBits (UInt32.ofNat w)
  | .double, w => Float.ofBits (UInt64.ofNat w)

def word : {p : Precision} → Machine p → Nat
  | .single, x => (Float32.toBits x).toNat
  | .double, x => (Float.toBits x).toNat

def datum {p : Precision} (x : Machine p) : Datum := p.layout.decode (word x)

def ofDatum (p : Precision) (d : Datum) : Machine p := ofWord p (p.layout.encode d)

def ofRat {p : Precision} (q : Rat) : Machine p :=
  let w := p.layout.nearest q.num.natAbs q.den
  ofWord p (if q.num < 0 then p.layout.signBit + w else w)

def toRat {p : Precision} (x : Machine p) : Rat :=
  match datum x with
  | .finite negative significand exponent =>
    let (num, den) := scaled significand exponent
    let magnitude : Rat := mkRat num den
    cond negative (-magnitude) magnitude
  | _ => 0

def isFinite {p : Precision} (x : Machine p) : Bool :=
  match datum x with
  | .finite .. => true
  | _ => false

def ordering (less equal greater : Bool) : Option Ordering :=
  if less then some .lt else if equal then some .eq else if greater then some .gt else none

def pow : {p : Precision} → Machine p → Machine p → Machine p
  | .single, x, y => Float32.pow x y
  | .double, x, y => Float.pow x y

instance : Arithmetic Machine where
  ofRat := ofRat
  neg {p} := match p with
    | .single => Float32.neg
    | .double => Float.neg
  abs {p} := match p with
    | .single => Float32.abs
    | .double => Float.abs
  add {p} := match p with
    | .single => Float32.add
    | .double => Float.add
  sub {p} := match p with
    | .single => Float32.sub
    | .double => Float.sub
  mul {p} := match p with
    | .single => Float32.mul
    | .double => Float.mul
  div {p} := match p with
    | .single => Float32.div
    | .double => Float.div
  compare? {p} := match p with
    | .single => fun x y => ordering (Float32.lt x y) (Float32.beq x y) (Float32.lt y x)
    | .double => fun x y => ordering (Float.lt x y) (Float.beq x y) (Float.lt y x)
  power x n := pow x (ofRat n)
  widen x := ofDatum .double (datum x)
  narrow x := ofDatum .single (datum x)

instance : Roots Machine where
  sqrt {p} := match p with
    | .single => Float32.sqrt
    | .double => Float.sqrt
  root x n := pow x (Arithmetic.div Arithmetic.one (ofRat n))

end Machine

end Metrology
