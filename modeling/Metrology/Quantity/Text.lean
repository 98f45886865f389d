import Metrology.Quantity.Basic
import Metrology.Scalar.Text
import Metrology.Unit.Named
import Metrology.Engineering
import Metrology.Text.Quoted

/-!
# Text of quantities

A quantity is displayed as its number, one space and the base symbol of its dimension.  The
annotated form shows number and exponents field by field, on one line or one line each.
-/

namespace Metrology

instance : Decadic Machine where
  floor := Float.floor
  floorLog10 x := (Machine.toRat (p := .double) (Float.floor (Float.log10 x))).floor
  isFinite := Machine.isFinite
  toRat := Machine.toRat

namespace Scalar

def displayText (places? : Option Nat) (s : Scalar Machine) : String :=
  match places? with
  | none => Machine.plainText s.value
  | some places => Machine.fixedText places s.value

def annotatedText (places? : Option Nat) (s : Scalar Machine) : String :=
  match places? with
  | none => Machine.annotatedText s.value
  | some places => Machine.fixedText places s.value

end Scalar

namespace Quantity

def display (places? : Option Nat) (q : Quantity Machine) : String :=
  q.scalar.displayText places? ++ " " ++ q.dimension.symbol

def annotated (places? : Option Nat) (q : Quantity Machine) : String :=
  "Quantity \x7b value: " ++ q.scalar.annotatedText places? ++ ", exponents: ["
    ++ ", ".intercalate (q.dimension.exponents.map toString) ++ "] \x7d"

def annotatedLines (places? : Option Nat) (q : Quantity Machine) : String :=
  "Quantity \x7b\n    value: " ++ q.scalar.annotatedText places? ++ ",\n    exponents: [\n"
    ++ String.join (q.dimension.exponents.map fun e => "        " ++ toString e ++ ",\n")
    ++ "    ],\n\x7d"

def namedText (q : Quantity Machine) : String :=
  q.scalar.displayText none ++ " " ++ q.dimension.preferredSymbol

section

variable {α : Precision → Type} [Decadic α]

def engineering (q : Quantity α) (digits : Nat) (showPlus : Bool) : Logged Engineering :=
  Engineering.render q.dimension q.scalar.toDouble digits showPlus

def engineeringText (q : Quantity α) (digits : Nat) (showPlus : Bool) : Logged String :=
  (q.engineering digits showPlus).map Engineering.text

def engineeringMagnitude (q : Quantity α) (digits : Nat) (showPlus : Bool) : Logged String :=
  (q.engineering digits showPlus).map Engineering.magnitude

def engineeringUnit (q : Quantity α) : Logged String :=
  (q.engineering Engineering.defaultDigits false).map Engineering.unit

end

end Quantity

def Engineering.annotated (e : Engineering) : String :=
  "EngFormat \x7b magnitude: " ++ Text.quoted e.magnitude ++ ", unit: " ++ Text.quoted e.unit
    ++ " \x7d"

end Metrology
