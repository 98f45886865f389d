import Metrology.Scalar.Basic
import Metrology.Log
import Metrology.Text.Quoted

/-!
# Multiplier prefixes

The decimal prefixes with their symbols and powers of ten, and the binary ones with their powers of
1024.  A decimal prefix is looked up by its symbol; a failed lookup leaves a record.
-/

namespace Metrology

structure DecimalPrefix where
  name : String
  symbols : List String
  exponent : Int
  deriving DecidableEq, Repr

namespace DecimalPrefix

def table : List DecimalPrefix :=
  [⟨"YOTTA", ["Y"], 24⟩,
   ⟨"ZETTA", ["Z"], 21⟩,
   ⟨"EXA", ["E"], 18⟩,
   ⟨"PETA", ["P"], 15⟩,
   ⟨"TERA", ["T"], 12⟩,
   ⟨"GIGA", ["G"], 9⟩,
   ⟨"MEGA", ["M"], 6⟩,
   ⟨"KILO", ["k"], 3⟩,
   ⟨"HECTO", ["h"], 2⟩,
   ⟨"DEKA", ["da"], 1⟩,
   ⟨"DECI", ["d"], -1⟩,
   ⟨"CENTI", ["c"], -2⟩,
   ⟨"MILLI", ["m"], -3⟩,
   ⟨"MICRO", ["u", "µ"], -6⟩,
   ⟨"NANO", ["n"], -9⟩,
   ⟨"PICO", ["p"], -12⟩,
   ⟨"FEMTO", ["f"], -15⟩,
   ⟨"ATTO", ["a"], -18⟩,
   ⟨"ZEPTO", ["z"], -21⟩,
   ⟨"YOCTO", ["y"], -24⟩]

def factor (u : DecimalPrefix) : Rat := 10 ^ u.exponent

def ofSymbol? (symbol : String) : Option DecimalPrefix := table.find? (·.symbols.contains symbol)

end DecimalPrefix

def binaryPrefixes : List (String × Rat) :=
  ["KIBI", "MEBI", "GIBI", "TEBI", "PEBI", "EXBI", "ZEBI", "YOBI"].mapIdx fun i name =>
    (name, 1024 ^ (i + 1))

/-- A prefix factor by its name; `DECA` is another spelling of `DEKA`. -/
def prefixFactor? (name : String) : Option Rat :=
  let name := if name = "DECA" then "DEKA" else name
  match DecimalPrefix.table.find? (·.name == name) with
  | some u => some u.factor
  | none => binaryPrefixes.lookup name

structure UnknownPrefix where
  symbol : String
  deriving DecidableEq, Repr

namespace UnknownPrefix

def message (e : UnknownPrefix) : String := "quantity: unrecognized prefix '" ++ e.symbol ++ "'"

def annotated (e : UnknownPrefix) : String := "UnknownPrefix(" ++ Text.quoted e.symbol ++ ")"

def record (e : UnknownPrefix) : LogRecord :=
  ⟨.debug, "prefix lookup failed for '" ++ e.symbol ++ "'"⟩

end UnknownPrefix

def lookupPrefix {α : Precision → Type} [Arithmetic α] (symbol : String) :
    Logged (Except UnknownPrefix (Scalar α)) :=
  match DecimalPrefix.ofSymbol? symbol with
  | some u => ⟨.ok (.ofRat u.factor), []⟩
  | none =>
    let e : UnknownPrefix := ⟨symbol⟩
    ⟨.error e, [e.record]⟩

end Metrology
