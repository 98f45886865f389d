import Metrology.Dimension.Kind
import Metrology.Dimension.Symbol

/-!
# Named units

The coherent units with a name and a symbol of their own, base units first.  A dimension that one of
them names is preferably written with that symbol; every other dimension falls back on its base
symbol.
-/

namespace Metrology

structure NamedUnit where
  dimension : Dimension
  name : String
  symbol : String
  deriving DecidableEq, Repr

namespace NamedUnit

def table : List NamedUnit :=
  [⟨Kind.length.dimension, "meter", "m"⟩,
   ⟨Kind.mass.dimension, "kilogram", "kg"⟩,
   ⟨Kind.timeInterval.dimension, "second", "s"⟩,
   ⟨Kind.electricCurrent.dimension, "ampere", "A"⟩,
   ⟨Kind.thermodynamicTemperature.dimension, "kelvin", "K"⟩,
   ⟨Kind.amountOfSubstance.dimension, "mole", "mol"⟩,
   ⟨Kind.luminousIntensity.dimension, "candela", "cd"⟩,
   ⟨Kind.force.dimension, "newton", "N"⟩,
   ⟨Kind.pressure.dimension, "pascal", "Pa"⟩,
   ⟨Kind.energy.dimension, "joule", "J"⟩,
   ⟨Kind.power.dimension, "watt", "W"⟩,
   ⟨Kind.electricCharge.dimension, "coulomb", "C"⟩,
   ⟨Kind.electricPotential.dimension, "volt", "V"⟩,
   ⟨Kind.capacitance.dimension, "farad", "F"⟩,
   ⟨Kind.electricResistance.dimension, "ohm", "Ω"⟩,
   ⟨Kind.electricConductance.dimension, "siemens", "S"⟩,
   ⟨Kind.magneticFlux.dimension, "weber", "Wb"⟩,
   ⟨Kind.magneticFluxDensity.dimension, "tesla", "T"⟩,
   ⟨Kind.inductance.dimension, "henry", "H"⟩,
   ⟨Kind.illuminance.dimension, "lux", "lx"⟩,
   ⟨Kind.frequency.dimension, "hertz", "Hz"⟩,
   ⟨Kind.doseEquivalent.dimension, "sievert", "Sv"⟩,
   ⟨Kind.speed.dimension, "meter per second", "m/s"⟩]

def lookup (d : Dimension) : Option NamedUnit := table.find? (·.dimension == d)

def rows (d : Dimension) : List NamedUnit := table.filter (·.dimension == d)

end NamedUnit

namespace Dimension

def isSingle (d : Dimension) : Bool := d.isBase || (NamedUnit.lookup d).isSome

def preferredSymbol (d : Dimension) : String :=
  match NamedUnit.lookup d with
  | some unit => unit.symbol
  | none => d.symbol

def unitName (d : Dimension) : String :=
  match NamedUnit.lookup d with
  | some unit => unit.name
  | none => d.symbol

end Dimension

end Metrology
