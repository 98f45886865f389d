import Metrology.Dimension.Kind
import Metrology.Quantity.Basic
import Metrology.Unit.Multiplier

/-!
# Units and constants

Units of measurement and physical constants by name.  Each is an exact multiple of the coherent unit
of its dimension, rounded once to double precision; ratios and angles are bare numbers.  Temperature
units are differences, without an offset.
-/

namespace Metrology

inductive UnitSize where
  | coherent (kind : Kind) (factor : Rat)
  | number (factor : Rat)
  /-- The product of two numbers that are rounded before they are multiplied. -/
  | product (left right : Rat)

namespace UnitSize

def nearestPi : Rat := 884279719003555 / 281474976710656

def si : List (String × UnitSize) :=
  [("meter", .coherent .length 1),
   ("kilogram", .coherent .mass 1),
   ("second", .coherent .timeInterval 1),
   ("ampere", .coherent .electricCurrent 1),
   ("kelvin", .coherent .thermodynamicTemperature 1),
   ("mole", .coherent .amountOfSubstance 1),
   ("candela", .coherent .luminousIntensity 1),
   ("newton", .coherent .force 1),
   ("pascal", .coherent .pressure 1),
   ("joule", .coherent .energy 1),
   ("watt", .coherent .power 1),
   ("coulomb", .coherent .electricCharge 1),
   ("volt", .coherent .electricPotential 1),
   ("farad", .coherent .capacitance 1),
   ("ohm", .coherent .electricResistance 1),
   ("siemens", .coherent .electricConductance 1),
   ("weber", .coherent .magneticFlux 1),
   ("tesla", .coherent .magneticFluxDensity 1),
   ("henry", .coherent .inductance 1),
   ("degree_celsius", .coherent .thermodynamicTemperature 1),
   ("lumen", .coherent .luminousFlux 1),
   ("lux", .coherent .illuminance 1),
   ("hertz", .coherent .frequency 1),
   ("becquerel", .coherent .activityOfANuclide 1),
   ("gray", .coherent .absorbedDose 1),
   ("sievert", .coherent .doseEquivalent 1),
   ("metre", .coherent .length 1),
   ("gram", .coherent .mass 1e-3),
   ("angstrom", .coherent .length 1e-10),
   ("are", .coherent .area 1e2),
   ("bar", .coherent .pressure 1e5),
   ("barn", .coherent .area 1e-28),
   ("curie", .coherent .activityOfANuclide 3.7e10),
   ("day", .coherent .timeInterval 86400),
   ("gal", .coherent .acceleration 1e-2),
   ("hectare", .coherent .area 1e4),
   ("hour", .coherent .timeInterval 3600),
   ("knot", .coherent .speed (1852 / 3600)),
   ("liter", .coherent .volume 1e-3),
   ("minute", .coherent .timeInterval 60),
   ("mile_nautical", .coherent .length 1852),
   ("rad", .coherent .absorbedDose 1e-2),
   ("rem", .coherent .doseEquivalent 1e-2),
   ("roentgen", .coherent .exposure 2.58e-4),
   ("ton_metric", .coherent .mass 1e3),
   ("litre", .coherent .volume 1e-3),
   ("tonne", .coherent .mass 1e3),
   ("radian", .number 1),
   ("steradian", .number 1),
   ("pi", .number nearestPi),
   ("percent", .number 0.01),
   ("degree_angle", .number (nearestPi / 180)),
   ("minute_angle", .number (nearestPi / 10800)),
   ("second_angle", .number (nearestPi / 648000))]

def customary : List (String × UnitSize) :=
  [("abampere", .coherent .electricCurrent 1e1),
   ("abcoulomb", .coherent .electricCharge 1e1),
   ("abfarad", .coherent .capacitance 1e9),
   ("abhenry", .coherent .inductance 1e-9),
   ("abmho", .coherent .electricConductance 1e9),
   ("abohm", .coherent .electricResistance 1e-9),
   ("abvolt", .coherent .electricPotential 1e-8),
   ("acre", .coherent .area 4.046873e3),
   ("acre_foot", .coherent .volume 1.233489e3),
   ("astronomical_unit", .coherent .length 1.495979e11),
   ("atmosphere_std", .coherent .pressure 1.01325e5),
   ("atmosphere_tech", .coherent .pressure 9.80665e4),
   ("barrel", .coherent .volume 1.589873e-1),
   ("biot", .coherent .electricCurrent 1e1),
   ("btu", .coherent .energy 1.05587e3),
   ("btu_it", .coherent .energy 1.055056e3),
   ("btu_th", .coherent .energy 1.054350e3),
   ("btu_39f", .coherent .energy 1.05967e3),
   ("btu_59f", .coherent .energy 1.05480e3),
   ("btu_60f", .coherent .energy 1.05468e3),
   ("bushel", .coherent .volume 3.523907e-2),
   ("calorie", .coherent .energy 4.19002),
   ("calorie_it", .coherent .energy 4.1868),
   ("calorie_th", .coherent .energy 4.184),
   ("calorie_15c", .coherent .energy 4.18580),
   ("calorie_20c", .coherent .energy 4.18190),
   ("carat_metric", .coherent .mass 2e-4),
   ("chain", .coherent .length 2.011684e1),
   ("clo", .coherent .thermalInsulance 1.55e-1),
   ("cm_mercury", .coherent .pressure 1.333224e3),
   ("cord", .coherent .volume 3.624556),
   ("cup", .coherent .volume 2.365882e-4),
   ("darcy", .coherent .area 9.869233e-13),
   ("day_sidereal", .coherent .timeInterval 8.616409e4),
   ("debye", .coherent .electricDipoleMoment 3.335641e-30),
   ("degree_fahrenheit", .coherent .thermodynamicTemperature 5.555556e-1),
   ("degree_rankine", .coherent .thermodynamicTemperature 5.555556e-1),
   ("denier", .coherent .linearDensity 1.111111e-7),
   ("dyne", .coherent .force 1e-5),
   ("erg", .coherent .energy 1e-7),
   ("faraday", .coherent .electricCharge 9.648531e4),
   ("fathom", .coherent .length 1.828804),
   ("fermi", .coherent .length 1e-15),
   ("foot", .coherent .length 3.048e-1),
   ("foot_pound_force", .coherent .energy 1.355818),
   ("foot_poundal", .coherent .energy 4.214011e-2),
   ("foot_us_survey", .coherent .length 3.048006e-1),
   ("footcandle", .coherent .illuminance 1.076391e1),
   ("footlambert", .coherent .illuminance 3.426259),
   ("fortnight", .coherent .timeInterval 1.2096e6),
   ("franklin", .coherent .electricCharge 3.335641e-10),
   ("furlong", .coherent .length 2.01168e2),
   ("gallon_imperial", .coherent .volume 4.54609e-3),
   ("gallon_us", .coherent .volume 3.785412e-3),
   ("gamma", .coherent .magneticFluxDensity 1e-9),
   ("gamma_mass", .coherent .mass 1e-9),
   ("gauss", .coherent .magneticFluxDensity 1e-4),
   ("gilbert", .coherent .electricCurrent 7.957747e-1),
   ("gill_imperial", .coherent .volume 1.420653e-4),
   ("gill_us", .coherent .volume 1.182941e-4),
   ("grain", .coherent .mass 6.479891e-5),
   ("horsepower", .coherent .power 7.456999e2),
   ("horsepower_boiler", .coherent .power 9.80950e3),
   ("horsepower_electric", .coherent .power 7.46e2),
   ("horsepower_metric", .coherent .power 7.354988e2),
   ("horsepower_uk", .coherent .power 7.4570e2),
   ("horsepower_water", .coherent .power 7.46043e2),
   ("hour_sidereal", .coherent .timeInterval 3.590170e3),
   ("hundredweight_long", .coherent .mass 5.080235e1),
   ("hundredweight_short", .coherent .mass 4.535924e1),
   ("inch", .coherent .length 2.54e-2),
   ("inches_mercury", .coherent .pressure 3.386389e3),
   ("kayser", .coherent .waveNumber 1e2),
   ("kilogram_force", .coherent .force 9.80665),
   ("kilopond", .coherent .force 9.80665),
   ("kip", .coherent .force 4.448222e3),
   ("lambda_volume", .coherent .volume 1e-9),
   ("lambert", .coherent .illuminance 3.183099e3),
   ("langley", .coherent .heatDensity 4.184e4),
   ("light_year", .coherent .length 9.46073e15),
   ("maxwell", .coherent .magneticFlux 1e-8),
   ("mho", .coherent .electricConductance 1),
   ("micron", .coherent .length 1e-6),
   ("mil", .coherent .length 2.54e-5),
   ("mil_circular", .coherent .area 5.067075e-10),
   ("mile", .coherent .length 1.609344e3),
   ("mile_us_survey", .coherent .length 1.609347e3),
   ("minute_sidereal", .coherent .timeInterval 5.983617e1),
   ("oersted", .coherent .magneticFieldStrength 7.957747e1),
   ("ounce_avdp", .coherent .mass 2.834952e-2),
   ("ounce_fluid_imperial", .coherent .volume 2.841306e-5),
   ("ounce_fluid_us", .coherent .volume 2.957353e-5),
   ("ounce_force", .coherent .force 2.780139e-1),
   ("ounce_troy", .coherent .mass 3.110348e-2),
   ("parsec", .coherent .length 3.085678e16),
   ("peck", .coherent .volume 8.809768e-3),
   ("pennyweight", .coherent .mass 1.555174e-3),
   ("perm_0c", .coherent .substancePermeability 5.72135e-11),
   ("perm_23c", .coherent .substancePermeability 5.74525e-11),
   ("phot", .coherent .illuminance 1e4),
   ("pica_computer", .coherent .length 4.233333e-3),
   ("pica_printers", .coherent .length 4.217518e-3),
   ("pint_dry", .coherent .volume 5.506105e-4),
   ("pint_liquid", .coherent .volume 4.731765e-4),
   ("point_computer", .coherent .length 3.527778e-4),
   ("point_printers", .coherent .length 3.514598e-4),
   ("poise", .coherent .dynamicViscosity 1e-1),
   ("pound_avdp", .coherent .mass 4.5359237e-1),
   ("pound_force", .coherent .force 4.448222),
   ("pound_troy", .coherent .mass 3.732417e-1),
   ("poundal", .coherent .force 1.382550e-1),
   ("psi", .coherent .pressure 6.894757e3),
   ("quad", .coherent .energy 1.055056e18),
   ("quart_dry", .coherent .volume 1.101221e-3),
   ("quart_liquid", .coherent .volume 9.463529e-4),
   ("rhe", .coherent .fluidity 1e1),
   ("rod", .coherent .length 5.029210),
   ("rpm", .coherent .angularVelocity 1.047198e-1),
   ("second_sidereal", .coherent .timeInterval 9.972696e-1),
   ("shake", .coherent .timeInterval 1e-8),
   ("slug", .coherent .mass 1.459390e1),
   ("statampere", .coherent .electricCurrent 3.335641e-10),
   ("statcoulomb", .coherent .electricCharge 3.335641e-10),
   ("statfarad", .coherent .capacitance 1.112650e-12),
   ("stathenry", .coherent .inductance 8.987552e11),
   ("statmho", .coherent .electricConductance 1.112650e-12),
   ("statohm", .coherent .electricResistance 8.987552e11),
   ("statvolt", .coherent .electricPotential 2.997925e2),
   ("stere", .coherent .volume 1),
   ("stilb", .coherent .illuminance 1e4),
   ("stokes", .coherent .kinematicViscosity 1e-4),
   ("tablespoon", .coherent .volume 1.478676e-5),
   ("teaspoon", .coherent .volume 4.928922e-6),
   ("tex", .coherent .linearDensity 1e-6),
   ("therm_ec", .coherent .energy 1.05506e8),
   ("therm_us", .coherent .energy 1.054804e8),
   ("ton_assay", .coherent .mass 2.916667e-2),
   ("ton_force", .coherent .force 8.896443e3),
   ("ton_long", .coherent .mass 1.016047e3),
   ("ton_refrigeration", .coherent .heatFlowRate 3.516853e3),
   ("ton_register", .coherent .volume 2.831685),
   ("ton_short", .coherent .mass 9.071847e2),
   ("ton_tnt", .coherent .energy 4.184e9),
   ("torr", .coherent .pressure 1.333224e2),
   ("unit_pole", .coherent .magneticFlux 1.256637e-7),
   ("week", .coherent .timeInterval 6.048e5),
   ("x_unit", .coherent .length 1.002e-13),
   ("yard", .coherent .length 9.144e-1),
   ("year_sidereal", .coherent .timeInterval 3.155815e7),
   ("year_std", .coherent .timeInterval 3.1536e7),
   ("year_tropical", .coherent .timeInterval 3.155693e7),
   ("gon", .product 0.9 (nearestPi / 180)),
   ("mil_angle", .product 5.625e-2 (nearestPi / 180)),
   ("revolution", .number (2 * nearestPi))]

def constants : List (String × UnitSize) :=
  [("standard_gravity", .coherent .acceleration 9.80665),
   ("avogadro", .coherent .inverseAmountOfSubstance 6.02214199e23),
   ("electronvolt", .coherent .energy 1.60217733e-19),
   ("elementary_charge", .coherent .electricCharge 1.602176462e-19),
   ("planck", .coherent .action 6.62606876e-34),
   ("speed_of_light", .coherent .speed 299792458),
   ("atomic_mass_unit", .coherent .mass 1.6605402e-27)]

variable {α : Precision → Type} [Arithmetic α]

def value : UnitSize → Value α
  | .coherent kind factor => .collapse kind.dimension (.ofRat factor)
  | .number factor => .scalar (.ofRat factor)
  | .product left right => .scalar ((Scalar.ofRat left).mul (.ofRat right))

end UnitSize

inductive UnitSet where
  | si
  | customary
  | constants
  | prefixes
  deriving DecidableEq, Repr

def UnitSet.find? {α : Precision → Type} [Arithmetic α] (set : UnitSet) (name : String) :
    Option (Value α) :=
  match set with
  | .si => (UnitSize.si.lookup name).map UnitSize.value
  | .customary => (UnitSize.customary.lookup name).map UnitSize.value
  | .constants => (UnitSize.constants.lookup name).map UnitSize.value
  | .prefixes => (prefixFactor? name).map fun factor => .scalar (.ofRat factor)

end Metrology
