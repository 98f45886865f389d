import Metrology.Dimension.Basic

/-!
# Kinds of quantity

The kinds of quantity that have a name of their own, base kinds first, each with its dimension.
Several kinds may share one dimension, as torque and energy do.
-/

namespace Metrology

inductive Kind where
  | dimensionless
  | length
  | mass
  | timeInterval
  | electricCurrent
  | thermodynamicTemperature
  | amountOfSubstance
  | luminousIntensity
  | absorbedDose
  | absorbedDoseRate
  | acceleration
  | action
  | activityOfANuclide
  | angularVelocity
  | angularAcceleration
  | area
  | capacitance
  | concentration
  | currentDensity
  | doseEquivalent
  | dynamicViscosity
  | electricCharge
  | electricDipoleMoment
  | electricChargeDensity
  | electricConductance
  | electricFieldStrength
  | electricFluxDensity
  | electricPotential
  | electricResistance
  | energy
  | energyDensity
  | exposure
  | fluidity
  | force
  | frequency
  | heatCapacity
  | heatDensity
  | heatDensityFlowRate
  | heatFlowRate
  | heatFluxDensity
  | heatTransferCoefficient
  | illuminance
  | inductance
  | irradiance
  | inverseAmountOfSubstance
  | kinematicViscosity
  | linearDensity
  | luminance
  | luminousFlux
  | magneticFieldStrength
  | magneticFlux
  | magneticFluxDensity
  | magneticPermeability
  | massDensity
  | massFlowRate
  | molarEnergy
  | molarEntropy
  | momentOfForce
  | permittivity
  | power
  | pressure
  | radiance
  | radiantIntensity
  | speed
  | specificEnergy
  | specificHeatCapacity
  | specificVolume
  | substancePermeability
  | surfaceTension
  | thermalConductivity
  | thermalDiffusivity
  | thermalInsulance
  | thermalResistance
  | thermalResistivity
  | torque
  | volume
  | volumeFlowRate
  | waveNumber
  deriving DecidableEq, Repr

namespace Kind

def all : List Kind :=
  [.dimensionless, .length, .mass, .timeInterval, .electricCurrent, .thermodynamicTemperature,
   .amountOfSubstance, .luminousIntensity, .absorbedDose, .absorbedDoseRate, .acceleration,
   .action, .activityOfANuclide, .angularVelocity, .angularAcceleration, .area, .capacitance,
   .concentration, .currentDensity, .doseEquivalent, .dynamicViscosity, .electricCharge,
   .electricDipoleMoment, .electricChargeDensity, .electricConductance, .electricFieldStrength,
   .electricFluxDensity, .electricPotential, .electricResistance, .energy, .energyDensity,
   .exposure, .fluidity, .force, .frequency, .heatCapacity, .heatDensity, .heatDensityFlowRate,
   .heatFlowRate, .heatFluxDensity, .heatTransferCoefficient, .illuminance, .inductance,
   .irradiance, .inverseAmountOfSubstance, .kinematicViscosity, .linearDensity, .luminance,
   .luminousFlux, .magneticFieldStrength, .magneticFlux, .magneticFluxDensity,
   .magneticPermeability, .massDensity, .massFlowRate, .molarEnergy, .molarEntropy,
   .momentOfForce, .permittivity, .power, .pressure, .radiance, .radiantIntensity, .speed,
   .specificEnergy, .specificHeatCapacity, .specificVolume, .substancePermeability,
   .surfaceTension, .thermalConductivity, .thermalDiffusivity, .thermalInsulance,
   .thermalResistance, .thermalResistivity, .torque, .volume, .volumeFlowRate, .waveNumber]

def dimension : Kind → Dimension
  | .dimensionless => ⟨0, 0, 0, 0, 0, 0, 0⟩
  | .length => ⟨1, 0, 0, 0, 0, 0, 0⟩
  | .mass => ⟨0, 1, 0, 0, 0, 0, 0⟩
  | .timeInterval => ⟨0, 0, 1, 0, 0, 0, 0⟩
  | .electricCurrent => ⟨0, 0, 0, 1, 0, 0, 0⟩
  | .thermodynamicTemperature => ⟨0, 0, 0, 0, 1, 0, 0⟩
  | .amountOfSubstance => ⟨0, 0, 0, 0, 0, 1, 0⟩
  | .luminousIntensity => ⟨0, 0, 0, 0, 0, 0, 1⟩
  | .absorbedDose => ⟨2, 0, -2, 0, 0, 0, 0⟩
  | .absorbedDoseRate => ⟨2, 0, -3, 0, 0, 0, 0⟩
  | .acceleration => ⟨1, 0, -2, 0, 0, 0, 0⟩
  | .action => ⟨2, 1, -1, 0, 0, 0, 0⟩
  | .activityOfANuclide => ⟨0, 0, -1, 0, 0, 0, 0⟩
  | .angularVelocity => ⟨0, 0, -1, 0, 0, 0, 0⟩
  | .angularAcceleration => ⟨0, 0, -2, 0, 0, 0, 0⟩
  | .area => ⟨2, 0, 0, 0, 0, 0, 0⟩
  | .capacitance => ⟨-2, -1, 4, 2, 0, 0, 0⟩
  | .concentration => ⟨-3, 0, 0, 0, 0, 1, 0⟩
  | .currentDensity => ⟨-2, 0, 0, 1, 0, 0, 0⟩
  | .doseEquivalent => ⟨2, 0, -2, 0, 0, 0, 0⟩
  | .dynamicViscosity => ⟨-1, 1, -1, 0, 0, 0, 0⟩
  | .electricCharge => ⟨0, 0, 1, 1, 0, 0, 0⟩
  | .electricDipoleMoment => ⟨1, 0, 1, 1, 0, 0, 0⟩
  | .electricChargeDensity => ⟨-3, 0, 1, 1, 0, 0, 0⟩
  | .electricConductance => ⟨-2, -1, 3, 2, 0, 0, 0⟩
  | .electricFieldStrength => ⟨1, 1, -3, -1, 0, 0, 0⟩
  | .electricFluxDensity => ⟨-2, 0, 1, 1, 0, 0, 0⟩
  | .electricPotential => ⟨2, 1, -3, -1, 0, 0, 0⟩
  | .electricResistance => ⟨2, 1, -3, -2, 0, 0, 0⟩
  | .energy => ⟨2, 1, -2, 0, 0, 0, 0⟩
  | .energyDensity => ⟨-1, 1, -2, 0, 0, 0, 0⟩
  | .exposure => ⟨0, -1, 1, 1, 0, 0, 0⟩
  | .fluidity => ⟨1, -1, 1, 0, 0, 0, 0⟩
  | .force => ⟨1, 1, -2, 0, 0, 0, 0⟩
  | .frequency => ⟨0, 0, -1, 0, 0, 0, 0⟩
  | .heatCapacity => ⟨2, 1, -2, 0, -1, 0, 0⟩
  | .heatDensity => ⟨0, 1, -2, 0, 0, 0, 0⟩
  | .heatDensityFlowRate => ⟨0, 1, -3, 0, 0, 0, 0⟩
  | .heatFlowRate => ⟨2, 1, -3, 0, 0, 0, 0⟩
  | .heatFluxDensity => ⟨0, 1, -3, 0, 0, 0, 0⟩
  | .heatTransferCoefficient => ⟨0, 1, -3, 0, -1, 0, 0⟩
  | .illuminance => ⟨-2, 0, 0, 0, 0, 0, 1⟩
  | .inductance => ⟨2, 1, -2, -2, 0, 0, 0⟩
  | .irradiance => ⟨0, 1, -3, 0, 0, 0, 0⟩
  | .inverseAmountOfSubstance => ⟨0, 0, 0, 0, 0, -1, 0⟩
  | .kinematicViscosity => ⟨2, 0, -1, 0, 0, 0, 0⟩
  | .linearDensity => ⟨-1, 1, 0, 0, 0, 0, 0⟩
  | .luminance => ⟨-2, 0, 0, 0, 0, 0, 1⟩
  | .luminousFlux => ⟨0, 0, 0, 0, 0, 0, 1⟩
  | .magneticFieldStrength => ⟨-1, 0, 0, 1, 0, 0, 0⟩
  | .magneticFlux => ⟨2, 1, -2, -1, 0, 0, 0⟩
  | .magneticFluxDensity => ⟨0, 1, -2, -1, 0, 0, 0⟩
  | .magneticPermeability => ⟨1, 1, -2, -2, 0, 0, 0⟩
  | .massDensity => ⟨-3, 1, 0, 0, 0, 0, 0⟩
  | .massFlowRate => ⟨0, 1, -1, 0, 0, 0, 0⟩
  | .molarEnergy => ⟨2, 1, -2, 0, 0, -1, 0⟩
  | .molarEntropy => ⟨2, 1, -2, -1, 0, -1, 0⟩
  | .momentOfForce => ⟨2, 1, -2, 0, 0, 0, 0⟩
  | .permittivity => ⟨-3, -1, 4, 2, 0, 0, 0⟩
  | .power => ⟨2, 1, -3, 0, 0, 0, 0⟩
  | .pressure => ⟨-1, 1, -2, 0, 0, 0, 0⟩
  | .radiance => ⟨0, 1, -3, 0, 0, 0, 0⟩
  | .radiantIntensity => ⟨2, 1, -3, 0, 0, 0, 0⟩
  | .speed => ⟨1, 0, -1, 0, 0, 0, 0⟩
  | .specificEnergy => ⟨2, 0, -2, 0, 0, 0, 0⟩
  | .specificHeatCapacity => ⟨2, 0, -2, 0, -1, 0, 0⟩
  | .specificVolume => ⟨3, -1, 0, 0, 0, 0, 0⟩
  | .substancePermeability => ⟨-1, 0, 1, 0, 0, 0, 0⟩
  | .surfaceTension => ⟨0, 1, -2, 0, 0, 0, 0⟩
  | .thermalConductivity => ⟨1, 1, -3, 0, -1, 0, 0⟩
  | .thermalDiffusivity => ⟨2, 0, -1, 0, 0, 0, 0⟩
  | .thermalInsulance => ⟨0, -1, 3, 0, 1, 0, 0⟩
  | .thermalResistance => ⟨-2, -1, 3, 0, 1, 0, 0⟩
  | .thermalResistivity => ⟨-1, -1, 3, 0, 1, 0, 0⟩
  | .torque => ⟨2, 1, -2, 0, 0, 0, 0⟩
  | .volume => ⟨3, 0, 0, 0, 0, 0, 0⟩
  | .volumeFlowRate => ⟨3, 0, -1, 0, 0, 0, 0⟩
  | .waveNumber => ⟨-1, 0, 0, 0, 0, 0, 0⟩

def name : Kind → String
  | .dimensionless => "Dimensionless"
  | .length => "Length"
  | .mass => "Mass"
  | .timeInterval => "TimeInterval"
  | .electricCurrent => "ElectricCurrent"
  | .thermodynamicTemperature => "ThermodynamicTemperature"
  | .amountOfSubstance => "AmountOfSubstance"
  | .luminousIntensity => "LuminousIntensity"
  | .absorbedDose => "AbsorbedDose"
  | .absorbedDoseRate => "AbsorbedDoseRate"
  | .acceleration => "Acceleration"
  | .action => "Action"
  | .activityOfANuclide => "ActivityOfANuclide"
  | .angularVelocity => "AngularVelocity"
  | .angularAcceleration => "AngularAcceleration"
  | .area => "Area"
  | .capacitance => "Capacitance"
  | .concentration => "Concentration"
  | .currentDensity => "CurrentDensity"
  | .doseEquivalent => "DoseEquivalent"
  | .dynamicViscosity => "DynamicViscosity"
  | .electricCharge => "ElectricCharge"
  | .electricDipoleMoment => "ElectricDipoleMoment"
  | .electricChargeDensity => "ElectricChargeDensity"
  | .electricConductance => "ElectricConductance"
  | .electricFieldStrength => "ElectricFieldStrength"
  | .electricFluxDensity => "ElectricFluxDensity"
  | .electricPotential => "ElectricPotential"
  | .electricResistance => "ElectricResistance"
  | .energy => "Energy"
  | .energyDensity => "EnergyDensity"
  | .exposure => "Exposure"
  | .fluidity => "Fluidity"
  | .force => "Force"
  | .frequency => "Frequency"
  | .heatCapacity => "HeatCapacity"
  | .heatDensity => "HeatDensity"
  | .heatDensityFlowRate => "HeatDensityFlowRate"
  | .heatFlowRate => "HeatFlowRate"
  | .heatFluxDensity => "HeatFluxDensity"
  | .heatTransferCoefficient => "HeatTransferCoefficient"
  | .illuminance => "Illuminance"
  | .inductance => "Inductance"
  | .irradiance => "Irradiance"
  | .inverseAmountOfSubstance => "InverseAmountOfSubstance"
  | .kinematicViscosity => "KinematicViscosity"
  | .linearDensity => "LinearDensity"
  | .luminance => "Luminance"
  | .luminousFlux => "LuminousFlux"
  | .magneticFieldStrength => "MagneticFieldStrength"
  | .magneticFlux => "MagneticFlux"
  | .magneticFluxDensity => "MagneticFluxDensity"
  | .magneticPermeability => "MagneticPermeability"
  | .massDensity => "MassDensity"
  | .massFlowRate => "MassFlowRate"
  | .molarEnergy => "MolarEnergy"
  | .molarEntropy => "MolarEntropy"
  | .momentOfForce => "MomentOfForce"
  | .permittivity => "Permittivity"
  | .power => "Power"
  | .pressure => "Pressure"
  | .radiance => "Radiance"
  | .radiantIntensity => "RadiantIntensity"
  | .speed => "Speed"
  | .specificEnergy => "SpecificEnergy"
  | .specificHeatCapacity => "SpecificHeatCapacity"
  | .specificVolume => "SpecificVolume"
  | .substancePermeability => "SubstancePermeability"
  | .surfaceTension => "SurfaceTension"
  | .thermalConductivity => "ThermalConductivity"
  | .thermalDiffusivity => "ThermalDiffusivity"
  | .thermalInsulance => "ThermalInsulance"
  | .thermalResistance => "ThermalResistance"
  | .thermalResistivity => "ThermalResistivity"
  | .torque => "Torque"
  | .volume => "Volume"
  | .volumeFlowRate => "VolumeFlowRate"
  | .waveNumber => "WaveNumber"

def ofName? (name : String) : Option Kind := all.find? (·.name == name)

end Kind

end Metrology
