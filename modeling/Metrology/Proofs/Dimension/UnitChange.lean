import Metrology.Proofs.Dimension.Group
import Mathlib.Algebra.Group.Hom.Basic
import Mathlib.Algebra.Order.Field.Rat
import Mathlib.Algebra.Order.Positive.Field

/-!
# Changes of unit

A change of the seven base units is a choice of seven positive factors.  It multiplies the number of
a quantity by the factors raised to the exponents of its dimension.
-/

namespace Metrology

structure UnitChange where
  length : {x : ℚ // 0 < x}
  mass : {x : ℚ // 0 < x}
  time : {x : ℚ // 0 < x}
  current : {x : ℚ // 0 < x}
  temperature : {x : ℚ // 0 < x}
  amount : {x : ℚ // 0 < x}
  luminosity : {x : ℚ // 0 < x}

namespace UnitChange

def scale (u : UnitChange) (d : Dimension) : {x : ℚ // 0 < x} :=
  u.length ^ d.length * u.mass ^ d.mass * u.time ^ d.time * u.current ^ d.current *
    u.temperature ^ d.temperature * u.amount ^ d.amount * u.luminosity ^ d.luminosity

theorem scale_mul (u : UnitChange) (a b : Dimension) :
    u.scale (a * b) = u.scale a * u.scale b := by
  change u.length ^ (a.length + b.length) * u.mass ^ (a.mass + b.mass) *
    u.time ^ (a.time + b.time) * u.current ^ (a.current + b.current) *
    u.temperature ^ (a.temperature + b.temperature) * u.amount ^ (a.amount + b.amount) *
    u.luminosity ^ (a.luminosity + b.luminosity) = _
  simp only [scale, zpow_add, mul_left_comm, mul_assoc]

def hom (u : UnitChange) : Dimension →* {x : ℚ // 0 < x} := MonoidHom.mk' u.scale u.scale_mul

def factor (u : UnitChange) (d : Dimension) : ℚ := u.hom d

variable (u : UnitChange) (a b : Dimension)

theorem factor_pos : 0 < u.factor a := (u.hom a).2

@[simp] theorem factor_one : u.factor 1 = 1 := by
  simp [factor]

@[simp] theorem factor_mul : u.factor (a * b) = u.factor a * u.factor b := by
  simp [factor]

@[simp] theorem factor_div : u.factor (a / b) = u.factor a / u.factor b := by
  simp [factor, div_eq_mul_inv]

@[simp] theorem factor_power (n : Int) : u.factor (a.power n) = u.factor a ^ n := by
  change ((u.hom (a ^ n) : {x : ℚ // 0 < x}) : ℚ) = _
  rw [map_zpow, Positive.coe_zpow, factor]

end UnitChange

end Metrology
