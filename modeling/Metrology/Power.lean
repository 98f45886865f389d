/-!
# Powers with natural exponents

The powers of numbers are those of the core library.  A definition that is also read next to the
powers of monoids opens `Metrology.Power`, so that it means the same there.
-/

namespace Metrology.Power

attribute [scoped instance(2000)] instPowNat

end Metrology.Power
