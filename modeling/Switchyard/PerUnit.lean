/-!
# Per-unit quantities

In the per-unit system impedances are expressed as multiples of a base impedance, which follows
from the voltage and from a base power that is the same everywhere.
-/

set_option autoImplicit false

namespace Switchyard

/-- A per-unit system, given by its base power. -/
structure PerUnit where
  /-- The base power in MVA. -/
  base : Float := 100.0
deriving DecidableEq

namespace PerUnit

/-- The base impedance in ohm at a voltage in kV. -/
def baseImpedance (pu : PerUnit) (voltage : Float) : Float := voltage * voltage / pu.base

/-- A resistance or reactance in ohm, as a multiple of the base impedance at a voltage in kV. -/
def ofOhm (pu : PerUnit) (ohm voltage : Float) : Float := ohm / pu.baseImpedance voltage

end PerUnit

end Switchyard
