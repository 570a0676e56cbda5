import Switchyard.Asset.Containment
import Switchyard.Asset.Connection
import Switchyard.Asset.Equipment

/-!
# What synthesis starts from

For a voltage level: the lines, generators and loads it contains.  For a substation: its voltage
levels, each with its connectivity nodes and its base voltage.
-/

set_option autoImplicit false

namespace Switchyard

/-- A voltage level and the equipment it contains. -/
structure VoltageLevelEquipment where
  voltageLevel : VoltageLevel := {}
  lines : List AcLineSegment := []
  generators : List SynchronousMachine := []
  loads : List ConformLoad := []
  /-- The number that the new terminal of a piece of equipment has to take.  It is given for a line
  that owns a terminal at its other end, so that the two ends do not share a number. -/
  overrides : List (Mrid × Int32) := []

namespace VoltageLevelEquipment

/-- The lines. -/
def lineMrids (e : VoltageLevelEquipment) : List Mrid := e.lines.map (·.mrid)

/-- The generators and then the loads. -/
def otherMrids (e : VoltageLevelEquipment) : List Mrid :=
  e.generators.map (·.mrid) ++ e.loads.map (·.mrid)

/-- The equipment in the order in which it is laid out: lines, generators, loads. -/
def members (e : VoltageLevelEquipment) : List Mrid := e.lineMrids ++ e.otherMrids

/-- The number that is asked for the new terminal of a piece of equipment. -/
def override? (e : VoltageLevelEquipment) (equipment : Mrid) : Option Int32 :=
  e.overrides.lookup equipment

theorem length_members (e : VoltageLevelEquipment) :
    e.members.length = e.lines.length + e.generators.length + e.loads.length := by
  simp [members, lineMrids, otherMrids, Nat.add_assoc]

end VoltageLevelEquipment

/-- The number of the other end of a line, given the number of one end. -/
def otherEnd (number : Int32) : Int32 := number % 2 + 1

/-- A voltage level with its connectivity nodes and its base voltage. -/
structure ConnectableLevel where
  voltageLevel : VoltageLevel := {}
  nodes : List ConnectivityNode := []
  baseVoltage : BaseVoltage := {}

namespace ConnectableLevel

/-- The voltage level refers to the base voltage it came with. -/
def IsConsistent (l : ConnectableLevel) : Prop :=
  l.baseVoltage.mrid = l.voltageLevel.baseVoltageMrid

instance (l : ConnectableLevel) : Decidable l.IsConsistent :=
  inferInstanceAs (Decidable (l.baseVoltage.mrid = l.voltageLevel.baseVoltageMrid))

/-- The nominal voltage of the level in kV. -/
def nominalVoltage (l : ConnectableLevel) : Float := l.baseVoltage.nominalVoltage

end ConnectableLevel

/-- A substation and its voltage levels. -/
structure SubstationLevels where
  substation : Substation := {}
  levels : List ConnectableLevel := []

namespace SubstationLevels

/-- Every voltage level refers to the base voltage it came with. -/
def IsConsistent (s : SubstationLevels) : Prop := ∀ l ∈ s.levels, l.IsConsistent

instance (s : SubstationLevels) : Decidable s.IsConsistent :=
  inferInstanceAs (Decidable (∀ l ∈ s.levels, l.IsConsistent))

end SubstationLevels

end Switchyard
