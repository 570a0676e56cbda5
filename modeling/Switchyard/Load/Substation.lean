import Switchyard.Load.Active
import Switchyard.Synthesis.Input

/-!
# Loading a substation

The voltage levels that a substation currently contains, in ascending order, each with the
connectivity nodes it currently contains and with its base voltage, which has to be active.
-/

set_option autoImplicit false

namespace Switchyard

/-- The voltage level with its nodes and its base voltage, chosen from those at hand. -/
def ConnectableLevel.assemble (baseVoltages : List BaseVoltage) (nodes : List ConnectivityNode)
    (level : VoltageLevel) : Except LoadError ConnectableLevel :=
  match baseVoltages.find? fun bv => bv.mrid = level.baseVoltageMrid with
  | some baseVoltage =>
    .ok
      { voltageLevel := level
        nodes := nodes.filter fun n => n.connectivityNodeContainerMrid = level.mrid
        baseVoltage }
  | none => .error (.missingBaseVoltage level.mrid level.baseVoltageMrid)

/-- Assembles voltage levels up to the first that fails. -/
def ConnectableLevel.assembleAll (baseVoltages : List BaseVoltage)
    (nodes : List ConnectivityNode) :
    List VoltageLevel → Except LoadError (List ConnectableLevel)
  | [] => .ok []
  | level :: rest =>
    match assemble baseVoltages nodes level with
    | .error e => .error e
    | .ok l => (assembleAll baseVoltages nodes rest).map (l :: ·)

/-- A substation with its voltage levels. -/
def Backend.loadSubstation (b : Backend) (substation : Mrid) :
    Except LoadError SubstationLevels := do
  let record ← b.loadOne Substation substation
  let levels ← b.load VoltageLevel (.columnIn "substation_mrid" [substation])
  let baseVoltages ← b.load BaseVoltage (.mridIn (levels.map (·.baseVoltageMrid)))
  let nodes ← b.load ConnectivityNode
    (.columnIn "connectivity_node_container_mrid" (levels.map (·.mrid)))
  return { substation := record
           levels := ← ConnectableLevel.assembleAll baseVoltages nodes levels }

end Switchyard
