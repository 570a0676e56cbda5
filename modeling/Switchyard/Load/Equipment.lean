import Switchyard.Load.Active
import Switchyard.Numbering
import Switchyard.Synthesis.Input

/-!
# Loading the equipment of a voltage level

The lines, generators and loads that a voltage level currently contains, and for each line that
owns a terminal the number that its next terminal has to take.  A line has two ends, so a line
that already owns several terminals cannot get one more.
-/

set_option autoImplicit false

namespace Switchyard

namespace Backend

/-- The active terminals of some equipment. -/
def loadTerminals (b : Backend) (equipment : List Mrid) : Except StoreError (List Terminal) :=
  b.loadActive Terminal (.columnIn "conducting_equipment_mrid" equipment)

end Backend

/-- The owners of more than one of some terminals, in ascending order. -/
def repeatedOwners (terminals : List Terminal) : List Mrid :=
  let owners := terminals.map (·.conductingEquipmentMrid)
  (Numbering.ascending owners).filter fun id => 1 < owners.count id

namespace Backend

/-- The number that the next terminal of each line has to take; a line without terminals is left
out. -/
def loadNextNumbers (b : Backend) (lines : List Mrid) : Except LoadError (List (Mrid × Int32)) :=
  match b.loadTerminals lines with
  | .error e => .error (.store e)
  | .ok terminals =>
    match repeatedOwners terminals with
    | [] => .ok (terminals.map fun t => (t.conductingEquipmentMrid, otherEnd t.sequenceNumber))
    | owners => .error (.multipleTerminals owners)

/-- The equipment of a voltage level. -/
def loadEquipment (b : Backend) (voltageLevel : Mrid) :
    Except LoadError VoltageLevelEquipment := do
  let level ← b.loadOne VoltageLevel voltageLevel
  let contained := Predicate.columnIn "equipment_container_mrid" [voltageLevel]
  let lines ← b.load AcLineSegment contained
  let generators ← b.load SynchronousMachine contained
  let loads ← b.load ConformLoad contained
  let overrides ← b.loadNextNumbers (lines.map (·.mrid))
  return { voltageLevel := level, lines, generators, loads, overrides }

/-- What is reported about the equipment of a voltage level once it is loaded. -/
def equipmentEvents (voltageLevel : Mrid) :
    Except LoadError VoltageLevelEquipment → List Event
  | .ok e =>
    [.loadedEquipment voltageLevel e.lines.length e.generators.length e.loads.length]
  | .error _ => []

/-! ## The check of the numbering -/

/-- The report on the numbering of every terminal of the store. -/
def checkNumbering (b : Backend) : Except StoreError Numbering.Report :=
  (b.fetch Terminal .all).map Numbering.check

/-- What is reported about misnumbered terminals. -/
def numberingEvents : Except StoreError Numbering.Report → List Event
  | .ok report => if report.isClean then [] else [.misnumbered report.terminals.length]
  | .error _ => []

end Backend

end Switchyard
