/-!
# Tables

The tables of the versioned asset model.  Every table but `commits` holds the versions of one type
of record, and the class name of that type is what the identity rows of its assets carry.
-/

set_option autoImplicit false

namespace Switchyard

/-- A table of the asset model. -/
inductive Table where
  | commits
  | entities
  | reportingGroups
  | busNameMarkers
  | connectivityNodes
  | switches
  | powerTransformers
  | terminals
  | powerTransformerEnds
  | substations
  | voltageLevels
  | baseVoltages
  | acLineSegments
  | synchronousMachines
  | conformLoads
deriving DecidableEq

namespace Table

/-- Every table, in ascending order: the log of commits, the identities, what synthesis creates in
the order in which it is inserted, and what synthesis starts from. -/
def all : List Table :=
  [commits, entities, reportingGroups, busNameMarkers, connectivityNodes, switches,
    powerTransformers, terminals, powerTransformerEnds, substations, voltageLevels, baseVoltages,
    acLineSegments, synchronousMachines, conformLoads]

theorem mem_all (t : Table) : t ∈ all := by cases t <;> decide

/-- The name of the table in a database. -/
def name : Table → String
  | commits => "commits"
  | entities => "entities"
  | reportingGroups => "reporting_groups"
  | busNameMarkers => "bus_name_markers"
  | connectivityNodes => "connectivity_nodes"
  | switches => "switches"
  | powerTransformers => "power_transformers"
  | terminals => "terminals"
  | powerTransformerEnds => "power_transformer_ends"
  | substations => "substations"
  | voltageLevels => "voltage_levels"
  | baseVoltages => "base_voltages"
  | acLineSegments => "ac_line_segments"
  | synchronousMachines => "synchronous_machines"
  | conformLoads => "conform_loads"

instance : ToString Table := ⟨name⟩

/-- The class of the assets in the table, as identity rows carry it. -/
def entityType : Table → String
  | commits => "Commit"
  | entities => "Entity"
  | reportingGroups => "ReportingGroup"
  | busNameMarkers => "BusNameMarker"
  | connectivityNodes => "ConnectivityNode"
  | switches => "Switch"
  | powerTransformers => "PowerTransformer"
  | terminals => "Terminal"
  | powerTransformerEnds => "PowerTransformerEnd"
  | substations => "Substation"
  | voltageLevels => "VoltageLevel"
  | baseVoltages => "BaseVoltage"
  | acLineSegments => "ACLineSegment"
  | synchronousMachines => "SynchronousMachine"
  | conformLoads => "ConformLoad"

/-- How many tables come before this one. -/
def position (t : Table) : Nat := all.idxOf t

/-- The table of a name. -/
def ofName? (s : String) : Option Table := all.find? fun t => t.name = s

theorem ofName?_name (t : Table) : ofName? t.name = some t := by cases t <;> rfl

end Table

end Switchyard
