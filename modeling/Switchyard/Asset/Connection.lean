import Switchyard.Asset.Identity

/-!
# How assets are connected

Equipment is connected through connectivity nodes: a terminal joins one piece of conducting
equipment to one node.  Each terminal that synthesis creates refers to a bus name marker, and the
markers of one run belong to one reporting group.
-/

set_option autoImplicit false

namespace Switchyard

/-- A junction that terminals attach to. -/
structure ConnectivityNode extends Identity where
  /-- The voltage level, or other container, that holds the node. -/
  connectivityNodeContainerMrid : Mrid := Mrid.nil
deriving DecidableEq, Inhabited

instance : Record ConnectivityNode where
  mrid r := r.mrid
  commitId r := r.commitId
  isDeleted r := r.deleted
  table := .connectivityNodes
  columns := assetColumns [⟨"connectivity_node_container_mrid", .mrid⟩]
  cells r := (r.deleted, r.name, r.shortName, r.description, r.connectivityNodeContainerMrid, ())
  ofCells mrid commitId
    | (deleted, name, shortName, description, connectivityNodeContainerMrid, ()) =>
      { mrid, commitId, deleted, name, shortName, description, connectivityNodeContainerMrid }
  ofCells_cells _ := rfl
  mrid_ofCells _ _ _ := rfl
  commitId_ofCells _ _ _ := rfl
  cells_ofCells _ _ _ := rfl
  isDeleted_congr _ _ h := congrArg Prod.fst h
  nodup_names := by decide

/-- A join between one piece of conducting equipment and one connectivity node. -/
structure Terminal extends Identity where
  /-- Tells the terminals of one piece of equipment apart, starting at 1. -/
  sequenceNumber : Int32 := 0
  /-- The phases that the terminal carries. -/
  phases : String := ""
  /-- The equipment that the terminal belongs to. -/
  conductingEquipmentMrid : Mrid := Mrid.nil
  /-- The node that the terminal attaches to. -/
  connectivityNodeMrid : Mrid := Mrid.nil
  /-- The marker that names the bus of the terminal. -/
  busNameMarkerMrid : Mrid := Mrid.nil
deriving DecidableEq, Inhabited

instance : Record Terminal where
  mrid r := r.mrid
  commitId r := r.commitId
  isDeleted r := r.deleted
  table := .terminals
  columns := assetColumns [⟨"sequence_number", .int⟩, ⟨"phases", .text⟩,
    ⟨"conducting_equipment_mrid", .mrid⟩, ⟨"connectivity_node_mrid", .mrid⟩,
    ⟨"bus_name_marker_mrid", .mrid⟩]
  cells r := (r.deleted, r.name, r.shortName, r.description, r.sequenceNumber, r.phases,
    r.conductingEquipmentMrid, r.connectivityNodeMrid, r.busNameMarkerMrid, ())
  ofCells mrid commitId
    | (deleted, name, shortName, description, sequenceNumber, phases, conductingEquipmentMrid,
      connectivityNodeMrid, busNameMarkerMrid, ()) =>
      { mrid, commitId, deleted, name, shortName, description, sequenceNumber, phases,
        conductingEquipmentMrid, connectivityNodeMrid, busNameMarkerMrid }
  ofCells_cells _ := rfl
  mrid_ofCells _ _ _ := rfl
  commitId_ofCells _ _ _ := rfl
  cells_ofCells _ _ _ := rfl
  isDeleted_congr _ _ h := congrArg Prod.fst h
  nodup_names := by decide

/-- A name for a bus, for use in reports. -/
structure BusNameMarker extends Identity where
  /-- The priority of the name. -/
  priority : Int32 := 0
  /-- The group that the marker belongs to. -/
  reportingGroupMrid : Mrid := Mrid.nil
deriving DecidableEq, Inhabited

instance : Record BusNameMarker where
  mrid r := r.mrid
  commitId r := r.commitId
  isDeleted r := r.deleted
  table := .busNameMarkers
  columns := assetColumns [⟨"priority", .int⟩, ⟨"reporting_group_mrid", .mrid⟩]
  cells r := (r.deleted, r.name, r.shortName, r.description, r.priority, r.reportingGroupMrid, ())
  ofCells mrid commitId
    | (deleted, name, shortName, description, priority, reportingGroupMrid, ()) =>
      { mrid, commitId, deleted, name, shortName, description, priority, reportingGroupMrid }
  ofCells_cells _ := rfl
  mrid_ofCells _ _ _ := rfl
  commitId_ofCells _ _ _ := rfl
  cells_ofCells _ _ _ := rfl
  isDeleted_congr _ _ h := congrArg Prod.fst h
  nodup_names := by decide

/-- A group of everything that one synthesis run creates. -/
structure ReportingGroup extends Identity
deriving DecidableEq, Inhabited

instance : Record ReportingGroup where
  mrid r := r.mrid
  commitId r := r.commitId
  isDeleted r := r.deleted
  table := .reportingGroups
  columns := assetColumns []
  cells r := (r.deleted, r.name, r.shortName, r.description, ())
  ofCells mrid commitId
    | (deleted, name, shortName, description, ()) =>
      { mrid, commitId, deleted, name, shortName, description }
  ofCells_cells _ := rfl
  mrid_ofCells _ _ _ := rfl
  commitId_ofCells _ _ _ := rfl
  cells_ofCells _ _ _ := rfl
  isDeleted_congr _ _ h := congrArg Prod.fst h
  nodup_names := nodup_assetColumns

end Switchyard
