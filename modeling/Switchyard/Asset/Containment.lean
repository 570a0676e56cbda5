import Switchyard.Asset.Identity

/-!
# Where assets are contained

A substation contains voltage levels, a voltage level contains equipment and connectivity nodes,
and each voltage level operates at a base voltage that it shares with others.
-/

set_option autoImplicit false

namespace Switchyard

/-- A substation, which contains voltage levels. -/
structure Substation extends Identity
deriving DecidableEq, Inhabited

instance : Record Substation where
  mrid r := r.mrid
  commitId r := r.commitId
  isDeleted r := r.deleted
  table := .substations
  columns := assetColumns []
  cells r := (r.deleted, r.name, r.shortName, r.description, ())
  ofCells mrid commitId
    | (deleted, name, shortName, description, ()) =>
      { mrid, commitId, deleted, name, shortName, description }
  ofCells_cells _ := rfl
  mrid_ofCells _ _ _ := rfl
  commitId_ofCells _ _ _ := rfl
  cells_ofCells _ _ _ := rfl
  isDeleted_congr _ _ h := congrArg Prod.fst h
  nodup_names := nodup_assetColumns

/-- A nominal voltage that voltage levels share. -/
structure BaseVoltage extends Identity where
  /-- The nominal voltage in kV. -/
  nominalVoltage : Float := 0.0
deriving DecidableEq, Inhabited

instance : Record BaseVoltage where
  mrid r := r.mrid
  commitId r := r.commitId
  isDeleted r := r.deleted
  table := .baseVoltages
  columns := assetColumns [⟨"nominal_voltage", .real⟩]
  cells r := (r.deleted, r.name, r.shortName, r.description, r.nominalVoltage, ())
  ofCells mrid commitId
    | (deleted, name, shortName, description, nominalVoltage, ()) =>
      { mrid, commitId, deleted, name, shortName, description, nominalVoltage }
  ofCells_cells _ := rfl
  mrid_ofCells _ _ _ := rfl
  commitId_ofCells _ _ _ := rfl
  cells_ofCells _ _ _ := rfl
  isDeleted_congr _ _ h := congrArg Prod.fst h
  nodup_names := by decide

/-- A voltage level of a substation. -/
structure VoltageLevel extends Identity where
  /-- The base voltage of the level. -/
  baseVoltageMrid : Mrid := Mrid.nil
  /-- The substation that contains the level. -/
  substationMrid : Mrid := Mrid.nil
  /-- The lower operating limit in kV. -/
  lowVoltageLimit : Float := 0.0
  /-- The upper operating limit in kV. -/
  highVoltageLimit : Float := 0.0
deriving DecidableEq, Inhabited

instance : Record VoltageLevel where
  mrid r := r.mrid
  commitId r := r.commitId
  isDeleted r := r.deleted
  table := .voltageLevels
  columns := assetColumns [⟨"base_voltage_mrid", .mrid⟩, ⟨"substation_mrid", .mrid⟩,
    ⟨"low_voltage_limit", .real⟩, ⟨"high_voltage_limit", .real⟩]
  cells r := (r.deleted, r.name, r.shortName, r.description, r.baseVoltageMrid, r.substationMrid,
    r.lowVoltageLimit, r.highVoltageLimit, ())
  ofCells mrid commitId
    | (deleted, name, shortName, description, baseVoltageMrid, substationMrid, lowVoltageLimit,
      highVoltageLimit, ()) =>
      { mrid, commitId, deleted, name, shortName, description, baseVoltageMrid, substationMrid,
        lowVoltageLimit, highVoltageLimit }
  ofCells_cells _ := rfl
  mrid_ofCells _ _ _ := rfl
  commitId_ofCells _ _ _ := rfl
  cells_ofCells _ _ _ := rfl
  isDeleted_congr _ _ h := congrArg Prod.fst h
  nodup_names := by decide

end Switchyard
