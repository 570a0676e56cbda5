import Switchyard.Asset.Identity

/-!
# Conducting equipment

What current flows through: the lines, generators and loads that a voltage level is given, and the
switches and transformers that synthesis adds.
-/

set_option autoImplicit false

namespace Switchyard

/-- A segment of a transmission line. -/
structure AcLineSegment extends Identity where
  /-- The container that the line is modelled in. -/
  equipmentContainerMrid : Mrid := Mrid.nil
  /-- The base voltage of the line. -/
  baseVoltageMrid : Mrid := Mrid.nil
  /-- The length in km. -/
  length : Float := 0.0
  /-- The series resistance in ohm. -/
  r : Float := 0.0
  /-- The series reactance in ohm. -/
  x : Float := 0.0
  /-- The shunt susceptance in siemens. -/
  bch : Float := 0.0
  /-- The shunt conductance in siemens. -/
  gch : Float := 0.0
deriving DecidableEq, Inhabited

instance : Record AcLineSegment where
  mrid r := r.mrid
  commitId r := r.commitId
  isDeleted r := r.deleted
  table := .acLineSegments
  columns := assetColumns [⟨"equipment_container_mrid", .mrid⟩,
    ⟨"base_voltage_mrid", .mrid⟩, ⟨"length", .real⟩, ⟨"r", .real⟩, ⟨"x", .real⟩, ⟨"bch", .real⟩,
    ⟨"gch", .real⟩]
  cells r := (r.deleted, r.name, r.shortName, r.description, r.equipmentContainerMrid,
    r.baseVoltageMrid, r.length, r.r, r.x, r.bch, r.gch, ())
  ofCells mrid commitId
    | (deleted, name, shortName, description, equipmentContainerMrid, baseVoltageMrid, length, r,
      x, bch, gch, ()) =>
      { mrid, commitId, deleted, name, shortName, description, equipmentContainerMrid,
        baseVoltageMrid, length, r, x, bch, gch }
  ofCells_cells _ := rfl
  mrid_ofCells _ _ _ := rfl
  commitId_ofCells _ _ _ := rfl
  cells_ofCells _ _ _ := rfl
  isDeleted_congr _ _ h := congrArg Prod.fst h
  nodup_names := by decide

/-- A generator. -/
structure SynchronousMachine extends Identity where
  /-- The voltage level that contains the generator. -/
  equipmentContainerMrid : Mrid := Mrid.nil
  /-- The rated apparent power in MVA. -/
  ratedS : Float := 0.0
deriving DecidableEq, Inhabited

instance : Record SynchronousMachine where
  mrid r := r.mrid
  commitId r := r.commitId
  isDeleted r := r.deleted
  table := .synchronousMachines
  columns := assetColumns [⟨"equipment_container_mrid", .mrid⟩, ⟨"rated_s", .real⟩]
  cells r := (r.deleted, r.name, r.shortName, r.description, r.equipmentContainerMrid, r.ratedS,
    ())
  ofCells mrid commitId
    | (deleted, name, shortName, description, equipmentContainerMrid, ratedS, ()) =>
      { mrid, commitId, deleted, name, shortName, description, equipmentContainerMrid, ratedS }
  ofCells_cells _ := rfl
  mrid_ofCells _ _ _ := rfl
  commitId_ofCells _ _ _ := rfl
  cells_ofCells _ _ _ := rfl
  isDeleted_congr _ _ h := congrArg Prod.fst h
  nodup_names := by decide

/-- A load. -/
structure ConformLoad extends Identity where
  /-- The voltage level that contains the load. -/
  equipmentContainerMrid : Mrid := Mrid.nil
  /-- The active power in MW. -/
  p : Float := 0.0
  /-- The reactive power in MVAr. -/
  q : Float := 0.0
deriving DecidableEq, Inhabited

instance : Record ConformLoad where
  mrid r := r.mrid
  commitId r := r.commitId
  isDeleted r := r.deleted
  table := .conformLoads
  columns := assetColumns [⟨"equipment_container_mrid", .mrid⟩, ⟨"p", .real⟩, ⟨"q", .real⟩]
  cells r := (r.deleted, r.name, r.shortName, r.description, r.equipmentContainerMrid, r.p, r.q,
    ())
  ofCells mrid commitId
    | (deleted, name, shortName, description, equipmentContainerMrid, p, q, ()) =>
      { mrid, commitId, deleted, name, shortName, description, equipmentContainerMrid, p, q }
  ofCells_cells _ := rfl
  mrid_ofCells _ _ _ := rfl
  commitId_ofCells _ _ _ := rfl
  cells_ofCells _ _ _ := rfl
  isDeleted_congr _ _ h := congrArg Prod.fst h
  nodup_names := by decide

/-- A breaker or disconnector. -/
structure Switch extends Identity where
  /-- The base voltage of the switch. -/
  baseVoltageMrid : Mrid := Mrid.nil
  /-- The voltage level that contains the switch. -/
  equipmentContainerMrid : Mrid := Mrid.nil
  /-- Whether the switch is open in normal operation. -/
  normalOpen : Bool := false
  /-- Whether the switch stays in a reduction to buses and branches. -/
  retained : Bool := false
  /-- The rated current in A. -/
  ratedCurrent : Float := 0.0
deriving DecidableEq, Inhabited

instance : Record Switch where
  mrid r := r.mrid
  commitId r := r.commitId
  isDeleted r := r.deleted
  table := .switches
  columns := assetColumns [⟨"base_voltage_mrid", .mrid⟩,
    ⟨"equipment_container_mrid", .mrid⟩, ⟨"normal_open", .flag⟩, ⟨"retained", .flag⟩,
    ⟨"rated_current", .real⟩]
  cells r := (r.deleted, r.name, r.shortName, r.description, r.baseVoltageMrid,
    r.equipmentContainerMrid, r.normalOpen, r.retained, r.ratedCurrent, ())
  ofCells mrid commitId
    | (deleted, name, shortName, description, baseVoltageMrid, equipmentContainerMrid, normalOpen,
      retained, ratedCurrent, ()) =>
      { mrid, commitId, deleted, name, shortName, description, baseVoltageMrid,
        equipmentContainerMrid, normalOpen, retained, ratedCurrent }
  ofCells_cells _ := rfl
  mrid_ofCells _ _ _ := rfl
  commitId_ofCells _ _ _ := rfl
  cells_ofCells _ _ _ := rfl
  isDeleted_congr _ _ h := congrArg Prod.fst h
  nodup_names := by decide

/-- A transformer with two windings. -/
structure PowerTransformer extends Identity where
  /-- The base voltage of the first winding. -/
  baseVoltageMrid : Mrid := Mrid.nil
  /-- The substation that contains the transformer. -/
  equipmentContainerMrid : Mrid := Mrid.nil
deriving DecidableEq, Inhabited

instance : Record PowerTransformer where
  mrid r := r.mrid
  commitId r := r.commitId
  isDeleted r := r.deleted
  table := .powerTransformers
  columns := assetColumns [⟨"base_voltage_mrid", .mrid⟩,
    ⟨"equipment_container_mrid", .mrid⟩]
  cells r := (r.deleted, r.name, r.shortName, r.description, r.baseVoltageMrid,
    r.equipmentContainerMrid, ())
  ofCells mrid commitId
    | (deleted, name, shortName, description, baseVoltageMrid, equipmentContainerMrid, ()) =>
      { mrid, commitId, deleted, name, shortName, description, baseVoltageMrid,
        equipmentContainerMrid }
  ofCells_cells _ := rfl
  mrid_ofCells _ _ _ := rfl
  commitId_ofCells _ _ _ := rfl
  cells_ofCells _ _ _ := rfl
  isDeleted_congr _ _ h := congrArg Prod.fst h
  nodup_names := by decide

/-- One winding of a transformer. -/
structure PowerTransformerEnd extends Identity where
  /-- The number of the winding, which is that of its terminal. -/
  endNumber : Int32 := 0
  /-- The terminal of the winding. -/
  terminalMrid : Mrid := Mrid.nil
  /-- The base voltage of the winding. -/
  baseVoltageMrid : Mrid := Mrid.nil
  /-- The transformer that the winding belongs to. -/
  powerTransformerMrid : Mrid := Mrid.nil
  /-- How the winding is connected. -/
  connectionKind : WindingConnection := .y
  /-- The rated apparent power in MVA. -/
  ratedS : Float := 0.0
  /-- The rated voltage in kV. -/
  ratedU : Float := 0.0
  /-- The resistance in ohm. -/
  r : Float := 0.0
  /-- The reactance in ohm. -/
  x : Float := 0.0
  /-- The magnetizing conductance in siemens. -/
  g : Float := 0.0
  /-- The magnetizing susceptance in siemens. -/
  b : Float := 0.0
deriving DecidableEq, Inhabited

instance : Record PowerTransformerEnd where
  mrid r := r.mrid
  commitId r := r.commitId
  isDeleted r := r.deleted
  table := .powerTransformerEnds
  columns := assetColumns [⟨"end_number", .int⟩, ⟨"terminal_mrid", .mrid⟩,
    ⟨"base_voltage_mrid", .mrid⟩, ⟨"power_transformer_mrid", .mrid⟩,
    ⟨"connection_kind", .winding⟩, ⟨"rated_s", .real⟩, ⟨"rated_u", .real⟩, ⟨"r", .real⟩,
    ⟨"x", .real⟩, ⟨"g", .real⟩, ⟨"b", .real⟩]
  cells r := (r.deleted, r.name, r.shortName, r.description, r.endNumber, r.terminalMrid,
    r.baseVoltageMrid, r.powerTransformerMrid, r.connectionKind, r.ratedS, r.ratedU, r.r, r.x,
    r.g, r.b, ())
  ofCells mrid commitId
    | (deleted, name, shortName, description, endNumber, terminalMrid, baseVoltageMrid,
      powerTransformerMrid, connectionKind, ratedS, ratedU, r, x, g, b, ()) =>
      { mrid, commitId, deleted, name, shortName, description, endNumber, terminalMrid,
        baseVoltageMrid, powerTransformerMrid, connectionKind, ratedS, ratedU, r, x, g, b }
  ofCells_cells _ := rfl
  mrid_ofCells _ _ _ := rfl
  commitId_ofCells _ _ _ := rfl
  cells_ofCells _ _ _ := rfl
  isDeleted_congr _ _ h := congrArg Prod.fst h
  nodup_names := by decide

end Switchyard
