import Switchyard.Proofs.Synthesis.Drafts

/-!
# Renaming identities

The columns of a record type tell which of its cells hold identities: that of the asset, and those
of the assets that it refers to.  So renaming them is said once for all types of records, and from
there for topologies and models.  A renaming changes nothing else: the labels, the numbers and the
stamps of the records stay, and so does their order.

For every record that synthesis creates a lemma tells which of the identities that it was made from
are renamed, which is all of them.
-/

set_option autoImplicit false

namespace Switchyard

/-! ## Records of any type -/

/-- The cell under a renaming; only identities are renamed. -/
def ColumnKind.rename (f : Mrid → Mrid) : (kind : ColumnKind) → kind.Value → kind.Value
  | mrid, id => f id
  | commit, v | int, v | real, v | flag, v | text, v | winding, v => v

/-- The cells of a row under a renaming. -/
def Cells.rename (f : Mrid → Mrid) : (columns : List Column) → Cells columns → Cells columns
  | [], _ => ()
  | c :: cs, (v, vs) => (c.kind.rename f v, rename f cs vs)

/-- The record with every identity in it renamed. -/
def Record.rename {α : Type} [Record α] (f : Mrid → Mrid) (r : α) : α :=
  ofAllCells (Cells.rename f (schema α) (allCells r))

theorem Record.mrid_rename {α : Type} [Record α] (f : Mrid → Mrid) (r : α) :
    mrid (rename f r) = f (mrid r) := mrid_ofCells ..

namespace Topology

variable (f : Mrid → Mrid) (t u : Topology)

/-- The topology with every identity in it renamed. -/
def rename : Topology := t.mapRecords fun _ _ r => Record.rename f r

theorem rename_append : (t.append u).rename f = (t.rename f).append (u.rename f) := by
  simp [rename, mapRecords, append]

end Topology

/-- The model with every identity in it renamed. -/
def Model.rename (f : Mrid → Mrid) (m : Model) : Model := { m with topology := m.topology.rename f }

/-! ## The parts that synthesis creates -/

section Parts

variable (f : Mrid → Mrid) (id : Mrid) (label : String)

@[simp] theorem rename_reportingGroup (shortName description : String) :
    Record.rename f (ReportingGroup.named id label shortName description) =
      .named (f id) label shortName description := rfl

@[simp] theorem rename_connectivityNode (container : Mrid) :
    Record.rename f (ConnectivityNode.labelled id label container) =
      .labelled (f id) label (f container) := rfl

@[simp] theorem rename_busNameMarker (group : Mrid) :
    Record.rename f (BusNameMarker.labelled id label group) = .labelled (f id) label (f group) :=
  rfl

@[simp] theorem rename_terminal (node equipment : Mrid) (marker : BusNameMarker) (number : Int32) :
    Record.rename f (Terminal.marked id node equipment marker number) =
      .marked (f id) (f node) (f equipment) (Record.rename f marker) number := rfl

variable {f} in
/-- A switch has two identities from its voltage level. -/
theorem rename_switch {level : VoltageLevel} (hmrid : f level.mrid = level.mrid)
    (hbase : f level.baseVoltageMrid = level.baseVoltageMrid) :
    Record.rename f (Switch.labelled id label level) = .labelled (f id) label level := by
  have h : Record.rename f (Switch.labelled id label level) =
      .labelled (f id) label
        { level with mrid := f level.mrid, baseVoltageMrid := f level.baseVoltageMrid } := rfl
  rw [h, hmrid, hbase]

@[simp] theorem rename_powerTransformer (substation baseVoltage : Mrid) :
    Record.rename f (PowerTransformer.labelled id label substation baseVoltage) =
      .labelled (f id) label (f substation) (f baseVoltage) := rfl

@[simp] theorem rename_powerTransformerEnd (w : Winding) (pu : PerUnit) :
    Record.rename f (PowerTransformerEnd.labelled id label w pu) =
      .labelled (f id) label
        { w with
          terminal := f w.terminal
          baseVoltage := f w.baseVoltage
          transformer := f w.transformer } pu := rfl

end Parts

end Switchyard
