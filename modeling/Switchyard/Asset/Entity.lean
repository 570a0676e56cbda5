import Switchyard.Record.Basic

/-!
# Identity rows

For every version of an asset that a commit persists, the table of entities holds one row: the
asset, the commit, the model that the asset is registered in, and its class.
-/

set_option autoImplicit false

namespace Switchyard

/-- The registration of one version of an asset in a model. -/
structure Entity where
  /-- The identity of the asset. -/
  mrid : Mrid := Mrid.nil
  /-- The commit that registered this version. -/
  commitId : CommitId := CommitId.unset
  /-- The model that the asset belongs to. -/
  modelId : Int32 := 0
  /-- The class of the asset. -/
  entityType : String := ""
deriving DecidableEq, Inhabited

/-- An identity row is never a tombstone, and it is the one kind of row that may also be written
without names. -/
instance : Record Entity where
  mrid e := e.mrid
  commitId e := e.commitId
  isDeleted _ := false
  table := .entities
  columns := [⟨"model_id", .int⟩, ⟨"entity_type", .text⟩]
  isPositional := true
  cells e := (e.modelId, e.entityType, ())
  ofCells mrid commitId
    | (modelId, entityType, ()) => { mrid, commitId, modelId, entityType }
  ofCells_cells _ := rfl
  mrid_ofCells _ _ _ := rfl
  commitId_ofCells _ _ _ := rfl
  cells_ofCells _ _ _ := rfl
  isDeleted_congr _ _ _ := rfl
  nodup_names := by decide

/-- The identity row of a record, carrying the record's commit. -/
def Entity.of {α : Type} [Record α] (r : α) (modelId : Int32) : Entity where
  mrid := Record.mrid r
  commitId := Record.commitId r
  modelId := modelId
  entityType := (Record.table α).entityType

end Switchyard
