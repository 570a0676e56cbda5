import Switchyard.Asset.Entity
import Switchyard.Store.Basic

/-!
# Aggregates

An aggregate is a set of new records that is persisted under one commit.  It can be stamped with
that commit, it says which identity row each of its records has, and it lists its rows in batches,
a table that is referred to before the tables that refer to it.
-/

set_option autoImplicit false

namespace Switchyard

/-- A type of aggregates. -/
class Aggregate (α : Type) where
  /-- Gives every record the commit that persists it. -/
  stamp : CommitId → α → α
  /-- One identity row for each record, under the number of a model. -/
  identities : Int32 → α → List Entity
  /-- The rows by table, in the order of their references, unless they cannot be written. -/
  batches : α → Except String (List Batch)

/-- The identity rows of records of one type. -/
def Entity.ofRecords {α : Type} [Record α] (modelId : Int32) (rs : List α) : List Entity :=
  rs.map (Entity.of · modelId)

/-- The batch of records of one type; no records make no batch. -/
def Batch.ofNonempty {α : Type} [Record α] (rs : List α) : List Batch :=
  if rs.isEmpty then [] else [Batch.ofRecords rs]

/-- The aggregate of one record: a new version of one asset. -/
structure SingleVersion (α : Type) where
  record : α

instance {α : Type} [Record α] : Aggregate (SingleVersion α) where
  stamp id version := ⟨Record.stamp id version.record⟩
  identities modelId version := Entity.ofRecords modelId [version.record]
  batches version := .ok [Batch.ofRecords [version.record]]

end Switchyard
