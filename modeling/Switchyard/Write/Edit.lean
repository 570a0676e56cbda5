import Switchyard.Checksum
import Switchyard.Write.Atomic

/-!
# Edits

An edit offers a record as the new version of an asset.  It is written only if its content differs
from what is stored: the checksum of a record leaves the stamp of its commit out, so that it tells
two versions apart by their content alone.
-/

set_option autoImplicit false

namespace Switchyard

/-- The checksum of the content of a record, whatever commit it is stamped with. -/
def Record.checksum {α : Type} [Record α] (r : α) : String :=
  (Record.encode (Record.stamp .unset r)).checksum

@[simp] theorem Record.checksum_stamp {α : Type} [Record α] (id : CommitId) (r : α) :
    Record.checksum (Record.stamp id r) = Record.checksum r := by
  simp [Record.checksum]

/-- What became of an edit. -/
inductive EditResult where
  /-- The content was stored already, and nothing was written. -/
  | unchanged
  /-- The record was written under a commit. -/
  | committed (id : CommitId)
deriving DecidableEq

/-- How an edit ended, and the store and the reports it leaves behind. -/
structure EditOutcome where
  result : Except WriteError EditResult
  backend : Backend
  events : List Event

/-- Writes a record as a new version unless its checksum is the stored one. -/
def Backend.commitIfChanged {α : Type} [Record α] (b : Backend) (modelId : Int32)
    (note : CommitNote) (stored : String) (candidate : α) : EditOutcome :=
  let mrid := Record.mrid candidate
  if Record.checksum candidate = stored then
    { result := .ok .unchanged, backend := b, events := [.unchanged mrid] }
  else
    let written := b.write modelId note none (SingleVersion.mk candidate)
    match written.result with
    | .ok id =>
      { result := .ok (.committed id)
        backend := written.backend
        events := written.events ++ [.committedVersion mrid id (Record.isDeleted candidate)] }
    | .error e => { result := .error e, backend := written.backend, events := written.events }

end Switchyard
