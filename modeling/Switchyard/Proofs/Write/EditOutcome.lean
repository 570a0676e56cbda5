import Switchyard.Proofs.Write.Acceptance
import Switchyard.Write.Edit

/-!
# How an edit ends

An edit is refused without any call on the store, or it is a write.  `EditEnd` says so, and
`edit_end` that there is nothing else; whatever is to be known about edits is read off the cases.
A candidate with new content is committed exactly if the store accepts its row and its identity row
(`edit_eq_committed_iff`).
-/

set_option autoImplicit false

namespace Switchyard

/-- The result and the backend that an edit can end with. -/
inductive EditEnd {α : Type} [Record α] (b : Backend) (modelId : Int32) (note : CommitNote)
    (stored : String) (candidate : α) : Except WriteError EditResult → Backend → Prop where
  /-- The content is stored already. -/
  | unchanged (h : Record.checksum candidate = stored) :
    EditEnd b modelId note stored candidate (.ok .unchanged) b
  /-- The candidate was written. -/
  | committed (id : CommitId) (h : Record.checksum candidate ≠ stored)
    (hwrite : (b.write modelId note none (SingleVersion.mk candidate)).result = .ok id) :
    EditEnd b modelId note stored candidate (.ok (.committed id))
      (b.write modelId note none (SingleVersion.mk candidate)).backend
  /-- The candidate could not be written. -/
  | failed (e : WriteError) (h : Record.checksum candidate ≠ stored)
    (hwrite : (b.write modelId note none (SingleVersion.mk candidate)).result = .error e) :
    EditEnd b modelId note stored candidate (.error e)
      (b.write modelId note none (SingleVersion.mk candidate)).backend

/-- **An edit ends in one of these ways.** -/
theorem Backend.edit_end {α : Type} [Record α] (b : Backend) (modelId : Int32) (note : CommitNote)
    (stored : String) (candidate : α) :
    EditEnd b modelId note stored candidate
      (b.commitIfChanged modelId note stored candidate).result
      (b.commitIfChanged modelId note stored candidate).backend := by
  by_cases h : Record.checksum candidate = stored
  · simp only [commitIfChanged, if_pos h]
    exact .unchanged h
  · simp only [commitIfChanged, if_neg h]
    cases hwrite : (b.write modelId note none (SingleVersion.mk candidate)).result with
    | ok id => exact .committed id h hwrite
    | error e => exact .failed e h hwrite

/-- An edit is committed exactly if its content is new and the store accepts what it writes. -/
theorem Backend.edit_eq_committed_iff {α : Type} [Record α] {b : Backend} {modelId : Int32}
    {note : CommitNote} {stored : String} {candidate : α} {id : CommitId} :
    (b.commitIfChanged modelId note stored candidate).result = .ok (.committed id) ↔
      Record.checksum candidate ≠ stored ∧ id = b.store.nextCommitId ∧
        b.Accepts none [.entities, Record.table α] := by
  have hwrites : (b.write modelId note none (SingleVersion.mk candidate)).result = .ok id ↔ _ :=
    write_single_eq_ok_iff
  rw [← hwrites]
  have hend := b.edit_end modelId note stored candidate
  generalize (b.commitIfChanged modelId note stored candidate).result = result at hend ⊢
  generalize (b.commitIfChanged modelId note stored candidate).backend = after at hend
  cases hend with
  | unchanged h => simp [h]
  | committed id' h hwrite => simp [h, hwrite]
  | failed e h hwrite => simp [hwrite]

/-- An edit is left out exactly if its content is the stored one. -/
theorem Backend.edit_eq_unchanged_iff {α : Type} [Record α] {b : Backend} {modelId : Int32}
    {note : CommitNote} {stored : String} {candidate : α} :
    (b.commitIfChanged modelId note stored candidate).result = .ok .unchanged ↔
      Record.checksum candidate = stored := by
  have hend := b.edit_end modelId note stored candidate
  generalize (b.commitIfChanged modelId note stored candidate).result = result at hend ⊢
  generalize (b.commitIfChanged modelId note stored candidate).backend = after at hend
  cases hend with
  | unchanged h => simp [h]
  | committed id h => simp [h]
  | failed e h => simp [h]

/-- An edit that is left out leaves the store alone. -/
theorem Backend.backend_of_edit_eq_unchanged {α : Type} [Record α] {b : Backend} {modelId : Int32}
    {note : CommitNote} {stored : String} {candidate : α}
    (h : (b.commitIfChanged modelId note stored candidate).result = .ok .unchanged) :
    (b.commitIfChanged modelId note stored candidate).backend = b := by
  have hend := b.edit_end modelId note stored candidate
  rw [h] at hend
  generalize (b.commitIfChanged modelId note stored candidate).backend = after at hend ⊢
  cases hend with
  | unchanged => rfl

end Switchyard
