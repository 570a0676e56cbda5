import Switchyard.Synthesis.Topology
import Switchyard.Write.Aggregate

/-!
# Stamps

What a write relies on when it stamps an aggregate: the last stamp counts, and every identity row
and every row of a stamped aggregate carries the commit it was stamped with.  `LawfulAggregate`
collects these laws.  Topologies, models and single records fulfil them, whatever their records
hold.

`Unstamped` says of an aggregate that no record of it carries a commit, and is read off the commit
ids of its records.
-/

set_option autoImplicit false

namespace Switchyard

namespace Record

variable {α : Type} [Record α]

/-- The row of a record carries the commit of the record. -/
theorem get?_commitId_encode (r : α) :
    (encode r).get? "commit_id" = some (ColumnKind.encode .commit (commitId r)) := by
  have hne : ("commit_id" == "mrid") = false := by decide
  simp [encode, fields, schema, allCells, Cells.fields, Json.get?, List.lookup_cons, hne]

/-- A record is unchanged by a stamp exactly if it carries that stamp already. -/
theorem stamp_eq_self_iff {c : CommitId} {r : α} : stamp c r = r ↔ commitId r = c := by
  constructor
  · intro h
    rw [← h, commitId_stamp]
  · rintro rfl
    exact stamp_commitId r

end Record

/-- The commit that a row carries. -/
def Json.Carries (row : Json) (id : CommitId) : Prop :=
  row.get? "commit_id" = some (ColumnKind.encode .commit id)

theorem Batch.carries_of_mem_ofRecords {α : Type} [Record α] {rs : List α} {id : CommitId}
    (h : ∀ r ∈ rs, Record.commitId r = id) {row : Json} (hrow : row ∈ (Batch.ofRecords rs).rows) :
    row.Carries id := by
  obtain ⟨r, hr, rfl⟩ := List.mem_map.1 hrow
  rw [Json.Carries, Record.get?_commitId_encode, h r hr]

/-- The laws of stamping that a write relies on. -/
class LawfulAggregate (α : Type) [Aggregate α] : Prop where
  /-- The last stamp counts. -/
  stamp_stamp (c d : CommitId) (a : α) :
    Aggregate.stamp c (Aggregate.stamp d a) = Aggregate.stamp c a
  /-- The identity rows of a stamped aggregate carry the stamp. -/
  commitId_identity (c : CommitId) (modelId : Int32) (a : α) :
    ∀ e ∈ Aggregate.identities modelId (Aggregate.stamp c a), e.commitId = c
  /-- The rows of a stamped aggregate carry the stamp. -/
  carries_row (c : CommitId) (a : α) {batches : List Batch}
    (h : Aggregate.batches (Aggregate.stamp c a) = .ok batches) :
    ∀ b ∈ batches, ∀ row ∈ b.rows, row.Carries c

/-! ## Single records -/

instance {α : Type} [Record α] : LawfulAggregate (SingleVersion α) where
  stamp_stamp c d version := by simp [Aggregate.stamp]
  commitId_identity c modelId version e he := by
    rw [List.mem_singleton.1 he]
    exact Record.commitId_stamp c version.record
  carries_row c version batches h b hb row hrow := by
    obtain rfl : [Batch.ofRecords [Record.stamp c version.record]] = batches := Except.ok.inj h
    rw [List.mem_singleton.1 hb] at hrow
    exact Batch.carries_of_mem_ofRecords (by simp) hrow

/-! ## Topologies -/

namespace Topology

/-- Collecting after changing every record is collecting from the changed lists. -/
theorem gather_mapRecords {β : Type} (f : (α : Type) → [Record α] → α → α)
    (g : (α : Type) → [Record α] → List α → List β) (t : Topology) :
    (t.mapRecords f).gather g = t.gather fun α _ rs => g α (rs.map (f α)) := rfl

/-- What holds of everything collected from any list of records holds of everything collected from
a topology. -/
theorem forall_mem_gather {β : Type} {f : (α : Type) → [Record α] → List α → List β}
    {P : β → Prop} (h : ∀ (α : Type) [Record α] (rs : List α), ∀ x ∈ f α rs, P x) (t : Topology) :
    ∀ x ∈ t.gather f, P x := by
  intro x hx
  simp only [gather, List.mem_append] at hx
  rcases hx with (((((hx | hx) | hx) | hx) | hx) | hx) | hx <;> exact h _ _ x hx

theorem mapRecords_mapRecords (f g : (α : Type) → [Record α] → α → α) (t : Topology) :
    (t.mapRecords g).mapRecords f = t.mapRecords fun α _ r => f α (g α r) := by
  simp [mapRecords, Function.comp_def]

/-- The last stamp counts. -/
theorem stamp_stamp (c d : CommitId) (t : Topology) : (t.stamp d).stamp c = t.stamp c := by
  simp [stamp, mapRecords_mapRecords]

/-- The commits that the records carry. -/
def commitIds (t : Topology) : List CommitId := t.gather fun _ _ rs => rs.map Record.commitId

/-- Every record carries the stamp of its topology. -/
theorem commitIds_stamp (c : CommitId) (t : Topology) : ∀ id ∈ (t.stamp c).commitIds, id = c := by
  rw [commitIds, stamp, gather_mapRecords]
  refine forall_mem_gather (fun α _ rs id hid => ?_) t
  simp only [List.map_map, List.mem_map, Function.comp_apply] at hid
  obtain ⟨r, -, rfl⟩ := hid
  exact Record.commitId_stamp c r

/-- The identities of the records are not touched by a stamp. -/
@[simp] theorem mrids_stamp (c : CommitId) (t : Topology) : (t.stamp c).mrids = t.mrids := by
  simp [mrids, stamp, gather_mapRecords, Function.comp_def]

end Topology

instance : LawfulAggregate Topology where
  stamp_stamp := Topology.stamp_stamp
  commitId_identity c modelId t := by
    show ∀ e ∈ (t.stamp c).identities modelId, e.commitId = c
    rw [Topology.identities, Topology.stamp, Topology.gather_mapRecords]
    refine Topology.forall_mem_gather (fun α _ rs e he => ?_) t
    simp only [Entity.ofRecords, List.map_map, List.mem_map, Function.comp_apply] at he
    obtain ⟨r, -, rfl⟩ := he
    exact Record.commitId_stamp c r
  carries_row c t batches h := by
    obtain rfl : (t.stamp c).batches = batches := Except.ok.inj h
    rw [Topology.batches, Topology.stamp, Topology.gather_mapRecords]
    refine Topology.forall_mem_gather (fun α _ rs b hb row hrow => ?_) t
    rw [Batch.ofNonempty] at hb
    split at hb
    · simp at hb
    · rw [List.mem_singleton.1 hb] at hrow
      refine Batch.carries_of_mem_ofRecords (fun r hr => ?_) hrow
      obtain ⟨r, -, rfl⟩ := List.mem_map.1 hr
      exact Record.commitId_stamp c r

instance : LawfulAggregate Model where
  stamp_stamp c d m := by
    show (m.stamp d).stamp c = m.stamp c
    rw [Model.stamp, Model.stamp, Model.stamp, Topology.stamp_stamp]
  commitId_identity c modelId m :=
    LawfulAggregate.commitId_identity (α := Topology) c modelId m.topology
  carries_row c m _ h := LawfulAggregate.carries_row (α := Topology) c m.topology h

end Switchyard
