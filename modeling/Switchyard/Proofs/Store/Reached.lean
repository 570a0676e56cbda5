import Switchyard.Proofs.Load.AfterWrite
import Switchyard.Proofs.Store.CommitSequence
import Switchyard.Proofs.Store.Written

/-!
# Stores that can be read

`Store.Reached` says of a store that it came about by seeding records, writing aggregates and
editing single records, in any order and under any circumstances, all floats being finite and commit
ids left.  Whatever is visible in such a store are rows of records of the type of their table, as in
any store of records (`Reached.written`), and none of them has a commit id beyond the sequence
(`Reached.sound`).  So every table can be read, and the next commit id is greater than all that are
in it (`Sound.exists_history`).
-/

set_option autoImplicit false

namespace Switchyard

/-! ## Batches of records -/

/-- Whether JSON can hold a record does not depend on its stamp. -/
@[simp] theorem Record.storable_stamp {α : Type} [Record α] {c : CommitId} {r : α} :
    Storable (stamp c r) ↔ Storable r := by
  rw [Storable, Storable, cells_stamp]

/-- A row carries the commit id of its record, and no other. -/
theorem Record.carries_encode_iff {α : Type} [Record α] {r : α} {id : CommitId} :
    (encode r).Carries id ↔ commitId r = id := by
  rw [Json.Carries, get?_commitId_encode]
  simp [ColumnKind.encode, Json.ofInt, CommitId.toInt_inj]

namespace Batch

/-- The batch holds records of the type of its table, all of whose floats are finite. -/
def HoldsRecords (batch : Batch) : Prop := batch.HoldsEach fun _ _ r => Record.Storable r

/-- The batch holds such records, and none of them has a commit id beyond the last one taken. -/
def Sound (last : CommitId) (batch : Batch) : Prop :=
  batch.HoldsEach fun _ _ r => Record.Storable r ∧ Record.commitId r ≤ last

theorem Sound.mono {batch : Batch} {last later : CommitId} (h : batch.Sound last)
    (hle : last ≤ later) : batch.Sound later := by
  obtain ⟨α, inst, hα, rs, heq, hrs⟩ := h
  exact ⟨α, inst, hα, rs, heq, fun r hr => ⟨(hrs r hr).1, CommitId.le_trans (hrs r hr).2 hle⟩⟩

/-- Records that carry the last commit id are not beyond it. -/
theorem HoldsRecords.sound {batch : Batch} {last : CommitId} (h : batch.HoldsRecords)
    (hcarries : ∀ row ∈ batch.rows, row.Carries last) : batch.Sound last := by
  obtain ⟨α, inst, hα, rs, rfl, hrs⟩ := h
  refine ⟨α, inst, hα, rs, rfl, fun r hr => ⟨hrs r hr, ?_⟩⟩
  rw [Record.carries_encode_iff.1 (hcarries _ (List.mem_map_of_mem hr))]
  exact CommitId.le_refl _

end Batch

/-! ## Aggregates of records -/

/-- Whatever commit it is stamped with, the aggregate consists of records with finite floats. -/
def Aggregate.IsStorable {α : Type} [Aggregate α] (a : α) : Prop :=
  ∀ id batches, Aggregate.batches (Aggregate.stamp id a) = .ok batches →
    ∀ batch ∈ batches, batch.HoldsRecords

theorem Aggregate.IsStorable.isTyped {α : Type} [Aggregate α] {a : α} (h : IsStorable a) :
    IsTyped a := fun id batches hbatches batch hbatch =>
  Batch.HoldsEach.isTyped (h id batches hbatches batch hbatch)

theorem SingleVersion.isStorable {α : Type} [Record α] [Registered α] {r : α}
    (h : Record.Storable r) : Aggregate.IsStorable (SingleVersion.mk r) := by
  intro id batches hbatches batch hbatch
  obtain rfl : [Batch.ofRecords [Record.stamp id r]] = batches := Except.ok.inj hbatches
  exact List.mem_singleton.1 hbatch ▸ Batch.holdsEach_ofRecords (by simpa using h)

/-- A topology consists of such records if all floats in it are finite. -/
theorem Topology.isStorable {t : Topology}
    (h : ∀ ok ∈ t.gather fun _ _ rs => rs.map fun r => decide (Record.Storable r), ok = true) :
    Aggregate.IsStorable t := by
  intro id batches hbatches
  obtain rfl : (t.stamp id).batches = batches := Except.ok.inj hbatches
  refine holdsEach_of_mem_batches ?_
  rw [stamp, gather_mapRecords]
  simpa only [gather, List.map_map, List.forall_mem_append, List.forall_mem_map,
    Function.comp_apply, Record.storable_stamp, decide_eq_true_eq] using h

theorem Model.isStorable {m : Model} (h : Aggregate.IsStorable m.topology) :
    Aggregate.IsStorable m := h

/-! ## Sound stores -/

namespace Store

/-- Everything visible are records that can be read, none of them beyond the sequence. -/
def Sound (s : Store) : Prop := ∀ batch ∈ s.contents.batches, batch.Sound s.lastCommitId

/-- A sound store stays sound when sound batches are added and the sequence moves forward. -/
theorem Sound.add {s after : Store} (h : s.Sound) {batches : List Batch}
    (hbatches : after.contents.batches = s.contents.batches ++ batches)
    (hlast : s.lastCommitId ≤ after.lastCommitId)
    (hsound : ∀ batch ∈ batches, batch.Sound after.lastCommitId) : after.Sound := by
  intro batch hbatch
  rw [hbatches] at hbatch
  rcases List.mem_append.1 hbatch with hold | hnew
  · exact (h batch hold).mono hlast
  · exact hsound batch hnew

theorem Sound.seed {s : Store} (h : s.Sound) {α : Type} [Record α] [Registered α] {rs : List α}
    (hrs : ∀ r ∈ rs, Record.Storable r) : (s.seed rs).Sound := by
  obtain ⟨hlast, hids⟩ := le_foldl_laterId (rs.map Record.commitId) s.lastCommitId
  refine h.add rfl hlast fun batch hbatch => ?_
  rw [List.mem_singleton.1 hbatch]
  exact Batch.holdsEach_ofRecords fun r hr => ⟨hrs r hr, hids _ (List.mem_map_of_mem hr)⟩

theorem Sound.takeCommitId {s : Store} (h : s.Sound) (hid : s.HasNextId) :
    s.takeCommitId.Sound :=
  h.add (List.append_nil _).symm (CommitId.le_of_lt (lastCommitId_lt_next hid)) (by simp)

theorem Sound.write {b : Backend} (h : b.store.Sound) (hid : b.store.HasNextId) {α : Type}
    [Aggregate α] [LawfulAggregate α] {a : α} (ha : Aggregate.IsStorable a) (modelId : Int32)
    (note : CommitNote) (limit : Option Nat) :
    (b.write modelId note limit a).backend.store.Sound := by
  have hend := b.write_end modelId note limit a
  generalize b.write modelId note limit a = out at hend
  obtain ⟨result, backend, aggregate, events⟩ := out
  cases hend with
  | notStarted | noCommitRow => exact h
  | failed | timedOut => exact h.takeCommitId hid
  | persisted batches hbatches =>
    refine h.add rfl (CommitId.le_of_lt (lastCommitId_lt_next hid)) fun batch hbatch => ?_
    rcases List.mem_cons.1 hbatch with rfl | hbatch
    · refine Batch.holdsEach_ofRecords fun e he => ⟨?_, ?_⟩
      · exact Record.storable_of_forall_ne_real (by decide) e
      · rw [show Record.commitId e = _ from LawfulAggregate.commitId_identity _ modelId a e he]
        exact CommitId.le_refl _
    · exact (ha _ _ hbatches batch hbatch).sound
        (LawfulAggregate.carries_row _ a hbatches batch hbatch)

theorem Sound.edit {b : Backend} (h : b.store.Sound) (hid : b.store.HasNextId) {α : Type}
    [Record α] [Registered α] {candidate : α} (hcandidate : Record.Storable candidate)
    (modelId : Int32) (note : CommitNote) (stored : String) :
    (b.commitIfChanged modelId note stored candidate).backend.store.Sound := by
  have hend := b.edit_end modelId note stored candidate
  generalize (b.commitIfChanged modelId note stored candidate).result = result at hend
  generalize (b.commitIfChanged modelId note stored candidate).backend = after at hend
  cases hend with
  | unchanged => exact h
  | committed | failed => exact h.write hid (SingleVersion.isStorable hcandidate) modelId note none

/-- A store that seeds, writes and edits lead to, under whatever circumstances each of them is made.
All floats of the records are finite, and the sequence of commit ids does not end. -/
inductive Reached : Store → Prop where
  | fresh : Reached {}
  | seed {s : Store} {α : Type} [Record α] [Registered α] (rs : List α)
    (hrs : ∀ r ∈ rs, Record.Storable r) (h : Reached s) : Reached (s.seed rs)
  | write {b : Backend} {α : Type} [Aggregate α] [LawfulAggregate α] (modelId : Int32)
    (note : CommitNote) (limit : Option Nat) (a : α) (ha : Aggregate.IsStorable a)
    (hid : b.store.HasNextId) (h : Reached b.store) :
    Reached (b.write modelId note limit a).backend.store
  | edit {b : Backend} {α : Type} [Record α] [Registered α] (modelId : Int32) (note : CommitNote)
    (stored : String) (candidate : α) (hcandidate : Record.Storable candidate)
    (hid : b.store.HasNextId) (h : Reached b.store) :
    Reached (b.commitIfChanged modelId note stored candidate).backend.store

theorem Reached.written {s : Store} (h : s.Reached) : s.Written := by
  induction h with
  | fresh => exact .fresh
  | seed rs _ _ ih => exact .seed rs ih
  | write modelId note limit a ha _ _ ih => exact .write modelId note limit a ha.isTyped ih
  | edit modelId note stored candidate _ _ _ ih => exact .edit modelId note stored candidate ih

/-- **Every store that is reached is sound.** -/
theorem Reached.sound {s : Store} (h : s.Reached) : s.Sound := by
  induction h with
  | fresh => exact fun batch hbatch => absurd hbatch (by simp)
  | seed rs hrs _ ih => exact ih.seed hrs
  | write modelId note limit a ha hid _ ih => exact ih.write hid ha modelId note limit
  | edit modelId note stored candidate hcandidate hid _ ih =>
    exact ih.edit hid hcandidate modelId note stored

end Store

/-! ## Reading a sound store -/

namespace Store

variable {s : Store} {α : Type} [Record α]

/-- **A table of a sound store has a history**: its rows are those of records of its type, with
finite floats and commit ids that are not beyond the sequence. -/
theorem Sound.exists_history (h : s.Sound) (α : Type) [Record α] [Registered α] :
    ∃ history : List α, s.rows (Record.table α) = history.map Record.encode ∧
      ∀ r ∈ history, Record.Storable r ∧ Record.commitId r ≤ s.lastCommitId :=
  Contents.exists_rowsOf_eq h α

/-- The active records of a type in a store that answers queries. -/
def view (α : Type) [Record α] (s : Store) : Except StoreError (List α) :=
  ({ store := s } : Backend).loadActive α .all

/-- What is active in a table depends on its rows only. -/
theorem view_congr {s' : Store} (h : s'.rows (Record.table α) = s.rows (Record.table α)) :
    s'.view α = s.view α := by
  simp only [view, Backend.loadActive, Backend.fetch, Backend.query, query, h]

theorem fetch_all_eq {history : List α}
    (hrows : s.rows (Record.table α) = history.map Record.encode)
    (hhistory : ∀ r ∈ history, Record.Storable r) :
    ({ store := s } : Backend).fetch α .all = .ok history :=
  Backend.fetch_all_eq_ok_iff.2 ⟨rfl, by
    show Backend.decodeRows α (s.rows (Record.table α)) = _
    rw [hrows]
    exact Backend.decodeRows_map_encode hhistory⟩

/-- A table shows what is active in its history. -/
theorem view_eq {history : List α} (hrows : s.rows (Record.table α) = history.map Record.encode)
    (hhistory : ∀ r ∈ history, Record.Storable r) : s.view α = .ok (Version.active history) := by
  rw [view, Backend.loadActive, fetch_all_eq hrows hhistory]
  rfl

end Store

end Switchyard
