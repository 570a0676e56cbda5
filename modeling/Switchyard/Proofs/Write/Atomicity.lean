import Switchyard.Proofs.Write.Outcome

/-!
# Writes are atomic

A write makes its whole aggregate visible under one new commit or leaves everything visible as it
was.  `Unpersisted` and `Persisted` say what either case amounts to in the store, and
`write_allOrNothing` that every write is one of the two, under any faults, any latency and any
time limit.
-/

set_option autoImplicit false

namespace Switchyard

/-- Nothing was persisted: at most a commit id was taken from the sequence. -/
structure Unpersisted (before after : Backend) : Prop where
  contents_eq : after.store.contents = before.store.contents
  lastCommitId_eq : after.store.lastCommitId = before.store.lastCommitId ∨
    after.store.lastCommitId = before.store.nextCommitId
  circumstances_eq : after = { before with store := after.store }

/-- Some rows were persisted under one commit: `batches`, and before them the identity rows. -/
structure Persisted (before after : Backend) (commit : Commit) (identities : List Entity)
    (batches : List Batch) : Prop where
  commits_eq : after.store.contents.commits = before.store.contents.commits ++ [commit]
  /-- Every table has its old rows, then the identity rows if it is their table, then its rows of
  the batches. -/
  rows_eq (table : Table) : after.store.rows table = before.store.rows table ++
    ((if table = .entities then identities.map Record.encode else []) ++
      Contents.rowsOf table batches)
  rowsWritten_eq : after.store.contents.rowsWritten = before.store.contents.rowsWritten +
    (1 + identities.length + (batches.flatMap Batch.rows).length)
  carries_identity : ∀ e ∈ identities, (Record.encode e).Carries commit.id
  carries_row : ∀ b ∈ batches, ∀ row ∈ b.rows, row.Carries commit.id
  lastCommitId_eq : after.store.lastCommitId = commit.id
  circumstances_eq : after = { before with store := after.store }

theorem unpersisted_refl (b : Backend) : Unpersisted b b := ⟨rfl, .inl rfl, rfl⟩

theorem unpersisted_takeCommitId (b : Backend) : Unpersisted b b.takeCommitId :=
  ⟨rfl, .inr rfl, rfl⟩

/-- Making a stamped aggregate visible is persisting its rows. -/
theorem persisted_persist {α : Type} [Aggregate α] [LawfulAggregate α] (b : Backend)
    (modelId : Int32) (note : CommitNote) (a : α) {batches : List Batch}
    (h : Aggregate.batches (Aggregate.stamp b.store.nextCommitId a) = .ok batches) :
    Persisted b
      (b.persist note
        (.ofRecords (Aggregate.identities modelId (Aggregate.stamp b.store.nextCommitId a)) ::
          batches))
      { note with id := b.store.nextCommitId }
      (Aggregate.identities modelId (Aggregate.stamp b.store.nextCommitId a)) batches where
  commits_eq := rfl
  rows_eq table := by
    rw [Store.rows, Backend.persist, Contents.rows_append, Store.rows, Contents.rowsOf,
      List.flatMap_cons]
    have htable : (Batch.ofRecords (Aggregate.identities modelId
        (Aggregate.stamp b.store.nextCommitId a))).table = .entities := rfl
    rw [htable, Contents.rowsOf]
    simp only [eq_comm (a := table)]
    rfl
  rowsWritten_eq := by
    simp [Backend.persist, Contents.append, Batch.ofRecords]
    omega
  carries_identity e he := by
    rw [Json.Carries, Record.get?_commitId_encode]
    exact congrArg (fun id => some (ColumnKind.encode .commit id))
      (LawfulAggregate.commitId_identity _ modelId a e he)
  carries_row := LawfulAggregate.carries_row _ a h
  lastCommitId_eq := rfl
  circumstances_eq := rfl

/-- A write of the aggregate either failed and persisted nothing, or took the next commit id and
persisted what the aggregate stamped with it consists of. -/
def AllOrNothing {α : Type} [Aggregate α] (b : Backend) (modelId : Int32) (note : CommitNote)
    (a : α) (out : WriteOutcome α) : Prop :=
  match out.result with
  | .error _ => Unpersisted b out.backend
  | .ok id =>
    id = b.store.nextCommitId ∧ out.aggregate = Aggregate.stamp id a ∧
      ∃ batches, Aggregate.batches (Aggregate.stamp id a) = .ok batches ∧
        Persisted b out.backend { note with id }
          (Aggregate.identities modelId (Aggregate.stamp id a)) batches

theorem allOrNothing_of_lawful {α : Type} [Aggregate α] [LawfulAggregate α] (b : Backend)
    (modelId : Int32) (note : CommitNote) (limit : Option Nat) (a : α) :
    AllOrNothing b modelId note a (b.write modelId note limit a) := by
  have hend := b.write_end modelId note limit a
  generalize b.write modelId note limit a = out at hend
  obtain ⟨result, backend, aggregate, events⟩ := out
  cases hend with
  | notStarted => exact unpersisted_refl _
  | noCommitRow => exact unpersisted_refl _
  | failed => exact unpersisted_takeCommitId b
  | timedOut => exact unpersisted_takeCommitId b
  | persisted batches h =>
    exact ⟨rfl, rfl, batches, h, persisted_persist b modelId note a h⟩

/-- A write that succeeds persists the rows of the stamped aggregate. -/
theorem persisted_of_write {α : Type} [Aggregate α] [LawfulAggregate α] {b : Backend}
    {modelId : Int32} {note : CommitNote} {limit : Option Nat} {a : α} {id : CommitId}
    {batches : List Batch} (h : (b.write modelId note limit a).result = .ok id)
    (hbatches : Aggregate.batches (Aggregate.stamp id a) = .ok batches) :
    Persisted b (b.write modelId note limit a).backend { note with id }
      (Aggregate.identities modelId (Aggregate.stamp id a)) batches := by
  have hall := allOrNothing_of_lawful b modelId note limit a
  simp only [AllOrNothing, h] at hall
  obtain ⟨-, -, batches', hbatches', hpersisted⟩ := hall
  obtain rfl : batches = batches' := Except.ok.inj (hbatches.symm.trans hbatches')
  exact hpersisted

/-- **A write is atomic**, whether it writes a topology, the model of a run of synthesis or a
single record of any type: whatever the store holds, wherever it fails and however long it takes,
the write persists everything or nothing. -/
theorem write_allOrNothing (b : Backend) (modelId : Int32) (note : CommitNote)
    (limit : Option Nat) :
    (∀ t : Topology, AllOrNothing b modelId note t (b.write modelId note limit t)) ∧
      (∀ m : Model, AllOrNothing b modelId note m (b.write modelId note limit m)) ∧
      ∀ (α : Type) [Record α] (r : α), AllOrNothing b modelId note (SingleVersion.mk r)
        (b.write modelId note limit (SingleVersion.mk r)) :=
  ⟨fun t => allOrNothing_of_lawful b modelId note limit t,
    fun m => allOrNothing_of_lawful b modelId note limit m,
    fun _ _ r => allOrNothing_of_lawful b modelId note limit (SingleVersion.mk r)⟩

end Switchyard
