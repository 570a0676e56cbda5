import Switchyard.Proofs.Write.FirstFault

/-!
# When a write succeeds

A write makes a fixed series of calls, and it succeeds exactly if the store goes along with each of
them and the insertions are over in time.  `Backend.Accepts` says so of the tables that the write
inserts into, and `write_eq_ok_iff` that nothing else matters: what the records hold plays no part,
so a write does not fail because of a value that cannot be read back.
-/

set_option autoImplicit false

namespace Switchyard

/-- The store goes along with the calls of a write that inserts a batch into each of some tables. -/
structure Backend.Accepts (b : Backend) (limit : Option Nat) (tables : List Table) : Prop where
  start : b.outage.start = none
  commitRow : .commitRow ∉ b.failing
  insertions : ∀ table ∈ tables, .insertInto table ∉ b.failing
  /-- Every insertion takes its time, and all of them together are within the limit. -/
  inTime : ∀ n ∈ limit, tables.length * b.latency ≤ n
  finalize : b.outage.finalize = none

namespace Backend

variable {b : Backend} {limit : Option Nat}

/-- The store is not at fault at the steps of a write exactly if it goes along with its calls. -/
theorem forall_fault?_eq_none_iff {tables : List Table} :
    (∀ s ∈ WriteStep.series tables, b.fault? s = none) ↔
      b.outage.start = none ∧ .commitRow ∉ b.failing ∧
        (∀ table ∈ .entities :: tables, FailurePoint.insertInto table ∉ b.failing) ∧
        b.outage.finalize = none := by
  have hpoint (point : FailurePoint) : b.injected? point = none ↔ point ∉ b.failing := by
    simp [injected?]
  simp only [WriteStep.series, List.forall_mem_append, List.forall_mem_cons, List.forall_mem_map,
    fault?, hpoint]
  simp [and_assoc]

/-- **A write meets no error exactly if the store accepts a batch for each of its tables.** -/
theorem accepts_iff {tables : List Table} :
    b.Accepts limit (.entities :: tables) ↔
      b.errorAfter? limit 0 (WriteStep.series tables) = none := by
  rw [errorAfter?_eq_none_iff]
  have hcount (h : ∀ s ∈ WriteStep.series tables, b.fault? s = none) :
      b.insertionsTried (WriteStep.series tables) = (Table.entities :: tables).length := by
    rw [insertionsTried_of_forall_none h, WriteStep.countP_isInsertion_series]
    rfl
  constructor
  · rintro ⟨hopen, hrow, hinsert, htime, hend⟩
    have hnone := forall_fault?_eq_none_iff.2 ⟨hopen, hrow, hinsert, hend⟩
    refine ⟨fun n hn => ?_, hnone⟩
    rw [hcount hnone, Nat.zero_add, Nat.mul_comm]
    exact htime n hn
  · rintro ⟨htime, hnone⟩
    obtain ⟨hopen, hrow, hinsert, hend⟩ := forall_fault?_eq_none_iff.1 hnone
    refine ⟨hopen, hrow, hinsert, fun n hn => ?_, hend⟩
    rw [Nat.mul_comm, ← hcount hnone, ← Nat.zero_add (b.latency * _)]
    exact htime n hn

/-- A complete transaction becomes visible exactly if the store commits it. -/
theorem conclude_eq_ok_iff {α : Type} [Aggregate α] {p : Progress} {note : CommitNote} {a : α}
    {taken id : CommitId} :
    (b.conclude p taken note a).result = .ok id ↔ id = taken ∧ b.outage.finalize = none := by
  rw [conclude, Backend.finalize]
  cases b.outage.finalize <;> simp [answerUnless, eq_comm]

/-- A write that succeeds answers with the id that comes next. -/
theorem id_of_write_eq_ok {α : Type} [Aggregate α] {modelId : Int32} {note : CommitNote} {a : α}
    {id : CommitId} (h : (b.write modelId note limit a).result = .ok id) :
    id = b.store.nextCommitId := by
  rw [write] at h
  split at h
  · simp at h
  · split at h
    · simp [abort] at h
    · rename_i taken b' tx hcommit
      obtain ⟨-, heq⟩ := check_eq_ok_iff.1 hcommit
      obtain rfl : b.store.nextCommitId = taken := congrArg Prod.fst heq
      dsimp only at h
      split at h
      · simp [abort] at h
      · split at h
        · exact (conclude_eq_ok_iff.1 h).1
        · simp [abort] at h
        · simp [abandon] at h

/-- **A write succeeds exactly if the store accepts a batch for each of its tables.** -/
theorem write_eq_ok_iff {α : Type} [Aggregate α] {modelId : Int32} {note : CommitNote} {a : α}
    {id : CommitId} {batches : List Batch}
    (h : Aggregate.batches (Aggregate.stamp b.store.nextCommitId a) = .ok batches) :
    (b.write modelId note limit a).result = .ok id ↔
      id = b.store.nextCommitId ∧ b.Accepts limit (.entities :: batches.map Batch.table) := by
  rw [result_write h, accepts_iff]
  cases b.errorAfter? limit 0 (WriteStep.series (batches.map Batch.table)) <;> simp [eq_comm]

/-- A write of a single record succeeds exactly if the store accepts its identity row and its
row. -/
theorem write_single_eq_ok_iff {α : Type} [Record α] {modelId : Int32} {note : CommitNote} {r : α}
    {id : CommitId} :
    (b.write modelId note limit (SingleVersion.mk r)).result = .ok id ↔
      id = b.store.nextCommitId ∧ b.Accepts limit [.entities, Record.table α] := by
  have hbatches : Aggregate.batches (Aggregate.stamp b.store.nextCommitId (SingleVersion.mk r)) =
      .ok [Batch.ofRecords [Record.stamp b.store.nextCommitId r]] := rfl
  exact write_eq_ok_iff hbatches

end Backend

end Switchyard
