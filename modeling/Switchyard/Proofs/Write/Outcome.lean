import Switchyard.Proofs.Write.Stamps
import Switchyard.Write.Atomic

/-!
# How a write ends

`Backend.write` has many exits: the transaction is not opened, the commit row is refused, the rows
cannot be encoded, one of the insertions fails or runs out of time, the transaction is not
committed, or all went well.  `WriteEnd` says once what each of them leaves behind, and
`write_end` that there are no others; whatever is to be known about writes is read off the
cases.

* The store is as before, but for the sequence of commit ids, unless the transaction is committed.
* The aggregate has lost its stamp, unless the transaction was not even opened (`notStarted`) or
  all went well (`persisted`).
-/

set_option autoImplicit false

namespace Switchyard

/-! ## Answers -/

namespace Backend

theorem answerUnless_eq_ok_iff {β : Type} {error : Option StoreError} {answer x : β} :
    answerUnless error answer = .ok x ↔ error = none ∧ answer = x := by
  cases error <;> simp [answerUnless]

theorem check_eq_ok_iff {β : Type} {b : Backend} {point : FailurePoint} {answer x : β} :
    b.check point answer = .ok x ↔ point ∉ b.failing ∧ answer = x := by
  by_cases h : point ∈ b.failing <;> simp [check, h]

/-! ## Series of insertions -/

variable {b : Backend} {limit : Option Nat}

/-- A complete series of insertions has staged its batches in order, and nothing besides. -/
theorem tx_of_insertAll_complete {insertions : List Insertion} {p q : Progress}
    (h : b.insertAll limit insertions p = .complete q) :
    q.tx = { p.tx with batches := p.tx.batches ++ insertions.map Insertion.batch } := by
  induction insertions generalizing p with
  | nil =>
    rw [insertAll, Progress.End.complete.injEq] at h
    simp [← h]
  | cons i rest ih =>
    simp only [insertAll] at h
    split at h
    · simp at h
    · split at h
      · rename_i tx heq
        rw [ih h, ← (check_eq_ok_iff.1 heq).2]
        simp
      · simp at h

/-- A series of insertions fails at the step of one of them. -/
theorem step_of_insertAll_failed {insertions : List Insertion} {p q : Progress} {step : WriteStep}
    {e : StoreError} (h : b.insertAll limit insertions p = .failed step e q) :
    ∃ i ∈ insertions, i.step = step := by
  induction insertions generalizing p with
  | nil => simp [insertAll] at h
  | cons i rest ih =>
    simp only [insertAll] at h
    split at h
    · simp at h
    · split at h
      · obtain ⟨j, hj, hstep⟩ := ih h
        exact ⟨j, List.mem_cons_of_mem _ hj, hstep⟩
      · rw [Progress.End.failed.injEq] at h
        exact ⟨i, by simp, h.1⟩

end Backend

/-- The insertions that an aggregate asks for are those of its identity rows and of its batches. -/
theorem insertionsOf_eq_ok {α : Type} [Aggregate α] {modelId : Int32} {id : CommitId} {a : α}
    {insertions : List Insertion} (h : insertionsOf modelId id a = .ok insertions) :
    ∃ batches, Aggregate.batches a = .ok batches ∧
      insertions =
        ⟨.identities, .ofRecords ((Aggregate.identities modelId a).map (Record.stamp id))⟩ ::
          batches.map fun b => ⟨.batch b.table, b⟩ := by
  simp only [insertionsOf] at h
  split at h
  · simp at h
  · rename_i batches heq
    exact ⟨batches, heq, (Except.ok.inj h).symm⟩

/-- No insertion counts as the opening of the transaction. -/
theorem step_ne_start_of_insertionsOf {α : Type} [Aggregate α] {modelId : Int32} {id : CommitId}
    {a : α} {insertions : List Insertion} (h : insertionsOf modelId id a = .ok insertions)
    {i : Insertion} (hi : i ∈ insertions) : i.step ≠ .start := by
  obtain ⟨batches, -, rfl⟩ := insertionsOf_eq_ok h
  rcases List.mem_cons.1 hi with rfl | hi
  · simp
  · obtain ⟨batch, -, rfl⟩ := List.mem_map.1 hi
    simp

/-! ## The exits -/

namespace Backend

/-- The backend after taking the next commit id and doing nothing else. -/
def takeCommitId (b : Backend) : Backend := { b with store := b.store.takeCommitId }

/-- The backend once a commit with its batches is visible. -/
def persist (b : Backend) (note : CommitNote) (batches : List Batch) : Backend :=
  { b with
    store :=
      { contents := b.store.contents.append ⟨[{ note with id := b.store.nextCommitId }], batches⟩
        lastCommitId := b.store.nextCommitId } }

end Backend

variable {α : Type} [Aggregate α]

/-- The result, the backend and the aggregate that a write can end with. -/
inductive WriteEnd (b : Backend) (modelId : Int32) (note : CommitNote) (a : α) :
    Except WriteError CommitId → Backend → α → Prop where
  /-- The transaction is not opened. -/
  | notStarted (e : StoreError) : WriteEnd b modelId note a (.error (.step .start e)) b a
  /-- The commit row is refused, so no commit id is taken. -/
  | noCommitRow (e : StoreError) :
    WriteEnd b modelId note a (.error (.step .commitRow e)) b (Aggregate.stamp .unset a)
  /-- A later step fails. -/
  | failed (step : WriteStep) (e : StoreError) (hstep : step ≠ .start) :
    WriteEnd b modelId note a (.error (.step step e)) b.takeCommitId (Aggregate.stamp .unset a)
  /-- The time is over. -/
  | timedOut (limit : Nat) :
    WriteEnd b modelId note a (.error (.timedOut limit)) b.takeCommitId
      (Aggregate.stamp .unset a)
  /-- Everything is visible. -/
  | persisted (batches : List Batch)
    (h : Aggregate.batches (Aggregate.stamp b.store.nextCommitId a) = .ok batches) :
    WriteEnd b modelId note a (.ok b.store.nextCommitId)
      (b.persist note
        (.ofRecords (Aggregate.identities modelId (Aggregate.stamp b.store.nextCommitId a)) ::
          batches))
      (Aggregate.stamp b.store.nextCommitId a)

variable [LawfulAggregate α]

/-- The identity rows of a stamped aggregate need no second stamp. -/
theorem LawfulAggregate.map_stamp_identities (c : CommitId) (modelId : Int32) (a : α) :
    (Aggregate.identities modelId (Aggregate.stamp c a)).map (Record.stamp c) =
      Aggregate.identities modelId (Aggregate.stamp c a) := by
  refine (List.map_congr_left fun e he => ?_).trans (List.map_id _)
  exact Record.stamp_eq_self_iff.2 (LawfulAggregate.commitId_identity c modelId a e he)

/-- The records carry the new id when a write fails late, and losing it is losing the stamp that
they came with. -/
theorem LawfulAggregate.unset_stamp (c : CommitId) (a : α) :
    Aggregate.stamp .unset (Aggregate.stamp c a) = Aggregate.stamp .unset a :=
  LawfulAggregate.stamp_stamp _ _ a

/-- A transaction with the commit row, the identity rows and the batches is made visible as it is,
or fails in its last step. -/
theorem Backend.conclude_end {b : Backend} {modelId : Int32} {note : CommitNote} {a : α}
    {batches : List Batch} {p : Progress}
    (hbatches : Aggregate.batches (Aggregate.stamp b.store.nextCommitId a) = .ok batches)
    (htx : p.tx =
      ⟨[{ note with id := b.store.nextCommitId }],
        .ofRecords (Aggregate.identities modelId (Aggregate.stamp b.store.nextCommitId a)) ::
          batches⟩) :
    let out := b.takeCommitId.conclude p b.store.nextCommitId note
      (Aggregate.stamp b.store.nextCommitId a)
    WriteEnd b modelId note a out.result out.backend out.aggregate := by
  dsimp only
  rw [conclude]
  split
  · rename_i heq
    obtain ⟨-, rfl⟩ := answerUnless_eq_ok_iff.1 heq
    rw [htx]
    exact .persisted batches hbatches
  · rw [LawfulAggregate.unset_stamp]
    exact .failed .finalize _ (by simp)

/-- **A write ends in one of these ways.** -/
theorem Backend.write_end (b : Backend) (modelId : Int32) (note : CommitNote)
    (limit : Option Nat) (a : α) :
    WriteEnd b modelId note a (b.write modelId note limit a).result
      (b.write modelId note limit a).backend (b.write modelId note limit a).aggregate := by
  rw [write]
  split
  · exact .notStarted _
  · rename_i tx hstart
    obtain rfl : {} = tx := (answerUnless_eq_ok_iff.1 hstart).2
    split
    · exact .noCommitRow _
    · rename_i id b' tx hcommit
      obtain ⟨-, heq⟩ := check_eq_ok_iff.1 hcommit
      simp only [Prod.mk.injEq] at heq
      obtain ⟨rfl, rfl, rfl⟩ := heq
      dsimp only
      split
      · rw [abort, LawfulAggregate.unset_stamp]
        exact .failed .encode _ (by simp)
      · rename_i insertions hinsertions
        split
        · rename_i p hp
          obtain ⟨batches, hbatches, rfl⟩ := insertionsOf_eq_ok hinsertions
          have hstaged := tx_of_insertAll_complete hp
          rw [LawfulAggregate.map_stamp_identities] at hstaged
          refine conclude_end hbatches ?_
          simpa [Function.comp_def] using hstaged
        · rename_i step e p hp
          obtain ⟨i, hi, rfl⟩ := step_of_insertAll_failed hp
          rw [abort, LawfulAggregate.unset_stamp]
          exact .failed i.step e (step_ne_start_of_insertionsOf hinsertions hi)
        · rw [abandon, LawfulAggregate.unset_stamp]
          exact .timedOut _

end Switchyard
