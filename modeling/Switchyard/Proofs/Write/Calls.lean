import Switchyard.Proofs.Store.Steps

/-!
# A write is a run of calls

`Backend.write` is one operation, but what it does to the store it does by calls on a transaction of
its own: it opens the transaction, inserts the commit row and the batches, and then commits it,
rolls it back, or drops it when its time is over.  `Backend.writeCalls` lists these calls, and
`run_writeCalls` says that the write leaves the store as they do.  So whatever holds of interleaved
transactions holds of writes, finished or not.
-/

set_option autoImplicit false

namespace Switchyard

namespace Backend

/-- The calls by which insertions are made until one fails or the time is over, and by which the
transaction is ended then. -/
def insertionCalls (b : Backend) (name : String) (limit : Option Nat) :
    List Insertion → Progress → List Action
  | [], _ => [.finalize name]
  | i :: rest, p =>
    let p := { p with elapsed := p.elapsed + b.latency }
    match exceededLimit? limit p.elapsed with
    | some _ => [.drop name]
    | none =>
      .insertBatch name i.batch ::
        match b.insertBatch p.tx i.batch with
        | .ok tx => insertionCalls b name limit rest { p with tx, events := p.events ++ i.events }
        | .error _ => [.rollback name]

/-- The calls that a write makes on a transaction of the given name. -/
def writeCalls {α : Type} [Aggregate α] (b : Backend) (name : String) (modelId : Int32)
    (note : CommitNote) (limit : Option Nat) (a : α) : List Action :=
  .start name ::
    match b.start with
    | .error _ => []
    | .ok tx =>
      .insertCommit name note ::
        match b.insertCommit tx note with
        | .error _ => [.rollback name]
        | .ok (id, b, tx) =>
          match insertionsOf modelId id (Aggregate.stamp id a) with
          | .error _ => [.rollback name]
          | .ok insertions => b.insertionCalls name limit insertions { tx }

/-- The backend once a series of insertions has ended in a certain way. -/
def afterEnd (b : Backend) : Progress.End → Backend
  | .complete p => if b.outage.finalize = none then b.disclose p.tx else b
  | .failed .. | .outOfTime .. => b

end Backend

namespace Interleaving

variable {s : Interleaving} {name : String} {tx : Transaction}

/-! ## Single calls -/

theorem step_rollback (h : s.transaction? name = some tx) :
    (s.step (.rollback name)).2.1 = s.close name := by
  rw [step, withTransaction_of_some h]
  dsimp only
  split <;> rfl

theorem step_drop (h : s.transaction? name = some tx) :
    (s.step (.drop name)).2.1 = s.close name := by
  rw [step, withTransaction_of_some h]

theorem step_finalize (h : s.transaction? name = some tx) :
    (s.step (.finalize name)).2.1 =
      { s.close name with backend := s.backend.afterEnd (.complete { tx }) } := by
  rw [step, withTransaction_of_some h, Backend.finalize, Backend.afterEnd]
  cases s.backend.outage.finalize <;> rfl

theorem step_insertBatch (h : s.transaction? name = some tx) (batch : Batch) :
    (s.step (.insertBatch name batch)).2.1 =
      match s.backend.insertBatch tx batch with
      | .ok tx => s.put name tx
      | .error _ => s := by
  rw [step, withTransaction_of_some h]
  cases s.backend.insertBatch tx batch <;> rfl

@[simp] theorem close_put (s : Interleaving) (name : String) (tx : Transaction) :
    (s.put name tx).close name = s.close name := by
  simp [put, close]

/-! ## Series of insertions -/

theorem run_insertionCalls (limit : Option Nat) (insertions : List Insertion) (p : Progress)
    (h : s.transaction? name = some p.tx) :
    s.run (s.backend.insertionCalls name limit insertions p) =
      { s.close name with
        backend := s.backend.afterEnd (s.backend.insertAll limit insertions p) } := by
  induction insertions generalizing s p with
  | nil => exact step_finalize h
  | cons i rest ih =>
    simp only [Backend.insertionCalls, Backend.insertAll]
    cases exceededLimit? limit (p.elapsed + s.backend.latency) with
    | some n => exact step_drop h
    | none =>
      have hinsert := step_insertBatch h i.batch
      rw [run_cons, hinsert]
      cases s.backend.insertBatch p.tx i.batch with
      | error e => exact step_rollback h
      | ok tx =>
        have hput : (s.put name tx).transaction? name = some tx := by
          rw [transaction?_put, if_pos rfl]
        have hrest := ih
          { tx, elapsed := p.elapsed + s.backend.latency, events := p.events ++ i.events } hput
        rwa [close_put] at hrest

/-! ## Whole writes -/

/-- Making a complete transaction visible is ending it by a commit. -/
theorem backend_conclude {α : Type} [Aggregate α] (b : Backend) (p : Progress) (id : CommitId)
    (note : CommitNote) (a : α) : (b.conclude p id note a).backend = b.afterEnd (.complete p) := by
  rw [Backend.conclude, Backend.afterEnd, Backend.finalize]
  cases b.outage.finalize <;> rfl

/-- **A write leaves the store as its calls do**, and the transactions that are open as they
were. -/
theorem run_writeCalls {α : Type} [Aggregate α] (h : s.transaction? name = none) (modelId : Int32)
    (note : CommitNote) (limit : Option Nat) (a : α) :
    s.run (s.backend.writeCalls name modelId note limit a) =
      { s with backend := (s.backend.write modelId note limit a).backend } := by
  have hclose := close_eq_self h
  rw [Backend.writeCalls, Backend.write, run_cons, step]
  cases hstart : s.backend.start with
  | error e => rfl
  | ok tx =>
    have htx : (s.put name tx).transaction? name = some tx := by rw [transaction?_put, if_pos rfl]
    dsimp only
    rw [run_cons, step, withTransaction_of_some htx, backend_put]
    cases hcommit : s.backend.insertCommit tx note with
    | error e =>
      dsimp only
      rw [run_cons, step_rollback htx, close_put, hclose]
      rfl
    | ok staged =>
      obtain ⟨id, b, tx'⟩ := staged
      dsimp only
      generalize hnext : ({ s.put name tx with backend := b }.put name tx') = next
      have htx' : next.transaction? name = some tx' := by
        rw [← hnext, transaction?_put, if_pos rfl]
      have hover : next.close name = { s with backend := b } := by
        rw [← hnext, close_put]
        show { (s.put name tx).close name with backend := b } = _
        rw [close_put, hclose]
      have hb : next.backend = b := by rw [← hnext, backend_put]
      cases insertionsOf modelId id (Aggregate.stamp id a) with
      | error text =>
        dsimp only
        rw [run_cons, step_rollback htx', hover]
        rfl
      | ok insertions =>
        dsimp only
        have hrun := run_insertionCalls limit insertions { tx := tx' } htx'
        rw [hover, hb] at hrun
        rw [hrun]
        cases b.insertAll limit insertions { tx := tx' } with
        | complete p =>
          dsimp only
          rw [backend_conclude]
        | failed step e p => rfl
        | outOfTime n p => rfl

end Interleaving

end Switchyard
