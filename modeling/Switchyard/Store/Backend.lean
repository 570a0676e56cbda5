import Switchyard.Log.Event

/-!
# Transactions

A `Backend` is a store together with the circumstances under which it answers: the places where a
failure is injected, the time an insertion takes, and the calls that are out of order altogether.

A transaction stages what is inserted through it.  Nothing staged is visible; committing makes all
of it visible at once, and giving the transaction up discards it.  Only the sequence of commit ids
moves at once, so an id is never handed out twice.
-/

set_option autoImplicit false

namespace Switchyard

/-- What a transaction has staged, each list in the order of insertion. -/
structure Transaction where
  commits : List Commit := []
  batches : List Batch := []

/-- The calls that fail as a whole, each with its error.  A failing commit or rollback still ends
its transaction and discards it. -/
structure Outage where
  start : Option StoreError := none
  finalize : Option StoreError := none
  rollback : Option StoreError := none
  query : Table → Option StoreError := fun _ => none

/-- A store and the circumstances under which it answers. -/
structure Backend where
  store : Store := {}
  /-- The places where a failure is injected. -/
  failing : List FailurePoint := []
  /-- How many milliseconds the insertion of a batch takes. -/
  latency : Nat := 0
  outage : Outage := {}

namespace Contents

/-- What is visible once a transaction is committed. -/
def append (contents : Contents) (tx : Transaction) : Contents :=
  { commits := contents.commits ++ tx.commits
    batches := contents.batches ++ tx.batches
    rowsWritten := contents.rowsWritten + tx.commits.length +
      (tx.batches.flatMap Batch.rows).length }

theorem rows_append (contents : Contents) (tx : Transaction) (table : Table) :
    (contents.append tx).rows table = contents.rows table ++ rowsOf table tx.batches := by
  simp [rows, append]

end Contents

namespace Backend

/-- An error in place of an answer, if there is one. -/
def answerUnless {α : Type} (error : Option StoreError) (answer : α) : Except StoreError α :=
  match error with
  | some e => .error e
  | none => .ok answer

/-- Fails at a failure point that is set. -/
def check {α : Type} (b : Backend) (point : FailurePoint) (answer : α) : Except StoreError α :=
  if point ∈ b.failing then .error point.error else .ok answer

/-- Opens a transaction. -/
def start (b : Backend) : Except StoreError Transaction := answerUnless b.outage.start {}

/-- Stages a commit under the next id of the sequence.  If that fails, no id is taken. -/
def insertCommit (b : Backend) (tx : Transaction) (note : CommitNote) :
    Except StoreError (CommitId × Backend × Transaction) :=
  let id := b.store.nextCommitId
  b.check .commitRow
    (id, { b with store := b.store.takeCommitId },
      { tx with commits := tx.commits ++ [{ note with id }] })

/-- Stages a batch. -/
def insertBatch (b : Backend) (tx : Transaction) (batch : Batch) :
    Except StoreError Transaction :=
  b.check (.insertInto batch.table) { tx with batches := tx.batches ++ [batch] }

/-- Makes everything staged visible. -/
def finalize (b : Backend) (tx : Transaction) : Except StoreError Backend :=
  answerUnless b.outage.finalize
    { b with store := { b.store with contents := b.store.contents.append tx } }

/-- Discards everything staged. -/
def rollback (b : Backend) : Except StoreError Unit := answerUnless b.outage.rollback ()

/-- What is reported when a transaction is rolled back; a rollback that fails reports nothing. -/
def rollbackEvents (b : Backend) (tx : Transaction) : List Event :=
  match b.outage.rollback with
  | some _ => []
  | none => [.discardedStaged tx.batches.length]

/-- The rows of a table that fulfil a condition, oldest first. -/
def query (b : Backend) (table : Table) (p : Predicate) : Except StoreError (List Json) :=
  answerUnless (b.outage.query table) (b.store.query table p)

/-- Reads every row as a record. -/
def decodeRows (α : Type) [Record α] : List Json → Except StoreError (List α)
  | [] => .ok []
  | row :: rows =>
    match Record.decode? row with
    | some r => (decodeRows α rows).map (r :: ·)
    | none => .error (.serialization "the row does not hold a record of its table")

/-- The records of a table whose rows fulfil a condition, oldest first. -/
def fetch (α : Type) [Record α] (b : Backend) (p : Predicate) : Except StoreError (List α) :=
  match b.query (Record.table α) p with
  | .ok rows => decodeRows α rows
  | .error e => .error e

end Backend

end Switchyard
