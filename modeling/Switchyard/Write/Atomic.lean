import Switchyard.Store.Backend
import Switchyard.Write.Aggregate

/-!
# Atomic writes

An aggregate is written in one transaction: the commit row first, whose id every record is then
stamped with, then the identity rows, then the batches in the order of their references.  A write
either makes all of this visible or leaves the visible store as it was.

* A step that fails makes the write give up its transaction and report the step.
* A write may be given a time.  Only insertions take time, each before it is checked for failure;
  a write that exceeds its time is abandoned where it stands.

In both cases the records of the aggregate lose their stamp, so that it can be written again.
-/

set_option autoImplicit false

namespace Switchyard

/-- An insertion that a write has to make: the step it counts as, and the batch. -/
structure Insertion where
  step : WriteStep
  batch : Batch

/-- What is reported once an insertion was made. -/
def Insertion.events (i : Insertion) : List Event :=
  match i.step with
  | .batch table => [.insertedBatch table i.batch.rows.length]
  | _ => []

/-- The insertions that an aggregate stamped with a commit asks for, after the commit row. -/
def insertionsOf {α : Type} [Aggregate α] (modelId : Int32) (id : CommitId) (a : α) :
    Except String (List Insertion) :=
  let identities := (Aggregate.identities modelId a).map (Record.stamp id)
  match Aggregate.batches a with
  | .error text => .error text
  | .ok batches =>
    .ok (⟨.identities, .ofRecords identities⟩ :: batches.map fun b => ⟨.batch b.table, b⟩)

/-- How far a write has got: what its transaction has staged, how many milliseconds went by, and
what was reported. -/
structure Progress where
  tx : Transaction
  elapsed : Nat := 0
  events : List Event := []

/-- How a series of insertions ended. -/
inductive Progress.End where
  | complete (p : Progress)
  | failed (step : WriteStep) (error : StoreError) (p : Progress)
  | outOfTime (limit : Nat) (p : Progress)

/-- The limit that is exceeded after so many milliseconds, if there is one. -/
def exceededLimit? (limit : Option Nat) (elapsed : Nat) : Option Nat :=
  limit.filter fun n => n < elapsed

@[simp] theorem exceededLimit?_none (elapsed : Nat) : exceededLimit? none elapsed = none := rfl

/-- Makes insertions until one fails or the time is over. -/
def Backend.insertAll (b : Backend) (limit : Option Nat) :
    List Insertion → Progress → Progress.End
  | [], p => .complete p
  | i :: rest, p =>
    let p := { p with elapsed := p.elapsed + b.latency }
    match exceededLimit? limit p.elapsed with
    | some n => .outOfTime n p
    | none =>
      match b.insertBatch p.tx i.batch with
      | .ok tx => insertAll b limit rest { p with tx, events := p.events ++ i.events }
      | .error e => .failed i.step e p

/-- How a write ended, and the store, the aggregate and the reports it leaves behind. -/
structure WriteOutcome (α : Type) where
  result : Except WriteError CommitId
  backend : Backend
  aggregate : α
  events : List Event := []

namespace Backend

variable {α : Type} [Aggregate α]

/-- Gives up a transaction because a step failed. -/
def abort (b : Backend) (p : Progress) (step : WriteStep) (e : StoreError) (a : α) :
    WriteOutcome α :=
  let error := WriteError.step step e
  let rollback :=
    match b.rollback with
    | .ok () => b.rollbackEvents p.tx
    | .error e => b.rollbackEvents p.tx ++ [.rollbackFailed e]
  { result := .error error
    backend := b
    aggregate := Aggregate.stamp .unset a
    events := p.events ++ .rollingBack error :: rollback }

/-- Abandons a write whose time is over. -/
def abandon (b : Backend) (p : Progress) (limit : Nat) (a : α) : WriteOutcome α :=
  { result := .error (.timedOut limit)
    backend := b
    aggregate := Aggregate.stamp .unset a
    events := p.events ++ [.timedOut limit] }

/-- Makes a complete transaction visible. -/
def conclude (b : Backend) (p : Progress) (id : CommitId) (note : CommitNote) (a : α) :
    WriteOutcome α :=
  match b.finalize p.tx with
  | .ok b =>
    { result := .ok id, backend := b, aggregate := a, events := p.events ++ [.committed id note] }
  | .error e =>
    { result := .error (.step .finalize e)
      backend := b
      aggregate := Aggregate.stamp .unset a
      events := p.events }

/-- Writes an aggregate under a new commit, within a limit of milliseconds if there is one. -/
def write (b : Backend) (modelId : Int32) (note : CommitNote) (limit : Option Nat) (a : α) :
    WriteOutcome α :=
  match b.start with
  | .error e => { result := .error (.step .start e), backend := b, aggregate := a }
  | .ok tx =>
    match b.insertCommit tx note with
    | .error e => b.abort { tx } .commitRow e a
    | .ok (id, b, tx) =>
      let a := Aggregate.stamp id a
      match insertionsOf modelId id a with
      | .error text => b.abort { tx } .encode (.serialization text) a
      | .ok insertions =>
        match b.insertAll limit insertions { tx } with
        | .complete p => b.conclude p id note a
        | .failed step e p => b.abort p step e a
        | .outOfTime n p => b.abandon p n a

end Backend

end Switchyard
