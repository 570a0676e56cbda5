import Switchyard.Store.Backend

/-!
# Interleaved transactions

Several transactions may be open on one store at a time.  They are told apart by name, share the
sequence of commit ids and the failure points, and see only what is visible.  An `Action` is one
call on the store or on one of the transactions, and `Interleaving.step` is its effect; a refused
action has none, except that a transaction is over once it was committed, rolled back or dropped,
whether or not the store went along.
-/

set_option autoImplicit false

namespace Switchyard

/-- A backend and the transactions that are open on it. -/
structure Interleaving where
  backend : Backend := {}
  transactions : List (String × Transaction) := []

/-- A call on the store or on one of its open transactions. -/
inductive Action where
  | seed (batch : Batch) (ids : List CommitId)
  | setFailing (points : List FailurePoint)
  | setOutage (outage : Outage)
  | start (name : String)
  | insertCommit (name : String) (note : CommitNote)
  | insertBatch (name : String) (batch : Batch)
  | finalize (name : String)
  | rollback (name : String)
  | drop (name : String)

/-- Why an action was refused. -/
inductive ActionError where
  | noTransaction (name : String)
  | store (error : StoreError)
deriving DecidableEq

/-- What an action answers, if it is not refused. -/
inductive Reply where
  | done
  /-- The id of the commit that was staged. -/
  | commitId (id : CommitId)

namespace Interleaving

/-- The open transaction of a name. -/
def transaction? (s : Interleaving) (name : String) : Option Transaction :=
  s.transactions.lookup name

/-- Ends the transaction of a name. -/
def close (s : Interleaving) (name : String) : Interleaving :=
  { s with transactions := s.transactions.filter fun t => t.1 != name }

/-- Gives the transaction of a name a new value. -/
def put (s : Interleaving) (name : String) (tx : Transaction) : Interleaving :=
  { s with transactions := (name, tx) :: (s.close name).transactions }

/-- Runs an operation on an open transaction. -/
def withTransaction (s : Interleaving) (name : String)
    (run : Transaction → Except ActionError Reply × Interleaving × List Event) :
    Except ActionError Reply × Interleaving × List Event :=
  match s.transaction? name with
  | some tx => run tx
  | none => (.error (.noTransaction name), s, [])

/-- The effect of an action: its answer, the state after it, and what was reported. -/
def step (s : Interleaving) : Action → Except ActionError Reply × Interleaving × List Event
  | .seed batch ids =>
    (.ok .done, { s with backend.store := s.backend.store.seedBatch batch ids }, [])
  | .setFailing points => (.ok .done, { s with backend.failing := points }, [])
  | .setOutage outage => (.ok .done, { s with backend.outage := outage }, [])
  | .start name =>
    match s.backend.start with
    | .ok tx => (.ok .done, s.put name tx, [])
    | .error e => (.error (.store e), s, [])
  | .insertCommit name note =>
    s.withTransaction name fun tx =>
      match s.backend.insertCommit tx note with
      | .ok (id, backend, tx) => (.ok (.commitId id), { s with backend }.put name tx, [])
      | .error e => (.error (.store e), s, [])
  | .insertBatch name batch =>
    s.withTransaction name fun tx =>
      match s.backend.insertBatch tx batch with
      | .ok tx => (.ok .done, s.put name tx, [])
      | .error e => (.error (.store e), s, [])
  | .finalize name =>
    s.withTransaction name fun tx =>
      match s.backend.finalize tx with
      | .ok backend => (.ok .done, { s.close name with backend }, [])
      | .error e => (.error (.store e), s.close name, [])
  | .rollback name =>
    s.withTransaction name fun tx =>
      let events := s.backend.rollbackEvents tx
      match s.backend.rollback with
      | .ok () => (.ok .done, s.close name, events)
      | .error e => (.error (.store e), s.close name, events)
  | .drop name => s.withTransaction name fun _ => (.ok .done, s.close name, [])

/-- The state after some actions. -/
def run (s : Interleaving) (actions : List Action) : Interleaving :=
  actions.foldl (fun s a => (s.step a).2.1) s

@[simp] theorem run_nil (s : Interleaving) : s.run [] = s := rfl

@[simp] theorem run_cons (s : Interleaving) (a : Action) (actions : List Action) :
    s.run (a :: actions) = (s.step a).2.1.run actions := rfl

/-- Running actions in two portions is running them at once. -/
theorem run_append (s : Interleaving) (first second : List Action) :
    s.run (first ++ second) = (s.run first).run second := by
  simp [run]

end Interleaving

end Switchyard
