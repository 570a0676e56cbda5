import Switchyard.Proofs.Load.AfterWrite

/-!
# The first fault of a write

The steps of a write come one after the other, and it fails at the first of them that meets a fault
(`Backend.firstError?`), whatever else is wrong further on.  Steps behind the first fault are never
tried.  So a write with a limit is over in time if the insertions up to the first fault are, that
one included, and ends as it would have without the limit (`write_fails_at_first_fault`).

Faults that no step meets play no part: those of tables without records, and that of the rollback.
-/

set_option autoImplicit false

namespace Switchyard

/-! ## Steps -/

namespace WriteStep

/-- The steps of a write that inserts a batch into each of some tables. -/
def series (tables : List Table) : List WriteStep :=
  [.start, .commitRow, .identities] ++ tables.map .batch ++ [.finalize]

/-- The step inserts a batch, which takes time. -/
def isInsertion : WriteStep → Bool
  | .identities | .batch _ => true
  | _ => false

/-- The identity rows are inserted besides the batches. -/
theorem countP_isInsertion_series (tables : List Table) :
    (series tables).countP isInsertion = tables.length + 1 := by
  have hbatches : (tables.map WriteStep.batch).countP isInsertion = tables.length := by
    rw [List.countP_map]
    exact List.countP_eq_length.2 fun _ _ => rfl
  rw [series, List.countP_append, List.countP_append, hbatches, Nat.add_comm tables.length]
  rfl

end WriteStep

namespace Topology

/-- The tables of which the topology has a record, in the order of their references. -/
def tables (t : Topology) : List Table :=
  t.gather fun α _ rs => if rs.isEmpty then [] else [Record.table α]

/-- The steps of a write of the topology. -/
def writeSteps (t : Topology) : List WriteStep := WriteStep.series t.tables

/-- The tables of the batches are those that have a record. -/
theorem map_table_batches (t : Topology) : t.batches.map Batch.table = t.tables := by
  rw [batches, gather_map (g := List.map Batch.table) fun _ _ => List.map_append, tables]
  congr 1
  funext α _ rs
  cases rs <;> rfl

theorem map_table_batches_stamp (id : CommitId) (t : Topology) :
    (t.stamp id).batches.map Batch.table = t.tables := by
  rw [map_table_batches, tables, stamp, gather_mapRecords]
  simp only [List.isEmpty_map]
  rfl

end Topology

/-! ## Faults -/

namespace Backend

/-- The error at a failure point, if it is set. -/
def injected? (b : Backend) (point : FailurePoint) : Option StoreError :=
  if point ∈ b.failing then some point.error else none

/-- The error that a step meets, if there is one. -/
def fault? (b : Backend) : WriteStep → Option StoreError
  | .start => b.outage.start
  | .commitRow => b.injected? .commitRow
  | .encode => none
  | .identities => b.injected? (.insertInto .entities)
  | .batch table => b.injected? (.insertInto table)
  | .finalize => b.outage.finalize

/-- The error of a write that makes these steps, which is that of the first step that meets one. -/
def firstError? (b : Backend) (steps : List WriteStep) : Option WriteError :=
  steps.findSome? fun s => (b.fault? s).map (.step s)

/-- The steps that are tried: all before the first that meets an error, and that one. -/
def tried (b : Backend) : List WriteStep → List WriteStep
  | [] => []
  | s :: rest => if (b.fault? s).isSome then [s] else s :: tried b rest

/-- How many insertions are tried. -/
def insertionsTried (b : Backend) (steps : List WriteStep) : Nat :=
  (b.tried steps).countP WriteStep.isInsertion

variable {b b' : Backend} {s : WriteStep} {rest steps : List WriteStep} {e : StoreError}
  {error : WriteError}

theorem firstError?_eq_none_iff : b.firstError? steps = none ↔ ∀ s ∈ steps, b.fault? s = none := by
  simp [firstError?]

/-- The first error, without any search. -/
theorem firstError?_eq_some_iff :
    b.firstError? steps = some error ↔
      ∃ before s rest e, steps = before ++ s :: rest ∧ (∀ s' ∈ before, b.fault? s' = none) ∧
        b.fault? s = some e ∧ error = .step s e := by
  rw [firstError?, List.findSome?_eq_some_iff]
  simp only [Option.map_eq_some_iff, Option.map_eq_none_iff]
  constructor
  · rintro ⟨before, s, rest, rfl, ⟨e, he, rfl⟩, hnone⟩
    exact ⟨before, s, rest, e, rfl, hnone, he, rfl⟩
  · rintro ⟨before, s, rest, e, rfl, hnone, he, rfl⟩
    exact ⟨before, s, rest, rfl, ⟨e, he, rfl⟩, hnone⟩

theorem firstError?_cons_of_fault (h : b.fault? s = some e) :
    b.firstError? (s :: rest) = some (.step s e) := by
  rw [firstError?, List.findSome?_cons, h]
  rfl

theorem firstError?_cons_of_none (h : b.fault? s = none) :
    b.firstError? (s :: rest) = b.firstError? rest := by
  rw [firstError?, List.findSome?_cons, h]
  rfl

theorem insertionsTried_cons_of_fault (h : b.fault? s = some e) :
    b.insertionsTried (s :: rest) = if s.isInsertion then 1 else 0 := by
  rw [insertionsTried, tried, h]
  exact List.countP_singleton

theorem insertionsTried_cons_of_none (h : b.fault? s = none) :
    b.insertionsTried (s :: rest) = b.insertionsTried rest + if s.isInsertion then 1 else 0 := by
  rw [insertionsTried, tried, h]
  exact List.countP_cons

/-- Without faults every step is tried. -/
theorem insertionsTried_of_forall_none (h : ∀ s ∈ steps, b.fault? s = none) :
    b.insertionsTried steps = steps.countP WriteStep.isInsertion := by
  induction steps with
  | nil => rfl
  | cons s steps ih =>
    obtain ⟨hnone, h⟩ := List.forall_mem_cons.1 h
    rw [insertionsTried_cons_of_none hnone, ih h, List.countP_cons]

/-- An insertion that comes first is tried. -/
theorem insertionsTried_cons_pos (b : Backend) (rest : List WriteStep)
    (h : s.isInsertion = true) : 0 < b.insertionsTried (s :: rest) := by
  cases hfault : b.fault? s with
  | none => simp [insertionsTried_cons_of_none hfault, h]
  | some e => simp [insertionsTried_cons_of_fault hfault, h]

/-- Stores with the same faults at some steps try the same of them, with the same error. -/
theorem alike_of_fault? (steps : List WriteStep) (h : ∀ s ∈ steps, b'.fault? s = b.fault? s) :
    b'.firstError? steps = b.firstError? steps ∧
      b'.insertionsTried steps = b.insertionsTried steps := by
  induction steps with
  | nil => exact ⟨rfl, rfl⟩
  | cons s steps ih =>
    obtain ⟨hs, h⟩ := List.forall_mem_cons.1 h
    cases hfault : b.fault? s with
    | none =>
      have hnone : b'.fault? s = none := hs.trans hfault
      rw [firstError?_cons_of_none hfault, firstError?_cons_of_none hnone,
        insertionsTried_cons_of_none hfault, insertionsTried_cons_of_none hnone, (ih h).1, (ih h).2]
      exact ⟨rfl, rfl⟩
    | some e =>
      have hsome : b'.fault? s = some e := hs.trans hfault
      rw [firstError?_cons_of_fault hfault, firstError?_cons_of_fault hsome,
        insertionsTried_cons_of_fault hfault, insertionsTried_cons_of_fault hsome]
      exact ⟨rfl, rfl⟩

end Backend

/-! ## Series of insertions -/

/-- The insertion meets the faults of the step that it counts as. -/
structure Insertion.Counts (i : Insertion) : Prop where
  isInsertion : i.step.isInsertion = true
  fault?_eq : ∀ b : Backend, b.fault? i.step = b.injected? (.insertInto i.batch.table)

/-- The error of a series of insertions, if it is not completed. -/
def Progress.End.error? : Progress.End → Option WriteError
  | .complete _ => none
  | .failed step e _ => some (.step step e)
  | .outOfTime n _ => some (.timedOut n)

theorem exceededLimit?_eq_none_iff {limit : Option Nat} {elapsed : Nat} :
    exceededLimit? limit elapsed = none ↔ ∀ n ∈ limit, elapsed ≤ n := by
  simp [exceededLimit?, Option.filter_eq_none_iff]

theorem exceededLimit?_mono {limit : Option Nat} {n elapsed elapsed' : Nat}
    (h : exceededLimit? limit elapsed = some n) (hle : elapsed ≤ elapsed') :
    exceededLimit? limit elapsed' = some n := by
  obtain ⟨hlimit, hover⟩ : limit = some n ∧ n < elapsed := by
    simpa [exceededLimit?, Option.filter_eq_some_iff] using h
  simpa [exceededLimit?, Option.filter_eq_some_iff, hlimit] using Nat.lt_of_lt_of_le hover hle

/-- How a write ends that makes these steps, if some time has gone by. -/
def Backend.errorAfter? (b : Backend) (limit : Option Nat) (elapsed : Nat)
    (steps : List WriteStep) : Option WriteError :=
  match exceededLimit? limit (elapsed + b.latency * b.insertionsTried steps) with
  | some n => some (.timedOut n)
  | none => b.firstError? steps

namespace Backend

variable {b : Backend} {limit : Option Nat}

/-- No error is no fault, and no time over. -/
theorem errorAfter?_eq_none_iff {elapsed : Nat} {steps : List WriteStep} :
    b.errorAfter? limit elapsed steps = none ↔
      (∀ n ∈ limit, elapsed + b.latency * b.insertionsTried steps ≤ n) ∧
        ∀ s ∈ steps, b.fault? s = none := by
  rw [errorAfter?, ← exceededLimit?_eq_none_iff, ← firstError?_eq_none_iff]
  cases exceededLimit? limit (elapsed + b.latency * b.insertionsTried steps) <;> simp

theorem insertBatch_eq_error {tx : Transaction} {batch : Batch} {e : StoreError}
    (h : b.injected? (.insertInto batch.table) = some e) : b.insertBatch tx batch = .error e := by
  obtain ⟨hmem, rfl⟩ : FailurePoint.insertInto batch.table ∈ b.failing ∧
      (FailurePoint.insertInto batch.table).error = e := by
    simpa [injected?] using h
  rw [insertBatch, check, if_pos hmem]

theorem insertBatch_eq_ok {tx : Transaction} {batch : Batch}
    (h : b.injected? (.insertInto batch.table) = none) :
    b.insertBatch tx batch = .ok { tx with batches := tx.batches ++ [batch] } := by
  have hmem : FailurePoint.insertInto batch.table ∉ b.failing := by simpa [injected?] using h
  rw [insertBatch, check, if_neg hmem]

/-- **A series of insertions runs out of time or fails at its first fault**: out of time if the
insertions up to that fault take too long. -/
theorem error?_insertAll {insertions : List Insertion} {p : Progress}
    (hcounts : ∀ i ∈ insertions, i.Counts) (hstart : exceededLimit? limit p.elapsed = none) :
    (b.insertAll limit insertions p).error? =
      b.errorAfter? limit p.elapsed (insertions.map (·.step)) := by
  induction insertions generalizing p with
  | nil =>
    have htime : p.elapsed + b.latency * b.insertionsTried [] = p.elapsed := rfl
    rw [errorAfter?, List.map_nil, htime, hstart]
    rfl
  | cons i rest ih =>
    obtain ⟨hi, hcounts⟩ := List.forall_mem_cons.1 hcounts
    have htried := b.insertionsTried_cons_pos (rest.map (·.step)) hi.isInsertion
    simp only [insertAll, List.map_cons]
    cases hlimit : exceededLimit? limit (p.elapsed + b.latency) with
    | some n =>
      -- the time is over already, and further insertions do not make it less
      have hover := exceededLimit?_mono hlimit
        (Nat.add_le_add_left (Nat.le_mul_of_pos_right b.latency htried) p.elapsed)
      rw [errorAfter?, hover]
      rfl
    | none =>
      cases hfault : b.fault? i.step with
      | some e =>
        have herror := hi.fault?_eq b ▸ hfault
        rw [errorAfter?, insertionsTried_cons_of_fault hfault, if_pos hi.isInsertion, Nat.mul_one,
          hlimit, firstError?_cons_of_fault hfault, insertBatch_eq_error herror]
        rfl
      | none =>
        have hnone := hi.fault?_eq b ▸ hfault
        have htime : p.elapsed + b.latency * b.insertionsTried (i.step :: rest.map (·.step)) =
            p.elapsed + b.latency + b.latency * b.insertionsTried (rest.map (·.step)) := by
          rw [insertionsTried_cons_of_none hfault, if_pos hi.isInsertion, Nat.mul_succ]
          omega
        rw [errorAfter?, htime, firstError?_cons_of_none hfault, insertBatch_eq_ok hnone]
        exact ih hcounts hlimit

/-! ## Writes -/

theorem fault?_takeCommitId (s : WriteStep) : b.takeCommitId.fault? s = b.fault? s := by
  cases s <;> rfl

/-- A commit id that was taken does not change how a write goes on. -/
theorem errorAfter?_takeCommitId (elapsed : Nat) (steps : List WriteStep) :
    b.takeCommitId.errorAfter? limit elapsed steps = b.errorAfter? limit elapsed steps := by
  obtain ⟨herror, htried⟩ := alike_of_fault? steps fun s _ => b.fault?_takeCommitId s
  rw [errorAfter?, herror, htried]
  rfl

theorem exceededLimit?_zero : exceededLimit? limit 0 = none := by
  simp [exceededLimit?]

section Steps

variable {s : WriteStep} {steps : List WriteStep} {elapsed : Nat} {e : StoreError}

theorem errorAfter?_cons_of_fault (hs : s.isInsertion = false) (h : b.fault? s = some e)
    (hstart : exceededLimit? limit elapsed = none) :
    b.errorAfter? limit elapsed (s :: steps) = some (.step s e) := by
  have htime : elapsed + b.latency * b.insertionsTried (s :: steps) = elapsed := by
    simp [insertionsTried_cons_of_fault h, hs]
  rw [errorAfter?, htime, hstart]
  exact firstError?_cons_of_fault h

theorem errorAfter?_cons_of_none (hs : s.isInsertion = false) (h : b.fault? s = none) :
    b.errorAfter? limit elapsed (s :: steps) = b.errorAfter? limit elapsed steps := by
  simp [errorAfter?, insertionsTried_cons_of_none h, firstError?_cons_of_none h, hs]

/-- The end of the transaction takes no time. -/
theorem insertionsTried_concat_finalize :
    b.insertionsTried (steps ++ [.finalize]) = b.insertionsTried steps := by
  induction steps with
  | nil =>
    cases hfault : b.fault? .finalize with
    | none => simp [insertionsTried_cons_of_none hfault, WriteStep.isInsertion]
    | some e =>
      rw [List.nil_append, insertionsTried_cons_of_fault hfault]
      rfl
  | cons s steps ih =>
    cases hfault : b.fault? s with
    | none =>
      rw [List.cons_append, insertionsTried_cons_of_none hfault, ih,
        insertionsTried_cons_of_none hfault]
    | some e =>
      rw [List.cons_append, insertionsTried_cons_of_fault hfault,
        insertionsTried_cons_of_fault hfault]

theorem errorAfter?_concat_finalize :
    b.errorAfter? limit elapsed (steps ++ [.finalize]) =
      (b.errorAfter? limit elapsed steps).or (b.outage.finalize.map (.step .finalize)) := by
  have hlast : b.firstError? [.finalize] = b.outage.finalize.map (.step .finalize) := by
    cases hfault : b.outage.finalize with
    | none => exact firstError?_cons_of_none hfault
    | some e => exact firstError?_cons_of_fault hfault
  rw [errorAfter?, errorAfter?, insertionsTried_concat_finalize]
  cases exceededLimit? limit (elapsed + b.latency * b.insertionsTried steps) with
  | some n => rfl
  | none =>
    rw [firstError?, List.findSome?_append, ← hlast]
    rfl

end Steps

/-- A transaction is given up with the error of its insertions, or else it is concluded. -/
theorem result_endOfInsertions {α : Type} [Aggregate α] (x : Progress.End) (id : CommitId)
    (note : CommitNote) (a : α) :
    (match x with
      | .complete p => b.conclude p id note a
      | .failed step e p => b.abort p step e a
      | .outOfTime n p => b.abandon p n a).result =
      match x.error?.or (b.outage.finalize.map (.step .finalize)) with
      | some error => .error error
      | none => .ok id := by
  cases x with
  | complete p =>
    simp only [conclude, finalize, Progress.End.error?, Option.none_or]
    cases b.outage.finalize <;> rfl
  | failed | outOfTime => rfl

/-- **How a write ends.** -/
theorem result_write {α : Type} [Aggregate α] {modelId : Int32} {note : CommitNote} {a : α}
    {batches : List Batch}
    (h : Aggregate.batches (Aggregate.stamp b.store.nextCommitId a) = .ok batches) :
    (b.write modelId note limit a).result =
      match b.errorAfter? limit 0 (WriteStep.series (batches.map Batch.table)) with
      | some error => .error error
      | none => .ok b.store.nextCommitId := by
  have hseries : WriteStep.series (batches.map Batch.table) =
      .start :: .commitRow :: ((.identities :: (batches.map Batch.table).map .batch) ++
        [.finalize]) := rfl
  rw [hseries, write, start]
  cases hstart : b.outage.start with
  | some e =>
    have hfault : b.fault? .start = some e := hstart
    rw [errorAfter?_cons_of_fault rfl hfault exceededLimit?_zero]
    rfl
  | none =>
    have hfault : b.fault? .start = none := hstart
    rw [errorAfter?_cons_of_none rfl hfault]
    simp only [answerUnless, insertCommit, check]
    by_cases hrow : .commitRow ∈ b.failing
    · have hfault : b.fault? .commitRow = some FailurePoint.commitRow.error := if_pos hrow
      rw [errorAfter?_cons_of_fault rfl hfault exceededLimit?_zero, if_pos hrow]
      rfl
    · have hfault : b.fault? .commitRow = none := if_neg hrow
      rw [errorAfter?_cons_of_none rfl hfault, errorAfter?_concat_finalize, if_neg hrow]
      simp only [insertionsOf, h]
      generalize hinsertions : (_ :: List.map _ batches : List Insertion) = insertions
      have hcounts : ∀ i ∈ insertions, i.Counts := by
        rw [← hinsertions]
        refine List.forall_mem_cons.2 ⟨⟨rfl, fun _ => rfl⟩, List.forall_mem_map.2 fun batch _ => ?_⟩
        exact ⟨rfl, fun _ => rfl⟩
      have hsteps : insertions.map (·.step) =
          .identities :: (batches.map Batch.table).map .batch := by
        rw [← hinsertions, List.map_cons, List.map_map, List.map_map]
        rfl
      generalize hp : ({ tx := _ } : Progress) = p
      have hstart : exceededLimit? limit p.elapsed = none := by
        rw [← hp]
        exact exceededLimit?_zero
      have htime : p.elapsed = 0 := by rw [← hp]
      have herror := error?_insertAll (b := b.takeCommitId) hcounts hstart
      rw [hsteps, errorAfter?_takeCommitId, htime] at herror
      rw [← herror]
      exact result_endOfInsertions (b := b.takeCommitId) _ _ _ _

/-! ## Faults that no step meets -/

/-- The backend with other failure points. -/
def withFailing (b : Backend) (failing : List FailurePoint) : Backend := { b with failing }

variable {failing : List FailurePoint}

theorem insertAll_withFailing {insertions : List Insertion} {p : Progress}
    (h : ∀ i ∈ insertions,
      FailurePoint.insertInto i.batch.table ∈ failing ↔ .insertInto i.batch.table ∈ b.failing) :
    (b.withFailing failing).insertAll limit insertions p = b.insertAll limit insertions p := by
  induction insertions generalizing p with
  | nil => rfl
  | cons i rest ih =>
    obtain ⟨hi, hrest⟩ := List.forall_mem_cons.1 h
    have hbatch (tx : Transaction) :
        (b.withFailing failing).insertBatch tx i.batch = b.insertBatch tx i.batch := by
      simp only [insertBatch, check, withFailing, hi]
    have hlatency : (b.withFailing failing).latency = b.latency := rfl
    simp only [insertAll, hbatch, ih hrest, hlatency]

/-- **Failure points that a write does not come by change nothing.** -/
theorem write_withFailing {α : Type} [Aggregate α] {modelId : Int32} {note : CommitNote} {a : α}
    {batches : List Batch}
    (h : Aggregate.batches (Aggregate.stamp b.store.nextCommitId a) = .ok batches)
    (hrow : .commitRow ∈ failing ↔ .commitRow ∈ b.failing)
    (htables : ∀ table ∈ .entities :: batches.map Batch.table,
      FailurePoint.insertInto table ∈ failing ↔ .insertInto table ∈ b.failing) :
    (b.withFailing failing).write modelId note limit a =
      { b.write modelId note limit a with
        backend := (b.write modelId note limit a).backend.withFailing failing } := by
  have hopen : (b.withFailing failing).start = b.start := rfl
  have hcommit (tx : Transaction) : (b.withFailing failing).insertCommit tx note =
      (b.insertCommit tx note).map fun r => (r.1, r.2.1.withFailing failing, r.2.2) := by
    simp only [insertCommit, check, withFailing, hrow]
    split <;> rfl
  rw [write, write, hopen]
  cases b.start with
  | error e => rfl
  | ok tx =>
    simp only [hcommit]
    cases htaken : b.insertCommit tx note with
    | error e => rfl
    | ok taken =>
      obtain ⟨id, b', staged⟩ := taken
      obtain ⟨-, heq⟩ := check_eq_ok_iff.1 htaken
      simp only [Prod.mk.injEq] at heq
      obtain ⟨rfl, rfl, rfl⟩ := heq
      simp only [Except.map, insertionsOf, h]
      rw [insertAll_withFailing]
      · generalize Backend.insertAll _ _ _ _ = ending
        cases ending with
        | complete p =>
          simp only [conclude, finalize, withFailing]
          cases b.outage.finalize <;> rfl
        | failed | outOfTime => rfl
      · refine List.forall_mem_cons.2 ⟨htables _ List.mem_cons_self, List.forall_mem_map.2 ?_⟩
        exact fun batch hbatch => htables _ (List.mem_cons_of_mem _ (List.mem_map_of_mem hbatch))

/-- The backend with another error for rollbacks, or none. -/
def withRollback (b : Backend) (rollback : Option StoreError) : Backend :=
  { b with outage := { b.outage with rollback } }

theorem fault?_withRollback (rollback : Option StoreError) (s : WriteStep) :
    (b.withRollback rollback).fault? s = b.fault? s := by
  cases s <;> rfl

theorem errorAfter?_withRollback (rollback : Option StoreError) (elapsed : Nat)
    (steps : List WriteStep) :
    (b.withRollback rollback).errorAfter? limit elapsed steps =
      b.errorAfter? limit elapsed steps := by
  obtain ⟨herror, htried⟩ :=
    alike_of_fault? steps fun s _ => b.fault?_withRollback rollback s
  rw [errorAfter?, herror, htried]
  rfl

end Backend

/-! ## The main statement -/

namespace Topology

/-- How a write of a topology ends. -/
theorem result_write {b : Backend} {modelId : Int32} {note : CommitNote} {limit : Option Nat}
    {t : Topology} :
    (b.write modelId note limit t).result =
      match b.errorAfter? limit 0 t.writeSteps with
      | some error => .error error
      | none => .ok b.store.nextCommitId := by
  have hbatches : Aggregate.batches (Aggregate.stamp b.store.nextCommitId t) =
      .ok (t.stamp b.store.nextCommitId).batches := rfl
  rw [Backend.result_write hbatches, map_table_batches_stamp]
  rfl

end Topology

/-- **A write fails at the first of its steps that meets a fault**, and succeeds if none does.
Within a limit it ends in the same way if the insertions that are tried are over in time, and else
it is timed out.  Failure points that are not on its way change nothing about it, and an error of
the rollback is never its result. -/
theorem write_fails_at_first_fault (b : Backend) (modelId : Int32) (note : CommitNote)
    (t : Topology) :
    (∀ error, (b.write modelId note none t).result = .error error ↔
        ∃ before s rest e, t.writeSteps = before ++ s :: rest ∧
          (∀ s' ∈ before, b.fault? s' = none) ∧ b.fault? s = some e ∧ error = .step s e) ∧
      (∀ id, (b.write modelId note none t).result = .ok id ↔
        id = b.store.nextCommitId ∧ ∀ s ∈ t.writeSteps, b.fault? s = none) ∧
      (∀ limit, (b.write modelId note (some limit) t).result =
        if b.latency * b.insertionsTried t.writeSteps ≤ limit then
          (b.write modelId note none t).result
        else .error (.timedOut limit)) ∧
      (∀ limit failing,
        (FailurePoint.commitRow ∈ failing ↔ .commitRow ∈ b.failing) →
        (∀ table ∈ .entities :: t.tables,
          FailurePoint.insertInto table ∈ failing ↔ .insertInto table ∈ b.failing) →
        (b.withFailing failing).write modelId note limit t =
          { b.write modelId note limit t with
            backend := (b.write modelId note limit t).backend.withFailing failing }) ∧
      ∀ limit rollback, ((b.withRollback rollback).write modelId note limit t).result =
        (b.write modelId note limit t).result := by
  have hnone : (b.write modelId note none t).result =
      match b.firstError? t.writeSteps with
      | some error => .error error
      | none => .ok b.store.nextCommitId := Topology.result_write
  refine ⟨fun error => ?_, fun id => ?_, fun limit => ?_, fun limit failing hrow htables => ?_,
    fun limit rollback => ?_⟩
  · rw [hnone, ← Backend.firstError?_eq_some_iff]
    cases b.firstError? t.writeSteps <;> simp
  · rw [hnone, ← Backend.firstError?_eq_none_iff]
    cases b.firstError? t.writeSteps <;> simp [eq_comm]
  · rw [hnone, Topology.result_write, Backend.errorAfter?, Nat.zero_add]
    by_cases htime : b.latency * b.insertionsTried t.writeSteps ≤ limit
    · have hin : exceededLimit? (some limit) (b.latency * b.insertionsTried t.writeSteps) =
          none := by
        simpa [exceededLimit?] using htime
      rw [if_pos htime, hin]
    · have hover : exceededLimit? (some limit) (b.latency * b.insertionsTried t.writeSteps) =
          some limit := by
        simpa [exceededLimit?] using htime
      rw [if_neg htime, hover]
  · have hbatches : Aggregate.batches (Aggregate.stamp b.store.nextCommitId t) =
        .ok (t.stamp b.store.nextCommitId).batches := rfl
    refine Backend.write_withFailing hbatches hrow ?_
    rwa [Topology.map_table_batches_stamp]
  · rw [Topology.result_write, Topology.result_write, Backend.errorAfter?_withRollback]
    rfl

/-- A store at which insertions take ten milliseconds, and fail for switches and for terminals; nor
can a transaction be rolled back. -/
def faultySwitchesAndTerminals : Backend :=
  { failing := [.insertInto .switches, .insertInto .terminals]
    latency := 10
    outage := { rollback := some (.database "connection lost") } }

/-- A terminal is refused there as if nothing else was wrong, and three insertions were tried by
then. -/
theorem write_fails_at_first_fault_terminal :
    let b := faultySwitchesAndTerminals
    let t : Topology :=
      { reportingGroup := { mrid := .ofNat 1 }, terminals := [{ mrid := .ofNat 2 }] }
    let refused : Except WriteError CommitId :=
      .error (.step (.batch .terminals) (FailurePoint.insertInto .terminals).error)
    (b.write 1 { message := "m", author := "a" } none t).result = refused ∧
      (b.write 1 { message := "m", author := "a" } (some 30) t).result = refused ∧
      (b.write 1 { message := "m", author := "a" } (some 29) t).result = .error (.timedOut 29) ∧
      ((b.withFailing [.insertInto .terminals]).write 1 { message := "m", author := "a" } (some 30)
        t).result = refused := by
  intro b t refused
  obtain ⟨herror, -, htimed, hfailing, -⟩ :=
    write_fails_at_first_fault b 1 { message := "m", author := "a" } t
  have hrefused : (b.write 1 { message := "m", author := "a" } none t).result = refused :=
    (herror _).2 ⟨[.start, .commitRow, .identities, .batch .reportingGroups], .batch .terminals,
      [.finalize], _, by decide, by decide, by decide, rfl⟩
  have hthirty : (b.write 1 { message := "m", author := "a" } (some 30) t).result = refused := by
    rw [htimed, if_pos (by decide), hrefused]
  refine ⟨hrefused, hthirty, ?_, ?_⟩
  · rw [htimed, if_neg (by decide)]
  · rw [hfailing (some 30) [.insertInto .terminals] (by decide) (by decide)]
    exact hthirty

end Switchyard
