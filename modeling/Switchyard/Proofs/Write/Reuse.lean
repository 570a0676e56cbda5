import Switchyard.Proofs.Write.Outcome

/-!
# Aggregates after a failed write

A failed write takes the stamps off its aggregate, so that the aggregate can be written again as
it is.  There is one exception: a write whose transaction is not even opened leaves the aggregate
alone, and records that came with the stamp of an earlier write keep it
(`unstamped_after_failure_iff`).  In either case nothing but stamps has changed.
-/

set_option autoImplicit false

namespace Switchyard

/-- What a failed write does to an aggregate: it takes the stamps off, unless it failed to open its
transaction. -/
theorem aggregate_of_failed_write {α : Type} [Aggregate α] [LawfulAggregate α] {b : Backend}
    {modelId : Int32} {note : CommitNote} {limit : Option Nat} {a : α} {e : WriteError}
    (h : (b.write modelId note limit a).result = .error e) :
    (b.write modelId note limit a).aggregate =
      if e.step? = some .start then a else Aggregate.stamp .unset a := by
  have hend := b.write_end modelId note limit a
  rw [h] at hend
  generalize (b.write modelId note limit a).backend = backend at hend
  generalize (b.write modelId note limit a).aggregate = aggregate at hend
  cases hend with
  | notStarted => rfl
  | noCommitRow => rfl
  | failed step e hstep => rw [WriteError.step?, if_neg (by simpa using hstep)]
  | timedOut => rfl

namespace Topology

/-- No record carries a commit. -/
def Unstamped (t : Topology) : Prop := ∀ id ∈ t.commitIds, id = CommitId.unset

/-- Two topologies hold the same records, but for their stamps. -/
def SameButStamps (t u : Topology) : Prop := ∀ c, t.stamp c = u.stamp c

theorem unstamped_stamp (t : Topology) : (t.stamp .unset).Unstamped := commitIds_stamp .unset t

end Topology

/-- **When a failed write leaves no stamp behind.**  It does so exactly if its transaction was
opened or there was no stamp in the first place, and it changes nothing but stamps.  This holds of
topologies and of single records of any type. -/
theorem unstamped_after_failure_iff (b : Backend) (modelId : Int32) (note : CommitNote)
    (limit : Option Nat) (e : WriteError) :
    (∀ t : Topology, (b.write modelId note limit t).result = .error e →
      ((b.write modelId note limit t).aggregate.Unstamped ↔
        e.step? ≠ some .start ∨ t.Unstamped) ∧
      (b.write modelId note limit t).aggregate.SameButStamps t) ∧
    ∀ (α : Type) [Record α] (r : α),
      (b.write modelId note limit (SingleVersion.mk r)).result = .error e →
      (Record.commitId (b.write modelId note limit (SingleVersion.mk r)).aggregate.record = .unset ↔
        e.step? ≠ some .start ∨ Record.commitId r = .unset) ∧
      Record.mrid (b.write modelId note limit (SingleVersion.mk r)).aggregate.record =
        Record.mrid r ∧
      Record.cells (b.write modelId note limit (SingleVersion.mk r)).aggregate.record =
        Record.cells r := by
  refine ⟨fun t h => ?_, fun α _ r h => ?_⟩
  · rw [aggregate_of_failed_write h]
    by_cases hstep : e.step? = some .start
    · rw [if_pos hstep]
      exact ⟨⟨.inr, fun h' => h'.resolve_left (not_not_intro hstep)⟩, fun _ => rfl⟩
    · rw [if_neg hstep]
      exact ⟨⟨fun _ => .inl hstep, fun _ => t.unstamped_stamp⟩, fun c => t.stamp_stamp c .unset⟩
  · rw [aggregate_of_failed_write h]
    by_cases hstep : e.step? = some .start
    · rw [if_pos hstep]
      exact ⟨⟨.inr, fun h' => h'.resolve_left (not_not_intro hstep)⟩, rfl, rfl⟩
    · rw [if_neg hstep]
      exact ⟨⟨fun _ => .inl hstep, fun _ => Record.commitId_stamp _ r⟩, Record.mrid_stamp _ r,
        Record.cells_stamp _ r⟩

/-- A stamped aggregate comes back without its stamp from a write that is not committed. -/
theorem stamp_lost_by_unfinished_write :
    let note : CommitNote := { message := "m", author := "a" }
    let group : Topology := { reportingGroup := { mrid := .ofNat 1, commitId := ⟨1⟩ } }
    let failing : Backend := { outage := { finalize := some (.rejected "commit" "driver fault") } }
    group.commitIds = [⟨1⟩] ∧
      (failing.write 0 note none group).result =
        .error (.step .finalize (.rejected "commit" "driver fault")) ∧
      (failing.write 0 note none group).aggregate.Unstamped := by
  intro note group failing
  refine ⟨rfl, rfl, ?_⟩
  have hiff := ((unstamped_after_failure_iff failing 0 note none _).1 group rfl).1
  exact hiff.2 (.inl (by simp [WriteError.step?]))

/-- A store whose transactions are all refused. -/
def Backend.refusing (b : Backend) : Backend :=
  { b with outage := { b.outage with start := some (.rejected "begin" "driver fault") } }

/-- An aggregate that was written once keeps the stamp of that write when the next one cannot open
its transaction. -/
theorem stamp_kept_by_refused_write :
    let note : CommitNote := { message := "m", author := "a" }
    let group : Topology := { reportingGroup := { mrid := .ofNat 1 } }
    let first := Backend.write {} 0 note none group
    let second := first.backend.refusing.write 0 note none first.aggregate
    first.result = .ok ⟨1⟩ ∧
      second.result = .error (.step .start (.rejected "begin" "driver fault")) ∧
      second.aggregate.commitIds = [⟨1⟩] :=
  ⟨rfl, rfl, rfl⟩

end Switchyard
