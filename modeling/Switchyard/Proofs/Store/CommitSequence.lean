import Mathlib.Data.List.Flatten
import Mathlib.Data.List.Induction
import Mathlib.Data.List.Perm.Subperm
import Switchyard.Asset.Connection
import Switchyard.Proofs.Store.Isolation
import Switchyard.Proofs.Version.Resolution
import Switchyard.Proofs.Write.Acceptance
import Switchyard.Proofs.Write.Calls

/-!
# Commit ids are never reused

Every transaction takes its commit ids from the sequence of the store, at once and for good: an id
that was taken by a transaction that came to nothing is not handed out again, and seeding moves the
sequence past whatever is seeded.  So each id that is taken is greater than all that were taken or
seeded before, and no two visible commits have the same id.  They need not be in ascending order,
since a transaction that was opened later may be committed first.

The sequence has an end, the greatest 64-bit number; all of this is said of runs that do not reach
it (`NeverWraps`).
-/

set_option autoImplicit false

namespace Switchyard

/-- There is a commit id after the last one taken. -/
def Store.HasNextId (s : Store) : Prop := s.lastCommitId.val ≠ Int64.maxValue

instance (s : Store) : Decidable s.HasNextId :=
  inferInstanceAs (Decidable (s.lastCommitId.val ≠ Int64.maxValue))

/-- Seeding records. -/
def Action.seedRecords {α : Type} [Record α] (rs : List α) : Action :=
  .seed (.ofRecords rs) (rs.map Record.commitId)

/-- The commit ids that come in with what an action seeds. -/
def Action.seededIds : Action → List CommitId
  | .seed _ ids => ids
  | _ => []

/-- The action takes a commit id, unless it is refused. -/
def Action.takesId : Action → Bool
  | .insertCommit .. => true
  | _ => false

/-- The commit id that an exchange took. -/
def Exchange.takenId? : Exchange → Option CommitId
  | ⟨_, .ok (.commitId id)⟩ => some id
  | _ => none

/-! ## The sequence of a store -/

theorem Store.lastCommitId_lt_next {s : Store} (h : s.HasNextId) :
    s.lastCommitId < s.nextCommitId := by
  have hmax : Int64.maxValue.toInt = 9223372036854775807 := by decide
  have hmin : Int64.minValue.toInt = -9223372036854775808 := by decide
  have hone : (1 : Int64).toInt = 1 := by decide
  have hne : s.lastCommitId.val.toInt ≠ Int64.maxValue.toInt := mt Int64.toInt_inj.1 h
  have hle := Int64.toInt_le s.lastCommitId.val
  have hge := Int64.minValue_le_toInt s.lastCommitId.val
  rw [CommitId.lt_iff, CommitId.toInt, CommitId.toInt, nextCommitId, Int64.toInt_add, hone,
    Int.bmod_eq_of_le (by omega) (by omega)]
  omega

theorem Store.le_foldl_laterId (ids : List CommitId) (start : CommitId) :
    start ≤ ids.foldl laterId start ∧ ∀ id ∈ ids, id ≤ ids.foldl laterId start := by
  induction ids generalizing start with
  | nil => exact ⟨CommitId.le_refl _, by simp⟩
  | cons id rest ih =>
    obtain ⟨hstart, hrest⟩ := ih (laterId start id)
    refine ⟨CommitId.le_trans (le_laterId_left start id) hstart, fun other hother => ?_⟩
    rcases List.mem_cons.1 hother with rfl | hother
    · exact CommitId.le_trans (le_laterId_right start other) hstart
    · exact hrest other hother

namespace Interleaving

variable {s : Interleaving}

/-- Whenever a commit row is inserted in the course of some actions, there is a next commit id. -/
def NeverWraps (s : Interleaving) : List Action → Prop
  | [] => True
  | a :: rest =>
    (a.takesId = true → s.backend.store.HasNextId) ∧ (s.step a).2.1.NeverWraps rest

instance decidableNeverWraps : (s : Interleaving) → (actions : List Action) →
    Decidable (s.NeverWraps actions)
  | _, [] => isTrue trivial
  | s, a :: rest =>
    have := decidableNeverWraps (s.step a).2.1 rest
    inferInstanceAs (Decidable ((a.takesId = true → s.backend.store.HasNextId) ∧
      (s.step a).2.1.NeverWraps rest))

theorem neverWraps_append {first later : List Action} :
    s.NeverWraps (first ++ later) ↔ s.NeverWraps first ∧ (s.run first).NeverWraps later := by
  induction first generalizing s with
  | nil => simp [NeverWraps]
  | cons a rest ih => rw [List.cons_append, NeverWraps, ih, NeverWraps, run_cons, and_assoc]

/-- An id that an action takes is greater than the last one before, and an action leaves the
sequence at or after everything that it was at, takes, or seeds. -/
theorem lastCommitId_step (s : Interleaving) {a : Action}
    (h : a.takesId = true → s.backend.store.HasNextId) :
    let after := (s.step a).2.1.backend.store.lastCommitId
    s.backend.store.lastCommitId ≤ after ∧
      (∀ id, Exchange.takenId? ⟨a, (s.step a).1⟩ = some id →
        s.backend.store.lastCommitId < id ∧ id ≤ after) ∧
      ∀ id ∈ a.seededIds, id ≤ after := by
  have hend := s.step_end a
  generalize (s.step a).1 = answer at hend ⊢
  generalize (s.step a).2.1 = after at hend ⊢
  cases hend with
  | seeded batch ids =>
    obtain ⟨hstart, hids⟩ := Store.le_foldl_laterId ids s.backend.store.lastCommitId
    exact ⟨hstart, by simp [Exchange.takenId?], hids⟩
  | commitStaged name note tx =>
    have hlt := Store.lastCommitId_lt_next (h rfl)
    refine ⟨CommitId.le_of_lt hlt, fun id hid => ?_, by simp [Action.seededIds]⟩
    rw [← Option.some.inj hid]
    exact ⟨hlt, CommitId.le_refl _⟩
  | failingSet | outageSet | started | batchStaged | committed =>
    exact ⟨CommitId.le_refl _, by simp [Exchange.takenId?], by simp [Action.seededIds]⟩
  | ended a name answer ha hreply =>
    refine ⟨CommitId.le_refl _, fun id hid => ?_, ?_⟩
    · rcases answer with e | (_ | id')
      · simp [Exchange.takenId?] at hid
      · simp [Exchange.takenId?] at hid
      · exact absurd rfl (hreply id')
    · rcases ha with ⟨rfl, -⟩ | rfl | rfl <;> simp [Action.seededIds]
  | refused a e ha =>
    refine ⟨CommitId.le_refl _, by simp [Exchange.takenId?], ?_⟩
    cases a <;> simp_all [Action.isRequest, Action.seededIds]

/-- The sequence never moves backwards. -/
theorem lastCommitId_le_run {actions : List Action} (h : s.NeverWraps actions) :
    s.backend.store.lastCommitId ≤ (s.run actions).backend.store.lastCommitId := by
  induction actions generalizing s with
  | nil => exact CommitId.le_refl _
  | cons a rest ih => exact CommitId.le_trans (s.lastCommitId_step h.1).1 (ih h.2)

/-! ## Commits, visible or staged -/

/-- The ids of all commits that are visible or staged in an open transaction. -/
def commitIds (s : Interleaving) : List CommitId :=
  s.backend.store.contents.commits.map Commit.id ++
    s.transactions.flatMap fun t => t.2.commits.map Commit.id

/-- Taking one open transaction out leaves the others. -/
theorem subperm_of_lookup {transactions : List (String × Transaction)} {name : String}
    {tx : Transaction} (f : Transaction → List CommitId)
    (h : transactions.lookup name = some tx) :
    (f tx ++ (transactions.filter fun t => t.1 != name).flatMap fun t => f t.2).Subperm
      (transactions.flatMap fun t => f t.2) := by
  induction transactions with
  | nil => simp at h
  | cons t rest ih =>
    obtain ⟨n, tx'⟩ := t
    by_cases hn : n = name
    · subst hn
      obtain rfl : tx' = tx := by simpa using h
      rw [List.filter_cons_of_neg (by simp), List.flatMap_cons]
      exact (List.Sublist.append_left (List.filter_sublist.flatMap _) (f tx')).subperm
    · rw [lookup_cons_of_ne (Ne.symm hn)] at h
      rw [List.filter_cons_of_pos (by simpa using hn), List.flatMap_cons, List.flatMap_cons]
      have hswap := List.perm_append_comm_assoc (f tx) (f tx')
        ((rest.filter fun t => t.1 != name).flatMap fun t => f t.2)
      exact hswap.subperm.trans ((List.subperm_append_left _).2 (ih h))

/-- An action takes no commit over but those that were visible or staged, and the one that it
stages. -/
theorem subperm_commitIds_step (s : Interleaving) (a : Action) :
    (s.step a).2.1.commitIds.Subperm
      (s.commitIds ++ (Exchange.takenId? ⟨a, (s.step a).1⟩).toList) := by
  have hend := s.step_end a
  generalize (s.step a).1 = answer at hend ⊢
  generalize (s.step a).2.1 = after at hend ⊢
  have hclose : ∀ name, (s.close name).commitIds.Subperm s.commitIds := fun name =>
    (List.Sublist.append_left (List.filter_sublist.flatMap _) _).subperm
  have happend : ∀ {ids : List CommitId}, ids.Subperm s.commitIds →
      ids.Subperm (s.commitIds ++ (Exchange.takenId? ⟨a, answer⟩).toList) := fun h =>
    h.trans (List.sublist_append_left _ _).subperm
  cases hend with
  | seeded | failingSet | outageSet | refused => exact happend (List.Subperm.refl _)
  | started name => exact happend (hclose name)
  | ended a name => exact happend (hclose name)
  | batchStaged name batch tx htx =>
    have hsub := subperm_of_lookup (fun t => t.commits.map Commit.id) htx
    exact happend ((List.subperm_append_left _).2 hsub)
  | committed name tx htx =>
    refine happend ?_
    have hsub := subperm_of_lookup (fun t => t.commits.map Commit.id) htx
    simp only [commitIds, Backend.disclose, Contents.append, List.map_append, List.append_assoc]
    exact (List.subperm_append_left _).2 hsub
  | commitStaged name note tx htx =>
    have hsub := subperm_of_lookup (fun t => t.commits.map Commit.id) htx
    have hlast : ∀ (ids others : List CommitId) (id : CommitId),
        (ids ++ [id] ++ others).Perm (ids ++ others ++ [id]) := by
      intro ids others id
      rw [List.append_assoc, List.append_assoc]
      exact List.perm_append_comm.append_left ids
    simp only [commitIds, put, close, Transaction.stageCommit, List.flatMap_cons,
      List.map_append, List.map_cons, List.map_nil, Exchange.takenId?, Option.toList_some]
    rw [List.append_assoc _ _ [_]]
    refine (List.subperm_append_left _).2 ((hlast _ _ _).subperm.trans ?_)
    exact (List.subperm_append_right _).2 hsub

/-! ## Runs -/

/-- Whatever was taken, seeded, staged or made visible in a run lies at or before the last id of the
sequence, and no commit has come in twice. -/
structure InSequence (s : Interleaving) (actions : List Action) : Prop where
  taken_le : ∀ id ∈ (s.transcript actions).filterMap Exchange.takenId?,
    id ≤ (s.run actions).backend.store.lastCommitId
  seeded_le : ∀ id ∈ actions.flatMap Action.seededIds,
    id ≤ (s.run actions).backend.store.lastCommitId
  commitIds_le : ∀ id ∈ (s.run actions).commitIds, id ≤ (s.run actions).backend.store.lastCommitId
  nodup : (s.run actions).commitIds.Nodup

/-- One more action stays in sequence. -/
theorem InSequence.concat {actions : List Action} {a : Action} (h : s.InSequence actions)
    (hnext : a.takesId = true → (s.run actions).backend.store.HasNextId) :
    s.InSequence (actions ++ [a]) := by
  obtain ⟨hstay, htaken, hseeded⟩ := (s.run actions).lastCommitId_step hnext
  have hsub := (s.run actions).subperm_commitIds_step a
  have hrun : s.run (actions ++ [a]) = ((s.run actions).step a).2.1 := s.run_append actions [a]
  have hlast {id : CommitId} (hid : id ≤ (s.run actions).backend.store.lastCommitId) :
      id ≤ (s.run (actions ++ [a])).backend.store.lastCommitId :=
    CommitId.le_trans hid (hrun ▸ hstay)
  have hnew {id : CommitId}
      (hid : id ∈ (Exchange.takenId? ⟨a, ((s.run actions).step a).1⟩).toList) :
      (s.run actions).backend.store.lastCommitId < id ∧
        id ≤ (s.run (actions ++ [a])).backend.store.lastCommitId :=
    hrun ▸ htaken id (Option.mem_toList.1 hid)
  refine ⟨fun id hid => ?_, fun id hid => ?_, fun id hid => ?_, ?_⟩
  · rw [transcript_append, List.filterMap_append] at hid
    rcases List.mem_append.1 hid with hid | hid
    · exact hlast (h.taken_le id hid)
    · obtain ⟨e, he, htaken⟩ := List.mem_filterMap.1 hid
      obtain rfl := List.mem_singleton.1 he
      exact (hnew (Option.mem_toList.2 htaken)).2
  · rw [List.flatMap_append] at hid
    rcases List.mem_append.1 hid with hid | hid
    · exact hlast (h.seeded_le id hid)
    · rw [hrun]
      exact hseeded id (by simpa using hid)
  · rw [hrun] at hid
    rcases List.mem_append.1 (hsub.subset hid) with hid | hid
    · exact hlast (h.commitIds_le id hid)
    · exact (hnew hid).2
  · have hnodup : ((s.run actions).commitIds ++
        (Exchange.takenId? ⟨a, ((s.run actions).step a).1⟩).toList).Nodup := by
      refine List.nodup_append'.2 ⟨h.nodup, ?_, fun id hid hid' => ?_⟩
      · cases Exchange.takenId? ⟨a, ((s.run actions).step a).1⟩ <;> simp
      · exact CommitId.not_le.2 (hnew hid').1 (h.commitIds_le id hid)
    obtain ⟨ids, hperm, hsublist⟩ := hsub
    rw [hrun]
    exact hperm.nodup_iff.1 (hnodup.sublist hsublist)

theorem inSequence_fresh (latency : Nat) {actions : List Action}
    (h : (fresh latency).NeverWraps actions) : (fresh latency).InSequence actions := by
  induction actions using List.reverseRecOn with
  | nil =>
    exact ⟨by simp [transcript], by simp, by simp [commitIds, fresh], by simp [commitIds, fresh]⟩
  | append_singleton actions a ih =>
    obtain ⟨hfirst, hlast⟩ := neverWraps_append.1 h
    exact (ih hfirst).concat hlast.1

/-- An id that is taken is greater than all that were taken or seeded before. -/
theorem InSequence.lt_of_taken {first : List Action} (h : s.InSequence first) {a : Action}
    (hnext : a.takesId = true → (s.run first).backend.store.HasNextId) {id : CommitId}
    (hid : ((s.run first).step a).1 = .ok (.commitId id)) :
    (∀ earlier ∈ (s.transcript first).filterMap Exchange.takenId?, earlier < id) ∧
      ∀ earlier ∈ first.flatMap Action.seededIds, earlier < id := by
  have hlt := ((s.run first).lastCommitId_step hnext).2.1 id (by rw [hid]; rfl)
  exact ⟨fun earlier hearlier => CommitId.lt_of_le_of_lt (h.taken_le earlier hearlier) hlt.1,
    fun earlier hearlier => CommitId.lt_of_le_of_lt (h.seeded_le earlier hearlier) hlt.1⟩

end Interleaving

/-! ## Ids of writes -/

/-- A write that succeeds has the id that its commit row took. -/
theorem Backend.insertCommit_mem_transcript {α : Type} [Aggregate α] {s : Interleaving}
    (name : String) {modelId : Int32} {note : CommitNote} {limit : Option Nat} {a : α}
    {id : CommitId} (h : (s.backend.write modelId note limit a).result = .ok id) :
    ⟨.insertCommit name note, .ok (.commitId id)⟩ ∈
      s.transcript (s.backend.writeCalls name modelId note limit a) := by
  have hid := id_of_write_eq_ok h
  cases hstart : s.backend.start with
  | error e => simp [write, hstart] at h
  | ok tx =>
    cases hcommit : s.backend.insertCommit tx note with
    | error e => simp [write, hstart, hcommit, abort] at h
    | ok staged =>
      obtain ⟨id', backend, tx'⟩ := staged
      obtain ⟨-, heq⟩ := check_eq_ok_iff.1 hcommit
      obtain rfl : s.backend.store.nextCommitId = id' := congrArg Prod.fst heq
      have hstep : ((s.step (.start name)).2.1.step (.insertCommit name note)).1 =
          .ok (.commitId s.backend.store.nextCommitId) := by
        have htx : (s.put name tx).transaction? name = some tx := by
          rw [Interleaving.transaction?_put, if_pos rfl]
        simp only [Interleaving.step, hstart, Interleaving.withTransaction_of_some htx,
          Interleaving.backend_put, hcommit]
      simp only [writeCalls, hstart, hcommit, Interleaving.transcript, hstep, hid]
      simp

/-! ## Two transactions at once -/

/-- Two transactions, of which the one that was opened first is committed last, a third that is
given up, and a terminal seeded in between with a commit id of its own. -/
def overtaking : List Action :=
  let note : CommitNote := { message := "m", author := "a" }
  [.start "first", .start "second", .insertCommit "first" note,
    .seedRecords [({ mrid := .ofNat 1, commitId := ⟨7⟩ } : Terminal)], .start "third",
    .insertCommit "third" note, .rollback "third", .insertCommit "second" note, .finalize "second",
    .finalize "first"]

theorem commits_overtaking :
    ((Interleaving.fresh 0).run overtaking).backend.store.contents.commits.map Commit.id =
      [⟨9⟩, ⟨1⟩] := by
  decide +kernel

/-! ## Commit ids are never reused -/

/-- **Commit ids are never reused.**  However actions are interleaved on a new store, as long as the
sequence does not wrap around,

* a commit id that is taken is greater than every one that was taken before, by whatever transaction
  and whatever became of it, and than that of every record that was seeded before,
* no two visible commits have the same id,
* the sequence never moves backwards.

The visible commits need not be in ascending order.  Writes are covered: whether they succeed, fail
or time out, they leave the store as the calls do that they make on a transaction of their own. -/
theorem commitIds_never_reused :
    (∀ (latency : Nat) (actions : List Action),
      (Interleaving.fresh latency).NeverWraps actions →
        (∀ first later name note id, actions = first ++ .insertCommit name note :: later →
          (((Interleaving.fresh latency).run first).step (.insertCommit name note)).1 =
            .ok (.commitId id) →
          (∀ earlier ∈ ((Interleaving.fresh latency).transcript first).filterMap
            Exchange.takenId?, earlier < id) ∧
          ∀ (α : Type) [Record α] (rs : List α), .seedRecords rs ∈ first →
            ∀ r ∈ rs, Record.commitId r < id) ∧
        (((Interleaving.fresh latency).run actions).backend.store.contents.commits.map
          Commit.id).Nodup ∧
        ∀ first later, actions = first ++ later →
          ((Interleaving.fresh latency).run first).backend.store.lastCommitId ≤
            ((Interleaving.fresh latency).run actions).backend.store.lastCommitId) ∧
      (∃ actions, (Interleaving.fresh 0).NeverWraps actions ∧
        ¬ (((Interleaving.fresh 0).run actions).backend.store.contents.commits.map
          Commit.id).Pairwise (· < ·)) ∧
      ∀ (α : Type) [Aggregate α] (s : Interleaving) (name : String) (modelId : Int32)
        (note : CommitNote) (limit : Option Nat) (a : α),
        s.transaction? name = none →
          s.run (s.backend.writeCalls name modelId note limit a) =
              { s with backend := (s.backend.write modelId note limit a).backend } ∧
            ∀ id, (s.backend.write modelId note limit a).result = .ok id →
              ⟨.insertCommit name note, .ok (.commitId id)⟩ ∈
                s.transcript (s.backend.writeCalls name modelId note limit a) := by
  refine ⟨fun latency actions hwraps => ⟨?_, ?_, ?_⟩, ⟨overtaking, by decide +kernel, ?_⟩, ?_⟩
  · rintro first later name note id rfl hid
    obtain ⟨hfirst, hnext, -⟩ := Interleaving.neverWraps_append.1 hwraps
    obtain ⟨htaken, hseeded⟩ :=
      (Interleaving.inSequence_fresh latency hfirst).lt_of_taken hnext hid
    refine ⟨htaken, fun α _ rs hrs r hr => hseeded _ ?_⟩
    exact List.mem_flatMap.2 ⟨_, hrs, List.mem_map_of_mem hr⟩
  · exact (List.nodup_append'.1 (Interleaving.inSequence_fresh latency hwraps).nodup).1
  · rintro first later rfl
    obtain ⟨-, hlater⟩ := Interleaving.neverWraps_append.1 hwraps
    rw [Interleaving.run_append]
    exact Interleaving.lastCommitId_le_run hlater
  · rw [commits_overtaking]
    decide
  · intro α _ s name modelId note limit a hname
    exact ⟨Interleaving.run_writeCalls hname modelId note limit a,
      fun id hid => Backend.insertCommit_mem_transcript name hid⟩

/-- When one transaction overtakes another, the later id lies past the seeded one and past that of
the transaction given up. -/
theorem commitIds_never_reused_overtaking :
    (Interleaving.fresh 0).NeverWraps overtaking ∧
      (((Interleaving.fresh 0).run overtaking).backend.store.contents.commits.map
        Commit.id).Nodup := by
  have hwraps : (Interleaving.fresh 0).NeverWraps overtaking := by decide +kernel
  exact ⟨hwraps, (commitIds_never_reused.1 0 overtaking hwraps).2.1⟩

end Switchyard
