import Switchyard.Proofs.Write.Outcome
import Switchyard.Store.Interleaving

/-!
# What an action can come to

`Interleaving.step` looks its transaction up, asks the backend, and is refused in several ways.
`StepEnd` says once what can come of an action, and `step_end` that nothing else can; whatever is to
be known about interleaved transactions is read off its cases.

* Only `committed` makes anything visible that was staged, and `seeded` whatever is seeded.
* Only `commitStaged` takes a commit id.
* An action that ends its transaction ends it whether or not the store goes along.

Which actions are answered and which are refused is settled by `step_isOk_iff`.
-/

set_option autoImplicit false

namespace Switchyard

/-- The transaction with one more commit row. -/
def Transaction.stageCommit (tx : Transaction) (commit : Commit) : Transaction :=
  { tx with commits := tx.commits ++ [commit] }

/-- The transaction with one more batch. -/
def Transaction.stageBatch (tx : Transaction) (batch : Batch) : Transaction :=
  { tx with batches := tx.batches ++ [batch] }

/-- The backend once a transaction is visible. -/
def Backend.disclose (b : Backend) (tx : Transaction) : Backend :=
  { b with store := { b.store with contents := b.store.contents.append tx } }

/-- The action asks for something that comes to nothing if it is refused. -/
def Action.isRequest : Action → Bool
  | .start _ | .insertCommit .. | .insertBatch .. => true
  | _ => false

namespace Interleaving

variable {s : Interleaving}

/-! ## Open transactions -/

theorem lookup_cons_of_ne {name other : String} {tx : Transaction}
    {transactions : List (String × Transaction)} (h : other ≠ name) :
    ((name, tx) :: transactions).lookup other = transactions.lookup other := by
  rw [List.lookup_cons, beq_eq_false_iff_ne.2 h]

theorem transaction?_close (s : Interleaving) (name other : String) :
    (s.close name).transaction? other = if other = name then none else s.transaction? other := by
  obtain ⟨backend, transactions⟩ := s
  simp only [transaction?, close]
  induction transactions with
  | nil => simp
  | cons t rest ih =>
    obtain ⟨n, tx⟩ := t
    by_cases hn : n = name
    · subst hn
      rw [List.filter_cons_of_neg (by simp), ih]
      by_cases hother : other = n
      · simp [hother]
      · simp only [if_neg hother, lookup_cons_of_ne hother]
    · rw [List.filter_cons_of_pos (by simpa using hn)]
      by_cases hother : other = n
      · subst hother
        rw [List.lookup_cons_self, List.lookup_cons_self, if_neg hn]
      · rw [lookup_cons_of_ne hother, lookup_cons_of_ne hother, ih]

theorem transaction?_put (s : Interleaving) (name other : String) (tx : Transaction) :
    (s.put name tx).transaction? other =
      if other = name then some tx else s.transaction? other := by
  rw [transaction?, put]
  by_cases h : other = name
  · rw [h, List.lookup_cons_self, if_pos rfl]
  · have hclose := s.transaction?_close name other
    rw [if_neg h, transaction?] at hclose
    rw [if_neg h, lookup_cons_of_ne h, hclose]

/-- Ending a transaction that is not open changes nothing. -/
theorem close_eq_self {name : String} (h : s.transaction? name = none) : s.close name = s := by
  obtain ⟨backend, transactions⟩ := s
  have hne : ∀ t ∈ transactions, (t.1 != name) = true := by
    intro t ht
    have hne : (name == t.1) = false := by simpa using List.lookup_eq_none_iff.1 h t ht
    exact bne_iff_ne.2 (Ne.symm (beq_eq_false_iff_ne.1 hne))
  rw [close, Interleaving.mk.injEq]
  exact ⟨rfl, List.filter_eq_self.2 hne⟩

@[simp] theorem backend_close (s : Interleaving) (name : String) :
    (s.close name).backend = s.backend := rfl

@[simp] theorem backend_put (s : Interleaving) (name : String) (tx : Transaction) :
    (s.put name tx).backend = s.backend := rfl

/-! ## The ends of a step -/

/-- The answer and the state that an action can come to. -/
inductive StepEnd (s : Interleaving) :
    Action → Except ActionError Reply → Interleaving → Prop where
  /-- A batch was added outside any transaction. -/
  | seeded (batch : Batch) (ids : List CommitId) :
    StepEnd s (.seed batch ids) (.ok .done)
      { s with backend.store := s.backend.store.seedBatch batch ids }
  | failingSet (points : List FailurePoint) :
    StepEnd s (.setFailing points) (.ok .done) { s with backend.failing := points }
  | outageSet (outage : Outage) :
    StepEnd s (.setOutage outage) (.ok .done) { s with backend.outage := outage }
  /-- A transaction was opened, in the place of one of the same name. -/
  | started (name : String) : StepEnd s (.start name) (.ok .done) (s.put name {})
  /-- A commit row was staged under the next commit id. -/
  | commitStaged (name : String) (note : CommitNote) (tx : Transaction)
    (h : s.transaction? name = some tx) :
    StepEnd s (.insertCommit name note) (.ok (.commitId s.backend.store.nextCommitId))
      ({ s with backend := s.backend.takeCommitId }.put name
        (tx.stageCommit { note with id := s.backend.store.nextCommitId }))
  /-- A batch was staged. -/
  | batchStaged (name : String) (batch : Batch) (tx : Transaction)
    (h : s.transaction? name = some tx) :
    StepEnd s (.insertBatch name batch) (.ok .done)
      (s.put name (tx.stageBatch batch))
  /-- Everything staged in a transaction became visible. -/
  | committed (name : String) (tx : Transaction) (h : s.transaction? name = some tx) :
    StepEnd s (.finalize name) (.ok .done)
      { s.close name with backend := s.backend.disclose tx }
  /-- A transaction ended without becoming visible, if it was open at all. -/
  | ended (a : Action) (name : String) (answer : Except ActionError Reply)
    (h : a = .finalize name ∧ answer.isOk = false ∨ a = .rollback name ∨ a = .drop name)
    (hreply : ∀ id, answer ≠ .ok (.commitId id)) :
    StepEnd s a answer (s.close name)
  /-- Nothing happened. -/
  | refused (a : Action) (e : ActionError) (h : a.isRequest = true) : StepEnd s a (.error e) s

/-- An action on a transaction that is not open comes to nothing. -/
theorem withTransaction_of_none {name : String}
    {run : Transaction → Except ActionError Reply × Interleaving × List Event}
    (h : s.transaction? name = none) :
    s.withTransaction name run = (.error (.noTransaction name), s, []) := by
  rw [withTransaction, h]

theorem withTransaction_of_some {name : String} {tx : Transaction}
    {run : Transaction → Except ActionError Reply × Interleaving × List Event}
    (h : s.transaction? name = some tx) : s.withTransaction name run = run tx := by
  rw [withTransaction, h]

/-- An action that would end a transaction that is not open. -/
theorem StepEnd.ended_of_none {a : Action} {name : String} (htx : s.transaction? name = none)
    (ha : a = .finalize name ∨ a = .rollback name ∨ a = .drop name) :
    StepEnd s a (.error (.noTransaction name)) s := by
  have hend : StepEnd s a (.error (.noTransaction name)) (s.close name) :=
    .ended a name _ (ha.imp_left fun h => ⟨h, rfl⟩) (by simp)
  rwa [close_eq_self htx] at hend

/-- **An action comes to one of these.** -/
theorem step_end (s : Interleaving) (a : Action) : StepEnd s a (s.step a).1 (s.step a).2.1 := by
  cases a with
  | seed batch ids => exact .seeded batch ids
  | setFailing points => exact .failingSet points
  | setOutage outage => exact .outageSet outage
  | start name =>
    rw [step]
    split
    · rename_i tx hstart
      obtain rfl : {} = tx := (Backend.answerUnless_eq_ok_iff.1 hstart).2
      exact .started name
    · exact .refused _ _ rfl
  | insertCommit name note =>
    cases htx : s.transaction? name with
    | none =>
      rw [step, withTransaction_of_none htx]
      exact .refused _ _ rfl
    | some tx =>
      rw [step, withTransaction_of_some htx]
      split
      · rename_i id backend tx' hinsert
        obtain ⟨-, heq⟩ := Backend.check_eq_ok_iff.1 hinsert
        simp only [Prod.mk.injEq] at heq
        obtain ⟨rfl, rfl, rfl⟩ := heq
        exact .commitStaged name note tx htx
      · exact .refused _ _ rfl
  | insertBatch name batch =>
    cases htx : s.transaction? name with
    | none =>
      rw [step, withTransaction_of_none htx]
      exact .refused _ _ rfl
    | some tx =>
      rw [step, withTransaction_of_some htx]
      split
      · rename_i tx' hinsert
        obtain ⟨-, rfl⟩ := Backend.check_eq_ok_iff.1 hinsert
        exact .batchStaged name batch tx htx
      · exact .refused _ _ rfl
  | finalize name =>
    cases htx : s.transaction? name with
    | none =>
      rw [step, withTransaction_of_none htx]
      exact .ended_of_none htx (.inl rfl)
    | some tx =>
      rw [step, withTransaction_of_some htx]
      split
      · rename_i backend hfinalize
        obtain ⟨-, rfl⟩ := Backend.answerUnless_eq_ok_iff.1 hfinalize
        exact .committed name tx htx
      · exact .ended _ name _ (.inl ⟨rfl, rfl⟩) (by simp)
  | rollback name =>
    cases htx : s.transaction? name with
    | none =>
      rw [step, withTransaction_of_none htx]
      exact .ended_of_none htx (.inr (.inl rfl))
    | some tx =>
      rw [step, withTransaction_of_some htx]
      dsimp only
      split
      · exact .ended _ name _ (.inr (.inl rfl)) (by simp)
      · exact .ended _ name _ (.inr (.inl rfl)) (by simp)
  | drop name =>
    cases htx : s.transaction? name with
    | none =>
      rw [step, withTransaction_of_none htx]
      exact .ended_of_none htx (.inr (.inr rfl))
    | some tx =>
      rw [step, withTransaction_of_some htx]
      exact .ended _ name _ (.inr (.inr rfl)) (by simp)

/-! ## Actions that are not refused -/

/-- The store goes along with an action: nothing that is set makes it fail, and a transaction that
it is about is open. -/
def Admits (s : Interleaving) : Action → Prop
  | .seed .. | .setFailing _ | .setOutage _ => True
  | .start _ => s.backend.outage.start = none
  | .insertCommit name _ => (s.transaction? name).isSome ∧ .commitRow ∉ s.backend.failing
  | .insertBatch name batch =>
    (s.transaction? name).isSome ∧ .insertInto batch.table ∉ s.backend.failing
  | .finalize name => (s.transaction? name).isSome ∧ s.backend.outage.finalize = none
  | .rollback name => (s.transaction? name).isSome ∧ s.backend.outage.rollback = none
  | .drop name => (s.transaction? name).isSome

/-- **An action is answered exactly if the store goes along with it.** -/
theorem step_isOk_iff (s : Interleaving) (a : Action) :
    (s.step a).1.isOk = true ↔ s.Admits a := by
  have hok (r : Reply) : (Except.ok r : Except ActionError Reply).isOk = true := rfl
  have herror (e : ActionError) : (Except.error e : Except ActionError Reply).isOk = false := rfl
  cases a with
  | seed | setFailing | setOutage => simp [step, Admits, hok]
  | start name =>
    rw [step, Backend.start, Admits]
    cases s.backend.outage.start <;> simp [Backend.answerUnless, hok, herror]
  | insertCommit name note =>
    rw [step, withTransaction, Admits]
    cases s.transaction? name with
    | none => simp [herror]
    | some tx =>
      by_cases hfail : .commitRow ∈ s.backend.failing <;>
        simp [Backend.insertCommit, Backend.check, hfail, hok, herror]
  | insertBatch name batch =>
    rw [step, withTransaction, Admits]
    cases s.transaction? name with
    | none => simp [herror]
    | some tx =>
      by_cases hfail : .insertInto batch.table ∈ s.backend.failing <;>
        simp [Backend.insertBatch, Backend.check, hfail, hok, herror]
  | finalize name =>
    rw [step, withTransaction, Admits]
    cases s.transaction? name with
    | none => simp [herror]
    | some tx =>
      cases hfail : s.backend.outage.finalize <;>
        simp [Backend.finalize, Backend.answerUnless, hfail, hok, herror]
  | rollback name =>
    rw [step, withTransaction, Backend.rollback, Admits]
    cases s.transaction? name with
    | none => simp [herror]
    | some tx =>
      cases s.backend.outage.rollback <;> simp [Backend.answerUnless, hok, herror]
  | drop name =>
    rw [step, withTransaction, Admits]
    cases s.transaction? name <;> simp [hok, herror]

end Interleaving

end Switchyard
