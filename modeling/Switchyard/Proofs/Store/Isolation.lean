import Mathlib.Data.List.Induction
import Switchyard.Proofs.Store.Growth

/-!
# Transactions are isolated

Any number of transactions may be open on a store at a time.  What is visible then is told from the
outside, by the `transcript` of a run: the actions in order, each with its answer.

* `staged` is what was inserted into a transaction since it was opened.
* `disclosures` lists what became visible and when: each batch that was seeded, and each transaction
  that was committed, with what was staged in it by then.

The main statement is `visible_eq_disclosed`: at any moment the commits and the rows of every table
are those of the disclosures in their order.  Striking everything that was staged in transactions
that are not committed from the transcript changes nothing about it.
-/

set_option autoImplicit false

namespace Switchyard

/-! ## Transcripts -/

/-- An action and its answer. -/
structure Exchange where
  action : Action
  answer : Except ActionError Reply

namespace Exchange

/-- A transaction of the given name begins or is over, so that nothing staged under the name before
belongs to what is staged after. -/
def bounds (name : String) : Exchange → Bool
  | ⟨.start other, .ok _⟩ => other = name
  | ⟨.finalize other, _⟩ | ⟨.rollback other, _⟩ | ⟨.drop other, _⟩ => other = name
  | _ => false

/-- The commit row that was staged in the transaction of a name. -/
def commit? (name : String) : Exchange → Option Commit
  | ⟨.insertCommit other note, .ok (.commitId id)⟩ =>
    if other = name then some { note with id } else none
  | _ => none

/-- The batch that was staged in the transaction of a name. -/
def batch? (name : String) : Exchange → Option Batch
  | ⟨.insertBatch other batch, .ok _⟩ => if other = name then some batch else none
  | _ => none

/-- The exchange is about inserting into the transaction of a name. -/
def insertsInto (name : String) : Exchange → Bool
  | ⟨.insertCommit other _, _⟩ | ⟨.insertBatch other _, _⟩ => other = name
  | _ => false

/-- The transaction of a name was committed. -/
def commits (name : String) : Exchange → Bool
  | ⟨.finalize other, .ok _⟩ => other = name
  | _ => false

end Exchange

/-- What happened since the last transaction of a name began or was over. -/
def sinceBound (name : String) (transcript : List Exchange) : List Exchange :=
  (transcript.reverse.takeWhile fun e => !e.bounds name).reverse

/-- What was staged under a name since the last transaction of that name began or was over, each
list in the order of insertion. -/
def staged (name : String) (transcript : List Exchange) : Transaction :=
  { commits := (sinceBound name transcript).filterMap (Exchange.commit? name)
    batches := (sinceBound name transcript).filterMap (Exchange.batch? name) }

/-- Something that became visible at one moment: a batch that was seeded, or everything staged in a
transaction that was committed. -/
inductive Disclosure where
  | seeded (batch : Batch)
  | committed (tx : Transaction)

namespace Disclosure

/-- The commit rows that became visible. -/
def commits : Disclosure → List Commit
  | seeded _ => []
  | committed tx => tx.commits

/-- The batches that became visible. -/
def batches : Disclosure → List Batch
  | seeded batch => [batch]
  | committed tx => tx.batches

/-- The rows of a table that became visible. -/
def rows (table : Table) (d : Disclosure) : List Json := Contents.rowsOf table d.batches

end Disclosure

/-- What an exchange made visible, given what went before. -/
def Exchange.disclosed (earlier : List Exchange) : Exchange → List Disclosure
  | ⟨.seed batch _, .ok _⟩ => [.seeded batch]
  | ⟨.finalize name, .ok _⟩ => [.committed (staged name earlier)]
  | _ => []

/-- What some exchanges made visible, given what went before. -/
def disclosuresAfter (earlier : List Exchange) : List Exchange → List Disclosure
  | [] => []
  | e :: later => e.disclosed earlier ++ disclosuresAfter (earlier ++ [e]) later

/-- What became visible in the course of a transcript, in order. -/
def disclosures (transcript : List Exchange) : List Disclosure := disclosuresAfter [] transcript

/-- The transaction that is open under a name is committed in the exchanges that follow: it is
committed before anything else ends it. -/
def CommittedIn (name : String) (later : List Exchange) : Prop :=
  ∃ e, later.find? (Exchange.bounds name) = some e ∧ e.commits name = true

/-- The name of the transaction that an action is about. -/
def Action.about? : Action → Option String
  | .start name | .insertCommit name _ | .insertBatch name _ => some name
  | .finalize name | .rollback name | .drop name => some name
  | .seed .. | .setFailing _ | .setOutage _ => none

/-- The rows that an action seeds. -/
def Action.seededRows : Action → List Json
  | .seed batch _ => batch.rows
  | _ => []

namespace Interleaving

/-- A new store, whose insertions take so many milliseconds. -/
def fresh (latency : Nat) : Interleaving := { backend := { latency } }

/-- The exchanges that some actions amount to. -/
def transcript (s : Interleaving) : List Action → List Exchange
  | [] => []
  | a :: actions => ⟨a, (s.step a).1⟩ :: transcript (s.step a).2.1 actions

theorem transcript_append (s : Interleaving) (first second : List Action) :
    s.transcript (first ++ second) = s.transcript first ++ (s.run first).transcript second := by
  induction first generalizing s with
  | nil => rfl
  | cons a rest ih => rw [List.cons_append, transcript, ih, transcript, List.cons_append, run_cons]

end Interleaving

/-! ## One more exchange -/

theorem disclosuresAfter_append (earlier first second : List Exchange) :
    disclosuresAfter earlier (first ++ second) =
      disclosuresAfter earlier first ++ disclosuresAfter (earlier ++ first) second := by
  induction first generalizing earlier with
  | nil => simp [disclosuresAfter]
  | cons e rest ih =>
    rw [List.cons_append, disclosuresAfter, ih, disclosuresAfter, List.append_assoc,
      List.append_assoc, List.singleton_append]

theorem disclosures_concat (transcript : List Exchange) (e : Exchange) :
    disclosures (transcript ++ [e]) = disclosures transcript ++ e.disclosed transcript := by
  rw [disclosures, disclosuresAfter_append]
  simp [disclosures, disclosuresAfter]

theorem sinceBound_concat (name : String) (transcript : List Exchange) (e : Exchange) :
    sinceBound name (transcript ++ [e]) =
      if e.bounds name then [] else sinceBound name transcript ++ [e] := by
  by_cases h : e.bounds name = true <;> simp [sinceBound, h]

/-- A boundary leaves nothing staged. -/
theorem staged_concat_of_bounds {name : String} {e : Exchange} (h : e.bounds name = true)
    (transcript : List Exchange) : staged name (transcript ++ [e]) = {} := by
  rw [staged, sinceBound_concat, if_pos h]
  rfl

/-- What is staged grows by what an exchange inserts. -/
theorem staged_concat_of_not_bounds {name : String} {e : Exchange} (h : e.bounds name = false)
    (transcript : List Exchange) :
    staged name (transcript ++ [e]) =
      { commits := (staged name transcript).commits ++ [e].filterMap (Exchange.commit? name)
        batches := (staged name transcript).batches ++ [e].filterMap (Exchange.batch? name) } := by
  rw [staged, sinceBound_concat, if_neg (by simp [h]), List.filterMap_append, List.filterMap_append]
  rfl

/-- An exchange that neither bounds a transaction nor inserts into it leaves what is staged. -/
theorem staged_concat_of_foreign {name : String} {e : Exchange} (hbounds : e.bounds name = false)
    (hcommit : e.commit? name = none) (hbatch : e.batch? name = none)
    (transcript : List Exchange) : staged name (transcript ++ [e]) = staged name transcript := by
  rw [staged_concat_of_not_bounds hbounds]
  simp [hcommit, hbatch]

/-- An action on another transaction, or on none, leaves what is staged under a name. -/
theorem staged_concat_of_ne {name : String} {a : Action} (h : a.about? ≠ some name)
    (answer : Except ActionError Reply) (transcript : List Exchange) :
    staged name (transcript ++ [⟨a, answer⟩]) = staged name transcript := by
  apply staged_concat_of_foreign
  · cases a <;> cases answer <;> simp_all [Action.about?, Exchange.bounds]
  · cases a <;> rcases answer with e | (_ | id) <;> simp_all [Action.about?, Exchange.commit?]
  · cases a <;> cases answer <;> simp_all [Action.about?, Exchange.batch?]

/-- A request that is refused leaves what is staged. -/
theorem staged_concat_of_refused {a : Action} (h : a.isRequest = true) (e : ActionError)
    (name : String) (transcript : List Exchange) :
    staged name (transcript ++ [⟨a, .error e⟩]) = staged name transcript := by
  apply staged_concat_of_foreign
  · cases a <;> simp_all [Action.isRequest, Exchange.bounds]
  · cases a <;> rfl
  · cases a <;> rfl

/-! ## Striking what is not committed -/

/-- Where the same is staged under every name, the same becomes visible. -/
theorem disclosuresAfter_congr {t u : List Exchange} (h : ∀ name, staged name t = staged name u)
    (later : List Exchange) : disclosuresAfter t later = disclosuresAfter u later := by
  induction later generalizing t u with
  | nil => rfl
  | cons e rest ih =>
    have hdisclosed : e.disclosed t = e.disclosed u := by
      unfold Exchange.disclosed
      split
      · rfl
      · rw [h]
      · rfl
    rw [disclosuresAfter, disclosuresAfter, hdisclosed, ih fun name => ?_]
    by_cases hb : e.bounds name = true
    · rw [staged_concat_of_bounds hb, staged_concat_of_bounds hb]
    · rw [staged_concat_of_not_bounds (Bool.eq_false_iff.2 hb),
        staged_concat_of_not_bounds (Bool.eq_false_iff.2 hb), h]

/-- An exchange that does not commit a transaction discloses nothing that is staged in it. -/
theorem disclosed_congr {name : String} {t u : List Exchange} {e : Exchange}
    (h : ∀ other, other ≠ name → staged other t = staged other u)
    (hcommits : e.commits name = false) : e.disclosed t = e.disclosed u := by
  unfold Exchange.disclosed
  split
  · rfl
  · rw [h]
    simpa [Exchange.commits] using hcommits
  · rfl

/-- What is staged in a transaction makes no difference as long as it is not committed. -/
theorem disclosuresAfter_congr_of_not_committed {name : String} {t u later : List Exchange}
    (h : ∀ other, other ≠ name → staged other t = staged other u)
    (hnot : ¬ CommittedIn name later) : disclosuresAfter t later = disclosuresAfter u later := by
  induction later generalizing t u with
  | nil => rfl
  | cons e rest ih =>
    have hnext : ∀ other, other ≠ name → staged other (t ++ [e]) = staged other (u ++ [e]) := by
      intro other hne
      by_cases hb : e.bounds other = true
      · rw [staged_concat_of_bounds hb, staged_concat_of_bounds hb]
      · rw [staged_concat_of_not_bounds (Bool.eq_false_iff.2 hb),
          staged_concat_of_not_bounds (Bool.eq_false_iff.2 hb), h other hne]
    rw [disclosuresAfter, disclosuresAfter]
    by_cases hb : e.bounds name = true
    · -- the transaction is over, and from here on nothing tells the two apart
      have hcommits : e.commits name = false := by
        by_contra hc
        exact hnot ⟨e, List.find?_cons_of_pos hb, by simpa using hc⟩
      rw [disclosed_congr h hcommits, disclosuresAfter_congr fun other => ?_]
      by_cases hother : other = name
      · rw [hother, staged_concat_of_bounds hb, staged_concat_of_bounds hb]
      · exact hnext other hother
    · have hcommits : e.commits name = false := by
        by_contra hc
        refine hb ?_
        unfold Exchange.commits at hc
        split at hc
        · simpa [Exchange.bounds] using hc
        · simp at hc
      rw [disclosed_congr h hcommits, ih hnext fun ⟨f, hf, hcommit⟩ => hnot ⟨f, ?_, hcommit⟩]
      rwa [List.find?_cons_of_neg hb]

/-- **What is staged in a transaction that is not committed might as well not have been.** -/
theorem disclosures_strike {name : String} {first later : List Exchange} {e : Exchange}
    (he : e.insertsInto name = true) (hnot : ¬ CommittedIn name later) :
    disclosures (first ++ e :: later) = disclosures (first ++ later) := by
  have habout : e.action.about? = some name := by
    unfold Exchange.insertsInto at he
    split at he <;> simp_all [Action.about?]
  have hdisclosed : e.disclosed first = [] := by
    unfold Exchange.insertsInto at he
    split at he <;> simp_all [Exchange.disclosed]
  rw [disclosures, disclosures, disclosuresAfter_append, disclosuresAfter_append, disclosuresAfter,
    List.nil_append, hdisclosed, List.nil_append]
  refine congrArg _ (disclosuresAfter_congr_of_not_committed (fun other hne => ?_) hnot)
  exact staged_concat_of_ne (by simpa [habout] using Ne.symm hne) e.answer first

/-! ## What the transcript tells -/

namespace Interleaving

/-- What is visible, and what is staged in the open transactions, is what a transcript says. -/
structure ToldBy (s : Interleaving) (transcript : List Exchange) : Prop where
  commits : s.backend.store.contents.commits = (disclosures transcript).flatMap Disclosure.commits
  batches : s.backend.store.contents.batches = (disclosures transcript).flatMap Disclosure.batches
  open_eq : ∀ name tx, s.transaction? name = some tx → staged name transcript = tx

theorem toldBy_fresh (latency : Nat) : (fresh latency).ToldBy [] :=
  ⟨rfl, rfl, by simp [fresh, transaction?]⟩

namespace ToldBy

variable {s s' : Interleaving} {t : List Exchange} {a : Action} {answer : Except ActionError Reply}
  {name : String}

/-- An exchange that makes nothing visible only has to be followed in the open transactions. -/
theorem concat (h : s.ToldBy t)
    (hcontents : s'.backend.store.contents = s.backend.store.contents)
    (hdisclosed : Exchange.disclosed t ⟨a, answer⟩ = [])
    (hopen : ∀ name tx, s'.transaction? name = some tx → staged name (t ++ [⟨a, answer⟩]) = tx) :
    s'.ToldBy (t ++ [⟨a, answer⟩]) where
  commits := by rw [hcontents, h.commits, disclosures_concat, hdisclosed, List.append_nil]
  batches := by rw [hcontents, h.batches, disclosures_concat, hdisclosed, List.append_nil]
  open_eq := hopen

/-- What is staged while an action is about no transaction. -/
theorem open_of_about_eq_none (h : s.ToldBy t) (ha : a.about? = none) (other : String)
    (tx : Transaction) (htx : s.transaction? other = some tx) :
    staged other (t ++ [⟨a, answer⟩]) = tx := by
  rw [staged_concat_of_ne (by simp [ha])]
  exact h.open_eq other tx htx

/-- What is staged once one transaction has a new value. -/
theorem open_put (hopen : ∀ name tx, s.transaction? name = some tx → staged name t = tx)
    (ha : a.about? = some name) {new : Transaction}
    (hnew : staged name (t ++ [⟨a, answer⟩]) = new) (other : String) (tx : Transaction)
    (htx : (s.put name new).transaction? other = some tx) :
    staged other (t ++ [⟨a, answer⟩]) = tx := by
  rw [transaction?_put] at htx
  by_cases hother : other = name
  · rw [if_pos hother, Option.some.injEq] at htx
    rw [hother, hnew, htx]
  · rw [if_neg hother] at htx
    rw [staged_concat_of_ne (by simpa [ha] using Ne.symm hother)]
    exact hopen other tx htx

/-- What is staged once one transaction is over. -/
theorem open_close (h : s.ToldBy t) (ha : a.about? = some name) (other : String) (tx : Transaction)
    (htx : (s.close name).transaction? other = some tx) :
    staged other (t ++ [⟨a, answer⟩]) = tx := by
  rw [transaction?_close] at htx
  by_cases hother : other = name
  · simp [hother] at htx
  · rw [if_neg hother] at htx
    rw [staged_concat_of_ne (by simpa [ha] using Ne.symm hother)]
    exact h.open_eq other tx htx

end ToldBy

/-- **A transcript keeps telling what is visible.** -/
theorem ToldBy.step {s : Interleaving} {t : List Exchange} (h : s.ToldBy t) (a : Action) :
    (s.step a).2.1.ToldBy (t ++ [⟨a, (s.step a).1⟩]) := by
  have hend := s.step_end a
  generalize (s.step a).1 = answer at hend ⊢
  generalize (s.step a).2.1 = after at hend ⊢
  cases hend with
  | seeded batch ids =>
    exact {
      commits := by
        rw [disclosures_concat, List.flatMap_append, ← h.commits]
        simp [Exchange.disclosed, Disclosure.commits, Store.seedBatch]
      batches := by
        rw [disclosures_concat, List.flatMap_append, ← h.batches]
        simp [Exchange.disclosed, Disclosure.batches, Store.seedBatch]
      open_eq := h.open_of_about_eq_none rfl }
  | failingSet points => exact h.concat rfl rfl (h.open_of_about_eq_none rfl)
  | outageSet outage => exact h.concat rfl rfl (h.open_of_about_eq_none rfl)
  | started name =>
    refine h.concat rfl rfl (open_put h.open_eq rfl ?_)
    exact staged_concat_of_bounds (by simp [Exchange.bounds]) t
  | commitStaged name note tx hname =>
    refine h.concat rfl rfl (open_put h.open_eq rfl ?_)
    rw [staged_concat_of_not_bounds rfl, h.open_eq name tx hname]
    simp [Exchange.commit?, Exchange.batch?, Transaction.stageCommit]
  | batchStaged name batch tx hname =>
    refine h.concat rfl rfl (open_put h.open_eq rfl ?_)
    rw [staged_concat_of_not_bounds rfl, h.open_eq name tx hname]
    simp [Exchange.commit?, Exchange.batch?, Transaction.stageBatch]
  | committed name tx hname =>
    exact {
      commits := by
        rw [disclosures_concat, List.flatMap_append, ← h.commits]
        simp [Exchange.disclosed, Disclosure.commits, h.open_eq name tx hname, Backend.disclose,
          Contents.append]
      batches := by
        rw [disclosures_concat, List.flatMap_append, ← h.batches]
        simp [Exchange.disclosed, Disclosure.batches, h.open_eq name tx hname, Backend.disclose,
          Contents.append]
      open_eq := h.open_close rfl }
  | ended a name answer ha =>
    have habout : a.about? = some name := by rcases ha with ⟨rfl, -⟩ | rfl | rfl <;> rfl
    refine h.concat rfl ?_ (h.open_close habout)
    rcases ha with ⟨rfl, hfail⟩ | rfl | rfl
    · cases answer with
      | error e => rfl
      | ok reply => simp [Except.isOk, Except.toBool] at hfail
    · rfl
    · rfl
  | refused a e ha =>
    refine h.concat rfl ?_ fun name tx htx => ?_
    · cases a <;> rfl
    · rw [staged_concat_of_refused ha]
      exact h.open_eq name tx htx

theorem toldBy_transcript (latency : Nat) (actions : List Action) :
    ((fresh latency).run actions).ToldBy ((fresh latency).transcript actions) := by
  induction actions using List.reverseRecOn with
  | nil => exact toldBy_fresh latency
  | append_singleton actions a ih =>
    rw [run_append, transcript_append]
    exact ih.step a

/-! ## Counting rows -/

/-- Everything visible is accounted for: apart from so many rows, it was persisted through
transactions. -/
def Accounted (s : Interleaving) (seeded : Nat) : Prop :=
  s.backend.store.contents.rowsWritten + seeded =
    s.backend.store.contents.commits.length +
      (s.backend.store.contents.batches.flatMap Batch.rows).length

theorem Accounted.step {s : Interleaving} {seeded : Nat} (h : s.Accounted seeded) (a : Action) :
    (s.step a).2.1.Accounted (seeded + a.seededRows.length) := by
  have hend := s.step_end a
  generalize (s.step a).1 = answer at hend
  generalize (s.step a).2.1 = after at hend
  rw [Accounted] at h
  cases hend with
  | seeded batch ids =>
    simp only [Accounted, Action.seededRows, Store.seedBatch, List.flatMap_append,
      List.flatMap_singleton, List.length_append]
    omega
  | committed name tx =>
    simp only [Accounted, Action.seededRows, Backend.disclose, Contents.append, List.flatMap_append,
      List.length_append, List.length_nil]
    omega
  | failingSet | outageSet | started | commitStaged | batchStaged => exact h
  | ended a name answer ha =>
    rcases ha with ⟨rfl, -⟩ | rfl | rfl <;> exact h
  | refused a e ha =>
    have hseeded : a.seededRows = [] := by
      cases a <;> simp_all [Action.isRequest, Action.seededRows]
    rwa [hseeded, List.length_nil, Nat.add_zero]

theorem accounted_run (latency : Nat) (actions : List Action) :
    ((fresh latency).run actions).Accounted (actions.flatMap Action.seededRows).length := by
  induction actions using List.reverseRecOn with
  | nil => rfl
  | append_singleton actions a ih =>
    rw [run_append, List.flatMap_append, List.length_append, List.flatMap_singleton]
    exact ih.step a

end Interleaving

/-- The tables hold all rows between them. -/
theorem Contents.length_flatMap_rows (contents : Contents) :
    (Table.all.flatMap contents.rows).length = (contents.batches.flatMap Batch.rows).length := by
  have happend : ∀ (f g : Table → List Json) (tables : List Table),
      (tables.flatMap fun table => f table ++ g table).length =
        (tables.flatMap f).length + (tables.flatMap g).length := by
    intro f g tables
    induction tables with
    | nil => rfl
    | cons table rest ih =>
      simp only [List.flatMap_cons, List.length_append, ih]
      omega
  show (Table.all.flatMap fun table => rowsOf table contents.batches).length = _
  induction contents.batches with
  | nil => rfl
  | cons b rest ih =>
    have hone : (Table.all.flatMap fun table => if b.table = table then b.rows else []) =
        b.rows := by
      cases b.table <;> simp [Table.all]
    have hcons : ∀ table, rowsOf table (b :: rest) =
        (if b.table = table then b.rows else []) ++ rowsOf table rest := fun table => rfl
    simp only [hcons, happend, hone, ih, List.flatMap_cons, List.length_append]

/-! ## Isolation -/

/-- **Transactions are isolated from each other and the log only grows.**  However actions are
interleaved, with whatever failing in between, at every moment

* the commits are those of the transactions that were committed, in the order in which they were,
* every table has the rows that were seeded and those of the committed transactions, in the order in
  which either happened,
* what was staged in a transaction that is not committed afterwards might as well not have been,
* everything that was visible earlier still is, and in the same place,
* the rows that were persisted through transactions are the commit rows and all rows that were not
  seeded,
* an action is answered, unless a failure is set where it is made or its transaction is not open. -/
theorem visible_eq_disclosed (latency : Nat) (actions : List Action) :
    let transcript := (Interleaving.fresh latency).transcript actions
    let state := (Interleaving.fresh latency).run actions
    let visible := state.backend.store.contents
    visible.commits = (disclosures transcript).flatMap Disclosure.commits ∧
      (∀ table, visible.rows table = (disclosures transcript).flatMap (Disclosure.rows table)) ∧
      (∀ name first e later, transcript = first ++ e :: later → e.insertsInto name = true →
        ¬ CommittedIn name later → disclosures transcript = disclosures (first ++ later)) ∧
      (∀ first later, actions = first ++ later →
        let earlier := ((Interleaving.fresh latency).run first).backend.store.contents
        earlier.commits <+: visible.commits ∧
          (∀ table, earlier.rows table <+: visible.rows table) ∧
          earlier.rowsWritten ≤ visible.rowsWritten) ∧
      visible.rowsWritten + (actions.flatMap Action.seededRows).length =
        visible.commits.length + (Table.all.flatMap visible.rows).length ∧
      ∀ a, (state.step a).1.isOk = true ↔ state.Admits a := by
  intro transcript state visible
  have htold := Interleaving.toldBy_transcript latency actions
  refine ⟨htold.commits, fun table => ?_, ?_, ?_, ?_, state.step_isOk_iff⟩
  · have hrows : visible.rows table = Contents.rowsOf table
        ((disclosures transcript).flatMap Disclosure.batches) := congrArg _ htold.batches
    rw [hrows, Contents.rowsOf, List.flatMap_assoc]
    rfl
  · intro name first e later htranscript he hnot
    rw [htranscript]
    exact disclosures_strike he hnot
  · rintro first later rfl
    have hextends := Interleaving.extends_run ((Interleaving.fresh latency).run first) later
    rw [← Interleaving.run_append] at hextends
    exact ⟨hextends.commits, hextends.rows, hextends.rowsWritten⟩
  · rw [Contents.length_flatMap_rows]
    exact Interleaving.accounted_run latency actions

/-- Of two transactions that are open together, the one that is rolled back leaves no trace, not
even in what the other makes visible later. -/
theorem visible_eq_disclosed_rolledBack :
    let note : CommitNote := { message := "m", author := "a" }
    let batch : Batch := ⟨.switches, [.null]⟩
    let first : List Action := [.start "kept", .start "given up", .insertCommit "kept" note]
    let later : List Action :=
      [.insertBatch "kept" batch, .rollback "given up", .finalize "kept"]
    let fresh := Interleaving.fresh 0
    let s := fresh.run first
    let struck : Action := .insertBatch "given up" batch
    disclosures (fresh.transcript (first ++ struck :: later)) =
        disclosures (fresh.transcript first ++ (s.step struck).2.1.transcript later) ∧
      ((fresh.run (first ++ struck :: later)).backend.store.rows .switches).length = 1 := by
  intro note batch first later fresh s struck
  have htranscript : fresh.transcript (first ++ struck :: later) =
      fresh.transcript first ++
        ⟨struck, (s.step struck).1⟩ :: (s.step struck).2.1.transcript later :=
    Interleaving.transcript_append fresh first (struck :: later)
  have hnot : ¬ CommittedIn "given up" ((s.step struck).2.1.transcript later) := by
    rintro ⟨e, hfind, hcommits⟩
    obtain rfl : (⟨.rollback "given up", .ok .done⟩ : Exchange) = e := Option.some.inj hfind
    simp [Exchange.commits] at hcommits
  exact ⟨(visible_eq_disclosed 0 (first ++ struck :: later)).2.2.1 "given up" _ _ _ htranscript rfl
    hnot, by decide +kernel⟩

end Switchyard
