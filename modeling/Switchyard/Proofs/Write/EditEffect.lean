import Switchyard.Proofs.Store.Reached
import Switchyard.Proofs.Write.Acceptance
import Switchyard.Proofs.Write.Atomicity

/-!
# What an edit does

A store that seeds, writes and edits led to is sound, so the id of the next commit is greater than
all that it holds.  An edit that is committed under this id is therefore the most recent version of
its asset: it takes the place of the asset in the view of its table, or clears it, and no other
asset and no other table but that of the identities is touched (`edit_takes_effect`).
-/

set_option autoImplicit false

namespace Switchyard

namespace Persisted

variable {before after : Backend} {commit : Commit} {modelId : Int32} {α : Type} [Record α] {x : α}

/-- A single record is the last one of its table. -/
theorem rows_single (h : Persisted before after commit [Entity.of x modelId] [Batch.ofRecords [x]])
    (hα : Record.table α ≠ .entities) :
    after.store.rows (Record.table α) =
      before.store.rows (Record.table α) ++ [Record.encode x] := by
  rw [h.rows_eq_append hα, Contents.rowsOf_singleton, if_pos (by rfl)]
  rfl

/-- A single record is in no other table. -/
theorem rows_other (h : Persisted before after commit [Entity.of x modelId] [Batch.ofRecords [x]])
    {table : Table} (htable : table ≠ Record.table α) (hentities : table ≠ .entities) :
    after.store.rows table = before.store.rows table := by
  have hne : (Batch.ofRecords [x]).table ≠ table := fun heq => htable heq.symm
  rw [h.rows_eq_append hentities, Contents.rowsOf_singleton, if_neg hne, List.append_nil]

end Persisted

/-- What a candidate that was committed under an id makes of a store. -/
structure TakesEffect {α : Type} [Record α] (before after : Backend) (id : CommitId)
    (candidate : α) : Prop where
  /-- In the view of its table, the candidate takes the place of its asset, or clears it. -/
  view : ∃ current, before.store.view α = .ok current ∧
    after.store.view α = .ok (Version.replace (Record.stamp id candidate) current)
  /-- The view of every other table is what it was, but for that of the identities. -/
  others {β : Type} [Record β] [Registered β] (htable : Record.table β ≠ Record.table α)
    (hentities : Record.table β ≠ .entities) :
    ∃ current, before.store.view β = .ok current ∧ after.store.view β = .ok current
  /-- The candidate is now the latest version of its asset, and offering it once more against the
  checksum of the latest version changes nothing. -/
  settled : ∃ history, ({ store := after.store } : Backend).fetch α .all = .ok history ∧
    Version.IsLatest history (Record.stamp id candidate) ∧
    ∀ r, Version.IsLatest history r → Record.mrid r = Record.mrid candidate →
      ∀ modelId note, after.commitIfChanged modelId note (Record.checksum r) candidate =
        { result := .ok .unchanged
          backend := after
          events := [.unchanged (Record.mrid candidate)] }

/-- A record that was persisted under the next id takes effect. -/
theorem takesEffect_of_persisted {α : Type} [Record α] [Registered α] {before after : Backend}
    {commit : Commit} {modelId : Int32} {candidate : α} (hsound : before.store.Sound)
    (hid : before.store.HasNextId) (hα : Record.table α ≠ .entities)
    (hcandidate : Record.Storable candidate)
    (h : Persisted before after commit
      [Entity.of (Record.stamp before.store.nextCommitId candidate) modelId]
      [Batch.ofRecords [Record.stamp before.store.nextCommitId candidate]]) :
    TakesEffect before after before.store.nextCommitId candidate := by
  obtain ⟨history, hrows, hhistory⟩ := hsound.exists_history α
  have hstorable : ∀ r ∈ history, Record.Storable r := fun r hr => (hhistory r hr).1
  generalize hx : Record.stamp before.store.nextCommitId candidate = x at h
  have hxid : Record.commitId x = before.store.nextCommitId := by rw [← hx, Record.commitId_stamp]
  -- nothing in the table is as recent as the next commit
  have hnewest : ∀ r ∈ history, Record.mrid r = Record.mrid x →
      Record.commitId r < Record.commitId x := by
    intro r hr _
    rw [hxid]
    exact CommitId.lt_of_le_of_lt (hhistory r hr).2 (Store.lastCommitId_lt_next hid)
  have hrows' : after.store.rows (Record.table α) = (history ++ [x]).map Record.encode := by
    rw [h.rows_single hα, hrows, List.map_append]
    rfl
  have hstorable' : ∀ r ∈ history ++ [x], Record.Storable r := by
    refine List.forall_mem_append.2 ⟨hstorable, ?_⟩
    rw [← hx]
    simpa using hcandidate
  have hlatest : Version.IsLatest (history ++ [x]) x :=
    Version.isLatest_concat.2 (.inr ⟨rfl, hnewest⟩)
  refine ⟨⟨_, Store.view_eq hrows hstorable, ?_⟩, fun {β} _ _ htable hentities => ?_,
    history ++ [x], Store.fetch_all_eq hrows' hstorable', by rwa [hx],
    fun r hr hmrid modelId note => ?_⟩
  · rw [Store.view_eq hrows' hstorable', Version.active_concat hnewest, hx]
  · obtain ⟨rs, hrs, hrs'⟩ := hsound.exists_history β
    have hview := Store.view_eq hrs fun r hr => (hrs' r hr).1
    exact ⟨_, hview, (Store.view_congr (h.rows_other htable hentities)).trans hview⟩
  · obtain rfl : r = x := by
      refine Version.Ascending.eq_of_mrid_eq (Version.latest_ascending (history ++ [x]))
        (Version.mem_latest_iff.2 hr) (Version.mem_latest_iff.2 hlatest) ?_
      rw [← hx, Record.mrid_stamp]
      exact hmrid
    rw [← hx, Record.checksum_stamp, Backend.commitIfChanged]
    exact if_pos rfl

/-- **An edit takes effect and touches nothing else.**  On every store that seeds, writes and edits
lead to,

* a candidate is committed, under the next id, exactly if its content is not the stored one and the
  store accepts its rows,
* a candidate that is committed becomes the current version of its asset, and whatever else is
  active stays so,
* an edit that commits nothing leaves every view as it was. -/
theorem edit_takes_effect {b : Backend} (hreached : b.store.Reached) (hid : b.store.HasNextId)
    {α : Type} [Record α] [Registered α] (hα : Record.table α ≠ .entities) {candidate : α}
    (hcandidate : Record.Storable candidate) (modelId : Int32) (note : CommitNote)
    (stored : String) :
    let out := b.commitIfChanged modelId note stored candidate
    (∀ id, out.result = .ok (.committed id) ↔
        Record.checksum candidate ≠ stored ∧ id = b.store.nextCommitId ∧
          b.Accepts none [.entities, Record.table α]) ∧
      (∀ id, out.result = .ok (.committed id) → TakesEffect b out.backend id candidate) ∧
      ((∀ id, out.result ≠ .ok (.committed id)) →
        ∀ (β : Type) [Record β], out.backend.store.view β = b.store.view β) := by
  intro out
  refine ⟨fun id => Backend.edit_eq_committed_iff, ?_⟩
  have hend : EditEnd b modelId note stored candidate out.result out.backend :=
    b.edit_end modelId note stored candidate
  generalize out.result = result at hend ⊢
  generalize out.backend = after at hend ⊢
  cases hend with
  | unchanged => exact ⟨fun id h => by simp at h, fun _ β _ => rfl⟩
  | committed id _ hok =>
    refine ⟨fun id' h => ?_, fun h => absurd rfl (h id)⟩
    obtain rfl : id = id' := EditResult.committed.inj (Except.ok.inj h)
    obtain rfl := Backend.id_of_write_eq_ok hok
    exact takesEffect_of_persisted hreached.sound hid hα hcandidate (persisted_of_write hok rfl)
  | failed e _ herror =>
    refine ⟨fun id h => by simp at h, fun _ β _ => Store.view_congr ?_⟩
    have hunpersisted := allOrNothing_of_lawful b modelId note none (SingleVersion.mk candidate)
    simp only [AllOrNothing, herror] at hunpersisted
    rw [Store.rows, hunpersisted.contents_eq, Store.rows]

/-- Of two base voltages the first is raised or removed; the second stays. -/
theorem edit_takes_effect_twoVoltages :
    let note : CommitNote := { message := "m", author := "a" }
    let first : BaseVoltage := { mrid := .ofNat 1, commitId := ⟨5⟩, nominalVoltage := 110.0 }
    let second : BaseVoltage := { mrid := .ofNat 2, commitId := ⟨3⟩, nominalVoltage := 33.0 }
    let raised : BaseVoltage := { first with nominalVoltage := 132.0 }
    let removed : BaseVoltage := { first with deleted := true }
    let b : Backend := { store := ({} : Store).seed [first, second] }
    (b.commitIfChanged 1 note "" raised).result = .ok (.committed ⟨6⟩) ∧
      (b.commitIfChanged 1 note "" raised).backend.store.view BaseVoltage =
        .ok [{ raised with commitId := ⟨6⟩ }, second] ∧
      (b.commitIfChanged 1 note "" removed).result = .ok (.committed ⟨6⟩) ∧
      (b.commitIfChanged 1 note "" removed).backend.store.view BaseVoltage = .ok [second] := by
  intro note first second raised removed b
  have hreached : b.store.Reached := .seed [first, second] (by decide +kernel) .fresh
  have hcommitted : (b.commitIfChanged 1 note "" raised).result = .ok (.committed ⟨6⟩) :=
    toOption_eq_some_iff.1 (by decide +kernel)
  have hcommitted' : (b.commitIfChanged 1 note "" removed).result = .ok (.committed ⟨6⟩) :=
    toOption_eq_some_iff.1 (by decide +kernel)
  have hview : b.store.view BaseVoltage = .ok [first, second] :=
    toOption_eq_some_iff.1 (by decide +kernel)
  obtain ⟨current, hcurrent, hraised⟩ := ((edit_takes_effect hreached (by decide) (by decide)
    (by decide +kernel) 1 note "").2.1 _ hcommitted).view
  obtain ⟨current', hcurrent', hremoved⟩ := ((edit_takes_effect hreached (by decide) (by decide)
    (by decide +kernel) 1 note "").2.1 _ hcommitted').view
  obtain rfl : [first, second] = current := Except.ok.inj (hview.symm.trans hcurrent)
  obtain rfl : [first, second] = current' := Except.ok.inj (hview.symm.trans hcurrent')
  refine ⟨hcommitted, ?_, hcommitted', ?_⟩
  · rw [hraised]
    exact congrArg Except.ok (by decide +kernel)
  · rw [hremoved]
    exact congrArg Except.ok (by decide +kernel)

end Switchyard
