import Switchyard.Asset.Containment
import Switchyard.Proofs.Load.AfterWrite
import Switchyard.Proofs.Store.Growth
import Switchyard.Proofs.Write.Acceptance

/-!
# Written records read back

A row is JSON, and JSON has no infinities and no NaN.  A record with such a float is still written,
as a row with `null` in the place of the float, and from then on the rows of its table cannot be
read any more: the store is append-only, so the row never goes away.

`ReadsBack` says what becomes of one table when records are added to it: the records are read back
exactly if all their floats are finite, and if one is not, the table is lost for good.
`written_readsBack` says it of every table after any write, and that the success of a write does not
depend on the floats.
-/

set_option autoImplicit false

namespace Switchyard

/-! ## Rows that cannot be read -/

namespace Backend

variable {α : Type} [Record α]

/-- One row that holds no record is enough to make the whole table unreadable. -/
theorem decodeRows_eq_error {rows : List Json} {row : Json} (hrow : row ∈ rows)
    (hnone : (Record.decode? row : Option α) = none) :
    ∃ text, decodeRows α rows = .error (.serialization text) := by
  induction rows with
  | nil => simp at hrow
  | cons first rest ih =>
    rw [decodeRows]
    cases hfirst : (Record.decode? first : Option α) with
    | none => exact ⟨_, rfl⟩
    | some r =>
      rcases List.mem_cons.1 hrow with rfl | hrest
      · simp [hnone] at hfirst
      · obtain ⟨text, hrest⟩ := ih hrest
        exact ⟨text, by rw [hrest]; rfl⟩

/-- A whole table cannot be fetched if its queries are answered with a row that holds no record. -/
theorem fetch_all_eq_error {b : Backend} {row : Json}
    (hquery : b.outage.query (Record.table α) = none) (hrow : row ∈ b.store.rows (Record.table α))
    (hnone : (Record.decode? row : Option α) = none) :
    ∃ text, b.fetch α .all = .error (.serialization text) := by
  have hrows : b.store.query (Record.table α) .all = b.store.rows (Record.table α) :=
    List.filter_eq_self.2 fun _ _ => rfl
  rw [fetch, query, hrows, hquery]
  exact decodeRows_eq_error hrow hnone

/-! ## One table -/

/-- What becomes of a table that could be read, once records are added to it. -/
structure ReadsBack (before after : Backend) {α : Type} [Record α] (news : List α) : Prop where
  /-- The records that were there are followed by the new ones, as they were written, exactly if
  all floats of the new ones are finite. -/
  readable (rs : List α) (h : before.fetch α .all = .ok rs) :
    after.fetch α .all = .ok (rs ++ news) ↔ ∀ r ∈ news, Record.Storable r
  /-- An infinity or NaN in one of them makes the table unreadable in every later state. -/
  lost (h : ∃ r ∈ news, ¬ Record.Storable r) (later : Backend) (hlater : after.Later later)
    (hquery : later.outage.query (Record.table α) = none) :
    ∃ text, later.fetch α .all = .error (.serialization text)

/-- A table reads back if the rows of the new records are put behind its rows. -/
theorem readsBack_of_rows {before after : Backend} {news : List α}
    (houtage : after.outage = before.outage)
    (hrows : after.store.rows (Record.table α) =
      before.store.rows (Record.table α) ++ news.map Record.encode) :
    before.ReadsBack after news := by
  have hlost (r : α) (hr : r ∈ news) (hr' : ¬ Record.Storable r) (later : Backend)
      (hlater : after.Later later) (hquery : later.outage.query (Record.table α) = none) :
      ∃ text, later.fetch α .all = .error (.serialization text) := by
    refine fetch_all_eq_error hquery (?_ : Record.encode r ∈ _) ?_
    · refine (hlater.extends.rows (Record.table α)).subset ?_
      show Record.encode r ∈ after.store.rows (Record.table α)
      rw [hrows]
      exact List.mem_append_right _ (List.mem_map_of_mem hr)
    · rw [Record.decode?_encode, if_neg hr']
  refine ⟨fun rs hbefore => ?_, fun ⟨r, hr, hr'⟩ => hlost r hr hr'⟩
  obtain ⟨hquery, hdecode⟩ := fetch_all_eq_ok_iff.1 hbefore
  rw [← houtage] at hquery
  constructor
  · intro hafter r hr
    by_contra hr'
    obtain ⟨text, herror⟩ := hlost r hr hr' after .refl hquery
    simp [herror] at hafter
  · intro hstorable
    refine fetch_all_eq_ok_iff.2 ⟨hquery, ?_⟩
    rw [hrows]
    exact decodeRows_append hdecode (decodeRows_map_encode hstorable)

end Backend

/-! ## Writes -/

namespace Persisted

variable {before after : Backend} {commit : Commit} {identities : List Entity}
  {batches : List Batch} {α : Type} [Record α]

/-- A table reads back if its rows in the batches are those of some records. -/
theorem readsBack (h : Persisted before after commit identities batches)
    (hne : Record.table α ≠ .entities) {news : List α}
    (hrows : Contents.rowsOf (Record.table α) batches = news.map Record.encode) :
    before.ReadsBack after news :=
  Backend.readsBack_of_rows h.outage_eq (by rw [h.rows_eq_append hne, hrows])

/-- The identity rows read back if no batch is for their table. -/
theorem readsBack_identities (h : Persisted before after commit identities batches)
    (hrows : Contents.rowsOf .entities batches = []) : before.ReadsBack after identities := by
  have htable : Record.table Entity = .entities := rfl
  refine Backend.readsBack_of_rows h.outage_eq ?_
  rw [h.rows_eq, htable, hrows, if_pos rfl, List.append_nil]

end Persisted

/-- Every table reads back after the write of a topology. -/
structure Topology.ReadsBack (before after : Backend) (modelId : Int32) (t : Topology) : Prop where
  identities : before.ReadsBack after (t.identities modelId)
  reportingGroup : before.ReadsBack after [t.reportingGroup]
  busNameMarkers : before.ReadsBack after t.busNameMarkers
  connectivityNodes : before.ReadsBack after t.connectivityNodes
  switches : before.ReadsBack after t.switches
  powerTransformers : before.ReadsBack after t.powerTransformers
  terminals : before.ReadsBack after t.terminals
  powerTransformerEnds : before.ReadsBack after t.powerTransformerEnds
  /-- Nothing is added to any other table. -/
  others {α : Type} [Record α] (h : Record.table α ∉
    [Table.entities, .reportingGroups, .busNameMarkers, .connectivityNodes, .switches,
      .powerTransformers, .terminals, .powerTransformerEnds]) :
    before.ReadsBack after ([] : List α)

/-- Every table reads back after the write of a single record. -/
structure SingleVersion.ReadsBack {α : Type} [Record α] (before after : Backend) (modelId : Int32)
    (r : α) : Prop where
  identity : before.ReadsBack after [Entity.of r modelId]
  record : before.ReadsBack after [r]
  /-- Nothing is added to any other table. -/
  others {β : Type} [Record β] (hentities : Record.table β ≠ .entities)
    (htable : Record.table β ≠ Record.table α) : before.ReadsBack after ([] : List β)

theorem Topology.readsBack_of_persisted {before after : Backend} {commit : Commit}
    {modelId : Int32} {t : Topology}
    (h : Persisted before after commit (t.identities modelId) t.batches) :
    t.ReadsBack before after modelId where
  identities := h.readsBack_identities (by rw [rowsOf_batches]; rfl)
  reportingGroup := h.readsBack (by decide) (by rw [rowsOf_batches]; simp [gather])
  busNameMarkers := h.readsBack (by decide) (by rw [rowsOf_batches]; simp [gather])
  connectivityNodes := h.readsBack (by decide) t.rowsOf_connectivityNodes
  switches := h.readsBack (by decide) (by rw [rowsOf_batches]; simp [gather])
  powerTransformers := h.readsBack (by decide) (by rw [rowsOf_batches]; simp [gather])
  terminals := h.readsBack (by decide) t.rowsOf_terminals
  powerTransformerEnds := h.readsBack (by decide) (by rw [rowsOf_batches]; simp [gather])
  others hne := by
    simp only [List.mem_cons, List.not_mem_nil, or_false, not_or, ← ne_eq, ne_comm] at hne
    refine h.readsBack hne.1.symm ?_
    rw [rowsOf_batches]
    simp [gather, Record.table, hne]

theorem SingleVersion.readsBack_of_persisted {before after : Backend} {commit : Commit}
    {modelId : Int32} {α : Type} [Record α] {r : α} (hα : Record.table α ≠ .entities)
    (h : Persisted before after commit [Entity.of r modelId] [Batch.ofRecords [r]]) :
    ReadsBack before after modelId r where
  identity := h.readsBack_identities (by simp [Batch.ofRecords, hα])
  record := h.readsBack hα (by simp [Batch.ofRecords])
  others hentities htable := h.readsBack hentities (by simp [Batch.ofRecords, htable.symm])

/-- **Written records read back, exactly when their floats are finite.**  This is so of every table
after the write of a topology and of a single record, and in every later state.  Whether a write
succeeds is settled by the tables that it inserts into: an infinity or NaN does not make it fail. -/
theorem written_readsBack (b : Backend) (modelId : Int32) (note : CommitNote)
    (limit : Option Nat) (id : CommitId) :
    (∀ t : Topology,
      ((b.write modelId note limit t).result = .ok id ↔
        id = b.store.nextCommitId ∧ b.Accepts limit (.entities :: t.batches.map Batch.table)) ∧
      ((b.write modelId note limit t).result = .ok id →
        (t.stamp id).ReadsBack b (b.write modelId note limit t).backend modelId)) ∧
    ∀ (α : Type) [Record α] (r : α), Record.table α ≠ .entities →
      ((b.write modelId note limit (SingleVersion.mk r)).result = .ok id ↔
        id = b.store.nextCommitId ∧ b.Accepts limit [.entities, Record.table α]) ∧
      ((b.write modelId note limit (SingleVersion.mk r)).result = .ok id →
        SingleVersion.ReadsBack b (b.write modelId note limit (SingleVersion.mk r)).backend modelId
          (Record.stamp id r)) := by
  refine ⟨fun t => ⟨?_, fun hok => ?_⟩, fun α _ r hα => ⟨?_, fun hok => ?_⟩⟩
  · have hbatches : Aggregate.batches (Aggregate.stamp b.store.nextCommitId t) =
      .ok (t.stamp b.store.nextCommitId).batches := rfl
    rw [Backend.write_eq_ok_iff hbatches, Topology.map_table_batches_stamp,
      Topology.map_table_batches]
  · exact Topology.readsBack_of_persisted (persisted_of_write hok rfl)
  · exact Backend.write_single_eq_ok_iff
  · exact SingleVersion.readsBack_of_persisted hα (persisted_of_write hok rfl)

/-- An infinite voltage is written, and the base voltages cannot be read any more; the identity rows
can, and so can a winding with finite values. -/
theorem written_readsBack_infiniteVoltage :
    let note : CommitNote := { message := "m", author := "a" }
    let stored : BaseVoltage := { mrid := .ofNat 1, nominalVoltage := 132.0 }
    let infinite : BaseVoltage := { mrid := .ofNat 2, nominalVoltage := 1.0 / 0.0 }
    let winding : PowerTransformerEnd := { mrid := .ofNat 3, ratedU := 33.0, r := 0.5 }
    let topology : Topology :=
      { reportingGroup := { mrid := .ofNat 4 }, powerTransformerEnds := [winding] }
    let seeded : Backend := { store := ({} : Store).seed [stored] }
    let first := seeded.write 7 note none topology
    let second := first.backend.write 7 note none (SingleVersion.mk infinite)
    first.result = .ok ⟨1⟩ ∧ second.result = .ok ⟨2⟩ ∧
      first.backend.fetch PowerTransformerEnd .all = .ok [{ winding with commitId := ⟨1⟩ }] ∧
      second.backend.fetch PowerTransformerEnd .all = .ok [{ winding with commitId := ⟨1⟩ }] ∧
      first.backend.fetch BaseVoltage .all = .ok [stored] ∧
      (∃ text, second.backend.fetch BaseVoltage .all = .error (.serialization text)) ∧
      (second.backend.fetch Entity .all).map (List.map Record.mrid) =
        .ok [.ofNat 4, .ofNat 3, .ofNat 2] := by
  intro note stored infinite winding topology seeded first second
  have hfirst : first.result = .ok ⟨1⟩ := rfl
  have hsecond : second.result = .ok ⟨2⟩ := rfl
  have hback := ((written_readsBack seeded 7 note none ⟨1⟩).1 topology).2 hfirst
  have hback' := ((written_readsBack first.backend 7 note none ⟨2⟩).2 BaseVoltage infinite
    (by decide)).2 hsecond
  have hstored : seeded.fetch BaseVoltage .all = .ok [stored] :=
    Backend.fetch_all_seeded (by decide +kernel)
  have hends : first.backend.fetch PowerTransformerEnd .all =
      .ok [{ winding with commitId := ⟨1⟩ }] :=
    (hback.powerTransformerEnds.readable [] rfl).2 (by decide +kernel)
  have hvoltages : first.backend.fetch BaseVoltage .all = .ok [stored] :=
    ((hback.others (by decide)).readable [stored] hstored).2 (by simp)
  have hentities : first.backend.fetch Entity .all = .ok _ :=
    (hback.identities.readable [] rfl).2 (by decide +kernel)
  refine ⟨hfirst, hsecond, hends, ?_, hvoltages, ?_, ?_⟩
  · exact ((hback'.others (by decide) (by decide)).readable _ hends).2 (by simp)
  · exact hback'.record.lost ⟨_, List.mem_singleton_self _, by decide +kernel⟩ _ .refl rfl
  · rw [(hback'.identity.readable _ hentities).2 (by decide +kernel)]
    rfl

end Switchyard
