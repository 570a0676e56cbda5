import Switchyard.Proofs.Record.Payload
import Switchyard.Proofs.Write.ReadBack

/-!
# Every row has its identity row

A topology lists its records three times: when it is stamped, as identity rows, and as rows by
table.  The three lists agree.  The identity rows and the rows stand in the same order, and at each
place they are about the same version of the same asset (`Topology.forall₂_registers`).  A stamp
changes the commit of all of them and nothing else.

So after a write every version of an asset has as many identity rows as rows in its table, also
where an identity occurs more than once (`registered_after_write`).
-/

set_option autoImplicit false

namespace Switchyard

/-! ## What a row says -/

/-- The version key that a row holds. -/
def Json.versionKey? (row : Json) : Option (Mrid × CommitId) :=
  match Column.read? ⟨"mrid", .mrid⟩ row, Column.read? ⟨"commit_id", .commit⟩ row with
  | some id, some c => some (id, c)
  | _, _ => none

/-- The class that an identity row holds. -/
def Json.entityType? (row : Json) : Option String := Column.read? ⟨"entity_type", .text⟩ row

/-- The row with another commit and all other fields as they are. -/
def Json.withCommit (c : CommitId) : Json → Json
  | .obj fields => .obj (fields.map fun field =>
      if field.1 = "commit_id" then (field.1, ColumnKind.encode .commit c) else field)
  | row => row

namespace Record

variable {α : Type} [Record α]

/-- A cell is read from the row of its record as it was written. -/
theorem read?_encode {r : α} (entry : (c : Column) × c.kind.Value) (h : entry ∈ entries r)
    (hstorable : entry.1.kind.Storable entry.2) :
    Column.read? entry.1 (encode r) = some entry.2 := by
  rw [Column.read?, get?_encode h, Option.bind_some, ColumnKind.decode_encode, if_pos hstorable]

theorem versionKey?_encode (r : α) : (encode r).versionKey? = some (mrid r, commitId r) := by
  have hmrid : Column.read? ⟨"mrid", .mrid⟩ (encode r) = some (mrid r) :=
    read?_encode ⟨⟨"mrid", .mrid⟩, mrid r⟩ List.mem_cons_self trivial
  have hcommit : Column.read? ⟨"commit_id", .commit⟩ (encode r) = some (commitId r) :=
    read?_encode ⟨⟨"commit_id", .commit⟩, commitId r⟩
      (List.mem_cons_of_mem _ List.mem_cons_self) trivial
  rw [Json.versionKey?, hmrid, hcommit]

/-- A stamp replaces the commit in the row of a record and nothing else. -/
theorem encode_stamp (c : CommitId) (r : α) : encode (stamp c r) = (encode r).withCommit c := by
  have hnames : "commit_id" ∉ (columns α).map Column.name :=
    (List.nodup_cons.1 (List.nodup_cons.1 (nodup_names (α := α))).2).1
  have hkeep : (Cells.fields (columns α) (cells r)).map (fun field =>
      if field.1 = "commit_id" then (field.1, ColumnKind.encode .commit c) else field) =
      Cells.fields (columns α) (cells r) := by
    refine (List.map_congr_left fun field hfield => if_neg ?_).trans (List.map_id _)
    intro hname
    rw [← Cells.map_fst_fields, ← hname] at hnames
    exact hnames (List.mem_map_of_mem hfield)
  simp [encode, fields, schema, allCells, Cells.fields, Json.withCommit, hkeep]

end Record

theorem Entity.versionKey?_encode (e : Entity) :
    (Record.encode e).versionKey? = some (e.mrid, e.commitId) := Record.versionKey?_encode e

theorem Entity.entityType?_encode (e : Entity) :
    (Record.encode e).entityType? = some e.entityType :=
  Record.read?_encode ⟨⟨"entity_type", .text⟩, e.entityType⟩
    (by simp [Record.entries, Cells.entries, Record.schema, Record.columns, Record.allCells,
      Record.cells]) trivial

/-- Different tables hold assets of different classes. -/
theorem Table.entityType_inj {s t : Table} : s.entityType = t.entityType ↔ s = t := by
  refine ⟨fun h => ?_, congrArg entityType⟩
  have hfind (u : Table) : all.find? (fun v => v.entityType = u.entityType) = some u := by
    cases u <;> rfl
  have hs := hfind s
  rw [h, hfind t] at hs
  exact (Option.some.inj hs).symm

/-! ## Rows of batches -/

namespace Batch

/-- The rows of some batches in their order, each with its table. -/
def tabledRows (batches : List Batch) : List (Table × Json) :=
  batches.flatMap fun b => b.rows.map (Prod.mk b.table)

/-- The batch with another commit in all its rows. -/
def withCommit (c : CommitId) (b : Batch) : Batch := { b with rows := b.rows.map (·.withCommit c) }

theorem tabledRows_append (xs ys : List Batch) :
    tabledRows (xs ++ ys) = tabledRows xs ++ tabledRows ys := List.flatMap_append

theorem tabledRows_ofNonempty {α : Type} [Record α] (rs : List α) :
    tabledRows (ofNonempty rs) = rs.map fun r => (Record.table α, Record.encode r) := by
  cases rs with
  | nil => rfl
  | cons r rest => simp [ofNonempty, tabledRows, ofRecords, Function.comp_def]

theorem map_withCommit_ofNonempty {α : Type} [Record α] (c : CommitId) (rs : List α) :
    (ofNonempty rs).map (withCommit c) = ofNonempty (rs.map (Record.stamp c)) := by
  cases rs with
  | nil => rfl
  | cons r rest => simp [ofNonempty, withCommit, ofRecords, Record.encode_stamp, Function.comp_def]

/-- The rows of a table, counted among the rows of all tables. -/
theorem countP_rowsOf (table : Table) (p : Json → Bool) (batches : List Batch) :
    (Contents.rowsOf table batches).countP p =
      (tabledRows batches).countP fun x => x.1 = table && p x.2 := by
  induction batches with
  | nil => rfl
  | cons b rest ih =>
    have hfirst : (if b.table = table then b.rows else []).countP p =
        (b.rows.map (Prod.mk b.table)).countP fun x => x.1 = table && p x.2 := by
      by_cases htable : b.table = table <;> simp [htable, List.countP_map, Function.comp_def]
    rw [Contents.rowsOf, List.flatMap_cons, List.countP_append, hfirst, tabledRows,
      List.flatMap_cons, List.countP_append]
    exact congrArg _ ih

end Batch

/-! ## Identity rows and rows -/

/-- An identity row is that of a row of some table: it registers the record of the row, under the
key that the row holds and the class of the table, in a model. -/
structure Entity.Registers (modelId : Int32) (e : Entity) (x : Table × Json) : Prop where
  versionKey : x.2.versionKey? = some (e.mrid, e.commitId)
  entityType : e.entityType = x.1.entityType
  model : e.modelId = modelId
  record : ∃ (α : Type) (_ : Record α) (r : α),
    x = (Record.table α, Record.encode r) ∧ e = Entity.of r modelId

theorem Entity.registers_of {α : Type} [Record α] (modelId : Int32) (r : α) :
    Entity.Registers modelId (Entity.of r modelId) (Record.table α, Record.encode r) :=
  ⟨Record.versionKey?_encode r, rfl, rfl, α, inferInstance, r, rfl, rfl⟩

namespace Topology

variable {t : Topology} {modelId : Int32}

/-- Lists that correspond table by table correspond. -/
theorem forall₂_gather {β γ : Type} {R : β → γ → Prop}
    {f : (α : Type) → [Record α] → List α → List β}
    {g : (α : Type) → [Record α] → List α → List γ}
    (h : ∀ (α : Type) [Record α] (rs : List α), List.Forall₂ R (f α rs) (g α rs)) (t : Topology) :
    List.Forall₂ R (t.gather f) (t.gather g) := by
  simp only [gather]
  repeat' apply List.rel_append
  all_goals exact h _ _

theorem sublist_gather {β : Type} {f g : (α : Type) → [Record α] → List α → List β}
    (h : ∀ (α : Type) [Record α] (rs : List α), (f α rs).Sublist (g α rs)) (t : Topology) :
    (t.gather f).Sublist (t.gather g) := by
  simp only [gather]
  repeat' apply List.Sublist.append
  all_goals exact h _ _

theorem tabledRows_batches (t : Topology) :
    Batch.tabledRows t.batches =
      t.gather fun α _ rs => rs.map fun r => (Record.table α, Record.encode r) := by
  rw [batches, gather_map Batch.tabledRows_append]
  congr 1
  funext α _ rs
  exact Batch.tabledRows_ofNonempty rs

/-- **The identity rows are those of the rows, place by place.** -/
theorem forall₂_registers (modelId : Int32) (t : Topology) :
    List.Forall₂ (Entity.Registers modelId) (t.identities modelId)
      (Batch.tabledRows t.batches) := by
  rw [tabledRows_batches]
  refine forall₂_gather (fun α _ rs => ?_) t
  rw [Entity.ofRecords, List.forall₂_map_left_iff, List.forall₂_map_right_iff]
  exact List.forall₂_same.2 fun r _ => Entity.registers_of modelId r

theorem length_identities (modelId : Int32) (t : Topology) :
    (t.identities modelId).length = t.recordCount := by
  simp [identities, gather, Entity.ofRecords, recordCount]
  omega

theorem rows_ne_nil_of_mem_batches : ∀ b ∈ t.batches, b.rows ≠ [] := by
  refine forall_mem_gather (fun α _ rs b hb => ?_) t
  cases rs with
  | nil => simp [Batch.ofNonempty] at hb
  | cons r rest =>
    rw [List.mem_singleton.1 hb]
    exact List.cons_ne_nil _ _

theorem nodup_tables_batches (t : Topology) : (t.batches.map Batch.table).Nodup := by
  have hall : (t.gather fun α _ _ => [Record.table α]).Nodup := by
    show [Table.reportingGroups, .busNameMarkers, .connectivityNodes, .switches,
      .powerTransformers, .terminals, .powerTransformerEnds].Nodup
    decide
  rw [map_table_batches]
  refine hall.sublist (sublist_gather (fun α _ rs => ?_) t)
  split
  · exact List.nil_sublist _
  · exact .refl _

/-! ## Stamps -/

/-- The topology with another commit in all its records. -/
def withCommit (c : CommitId) (t : Topology) : Topology :=
  { reportingGroup := { t.reportingGroup with commitId := c }
    busNameMarkers := t.busNameMarkers.map ({ · with commitId := c })
    connectivityNodes := t.connectivityNodes.map ({ · with commitId := c })
    switches := t.switches.map ({ · with commitId := c })
    powerTransformers := t.powerTransformers.map ({ · with commitId := c })
    terminals := t.terminals.map ({ · with commitId := c })
    powerTransformerEnds := t.powerTransformerEnds.map ({ · with commitId := c }) }

theorem identities_stamp (c : CommitId) (modelId : Int32) (t : Topology) :
    (t.stamp c).identities modelId =
      (t.identities modelId).map ({ · with commitId := c }) := by
  rw [identities, stamp, gather_mapRecords, identities,
    gather_map (g := List.map ({ · with commitId := c } : Entity → Entity)) fun _ _ =>
      List.map_append]
  congr 1
  funext α _ rs
  simp [Entity.ofRecords, Entity.of, Function.comp_def]

theorem batches_stamp (c : CommitId) (t : Topology) :
    (t.stamp c).batches = t.batches.map (Batch.withCommit c) := by
  rw [batches, stamp, gather_mapRecords, batches,
    gather_map (g := List.map (Batch.withCommit c)) fun _ _ => List.map_append]
  congr 1
  funext α _ rs
  exact (Batch.map_withCommit_ofNonempty c rs).symm

end Topology

/-! ## After a write -/

/-- How many rows hold a version key. -/
def countVersion (rows : List Json) (id : Mrid) (c : CommitId) : Nat :=
  rows.countP fun row => row.versionKey? = some (id, c)

/-- How many identity rows hold a version key under a class. -/
def countRegistered (rows : List Json) (id : Mrid) (c : CommitId) (entityType : String) : Nat :=
  rows.countP fun row => row.entityType? = some entityType && row.versionKey? = some (id, c)

/-- Rows were appended to the tables, and every version that a commit produced has as many identity
rows among them, under the class of its table, as rows in that table. -/
def RegistersRows (before after : Backend) (c : CommitId) : Prop :=
  ∃ news : Table → List Json,
    (∀ table, after.store.rows table = before.store.rows table ++ news table) ∧
      ∀ table ≠ .entities, ∀ id, countRegistered (news .entities) id c table.entityType =
        countVersion (news table) id c

/-- Whoever writes the rows of a topology registers them. -/
theorem Persisted.registersRows {before after : Backend} {commit : Commit} {modelId : Int32}
    {t : Topology} (h : Persisted before after commit (t.identities modelId) t.batches)
    (c : CommitId) : RegistersRows before after c := by
  refine ⟨_, h.rows_eq, fun table htable id => ?_⟩
  have hnone : Contents.rowsOf .entities t.batches = [] := by
    rw [Topology.rowsOf_batches]
    rfl
  rw [if_pos rfl, if_neg htable, hnone, List.append_nil, List.nil_append, countRegistered,
    countVersion, Batch.countP_rowsOf, List.countP_map, List.countP_eq_length_filter,
    List.countP_eq_length_filter]
  -- an identity row is counted exactly if the row at its place is
  refine (List.rel_filter (fun e x hx => ?_) (t.forall₂_registers modelId)).length_eq
  simp only [Function.comp_apply, e.entityType?_encode, e.versionKey?_encode, hx.versionKey,
    hx.entityType, Option.some.injEq, Table.entityType_inj]

/-- **Every row of a topology has its identity row.**  There is an identity row for each record, and
at each place the identity rows and the rows of the batches tell the same identity, commit and
class; no batch is empty, and no table has two.  A stamp changes the commit of every record, of
every identity row and of every row, and no other field.  So after a successful write every version
that it produced has as many new identity rows as new rows in its table. -/
theorem registered_after_write (t : Topology) (modelId : Int32) :
    (t.identities modelId).length = t.recordCount ∧
      List.Forall₂ (Entity.Registers modelId) (t.identities modelId)
        (Batch.tabledRows t.batches) ∧
      (∀ b ∈ t.batches, b.rows ≠ []) ∧ (t.batches.map Batch.table).Nodup ∧
      (∀ c, t.stamp c = t.withCommit c ∧
        (t.stamp c).identities modelId = (t.identities modelId).map ({ · with commitId := c }) ∧
        (t.stamp c).batches = t.batches.map (Batch.withCommit c) ∧
        ∀ b ∈ (t.stamp c).batches, ∀ row ∈ b.rows, row.Carries c) ∧
      ∀ (b : Backend) (note : CommitNote) (limit : Option Nat) (c : CommitId),
        ((b.write modelId note limit t).result = .ok c →
          RegistersRows b (b.write modelId note limit t).backend c) ∧
        ∀ alreadyConnected, (b.write modelId note limit (Model.mk t alreadyConnected)).result =
          .ok c → RegistersRows b
            (b.write modelId note limit (Model.mk t alreadyConnected)).backend c := by
  refine ⟨t.length_identities modelId, t.forall₂_registers modelId,
    Topology.rows_ne_nil_of_mem_batches, t.nodup_tables_batches,
    fun c => ⟨rfl, t.identities_stamp c modelId, t.batches_stamp c, ?_⟩,
    fun b note limit c => ⟨fun hok => ?_, fun alreadyConnected hok => ?_⟩⟩
  · exact LawfulAggregate.carries_row c t rfl
  · exact Persisted.registersRows (t := t.stamp c) (persisted_of_write hok rfl) c
  · exact Persisted.registersRows (t := t.stamp c) (persisted_of_write hok rfl) c

/-- A topology in which three records share an identity, two of them in one table. -/
def sharedIdentity : Topology :=
  { reportingGroup := { mrid := .ofNat 1 }
    connectivityNodes := [{ mrid := .ofNat 2, name := "a" }, { mrid := .ofNat 2, name := "b" }]
    switches := [{ mrid := .ofNat 2 }] }

/-- The two nodes have two identity rows, and the switch has one. -/
theorem registered_after_write_sharedIdentity :
    let note : CommitNote := { message := "m", author := "a" }
    let out := ({} : Backend).write 7 note none sharedIdentity
    out.result = .ok ⟨1⟩ ∧
      countRegistered (out.backend.store.rows .entities) (.ofNat 2) ⟨1⟩ "ConnectivityNode" = 2 ∧
      countRegistered (out.backend.store.rows .entities) (.ofNat 2) ⟨1⟩ "Switch" = 1 := by
  intro note out
  have hok : out.result = .ok ⟨1⟩ := rfl
  obtain ⟨-, -, -, -, -, hwrite⟩ := registered_after_write sharedIdentity 7
  obtain ⟨news, hrows, hcount⟩ := (hwrite {} note none ⟨1⟩).1 hok
  have hnews (table : Table) : news table = out.backend.store.rows table := (hrows table).symm
  have hnodes := hcount .connectivityNodes (by decide) (.ofNat 2)
  have hswitches := hcount .switches (by decide) (.ofNat 2)
  rw [hnews, hnews] at hnodes hswitches
  refine ⟨hok, hnodes.trans ?_, hswitches.trans ?_⟩
  all_goals decide +kernel

end Switchyard
