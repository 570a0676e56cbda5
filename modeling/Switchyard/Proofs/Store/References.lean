import Switchyard.Proofs.Record.Payload
import Switchyard.Proofs.Record.Registry
import Switchyard.Write.Aggregate

/-!
# What rows refer to

A row refers to other assets through its columns of identities, all but the one of its own identity.
What a batch refers to is read off its rows and the columns of its table (`Batch.references`), so
it is all that anyone who inserts the batch could look up.  For a batch of records it is what the
records refer to (`references_ofRecords`).

Batches are in order if each of them refers only to what is known from the start and to what the
batches before it bring (`Batch.InOrder`): then nothing is inserted before what it refers to.
-/

set_option autoImplicit false

namespace Switchyard

/-! ## What a record refers to -/

/-- The identities that cells hold. -/
def Cells.references : (columns : List Column) → Cells columns → List Mrid
  | [], _ => []
  | ⟨_, .mrid⟩ :: cs, (id, vs) => id :: references cs vs
  | _ :: cs, (_, vs) => references cs vs

/-- The columns that hold identities. -/
def referenceColumns (columns : List Column) : List String :=
  (columns.filter fun c => c.kind = .mrid).map Column.name

namespace Record

variable {α : Type} [Record α]

/-- What a record refers to: the identities that it holds besides its own. -/
def references (r : α) : List Mrid := Cells.references (columns α) (cells r)

/-- A row that holds the cells under the names of their columns refers to what they hold. -/
theorem filterMap_reference?_eq {columns : List Column} {vs : Cells columns} {row : Json}
    (h : ∀ entry ∈ Cells.entries columns vs,
      row.get? entry.1.name = some (entry.1.kind.encode entry.2)) :
    (referenceColumns columns).filterMap (Predicate.reference? row) =
      Cells.references columns vs := by
  induction columns with
  | nil => rfl
  | cons c cs ih =>
    obtain ⟨name, kind⟩ := c
    obtain ⟨v, vs⟩ := vs
    obtain ⟨hfirst, hrest⟩ := List.forall_mem_cons.1 h
    have hrest := ih hrest
    cases kind with
    | mrid =>
      have hreference : Predicate.reference? row name = some v := by
        rw [Predicate.reference?, hfirst]
        simp [ColumnKind.encode, ColumnKind.decode]
      rw [Cells.references, ← hrest]
      simp [referenceColumns, hreference]
    | _ => exact hrest

/-- The row of a record refers to what the record refers to. -/
theorem filterMap_reference?_encode (r : α) :
    (referenceColumns (columns α)).filterMap (Predicate.reference? (encode r)) = references r :=
  filterMap_reference?_eq fun _ hentry =>
    get?_encode (List.mem_cons_of_mem _ (List.mem_cons_of_mem _ hentry))

end Record

/-! ## What a batch refers to -/

/-- The columns of a table that refer to other assets. -/
def Table.referenceColumns (table : Table) : List String :=
  match table.recordType with
  | some ⟨α, _⟩ => Switchyard.referenceColumns (Record.columns α)
  | none => []

namespace Batch

/-- What the rows of a batch refer to. -/
def references (b : Batch) : List Mrid :=
  b.rows.flatMap fun row => b.table.referenceColumns.filterMap (Predicate.reference? row)

/-- The identities of the rows of a batch. -/
def mrids (b : Batch) : List Mrid := b.rows.filterMap (Predicate.reference? · "mrid")

variable {α : Type} [Record α]

/-- A batch of records refers to what the records refer to. -/
theorem references_ofRecords [Registered α] (rs : List α) :
    (ofRecords rs).references = rs.flatMap Record.references := by
  have htable : (Record.table α).referenceColumns = referenceColumns (Record.columns α) := by
    rw [Table.referenceColumns, Registered.recordType_table]
  rw [references, ofRecords, htable, List.flatMap_map]
  exact List.flatMap_congr fun r _ => Record.filterMap_reference?_encode r

theorem mrids_ofRecords (rs : List α) : (ofRecords rs).mrids = rs.map Record.mrid := by
  rw [mrids, ofRecords]
  simp only [List.filterMap_map, Function.comp_def, Record.reference?_mrid_encode,
    List.filterMap_eq_map']

/-! ## Batches in order -/

/-- Each batch refers only to what is known and to what the batches before it bring. -/
def InOrder : List Mrid → List Batch → Prop
  | _, [] => True
  | known, b :: bs => b.references ⊆ known ∧ InOrder (known ++ b.mrids) bs

variable {known : List Mrid} {bs cs : List Batch}

theorem inOrder_append :
    InOrder known (bs ++ cs) ↔ InOrder known bs ∧ InOrder (known ++ bs.flatMap mrids) cs := by
  induction bs generalizing known with
  | nil => simp [InOrder]
  | cons b bs ih => simp [InOrder, ih, and_assoc]

/-- **Batches are in order if every reference is known before its batch comes.** -/
theorem inOrder_iff :
    InOrder known bs ↔ ∀ earlier b later, bs = earlier ++ b :: later →
      b.references ⊆ known ++ earlier.flatMap mrids := by
  constructor
  · rintro h earlier b later rfl
    exact (inOrder_append.1 h).2.1
  · intro h
    induction bs generalizing known with
    | nil => trivial
    | cons b bs ih =>
      refine ⟨by simpa using h [] b bs rfl, ih ?_⟩
      rintro earlier c later rfl
      have hlater := h (b :: earlier) c later rfl
      rwa [List.flatMap_cons, ← List.append_assoc] at hlater

/-- No records make no batch, so it does not matter whether there are any. -/
theorem inOrder_ofNonempty [Registered α] (rs : List α) :
    InOrder known (ofNonempty rs) ↔ ∀ r ∈ rs, Record.references r ⊆ known := by
  cases rs with
  | nil => simp [ofNonempty, InOrder]
  | cons r rs =>
    have hnot : ¬ (r :: rs).isEmpty = true := by simp
    rw [ofNonempty, if_neg hnot, InOrder, references_ofRecords, InOrder, and_true]
    simp only [List.subset_def, List.mem_flatMap, forall_exists_index, and_imp]
    exact ⟨fun h s hs id hid => h s hs hid, fun h id s hs hid => h s hs hid⟩

theorem flatMap_mrids_ofNonempty (rs : List α) :
    (ofNonempty rs).flatMap mrids = rs.map Record.mrid := by
  cases rs with
  | nil => rfl
  | cons r rs => exact (List.append_nil _).trans (mrids_ofRecords _)

end Batch

end Switchyard
