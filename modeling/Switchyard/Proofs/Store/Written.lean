import Switchyard.Proofs.Load.Resolved
import Switchyard.Proofs.Record.Registry
import Switchyard.Proofs.Write.EditOutcome

/-!
# Stores of records

Whoever seeds records, writes aggregates or edits single records puts batches into a store that hold
records of the type of their table.  `Store.Written` says of a store that it came about in this way,
whatever the records are, and `Written.isTyped` that nothing else is visible in it.

The rows of a table are then those of records of its type (`Contents.exists_rowsOf_eq`).  That does
not mean that they can be read, since JSON has no infinities and no NaN; but the rows of a type
without floats always can (`exists_fetch_all_of_isTyped`).
-/

set_option autoImplicit false

namespace Switchyard

/-! ## Batches of records -/

namespace Batch

variable {P : (α : Type) → [Record α] → α → Prop} {batch : Batch}

/-- The batch holds records of the type of its table, each of which is as asked. -/
def HoldsEach (P : (α : Type) → [Record α] → α → Prop) (batch : Batch) : Prop :=
  ∃ (α : Type) (_ : Record α) (_ : Registered α) (rs : List α),
    batch = ofRecords rs ∧ ∀ r ∈ rs, P α r

/-- The batch holds records of the type of its table. -/
def IsTyped (batch : Batch) : Prop := batch.HoldsEach fun _ _ _ => True

theorem HoldsEach.isTyped (h : batch.HoldsEach P) : batch.IsTyped := by
  obtain ⟨α, inst, hα, rs, heq, -⟩ := h
  exact ⟨α, inst, hα, rs, heq, fun _ _ => trivial⟩

theorem holdsEach_ofRecords {α : Type} [Record α] [Registered α] {rs : List α}
    (h : ∀ r ∈ rs, P α r) : (ofRecords rs).HoldsEach P := ⟨α, _, inferInstance, rs, rfl, h⟩

theorem isTyped_ofRecords {α : Type} [Record α] [Registered α] (rs : List α) :
    (ofRecords rs).IsTyped := holdsEach_ofRecords fun _ _ => trivial

theorem holdsEach_of_mem_ofNonempty {α : Type} [Record α] [Registered α] {rs : List α}
    (h : ∀ r ∈ rs, P α r) (hbatch : batch ∈ ofNonempty rs) : batch.HoldsEach P := by
  rw [ofNonempty] at hbatch
  split at hbatch
  · simp at hbatch
  · exact List.mem_singleton.1 hbatch ▸ holdsEach_ofRecords h

end Batch

/-- The rows of a table are those of records of its type, if all batches hold such records. -/
theorem Contents.exists_rowsOf_eq {P : (α : Type) → [Record α] → α → Prop} {batches : List Batch}
    (h : ∀ batch ∈ batches, batch.HoldsEach P) (α : Type) [Record α] [Registered α] :
    ∃ rs : List α, rowsOf (Record.table α) batches = rs.map Record.encode ∧ ∀ r ∈ rs, P α r := by
  induction batches with
  | nil => exact ⟨[], rfl, by simp⟩
  | cons batch rest ih =>
    obtain ⟨hbatch, hrest⟩ := List.forall_mem_cons.1 h
    obtain ⟨rs, hrows, hrs⟩ := ih hrest
    rw [← List.singleton_append, rowsOf_append, rowsOf_singleton, hrows]
    by_cases htable : batch.table = Record.table α
    · obtain ⟨β, inst, hβ, first, rfl, hfirst⟩ := hbatch
      -- the batch is for the table of `α`, so its records are of that type
      obtain ⟨rfl, heq⟩ := Sigma.mk.inj (Registered.eq_of_table_eq (α := β) (β := α) htable)
      obtain rfl := eq_of_heq heq
      refine ⟨first ++ rs, ?_, List.forall_mem_append.2 ⟨hfirst, hrs⟩⟩
      rw [if_pos htable, List.map_append]
      rfl
    · exact ⟨rs, by rw [if_neg htable, List.nil_append], hrs⟩

/-! ## Aggregates of records -/

/-- Whatever commit it is stamped with, the aggregate has its records in batches for their tables. -/
def Aggregate.IsTyped {α : Type} [Aggregate α] (a : α) : Prop :=
  ∀ id batches, Aggregate.batches (Aggregate.stamp id a) = .ok batches →
    ∀ batch ∈ batches, batch.IsTyped

theorem SingleVersion.isTyped {α : Type} [Record α] [Registered α] (r : α) :
    Aggregate.IsTyped (SingleVersion.mk r) := by
  intro id batches hbatches batch hbatch
  obtain rfl : [Batch.ofRecords [Record.stamp id r]] = batches := Except.ok.inj hbatches
  exact List.mem_singleton.1 hbatch ▸ Batch.isTyped_ofRecords _

/-- The batches of a topology hold what its records are. -/
theorem Topology.holdsEach_of_mem_batches {P : (α : Type) → [Record α] → α → Prop} {t : Topology}
    (h : ∀ p ∈ t.gather fun α _ rs => rs.map (P α), p) : ∀ batch ∈ t.batches, batch.HoldsEach P := by
  simp only [gather, List.forall_mem_append, List.forall_mem_map] at h
  obtain ⟨⟨⟨⟨⟨⟨hgroup, hmarkers⟩, hnodes⟩, hswitches⟩, htransformers⟩, hterminals⟩, hends⟩ := h
  intro batch hbatch
  rw [batches, gather] at hbatch
  simp only [List.mem_append] at hbatch
  rcases hbatch with (((((hin | hin) | hin) | hin) | hin) | hin) | hin
  · exact Batch.holdsEach_of_mem_ofNonempty hgroup hin
  · exact Batch.holdsEach_of_mem_ofNonempty hmarkers hin
  · exact Batch.holdsEach_of_mem_ofNonempty hnodes hin
  · exact Batch.holdsEach_of_mem_ofNonempty hswitches hin
  · exact Batch.holdsEach_of_mem_ofNonempty htransformers hin
  · exact Batch.holdsEach_of_mem_ofNonempty hterminals hin
  · exact Batch.holdsEach_of_mem_ofNonempty hends hin

theorem Topology.isTyped (t : Topology) : Aggregate.IsTyped t := by
  intro id batches hbatches
  obtain rfl : (t.stamp id).batches = batches := Except.ok.inj hbatches
  refine holdsEach_of_mem_batches (forall_mem_gather (fun α _ rs p hp => ?_) _)
  obtain ⟨-, -, rfl⟩ := List.mem_map.1 hp
  trivial

theorem Model.isTyped (m : Model) : Aggregate.IsTyped m := m.topology.isTyped

/-! ## Stores of records -/

namespace Store

/-- Everything visible are records of the types of their tables. -/
def IsTyped (s : Store) : Prop := ∀ batch ∈ s.contents.batches, batch.IsTyped

theorem IsTyped.seed {s : Store} (h : s.IsTyped) {α : Type} [Record α] [Registered α]
    (rs : List α) : (s.seed rs).IsTyped :=
  List.forall_mem_append.2 ⟨h, List.forall_mem_singleton.2 (Batch.isTyped_ofRecords rs)⟩

theorem IsTyped.write {b : Backend} (h : b.store.IsTyped) {α : Type} [Aggregate α]
    [LawfulAggregate α] {a : α} (ha : Aggregate.IsTyped a) (modelId : Int32) (note : CommitNote)
    (limit : Option Nat) : (b.write modelId note limit a).backend.store.IsTyped := by
  have hend := b.write_end modelId note limit a
  generalize b.write modelId note limit a = out at hend
  obtain ⟨result, backend, aggregate, events⟩ := out
  cases hend with
  | notStarted | noCommitRow | failed | timedOut => exact h
  | persisted batches hbatches =>
    exact List.forall_mem_append.2
      ⟨h, List.forall_mem_cons.2 ⟨Batch.isTyped_ofRecords _, ha _ _ hbatches⟩⟩

theorem IsTyped.edit {b : Backend} (h : b.store.IsTyped) {α : Type} [Record α] [Registered α]
    (modelId : Int32) (note : CommitNote) (stored : String) (candidate : α) :
    (b.commitIfChanged modelId note stored candidate).backend.store.IsTyped := by
  have hend := b.edit_end modelId note stored candidate
  generalize (b.commitIfChanged modelId note stored candidate).result = result at hend
  generalize (b.commitIfChanged modelId note stored candidate).backend = after at hend
  cases hend with
  | unchanged => exact h
  | committed | failed => exact h.write (SingleVersion.isTyped candidate) modelId note none

/-- A store that seeds, writes and edits lead to, whatever the records and the commit ids are and
under whatever circumstances each of them is made. -/
inductive Written : Store → Prop where
  | fresh : Written {}
  | seed {s : Store} {α : Type} [Record α] [Registered α] (rs : List α) (h : Written s) :
    Written (s.seed rs)
  | write {b : Backend} {α : Type} [Aggregate α] [LawfulAggregate α] (modelId : Int32)
    (note : CommitNote) (limit : Option Nat) (a : α) (ha : Aggregate.IsTyped a)
    (h : Written b.store) : Written (b.write modelId note limit a).backend.store
  | edit {b : Backend} {α : Type} [Record α] [Registered α] (modelId : Int32) (note : CommitNote)
    (stored : String) (candidate : α) (h : Written b.store) :
    Written (b.commitIfChanged modelId note stored candidate).backend.store

/-- **In a written store there are records only**, each in the table of its type. -/
theorem Written.isTyped {s : Store} (h : s.Written) : s.IsTyped := by
  induction h with
  | fresh => exact fun batch hbatch => absurd hbatch (by simp)
  | seed rs _ ih => exact ih.seed rs
  | write modelId note limit a ha _ ih => exact ih.write ha modelId note limit
  | edit modelId note stored candidate _ ih => exact ih.edit modelId note stored candidate

end Store

/-- Records without floats can all be fetched from a store of records that answers queries. -/
theorem Backend.exists_fetch_all_of_isTyped {b : Backend} (htyped : b.store.IsTyped) {α : Type}
    [Record α] [Registered α] (hreal : ∀ c ∈ Record.columns α, c.kind ≠ .real)
    (houtage : b.outage.query (Record.table α) = none) :
    ∃ history, b.fetch α .all = .ok history := by
  obtain ⟨history, hrows, -⟩ := Contents.exists_rowsOf_eq htyped α
  refine ⟨history, fetch_all_eq_ok_iff.2 ⟨houtage, ?_⟩⟩
  rw [Store.rows, Contents.rows, hrows]
  exact decodeRows_map_encode fun r _ => Record.storable_of_forall_ne_real hreal r

end Switchyard
