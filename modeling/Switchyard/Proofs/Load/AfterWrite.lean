import Switchyard.Proofs.Load.Resolved
import Switchyard.Proofs.Write.Atomicity

/-!
# Loading after a write

A write appends the rows of its aggregate to the tables of its records and leaves every other table
alone.  So a table that was written to holds its old records and then the new ones
(`Persisted.fetch_all_eq`), and whatever is loaded from another table is what was loaded before
(`Persisted.loadActive_eq`).
-/

set_option autoImplicit false

namespace Switchyard

/-! ## The rows of a topology -/

namespace Topology

/-- What turns appending into appending can be done before collecting or after. -/
theorem gather_map {β γ : Type} {g : List β → List γ} (hg : ∀ xs ys, g (xs ++ ys) = g xs ++ g ys)
    (f : (α : Type) → [Record α] → List α → List β) (t : Topology) :
    g (t.gather f) = t.gather fun α _ rs => g (f α rs) := by
  simp only [gather, hg]

/-- A table has the rows of the records whose table it is. -/
theorem rowsOf_batches (table : Table) (t : Topology) :
    Contents.rowsOf table t.batches =
      t.gather fun α _ rs => if Record.table α = table then rs.map Record.encode else [] := by
  rw [batches, gather_map (Contents.rowsOf_append table)]
  congr 1
  funext α _ rs
  cases rs with
  | nil => simp [Batch.ofNonempty]
  | cons r rest => simp [Batch.ofNonempty, Batch.ofRecords]

theorem rowsOf_connectivityNodes (t : Topology) :
    Contents.rowsOf (Record.table ConnectivityNode) t.batches =
      t.connectivityNodes.map Record.encode := by
  rw [rowsOf_batches]
  show [] ++ t.connectivityNodes.map Record.encode ++ [] ++ [] ++ [] ++ [] = _
  simp only [List.append_nil, List.nil_append]

theorem rowsOf_terminals (t : Topology) :
    Contents.rowsOf (Record.table Terminal) t.batches = t.terminals.map Record.encode := by
  rw [rowsOf_batches]
  exact List.append_nil _

end Topology

/-! ## Tables after a write -/

namespace Persisted

variable {before after : Backend} {commit : Commit} {identities : List Entity}
  {batches : List Batch} {α : Type} [Record α]

theorem outage_eq (h : Persisted before after commit identities batches) :
    after.outage = before.outage := by
  rw [h.circumstances_eq]

/-- A table has its old rows and then those of the batches, if it is not that of the identities. -/
theorem rows_eq_append (h : Persisted before after commit identities batches) {table : Table}
    (hne : table ≠ .entities) :
    after.store.rows table = before.store.rows table ++ Contents.rowsOf table batches := by
  rw [h.rows_eq, if_neg hne, List.nil_append]

/-- A table holds its old records and then the new ones. -/
theorem fetch_all_eq (h : Persisted before after commit identities batches)
    (hne : Record.table α ≠ .entities) {rs news : List α}
    (hrows : Contents.rowsOf (Record.table α) batches = news.map Record.encode)
    (hstorable : ∀ r ∈ news, Record.Storable r) (hfetch : before.fetch α .all = .ok rs) :
    after.fetch α .all = .ok (rs ++ news) := by
  obtain ⟨houtage, hdecode⟩ := Backend.fetch_all_eq_ok_iff.1 hfetch
  refine Backend.fetch_all_eq_ok_iff.2 ⟨by rw [h.outage_eq, houtage], ?_⟩
  rw [h.rows_eq_append hne, hrows]
  exact Backend.decodeRows_append hdecode (Backend.decodeRows_map_encode hstorable)

/-- A table without new rows answers as before. -/
theorem fetch_eq (h : Persisted before after commit identities batches)
    (hne : Record.table α ≠ .entities) (hrows : Contents.rowsOf (Record.table α) batches = [])
    (p : Predicate) : after.fetch α p = before.fetch α p := by
  rw [Backend.fetch, Backend.query, h.outage_eq, Store.query, h.rows_eq_append hne, hrows,
    List.append_nil]
  rfl

/-- What is loaded from a table without new rows is what was loaded before. -/
theorem loadActive_eq (h : Persisted before after commit identities batches)
    (hne : Record.table α ≠ .entities) (hrows : Contents.rowsOf (Record.table α) batches = [])
    (p : Predicate) : after.loadActive α p = before.loadActive α p := by
  simp only [Backend.loadActive, h.fetch_eq hne hrows]

end Persisted

end Switchyard
