import Switchyard.Proofs.Load.ByReference

/-!
# What a store mentions

An identity is new to a store if no field of any row names it: not as the identity of an asset and
not as a reference to one.  Every record that can be fetched is mentioned, and so is whatever it
refers to (`mem_mentions_of_fetch`).
-/

set_option autoImplicit false

namespace Switchyard

/-- The identities that the fields of a row name. -/
def Json.mentions : Json → List Mrid
  | .obj fields => fields.filterMap fun field => ColumnKind.decode .mrid field.2
  | .arr items => items.filterMap (ColumnKind.decode .mrid)
  | _ => []

/-- The identities that the rows of a store name. -/
def Store.mentions (s : Store) : List Mrid :=
  s.contents.batches.flatMap fun batch => batch.rows.flatMap Json.mentions

theorem Json.mem_mentions_of_reference? {row : Json} {column : String} {id : Mrid}
    (h : Predicate.reference? row column = some id) : id ∈ row.mentions := by
  obtain ⟨value, hvalue, hdecode⟩ := Option.bind_eq_some_iff.1 h
  cases row with
  | obj fields =>
    obtain ⟨before, after, rfl, -⟩ := List.lookup_eq_some_iff.1 hvalue
    exact List.mem_filterMap.2 ⟨(column, value), by simp, hdecode⟩
  | _ => simp [Json.get?] at hvalue

theorem Store.mem_mentions_of_mem_rows {s : Store} {table : Table} {row : Json}
    (hrow : row ∈ s.rows table) {id : Mrid} (hid : id ∈ row.mentions) : id ∈ s.mentions := by
  obtain ⟨batch, hbatch, hrow⟩ := List.mem_flatMap.1 hrow
  split at hrow
  · exact List.mem_flatMap.2 ⟨batch, hbatch, List.mem_flatMap.2 ⟨row, hrow, hid⟩⟩
  · exact absurd hrow (by simp)

namespace Backend

variable {α : Type} [Record α] {b : Backend} {rs : List α} {r : α}

/-- What is fetched is read from rows of the store. -/
theorem exists_row_of_mem_fetch {p : Predicate} (h : b.fetch α p = .ok rs) (hr : r ∈ rs) :
    ∃ row ∈ b.store.rows (Record.table α), Record.decode? row = some r := by
  rw [fetch, query] at h
  cases houtage : b.outage.query (Record.table α) with
  | some e => simp [houtage, answerUnless] at h
  | none =>
    simp only [houtage, answerUnless] at h
    obtain ⟨row, hrow, hdecode⟩ := exists_row_of_mem_decodeRows h hr
    exact ⟨row, (List.mem_filter.1 hrow).1, hdecode⟩

/-- **A store mentions whatever a column of a fetched record names.** -/
theorem mem_mentions_of_fetch {p : Predicate} {column : String} {referred : α → Mrid}
    (hrefers : Record.RefersBy α column referred) (hnamed : Record.isPositional α = false)
    (h : b.fetch α p = .ok rs) (hr : r ∈ rs) : referred r ∈ b.store.mentions := by
  obtain ⟨row, hrow, hdecode⟩ := exists_row_of_mem_fetch h hr
  have hid := Record.reference?_encode (Record.isObject_of_decode? hnamed hdecode) hdecode
    (Cells.mem_of_mem_entries (Record.schema α) (hrefers r))
  rw [hrefers.reference?_encode] at hid
  exact Store.mem_mentions_of_mem_rows hrow (Json.mem_mentions_of_reference? hid.symm)

theorem mrid_mem_mentions_of_fetch {p : Predicate} (hnamed : Record.isPositional α = false)
    (h : b.fetch α p = .ok rs) (hr : r ∈ rs) : Record.mrid r ∈ b.store.mentions :=
  mem_mentions_of_fetch (Record.refersBy_mrid α) hnamed h hr

/-- What is loaded is fetched first. -/
theorem exists_fetch_of_mem_load {p : Predicate} (h : b.load α p = .ok rs) (hr : r ∈ rs) :
    ∃ q history, b.fetch α q = .ok history ∧ r ∈ history := by
  have hmem {history : List α} (hr : r ∈ Version.active history) : r ∈ history :=
    Version.mem_of_mem_latest (Version.mem_active_iff.1 hr).1
  cases hmatched : b.fetch α p with
  | error e => simp [load, loadActive, hmatched, Except.mapError] at h
  | ok matched =>
    simp only [load, loadActive, hmatched] at h
    split at h
    · obtain rfl := Except.ok.inj h
      exact ⟨p, matched, hmatched, hmem hr⟩
    · split at h
      · obtain rfl := Except.ok.inj h
        exact absurd hr List.not_mem_nil
      · cases hhistory : b.fetch α (.mridIn (matched.map Record.mrid)) with
        | error e => simp [hhistory, Except.mapError] at h
        | ok history =>
          rw [hhistory] at h
          obtain rfl := Except.ok.inj h
          exact ⟨_, history, hhistory, hmem (List.mem_filter.1 hr).1⟩

/-- A store mentions the assets that are loaded from it. -/
theorem mrid_mem_mentions_of_load {p : Predicate} (hnamed : Record.isPositional α = false)
    (h : b.load α p = .ok rs) (hr : r ∈ rs) : Record.mrid r ∈ b.store.mentions := by
  obtain ⟨q, history, hfetch, hmem⟩ := exists_fetch_of_mem_load h hr
  exact mrid_mem_mentions_of_fetch hnamed hfetch hmem

end Backend

end Switchyard
