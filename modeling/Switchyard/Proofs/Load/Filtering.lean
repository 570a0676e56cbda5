import Switchyard.Proofs.Load.ByReference
import Switchyard.Proofs.Load.Current
import Switchyard.Proofs.Record.Registry

/-!
# Filtering rows and filtering records

A store filters the rows that it keeps, and what is loaded is filtered once more as records.  A row
and its record may be written differently in every column: identifiers in any of their forms, integers
for floats, a winding connection as the only key of an object, fields that no column asks for.  None
of that makes a difference to a condition on a column (`rows_filtered_as_records`), as long as the row
has names for its cells.  A row without names can be read, but no condition on a column matches it
(`unnamed_row_filtered_out`).
-/

set_option autoImplicit false

namespace Switchyard

namespace Predicate

variable {α : Type} [Record α] {row : Json} {r : α}

/-- No condition on a column matches a row without names. -/
theorem holds_columnIn_of_not_isObject (h : ¬ row.IsObject) (column : String)
    (values : List Mrid) : (columnIn column values).holds row = false := by
  have hnone : row.get? column = none := by
    cases row with
    | obj fields => exact absurd rfl h
    | _ => rfl
  rw [holds, reference?, hnone]
  rfl

/-- A condition on a column matches the row of a record if the record has one of the values there. -/
theorem holds_columnIn_encode_iff {name : String} {id : Mrid}
    (h : ⟨⟨name, .mrid⟩, id⟩ ∈ Record.entries r) (values : List Mrid) :
    (columnIn name values).holds (Record.encode r) = true ↔ id ∈ values := by
  rw [holds_columnIn_iff, Record.reference?_encode_of_mem h]
  simp

/-- A condition on a column matches a row if the record that was read from it has one of the values
there. -/
theorem holds_columnIn_iff_mem (hobject : row.IsObject) (hread : Record.decode? row = some r)
    {name : String} {id : Mrid} (h : ⟨⟨name, .mrid⟩, id⟩ ∈ Record.entries r)
    (values : List Mrid) : (columnIn name values).holds row = true ↔ id ∈ values := by
  have hreads : (columnIn name values).Reads α := ⟨_, Cells.mem_of_mem_entries _ h, rfl⟩
  rw [← holds_encode hreads (.inr hobject) hread, holds_columnIn_encode_iff h]

end Predicate

namespace Backend

variable {α : Type} [Record α] {b : Backend} {rows : List Json} {p : Predicate}

/-- Rows that can be read one by one can be read together. -/
theorem exists_decodeRows (h : ∀ row ∈ rows, ∃ r : α, Record.decode? row = some r) :
    ∃ rs : List α, decodeRows α rows = .ok rs := by
  induction rows with
  | nil => exact ⟨[], rfl⟩
  | cons row rows ih =>
    obtain ⟨⟨r, hr⟩, hrest⟩ := List.forall_mem_cons.1 h
    obtain ⟨rs, hrows⟩ := ih hrest
    exact ⟨r :: rs, decodeRows_cons_eq_ok_iff.2 ⟨r, rs, hr, hrows, rfl⟩⟩

/-- Fetching the rows that match is choosing among all records, also while queries fail. -/
theorem exists_fetch_filter (hp : p.Reads α)
    (hread : ∀ row ∈ b.store.rows (Record.table α), ∃ r : α, Record.decode? row = some r)
    (hsees : ∀ row ∈ b.store.rows (Record.table α), p.Sees row) :
    ∃ rs : List α, (b.store.rows (Record.table α)).map Record.decode? = rs.map some ∧
      b.fetch α .all = answerUnless (b.outage.query (Record.table α)) rs ∧
      b.fetch α p = answerUnless (b.outage.query (Record.table α))
        (rs.filter fun r => p.holds (Record.encode r)) := by
  obtain ⟨rs, hrows⟩ := exists_decodeRows hread
  refine ⟨rs, decodeRows_eq_ok_iff.1 hrows, ?_⟩
  cases houtage : b.outage.query (Record.table α) with
  | some e => exact ⟨by rw [fetch, query, houtage]; rfl, by rw [fetch, query, houtage]; rfl⟩
  | none =>
    have hall : b.fetch α .all = .ok rs := fetch_all_eq_ok_iff.2 ⟨houtage, hrows⟩
    exact ⟨hall, fetch_eq hp hsees hall⟩

end Backend

/-! ## The main statement -/

/-- **A condition on a column does not tell a row from the record that it holds.**  Whatever row of
a type can be read, and whatever column of the type is asked about: if the row is an object, which it
is unless the type is that of the identity rows, the condition matches it exactly if it matches the
row that the record is written as, and for a column of identities exactly if the record has one of
the values there.  A row that is no object matches no such condition.  So where all rows of a table
can be read, fetching those that match is choosing among all records, and both fail alike while the
queries of the table fail; identity rows have to be objects for that, unless every row matches. -/
theorem rows_filtered_as_records (α : Type) [Record α] [Registered α] :
    (∀ (row : Json) (r : α), Record.decode? row = some r →
      (Record.table α ≠ .entities → row.IsObject) ∧
      (¬ row.IsObject → ∀ column values, (Predicate.columnIn column values).holds row = false) ∧
      (row.IsObject → ∀ c ∈ Record.schema α, ∀ values,
        (Predicate.columnIn c.name values).holds row = true ↔
          (Predicate.columnIn c.name values).holds (Record.encode r) = true) ∧
      (row.IsObject → ∀ name, ⟨name, .mrid⟩ ∈ Record.schema α →
        ∃ id, ⟨⟨name, .mrid⟩, id⟩ ∈ Record.entries r ∧
          ∀ values, (Predicate.columnIn name values).holds row = true ↔ id ∈ values)) ∧
    ∀ (b : Backend) (p : Predicate), p.Reads α →
      (∀ row ∈ b.store.rows (Record.table α), ∃ r : α, Record.decode? row = some r) →
      (Record.table α = .entities →
        ∀ row ∈ b.store.rows (Record.table α), p = .all ∨ row.IsObject) →
      ∃ rs : List α, (b.store.rows (Record.table α)).map Record.decode? = rs.map some ∧
        b.fetch α .all = Backend.answerUnless (b.outage.query (Record.table α)) rs ∧
        b.fetch α p = Backend.answerUnless (b.outage.query (Record.table α))
          (rs.filter fun r => p.holds (Record.encode r)) := by
  have hnamed (htable : Record.table α ≠ .entities) {row : Json} {r : α}
      (hread : Record.decode? row = some r) : row.IsObject :=
    Record.isObject_of_decode? (Registered.isPositional_eq_false htable) hread
  refine ⟨fun row r hread => ⟨fun htable => hnamed htable hread, ?_, ?_, ?_⟩, ?_⟩
  · exact Predicate.holds_columnIn_of_not_isObject
  · intro hobject c hc values
    have hreads : (Predicate.columnIn c.name values).Reads α := ⟨c, hc, rfl⟩
    rw [Predicate.holds_encode hreads (.inr hobject) hread]
  · intro hobject name hname
    obtain ⟨id, hid⟩ := Cells.exists_mem_entries hname (Record.allCells r)
    exact ⟨id, hid, Predicate.holds_columnIn_iff_mem hobject hread hid⟩
  · intro b p hp hread hobjects
    refine Backend.exists_fetch_filter hp hread fun row hrow => ?_
    by_cases htable : Record.table α = .entities
    · exact hobjects htable row hrow
    · obtain ⟨r, hr⟩ := hread row hrow
      exact .inr (hnamed htable hr)

/-- The row of a winding of transformer 5 at terminal 3 as another program may write it: identifiers
in three forms, integers for floats, the connection as the key of an object, and a field more. -/
def looseWindingRow : Json :=
  .obj [("mrid", .str "00000000000000000000000000000001"), ("commit_id", .ofInt 2),
    ("deleted", .bool false), ("name", .str ""), ("short_name", .str ""), ("description", .str ""),
    ("end_number", .ofInt 1),
    ("terminal_mrid", .str "\x7b00000000-0000-0000-0000-000000000003\x7d"),
    ("base_voltage_mrid", .str "00000000-0000-0000-0000-000000000004"),
    ("power_transformer_mrid", .str "urn:uuid:00000000-0000-0000-0000-000000000005"),
    ("connection_kind", .obj [("Yn", .null)]), ("rated_s", .ofInt 100), ("rated_u", .ofInt 400),
    ("r", .ofInt 0), ("x", .ofInt 0), ("g", .ofInt 0), ("b", .ofInt 0), ("remark", .null)]

/-- A store that holds this row. -/
def looseWinding : Backend :=
  { store := { contents := { batches := [⟨.powerTransformerEnds, [looseWindingRow]⟩] } } }

/-- The winding reads as one of transformer 5, and it is fetched by that transformer and not by
transformer 6. -/
theorem rows_filtered_as_records_looseWinding :
    ∃ r : PowerTransformerEnd, Record.decode? looseWindingRow = some r ∧
      r.powerTransformerMrid = .ofNat 5 ∧ r.connectionKind = .yn ∧
      looseWinding.fetch PowerTransformerEnd (.columnIn "power_transformer_mrid" [.ofNat 5]) =
        .ok [r] ∧
      looseWinding.fetch PowerTransformerEnd (.columnIn "power_transformer_mrid" [.ofNat 6]) =
        .ok [] := by
  obtain ⟨hrows, hfetch⟩ := rows_filtered_as_records PowerTransformerEnd
  have hcells : (Record.decode? looseWindingRow : Option PowerTransformerEnd).map
      (fun r => (r.powerTransformerMrid, r.connectionKind)) = some (.ofNat 5, .yn) := by
    decide +kernel
  obtain ⟨r, hread, hr⟩ := Option.map_eq_some_iff.1 hcells
  obtain ⟨htransformer, hkind⟩ := Prod.mk.inj hr
  obtain ⟨hobject, -, hsame, -⟩ := hrows looseWindingRow r hread
  have hcolumn : (⟨"power_transformer_mrid", .mrid⟩ : Column) ∈ Record.schema PowerTransformerEnd :=
    List.mem_of_getElem? (i := 9) rfl
  have hchosen (transformer : Mrid) :
      looseWinding.fetch PowerTransformerEnd (.columnIn "power_transformer_mrid" [transformer]) =
        .ok ([r].filter fun _ =>
          (Predicate.columnIn "power_transformer_mrid" [transformer]).holds looseWindingRow) := by
    obtain ⟨rs, hmap, -, hmatched⟩ := hfetch looseWinding
      (.columnIn "power_transformer_mrid" [transformer]) ⟨_, hcolumn, rfl⟩
      (fun row hrow => by rw [List.mem_singleton.1 hrow]; exact ⟨r, hread⟩)
      (fun htable => absurd htable (by decide))
    obtain rfl : rs = [r] := by
      have hone : [Record.decode? looseWindingRow] = rs.map some := hmap
      rw [hread] at hone
      exact List.map_injective_iff.2 (Option.some_injective _) hone.symm
    refine hmatched.trans (congrArg Except.ok (List.filter_congr fun s hs => ?_))
    rw [List.mem_singleton.1 hs]
    exact (Bool.eq_iff_iff.2 (hsame (hobject (by decide)) _ hcolumn [transformer])).symm
  refine ⟨r, hread, htransformer, hkind, ?_, ?_⟩
  · have hmatches : (Predicate.columnIn "power_transformer_mrid" [.ofNat 5]).holds
        looseWindingRow = true := by decide +kernel
    rw [hchosen, hmatches]
    rfl
  · have hmisses : (Predicate.columnIn "power_transformer_mrid" [.ofNat 6]).holds
        looseWindingRow = false := by decide +kernel
    rw [hchosen, hmisses]
    rfl

/-! ## Rows without names -/

/-- **A row without names can be read, and it is left out by a condition on a column that the record
fulfils.**  So fetching what matches is not always choosing among all records. -/
theorem unnamed_row_filtered_out :
    Record.decode? (Record.encodePositional (Backend.switchRow 3)) = some (Backend.switchRow 3) ∧
      (Predicate.mridIn [.ofNat 1]).holds (Record.encodePositional (Backend.switchRow 3)) = false ∧
      (Predicate.mridIn [.ofNat 1]).holds (Record.encode (Backend.switchRow 3)) = true ∧
      Backend.unnamedNewer.fetch Entity .all = .ok [Backend.switchRow 3, Backend.switchRow 2] ∧
      Backend.unnamedNewer.fetch Entity (.mridIn [.ofNat 1]) = .ok [Backend.switchRow 2] ∧
      [Backend.switchRow 3, Backend.switchRow 2].filter
        (fun r => (Predicate.mridIn [.ofNat 1]).holds (Record.encode r)) =
          [Backend.switchRow 3, Backend.switchRow 2] :=
  ⟨by decide +kernel, by decide +kernel, by decide +kernel,
    toOption_eq_some_iff.1 (by decide +kernel), toOption_eq_some_iff.1 (by decide +kernel),
    by decide +kernel⟩

end Switchyard
