import Switchyard.Predicate

/-!
# What a row names and what its record names

A predicate judges rows as they are stored, and a row may be written in many ways.  Once a row has
been read as a record, the record's own row stands in for it: every column of the record type names
the same identity in both (`reference?_encode`), so a predicate on such a column cannot tell them
apart (`Predicate.holds_encode`).

This takes a row that is an object.  A row without names has no columns to look into, and only a
predicate that accepts every row sees it (`Predicate.Sees`).
-/

set_option autoImplicit false

namespace Switchyard

/-- The value is an object, so that its fields have names. -/
def Json.IsObject (row : Json) : Prop := row.fields?.isSome = true

instance (row : Json) : Decidable row.IsObject :=
  inferInstanceAs (Decidable (row.fields?.isSome = true))

/-! ## Cells -/

namespace ColumnKind

/-- Only texts name identities. -/
theorem decode_mrid_eq_none {value : Json} (h : ∀ s, value ≠ .str s) :
    decode .mrid value = none := by
  cases value with
  | str s => exact absurd rfl (h s)
  | _ => rfl

/-- The name of a winding connection is no identity. -/
theorem ofText?_name (w : WindingConnection) : Mrid.ofText? w.name = none := by
  cases w <;> rfl

/-- Whatever a cell is read from, writing it again names the same identity or, as before, none. -/
theorem decode_mrid_encode {kind : ColumnKind} {value : Json} {v : kind.Value}
    (h : kind.decode value = some v) : decode .mrid (kind.encode v) = decode .mrid value := by
  cases kind with
  | mrid =>
    rw [decode_encode, if_pos (by exact trivial)]
    exact h.symm
  | text =>
    cases value with
    | str s => rw [← Option.some.inj h, encode]
    | _ => simp [decode] at h
  | winding =>
    have hencode : decode .mrid (encode .winding v) = none := ofText?_name v
    rw [hencode]
    cases value with
    | str s =>
      obtain rfl : WindingConnection.name v = s := by
        have hfind : [WindingConnection.d, .y, .yn].find? (fun w => w.name = s) = some v := h
        simpa using List.find?_some hfind
      exact (ofText?_name v).symm
    | _ => rfl
  | real =>
    rw [decode_mrid_eq_none, decode_mrid_eq_none]
    · rintro s rfl
      simp [decode] at h
    · intro s
      rw [encode, Json.ofFloat]
      split <;> simp
  | commit | int =>
    rw [decode_mrid_eq_none, decode_mrid_eq_none]
    · rintro s rfl
      simp [decode] at h
    · exact fun s => by simp [encode, Json.ofInt]
  | flag =>
    rw [decode_mrid_eq_none, decode_mrid_eq_none]
    · rintro s rfl
      simp [decode] at h
    · exact fun s => by simp [encode]

end ColumnKind

/-! ## Rows -/

/-- Every column of cells that were read has its value in their fields. -/
theorem Cells.read_of_build? {read : (c : Column) → Option c.kind.Value} {columns : List Column}
    {vs : Cells columns} (h : build? read columns = some vs)
    (hnodup : (columns.map Column.name).Nodup) {c : Column} (hc : c ∈ columns) :
    ∃ v, read c = some v ∧ (fields columns vs).lookup c.name = some (c.kind.encode v) := by
  induction columns with
  | nil => exact absurd hc (by simp)
  | cons d ds ih =>
    obtain ⟨w, ws⟩ := vs
    rw [build?] at h
    split at h
    · rename_i w' ws' hw hws
      obtain ⟨rfl, rfl⟩ := Prod.mk.inj (Option.some.inj h)
      obtain ⟨hd, hds⟩ := List.nodup_cons.1 hnodup
      rcases List.mem_cons.1 hc with rfl | hc
      · exact ⟨w', hw, by simp [fields]⟩
      · obtain ⟨v, hv, hlookup⟩ := ih hws hds hc
        have hne : (c.name == d.name) = false := by
          rw [beq_eq_false_iff_ne]
          exact fun heq => hd (heq ▸ List.mem_map_of_mem hc)
        exact ⟨v, hv, by rw [fields, List.lookup_cons, hne]; exact hlookup⟩
    · simp at h

namespace Record

variable {α : Type} [Record α]

/-- A record that has no row without names was read from an object. -/
theorem isObject_of_decode? {row : Json} {r : α} (hnamed : isPositional α = false)
    (h : decode? row = some r) : row.IsObject := by
  cases row with
  | obj fields => rfl
  | arr values => simp [decode?, hnamed] at h
  | _ => simp [decode?] at h

/-- A record that was read from an object was read from it cell by cell. -/
theorem build?_of_decode? {row : Json} {r : α} (hobject : row.IsObject)
    (h : decode? row = some r) :
    Cells.build? (·.read? row) (schema α) = some (allCells r) := by
  cases row with
  | obj fields =>
    obtain ⟨vs, hvs, rfl⟩ := Option.map_eq_some_iff.1 h
    rw [allCells_ofAllCells]
    exact hvs
  | _ => simp [Json.IsObject, Json.fields?] at hobject

/-- **A row and the row of the record it holds name the same identities.** -/
theorem reference?_encode {row : Json} {r : α} (hobject : row.IsObject)
    (h : decode? row = some r) {c : Column} (hc : c ∈ schema α) :
    Predicate.reference? (encode r) c.name = Predicate.reference? row c.name := by
  obtain ⟨v, hread, hlookup⟩ :=
    Cells.read_of_build? (build?_of_decode? hobject h) nodup_names hc
  obtain ⟨value, hvalue, hdecode⟩ := Option.bind_eq_some_iff.1 hread
  have hencode : (encode r).get? c.name = some (c.kind.encode v) := hlookup
  rw [Predicate.reference?, hencode, Predicate.reference?, hvalue, Option.bind_some,
    Option.bind_some]
  exact ColumnKind.decode_mrid_encode hdecode

/-- A record's row names the record. -/
theorem reference?_mrid_encode (r : α) :
    Predicate.reference? (encode r) "mrid" = some (mrid r) := by
  simp [Predicate.reference?, encode, fields, schema, allCells, Cells.fields, Json.get?,
    ColumnKind.decode, ColumnKind.encode]

end Record

namespace Predicate

variable {α : Type} [Record α]

/-- The condition is on a column of a record type, if it is one on a column. -/
def Reads (α : Type) [Record α] : Predicate → Prop
  | all => True
  | columnIn column _ => ∃ c ∈ Record.schema α, c.name = column

/-- The condition can look into a row: the row is an object, or the condition accepts every row. -/
def Sees (p : Predicate) (row : Json) : Prop := p = all ∨ row.IsObject

/-- **A predicate does not tell a row from the row of the record it holds.** -/
theorem holds_encode {p : Predicate} (hp : p.Reads α) {row : Json} {r : α} (hsees : p.Sees row)
    (h : Record.decode? row = some r) : p.holds (Record.encode r) = p.holds row := by
  cases p with
  | all => rfl
  | columnIn column values =>
    obtain ⟨c, hc, rfl⟩ := hp
    have hobject : row.IsObject := hsees.resolve_left (by simp)
    rw [holds, holds, Record.reference?_encode hobject h hc]

theorem reads_mridIn (values : List Mrid) : (mridIn values).Reads α :=
  ⟨⟨"mrid", .mrid⟩, List.mem_cons_self, rfl⟩

/-- Asking for assets is asking for their records. -/
theorem holds_mridIn_encode (values : List Mrid) (r : α) :
    (mridIn values).holds (Record.encode r) = values.contains (Record.mrid r) := by
  rw [mridIn, holds, Record.reference?_mrid_encode]

end Predicate

end Switchyard
