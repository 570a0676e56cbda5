import Switchyard.Record.Column
import Switchyard.Table

/-!
# Records

A record is one version of an asset.  Every type of record has a *version key*, the identity of
the asset and the commit that produced the version, followed by cells of its own.  `Record` says
how a type is taken apart into key and cells and put together again, and that the two directions
undo each other; everything else is defined once for all types:

* `Record.encode` writes a record as a row, its fields in the order of the columns, and
  `Record.decode?` reads one back; `Record.decode?_encode` says exactly when that succeeds.
  A type may also have rows without names (`Record.encodePositional`); those are only read.
* `Record.stamp` gives a record the commit that persists it and changes nothing else.
* `Record.ofPayload?` reads a row whose missing cells take their defaults.
-/

set_option autoImplicit false

namespace Switchyard

/-- A type whose values are versions of assets. -/
class Versioned (α : Type) where
  /-- The identity of the asset. -/
  mrid : α → Mrid
  /-- The commit that produced this version. -/
  commitId : α → CommitId
  /-- Whether this version says that the asset is gone. -/
  isDeleted : α → Bool

/-- A type of record: the table it lives in, the columns after the version key, and the two
directions between a record and its key and cells. -/
class Record (α : Type) extends Versioned α where
  table : Table
  columns : List Column
  /-- Whether a row may also be an array, of its cells in the order of the columns. -/
  isPositional : Bool := false
  cells : α → Cells columns
  ofCells : Mrid → CommitId → Cells columns → α
  ofCells_cells : ∀ r, ofCells (mrid r) (commitId r) (cells r) = r
  mrid_ofCells : ∀ id c vs, mrid (ofCells id c vs) = id
  commitId_ofCells : ∀ id c vs, commitId (ofCells id c vs) = c
  cells_ofCells : ∀ id c vs, cells (ofCells id c vs) = vs
  isDeleted_congr : ∀ r s, cells r = cells s → isDeleted r = isDeleted s
  nodup_names : ("mrid" :: "commit_id" :: columns.map Column.name).Nodup

namespace Record

export Versioned (mrid commitId isDeleted)

attribute [simp] ofCells_cells mrid_ofCells commitId_ofCells cells_ofCells

variable {α : Type} [Record α]

/-! ## Stamping -/

/-- The record as the version that a commit produces. -/
def stamp (c : CommitId) (r : α) : α := ofCells (mrid r) c (cells r)

@[simp] theorem mrid_stamp (c : CommitId) (r : α) : mrid (stamp c r) = mrid r := by
  simp [stamp]

@[simp] theorem commitId_stamp (c : CommitId) (r : α) : commitId (stamp c r) = c := by
  simp [stamp]

@[simp] theorem cells_stamp (c : CommitId) (r : α) : cells (stamp c r) = cells r := by
  simp [stamp]

@[simp] theorem isDeleted_stamp (c : CommitId) (r : α) : isDeleted (stamp c r) = isDeleted r :=
  isDeleted_congr _ _ (cells_stamp c r)

@[simp] theorem stamp_commitId (r : α) : stamp (commitId r) r = r := ofCells_cells r

@[simp] theorem stamp_stamp (c d : CommitId) (r : α) : stamp c (stamp d r) = stamp c r := by
  simp [stamp]

/-- Two records are equal when their keys and their cells are. -/
theorem ext {r s : α} (hid : mrid r = mrid s) (hcommit : commitId r = commitId s)
    (hcells : cells r = cells s) : r = s := by
  rw [← ofCells_cells r, ← ofCells_cells s, hid, hcommit, hcells]

/-! ## Rows -/

/-- Every column of a type, those of the version key first. -/
def schema (α : Type) [Record α] : List Column :=
  ⟨"mrid", .mrid⟩ :: ⟨"commit_id", .commit⟩ :: columns α

/-- The names of the columns in ascending order. -/
def schemaNames (α : Type) [Record α] : List String :=
  ((schema α).map Column.name).mergeSort fun a b => decide (a ≤ b)

/-- Every cell of a record, those of the version key first. -/
def allCells (r : α) : Cells (schema α) := (mrid r, commitId r, cells r)

/-- The record of all its cells. -/
def ofAllCells (vs : Cells (schema α)) : α := ofCells vs.1 vs.2.1 vs.2.2

@[simp] theorem ofAllCells_allCells (r : α) : ofAllCells (allCells r) = r := ofCells_cells r

@[simp] theorem allCells_ofAllCells (vs : Cells (schema α)) :
    allCells (ofAllCells vs : α) = vs :=
  Prod.ext (mrid_ofCells ..) (Prod.ext (commitId_ofCells ..) (cells_ofCells ..))

/-- The record whose cells are all blank. -/
def blank : α := ofAllCells (Cells.blank (schema α))

/-- The fields of a record's row. -/
def fields (r : α) : List (String × Json) := Cells.fields (schema α) (allCells r)

/-- The row of a record. -/
def encode (r : α) : Json := .obj (fields r)

/-- Reads a row that holds every cell, under its name or, for some types, at its place. -/
def decode? (row : Json) : Option α :=
  match row with
  | .obj _ => (Cells.build? (·.read? row) (schema α)).map ofAllCells
  | .arr values =>
    if isPositional α then (Cells.ofValues? (schema α) values).map ofAllCells else none
  | _ => none

/-- Reads a row whose missing cells take their defaults. -/
def ofPayload? (row : Json) : Option α :=
  (Cells.build? (·.readOrBlank? row) (schema α)).map ofAllCells

/-- The row of a record without names. -/
def encodePositional (r : α) : Json := .arr (Cells.values (schema α) (allCells r))

/-- Whether JSON can hold the record: all its floats are finite. -/
def Storable (r : α) : Prop := Cells.Storable (columns α) (cells r)

instance (r : α) : Decidable (Storable r) :=
  inferInstanceAs (Decidable (Cells.Storable (columns α) (cells r)))

/-- The version key holds no float, so it does not matter to whether JSON can hold a record. -/
theorem storable_allCells {r : α} : Cells.Storable (schema α) (allCells r) ↔ Storable r := by
  simp [schema, allCells, Cells.Storable, Storable, ColumnKind.Storable]

/-! ## A row reads back -/

theorem map_fst_fields (r : α) : (fields r).map Prod.fst = (schema α).map Column.name :=
  Cells.map_fst_fields _ _

/-- Reading the fields of distinct columns finds each cell under its name. -/
theorem build?_fields (columns : List Column) (vs : Cells columns)
    (done : List (String × Json)) (hnodup : (columns.map Column.name).Nodup)
    (hdone : ∀ c ∈ columns, c.name ∉ done.map Prod.fst) :
    Cells.build? (·.read? (.obj (done ++ Cells.fields columns vs))) columns =
      if Cells.Storable columns vs then some vs else none := by
  induction columns generalizing done with
  | nil => simp [Cells.build?, Cells.Storable]
  | cons c cs ih =>
    obtain ⟨v, vs⟩ := vs
    have hnot : c.name ∉ done.map Prod.fst := hdone c (by simp)
    have hlook : (done ++ Cells.fields (c :: cs) (v, vs)).lookup c.name =
        some (c.kind.encode v) := by
      rw [List.lookup_append]
      have hnone : done.lookup c.name = none := by
        rw [List.lookup_eq_none_iff]
        intro p hp
        have hne : p.1 ≠ c.name := fun h => hnot (h ▸ List.mem_map_of_mem hp)
        simpa using Ne.symm hne
      simp [hnone, Cells.fields]
    have hread : c.read? (.obj (done ++ Cells.fields (c :: cs) (v, vs))) =
        if c.kind.Storable v then some v else none := by
      simp [Column.read?, Json.get?, hlook, ColumnKind.decode_encode]
    have hrest : Cells.build? (·.read? (.obj (done ++ Cells.fields (c :: cs) (v, vs)))) cs =
        if Cells.Storable cs vs then some vs else none := by
      have hsplit : done ++ Cells.fields (c :: cs) (v, vs) =
          (done ++ [(c.name, c.kind.encode v)]) ++ Cells.fields cs vs := by
        simp [Cells.fields]
      rw [hsplit]
      refine ih vs _ (List.nodup_cons.1 hnodup).2 fun d hd => ?_
      simp only [List.map_append, List.map_cons, List.map_nil, List.mem_append,
        List.mem_singleton, not_or]
      refine ⟨hdone d (by simp [hd]), fun h => ?_⟩
      exact (List.nodup_cons.1 hnodup).1 (h ▸ List.mem_map_of_mem hd)
    rw [Cells.build?, hread, hrest]
    by_cases hv : c.kind.Storable v <;> by_cases hvs : Cells.Storable cs vs <;>
      simp [Cells.Storable, hv, hvs]

/-- **A record's row reads back as the record exactly when its floats are finite.** -/
theorem decode?_encode (r : α) :
    decode? (encode r) = if Storable r then some r else none := by
  have hnodup : ((schema α).map Column.name).Nodup := nodup_names
  have h := build?_fields (schema α) (allCells r) [] hnodup (by simp)
  rw [List.nil_append] at h
  rw [encode, decode?, fields, h]
  by_cases hs : Storable r
  · simp [storable_allCells.2 hs, hs]
  · simp [mt storable_allCells.1 hs, hs]

/-- A row without names reads back just as one with names, if the type has such rows at all. -/
theorem decode?_encodePositional (r : α) :
    decode? (encodePositional r) = if isPositional α ∧ Storable r then some r else none := by
  rw [encodePositional, decode?, Cells.ofValues?_values]
  by_cases hp : isPositional α <;> by_cases hs : Storable r
  · simp [hp, storable_allCells.2 hs, hs]
  · simp [mt storable_allCells.1 hs, hs]
  · simp [hp]
  · simp [hp]

end Record

end Switchyard
