import Switchyard.Mrid.Text
import Switchyard.Json.Basic
import Switchyard.Decimal.Reading
import Switchyard.FixedWidth

/-!
# Columns

A record is stored as a row, a JSON object with one field for each column; some rows may also be
written without names, as the values of their cells in the order of the columns.  A column has a
name and a kind; the kind says which values its cells hold, which value a cell has by default, and
how a cell is written and read.

Reading is more tolerant than writing: an identifier is read from any of its written forms, an
integer is taken where a float is wanted, and a winding connection may stand as the only key of an
object.  The main statement is `ColumnKind.decode_encode`: a cell reads back as it was written,
unless it holds an infinity or NaN, which JSON cannot hold and which is written as `null`.
-/

set_option autoImplicit false

namespace Switchyard

/-- The id of a commit.  Ids are generated in ascending order, so the version with the greatest
one is the most recent. -/
structure CommitId where
  val : Int64
deriving DecidableEq

namespace CommitId

/-- The placeholder of a record that no commit has stamped yet. -/
def unset : CommitId := ⟨0⟩

instance : Inhabited CommitId := ⟨unset⟩

instance : LE CommitId := ⟨fun a b => a.val ≤ b.val⟩

instance : LT CommitId := ⟨fun a b => a.val < b.val⟩

instance (a b : CommitId) : Decidable (a ≤ b) := inferInstanceAs (Decidable (a.val ≤ b.val))

instance (a b : CommitId) : Decidable (a < b) := inferInstanceAs (Decidable (a.val < b.val))

/-- The id as a number. -/
def toInt (id : CommitId) : Int := id.val.toInt

theorem le_iff {a b : CommitId} : a ≤ b ↔ a.toInt ≤ b.toInt := Int64.le_iff_toInt_le

theorem lt_iff {a b : CommitId} : a < b ↔ a.toInt < b.toInt := Int64.lt_iff_toInt_lt

theorem toInt_inj {a b : CommitId} : a.toInt = b.toInt ↔ a = b := by
  cases a
  cases b
  simp [toInt, Int64.toInt_inj]

instance : ToString CommitId := ⟨fun id => toString id.toInt⟩

end CommitId

/-- How a winding of a transformer is connected: delta, wye, or wye with grounded neutral. -/
inductive WindingConnection where
  | d
  | y
  | yn
deriving DecidableEq

namespace WindingConnection

instance : Inhabited WindingConnection := ⟨y⟩

/-- The written form. -/
def name : WindingConnection → String
  | d => "D"
  | y => "Y"
  | yn => "Yn"

/-- The connection of a name. -/
def ofName? (s : String) : Option WindingConnection := [d, y, yn].find? fun w => w.name = s

@[simp] theorem ofName?_name (w : WindingConnection) : ofName? w.name = some w := by
  cases w <;> rfl

end WindingConnection

/-- What the cells of a column hold. -/
inductive ColumnKind where
  | mrid
  | commit
  | int
  | real
  | flag
  | text
  | winding
deriving DecidableEq

namespace ColumnKind

/-- The values of a cell. -/
@[reducible] def Value : ColumnKind → Type
  | mrid => Mrid
  | commit => CommitId
  | int => Int32
  | real => Float
  | flag => Bool
  | text => String
  | winding => WindingConnection

/-- The value of a cell that nothing was put into. -/
def blank : (kind : ColumnKind) → kind.Value
  | mrid => Mrid.nil
  | commit => CommitId.unset
  | int => 0
  | real => 0.0
  | flag => false
  | text => ""
  | winding => .y

/-- The written form of a cell. -/
def encode : (kind : ColumnKind) → kind.Value → Json
  | mrid, id => .str (Mrid.text id)
  | commit, id => .ofInt (CommitId.toInt id)
  | int, n => .ofInt (Int32.toInt n)
  | real, x => .ofFloat x
  | flag, b => .bool b
  | text, s => .str s
  | winding, w => .str (WindingConnection.name w)

/-- Reads a cell. -/
def decode : (kind : ColumnKind) → Json → Option kind.Value
  | mrid, .str s => Mrid.ofText? s
  | commit, .num (.int n) => (FixedWidth.int64? n).map CommitId.mk
  | int, .num (.int n) => FixedWidth.int32? n
  | real, .num (.int n) => some (Decimal.floatOfInt n)
  | real, .num (.float x _) => some x
  | flag, .bool b => some b
  | text, .str s => some s
  | winding, .str s => WindingConnection.ofName? s
  | winding, .obj [(key, .null)] => WindingConnection.ofName? key
  | _, _ => none

/-- Whether JSON can hold the cell: a float has to be finite. -/
def Storable : (kind : ColumnKind) → kind.Value → Prop
  | real, x => Float.isFinite x = true
  | _, _ => True

instance : (kind : ColumnKind) → (v : kind.Value) → Decidable (kind.Storable v)
  | mrid, _ => isTrue trivial
  | commit, _ => isTrue trivial
  | int, _ => isTrue trivial
  | real, x => inferInstanceAs (Decidable (Float.isFinite x = true))
  | flag, _ => isTrue trivial
  | text, _ => isTrue trivial
  | winding, _ => isTrue trivial

/-- **A cell reads back as it was written exactly when JSON can hold it.** -/
theorem decode_encode (kind : ColumnKind) (v : kind.Value) :
    kind.decode (kind.encode v) = if kind.Storable v then some v else none := by
  cases kind with
  | mrid => simp [decode, encode, Storable]
  | commit => simp [decode, encode, Storable, Json.ofInt, CommitId.toInt]
  | int => simp [decode, encode, Storable, Json.ofInt]
  | real =>
    by_cases h : Float.isFinite v = true
    · simp [decode, encode, Storable, Json.ofFloat_of_finite, h]
    · simp [decode, encode, Storable, Json.ofFloat, h]
  | flag => simp [decode, encode, Storable]
  | text => simp [decode, encode, Storable]
  | winding => simp [decode, encode, Storable]

end ColumnKind

/-- A column of a record type. -/
structure Column where
  name : String
  kind : ColumnKind

/-! ## Rows of cells -/

/-- One cell for each column. -/
@[reducible] def Cells : List Column → Type
  | [] => Unit
  | c :: cs => c.kind.Value × Cells cs

namespace Cells

/-- The cells that nothing was put into. -/
def blank : (columns : List Column) → Cells columns
  | [] => ()
  | c :: cs => (c.kind.blank, blank cs)

/-- The fields of a row. -/
def fields : (columns : List Column) → Cells columns → List (String × Json)
  | [], _ => []
  | c :: cs, (v, vs) => (c.name, c.kind.encode v) :: fields cs vs

/-- The written cells of a row, in the order of the columns. -/
def values : (columns : List Column) → Cells columns → List Json
  | [], _ => []
  | c :: cs, (v, vs) => c.kind.encode v :: values cs vs

/-- Reads one cell for each column from values in their order; fails if a value is missing, left
over, or cannot be read. -/
def ofValues? : (columns : List Column) → List Json → Option (Cells columns)
  | [], [] => some ()
  | c :: cs, value :: values =>
    match c.kind.decode value, ofValues? cs values with
    | some v, some vs => some (v, vs)
    | _, _ => none
  | _, _ => none

/-- Reads every cell, column by column; fails if one of them cannot be read. -/
def build? (read : (c : Column) → Option c.kind.Value) :
    (columns : List Column) → Option (Cells columns)
  | [] => some ()
  | c :: cs =>
    match read c, build? read cs with
    | some v, some vs => some (v, vs)
    | _, _ => none

/-- Whether JSON can hold every cell. -/
def Storable : (columns : List Column) → Cells columns → Prop
  | [], _ => True
  | c :: cs, (v, vs) => c.kind.Storable v ∧ Storable cs vs

instance decidableStorable :
    (columns : List Column) → (vs : Cells columns) → Decidable (Storable columns vs)
  | [], _ => isTrue trivial
  | c :: cs, (v, vs) =>
    have := decidableStorable cs vs
    inferInstanceAs (Decidable (c.kind.Storable v ∧ Storable cs vs))

theorem map_fst_fields (columns : List Column) (vs : Cells columns) :
    (fields columns vs).map Prod.fst = columns.map Column.name := by
  induction columns with
  | nil => rfl
  | cons c cs ih =>
    obtain ⟨v, vs⟩ := vs
    simp [fields, ih]

theorem map_snd_fields (columns : List Column) (vs : Cells columns) :
    (fields columns vs).map Prod.snd = values columns vs := by
  induction columns with
  | nil => rfl
  | cons c cs ih =>
    obtain ⟨v, vs⟩ := vs
    simp [fields, values, ih]

/-- Only as many values as there are columns hold their cells. -/
theorem length_of_ofValues? {columns : List Column} {items : List Json} {vs : Cells columns}
    (h : ofValues? columns items = some vs) : items.length = columns.length := by
  induction columns generalizing items with
  | nil =>
    cases items with
    | nil => rfl
    | cons item items => simp [ofValues?] at h
  | cons c cs ih =>
    cases items with
    | nil => simp [ofValues?] at h
    | cons item items =>
      rw [ofValues?] at h
      split at h
      · next hrest => simp [ih hrest]
      · simp at h

/-- **Cells read back from their values exactly when JSON can hold them.** -/
theorem ofValues?_values (columns : List Column) (vs : Cells columns) :
    ofValues? columns (values columns vs) = if Storable columns vs then some vs else none := by
  induction columns with
  | nil => simp [ofValues?, values, Storable]
  | cons c cs ih =>
    obtain ⟨v, vs⟩ := vs
    rw [values, ofValues?, ColumnKind.decode_encode, ih]
    by_cases hv : c.kind.Storable v <;> by_cases hvs : Storable cs vs <;>
      simp [Storable, hv, hvs]

end Cells

/-- Reads a cell that has to be there. -/
def Column.read? (c : Column) (row : Json) : Option c.kind.Value :=
  (row.get? c.name).bind c.kind.decode

/-- Reads a cell that has its default where the row leaves it out. -/
def Column.readOrBlank? (c : Column) (row : Json) : Option c.kind.Value :=
  match row.get? c.name with
  | some v => c.kind.decode v
  | none => some c.kind.blank

end Switchyard
