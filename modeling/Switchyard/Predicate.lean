import Switchyard.Record.Basic

/-!
# Predicates on rows

A query asks for every row of a table, or for the rows in which a column refers to one of some
given identities.  A column is judged by the identity it names and not by its text, so any written
form of an identifier matches; a row without the column, or with something else in it, does not.
-/

set_option autoImplicit false

namespace Switchyard

/-- A condition on rows. -/
inductive Predicate where
  | all
  | columnIn (column : String) (values : List Mrid)
deriving DecidableEq

namespace Predicate

/-- The rows of the given assets. -/
def mridIn (values : List Mrid) : Predicate := columnIn "mrid" values

/-- The identity that a column of a row names. -/
def reference? (row : Json) (column : String) : Option Mrid :=
  (row.get? column).bind (ColumnKind.decode .mrid)

/-- Whether a row fulfils the condition. -/
def holds (p : Predicate) (row : Json) : Bool :=
  match p with
  | all => true
  | columnIn column values =>
    match reference? row column with
    | some id => values.contains id
    | none => false

@[simp] theorem holds_all (row : Json) : all.holds row = true := rfl

theorem holds_columnIn_iff {column : String} {values : List Mrid} {row : Json} :
    (columnIn column values).holds row = true ↔
      ∃ id ∈ values, reference? row column = some id := by
  simp only [holds]
  split
  · rename_i id heq
    simp [heq]
  · rename_i heq
    simp [heq]

end Predicate

end Switchyard
