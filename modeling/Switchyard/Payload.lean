import Switchyard.Record.Basic

/-!
# Complete payloads

A payload is a JSON value that is offered as a complete snapshot of a record.  It has to be an
object, and every column of the record has to be among its keys, except for those that may be left
out; only then is it decoded.  So a field is never filled in silently: a forgotten field is an
error even where the payload could otherwise be read, and it is reported before any field of the
wrong type.
-/

set_option autoImplicit false

namespace Switchyard

/-- Why a payload is refused. -/
inductive PayloadError where
  | notAnObject
  /-- The columns that the payload leaves unset. -/
  | unsetFields (names : List String)
  /-- Some field does not hold a value of its column. -/
  | malformed
deriving DecidableEq

namespace PayloadError

/-- The message of an error. -/
def message : PayloadError → String
  | notAnObject => "Payload must be a JSON object"
  | unsetFields names => "Fields not set: " ++ ", ".intercalate names
  | malformed => "Malformed payload: a field does not hold a value of its column"

end PayloadError

namespace Payload

/-- The columns that a payload may leave out unless the caller says otherwise: the stamp of the
commit and the tombstone mark.  An identity is never optional. -/
def defaultOmissions : List String := ["commit_id", "deleted"]

/-- The columns that are neither supplied nor allowed to be missing, in the order of the schema. -/
def unset (schema supplied allowed : List String) : List String :=
  schema.filter fun name => !supplied.contains name && !allowed.contains name

/-- Refuses a payload that leaves columns unset. -/
def validate (schema supplied allowed : List String) : Except PayloadError Unit :=
  match unset schema supplied allowed with
  | [] => .ok ()
  | names => .error (.unsetFields names)

theorem validate_eq_ok_iff {schema supplied allowed : List String} :
    validate schema supplied allowed = .ok () ↔
      ∀ name ∈ schema, name ∈ supplied ∨ name ∈ allowed := by
  have hnil : unset schema supplied allowed = [] ↔
      ∀ name ∈ schema, name ∈ supplied ∨ name ∈ allowed := by
    simp only [unset, List.filter_eq_nil_iff, Bool.and_eq_true, Bool.not_eq_true',
      List.contains_eq_mem, decide_eq_false_iff_not, not_and, Decidable.not_not]
    exact forall_congr' fun name => imp_congr_right fun _ => Decidable.or_iff_not_imp_left.symm
  rw [validate, ← hnil]
  split
  · rename_i h
    simp [h]
  · rename_i h
    exact ⟨fun h' => by simp at h', fun h' => absurd h' h⟩

/-- Decodes a payload as a complete snapshot of a record. -/
def decode (α : Type) [Record α] (payload : Json) (allowed : List String) :
    Except PayloadError α :=
  match payload with
  | .obj fields =>
    match validate (Record.schemaNames α) (fields.map Prod.fst) allowed with
    | .error e => .error e
    | .ok () =>
      match Record.ofPayload? payload with
      | some r => .ok r
      | none => .error .malformed
  | _ => .error .notAnObject

end Payload

end Switchyard
