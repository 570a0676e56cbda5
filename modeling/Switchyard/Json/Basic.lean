/-!
# JSON values

The value type that stored rows, payloads and answers are made of.  A number is an integer or a
finite floating-point number; which of the two it is belongs to the value, since an integer is
taken where a float is wanted but not the other way round.

An object is a list of fields.  Looking a key up takes the first field of that key; `Json.object`
builds an object whose keys are ascending and distinct, a later field replacing an earlier one of
the same key.
-/

set_option autoImplicit false

namespace Switchyard

/-- A JSON number: an integer, or a floating-point number that is finite. -/
inductive JsonNumber where
  | int (n : Int)
  | float (x : Float) (finite : x.isFinite = true)

/-- A JSON value. -/
inductive Json where
  | null
  | bool (b : Bool)
  | num (n : JsonNumber)
  | str (s : String)
  | arr (items : List Json)
  | obj (fields : List (String × Json))

namespace Json

instance : Inhabited Json := ⟨null⟩

/-- An integer as a value. -/
def ofInt (n : Int) : Json := .num (.int n)

/-- A natural number as a value. -/
def ofNat (n : Nat) : Json := .num (.int n)

/-- A floating-point number as a value; JSON has no infinities and no NaN, and they become
`null`. -/
def ofFloat (x : Float) : Json := if h : x.isFinite then .num (.float x h) else .null

theorem ofFloat_of_finite {x : Float} (h : x.isFinite = true) :
    ofFloat x = .num (.float x h) := by
  simp [ofFloat, h]

/-- The value of a key, that of its first field; `none` for any value that is no object. -/
def get? : Json → String → Option Json
  | obj fields, key => fields.lookup key
  | _, _ => none

/-- The fields of an object. -/
def fields? : Json → Option (List (String × Json))
  | obj fields => some fields
  | _ => none

/-- Puts a field into an ascending list of fields, replacing the field of the same key. -/
def insertField (key : String) (value : Json) : List (String × Json) → List (String × Json)
  | [] => [(key, value)]
  | (k, v) :: rest =>
    if key < k then (key, value) :: (k, v) :: rest
    else if key = k then (key, value) :: rest
    else (k, v) :: insertField key value rest

/-- The object of the given fields, its keys ascending and distinct. -/
def object (fields : List (String × Json)) : Json :=
  .obj (fields.foldl (fun acc f => insertField f.1 f.2 acc) [])

end Json

end Switchyard
