import Switchyard.Mrid
import Switchyard.Text.Hex

/-!
# The written form of an identifier

An identifier is written as 32 lowercase hexadecimal digits in five groups of 8, 4, 4, 4 and 12,
joined by hyphens.  Reading is more tolerant: the digits may have either case, and besides the
hyphenated form it takes the bare 32 digits, the hyphenated form in braces, and the hyphenated
form behind the marker of a uniform resource name.  Nothing else is read, and nothing is trimmed.

The main statement is `ofText?_text`: the written form of an identifier reads back as it.
-/

set_option autoImplicit false

namespace Switchyard

namespace Text

/-- Joins the digits in groups of the given sizes by hyphens. -/
def hyphenate : List Nat → List Char → List Char
  | [], _ => []
  | [size], cs => cs.take size
  | size :: sizes, cs => cs.take size ++ '-' :: hyphenate sizes (cs.drop size)

/-- Takes groups of exactly the given sizes apart at their hyphens. -/
def unhyphenate? : List Nat → List Char → Option (List Char)
  | [], _ => none
  | [size], cs => if cs.length = size then some cs else none
  | size :: sizes, cs =>
    match cs.drop size with
    | '-' :: rest => (unhyphenate? sizes rest).map (cs.take size ++ ·)
    | _ => none

/-- Groups that were joined come apart as the digits they were joined from. -/
theorem unhyphenate?_hyphenate (sizes : List Nat) (cs : List Char) (hne : sizes ≠ [])
    (hlen : cs.length = sizes.foldr (· + ·) 0) :
    unhyphenate? sizes (hyphenate sizes cs) = some cs := by
  induction sizes generalizing cs with
  | nil => exact absurd rfl hne
  | cons size sizes ih =>
    cases sizes with
    | nil =>
      have h : cs.length = size := by simpa using hlen
      simp [hyphenate, unhyphenate?, h, List.take_of_length_le]
    | cons next sizes =>
      have hsize : size ≤ cs.length := by simp [hlen]
      have hsum : (cs.drop size).length = (next :: sizes).foldr (· + ·) 0 := by
        simp only [List.length_drop, hlen, List.foldr_cons]
        omega
      have htake : (cs.take size).length = size := by simp [hsize]
      simp [hyphenate, unhyphenate?, htake, ih (cs.drop size) (by simp) hsum]

end Text

namespace Mrid

open Text

/-- The sizes of the five groups of digits. -/
def groups : List Nat := [8, 4, 4, 4, 12]

/-- The hyphenated lowercase form, as characters. -/
def chars (id : Mrid) : List Char := hyphenate groups (hexDigits 32 id.toNat)

/-- The hyphenated lowercase form. -/
def text (id : Mrid) : String := String.ofList id.chars

instance : ToString Mrid := ⟨text⟩

/-- Reads exactly 32 digits. -/
def ofDigits? (cs : List Char) : Option Mrid :=
  if cs.length = 32 then (ofHexDigits? cs).map ofNat else none

/-- Reads the hyphenated form. -/
def ofHyphenated? (cs : List Char) : Option Mrid := (unhyphenate? groups cs).bind ofDigits?

/-- What stands before the hyphenated form in a uniform resource name. -/
def urnMarker : List Char := ['u', 'r', 'n', ':', 'u', 'u', 'i', 'd', ':']

/-- Reads any of the four accepted forms. -/
def ofChars? (cs : List Char) : Option Mrid :=
  match cs.length with
  | 32 => ofDigits? cs
  | 36 => ofHyphenated? cs
  | 38 =>
    if cs.head? = some '\x7b' ∧ cs.getLast? = some '\x7d' then ofHyphenated? cs.tail.dropLast
    else none
  | 45 => if (cs.take 9).map Char.toLower = urnMarker then ofHyphenated? (cs.drop 9) else none
  | _ => none

/-- Reads any of the four accepted forms; see `ofChars?`. -/
def ofText? (s : String) : Option Mrid := ofChars? s.toList

@[simp] theorem length_chars (id : Mrid) : id.chars.length = 36 := by
  simp [chars, groups, hyphenate]

theorem ofHyphenated?_chars (id : Mrid) : ofHyphenated? id.chars = some id := by
  have hsum : (hexDigits 32 id.toNat).length = groups.foldr (· + ·) 0 := by simp [groups]
  rw [ofHyphenated?, chars, unhyphenate?_hyphenate groups _ (by simp [groups]) hsum]
  have hmod : id.toNat % Nat.pow 16 32 = id.toNat := Nat.mod_eq_of_lt id.toNat_lt
  rw [Option.bind_some, ofDigits?, if_pos (length_hexDigits 32 _), ofHexDigits?_hexDigits, hmod,
    Option.map_some, ofNat_toNat]

/-- **An identifier's written form reads back as the identifier.** -/
@[simp] theorem ofText?_text (id : Mrid) : ofText? id.text = some id := by
  simp [ofText?, ofChars?, text, ofHyphenated?_chars]

/-- Different identifiers are written differently. -/
theorem text_inj {a b : Mrid} : a.text = b.text ↔ a = b :=
  ⟨fun h => Option.some.inj (by rw [← ofText?_text a, h, ofText?_text]), congrArg text⟩

end Mrid

end Switchyard
