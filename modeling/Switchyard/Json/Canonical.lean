import Switchyard.Json.Basic
import Switchyard.Decimal.Layout
import Switchyard.Text.Hex

/-!
# Canonical JSON text

The text that checksums are computed over: no blanks, fields in the order in which the value
holds them, and one way to write each string and each number.

* Strings escape the quotation mark, the backslash and the control characters below U+0020, and
  nothing else.
* A floating-point number is written with the fewest digits that read back as it, positionally
  for decimal exponents from -5 to 15, and always visibly a float.
-/

set_option autoImplicit false

namespace Switchyard.Json

/-- Where positional number text ends. -/
def numberLayout : Decimal.Layout := ⟨-5, 15⟩

/-- A character inside a string. -/
def escape (c : Char) : List Char :=
  if c = '"' then ['\\', '"']
  else if c = '\\' then ['\\', '\\']
  else if c = '\n' then ['\\', 'n']
  else if c = '\r' then ['\\', 'r']
  else if c = '\t' then ['\\', 't']
  else if c = '\x08' then ['\\', 'b']
  else if c = '\x0c' then ['\\', 'f']
  else if c.toNat < 32 then ['\\', 'u'] ++ Text.hexDigits 4 c.toNat
  else [c]

/-- A string in quotation marks. -/
def quote (s : String) : List Char := '"' :: (s.toList.flatMap escape ++ ['"'])

/-- An integer with its sign. -/
def intChars (n : Int) : List Char :=
  if n < 0 then '-' :: Nat.toDigits 10 n.natAbs else Nat.toDigits 10 n.natAbs

/-- A number. -/
def numberChars : JsonNumber → List Char
  | .int n => intChars n
  | .float x _ => numberLayout.floatChars x

mutual

/-- The canonical text of a value, as characters. -/
def chars : Json → List Char
  | null => ['n', 'u', 'l', 'l']
  | bool true => ['t', 'r', 'u', 'e']
  | bool false => ['f', 'a', 'l', 's', 'e']
  | num n => numberChars n
  | str s => quote s
  | arr [] => ['[', ']']
  | arr (item :: items) => '[' :: (chars item ++ itemsChars items)
  | obj [] => ['\x7b', '\x7d']
  | obj ((key, value) :: fields) =>
    '\x7b' :: (quote key ++ ':' :: (chars value ++ fieldsChars fields))

/-- The items after the first of an array, and its end. -/
def itemsChars : List Json → List Char
  | [] => [']']
  | item :: items => ',' :: (chars item ++ itemsChars items)

/-- The fields after the first of an object, and its end. -/
def fieldsChars : List (String × Json) → List Char
  | [] => ['\x7d']
  | (key, value) :: fields => ',' :: (quote key ++ ':' :: (chars value ++ fieldsChars fields))

end

/-- The canonical text of a value. -/
def text (v : Json) : String := String.ofList v.chars

end Switchyard.Json
