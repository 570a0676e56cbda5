import Switchyard.Json.Basic
import Switchyard.Decimal.Reading
import Switchyard.FixedWidth
import Switchyard.Text.Hex

/-!
# Reading JSON

A reader for JSON text.  Each function takes the leading part of a text and returns what it read
with the rest of the text.  The nesting of values is bounded by the length of the text, which is
the fuel the reader runs on; `Json.parse?` supplies it.

A number literal without point and exponent is an integer if it fits in 64 bits, signed or
unsigned; any other literal is a float, and a literal beyond the largest float is refused.  In an
object with a repeated key the last field counts.
-/

set_option autoImplicit false

namespace Switchyard.Json

open Switchyard.Decimal

/-- The text after leading blanks. -/
def skipBlanks (cs : List Char) : List Char :=
  cs.dropWhile fun c => c = ' ' || c = '\t' || c = '\n' || c = '\r'

/-- The rest of a text after a given beginning. -/
def expect? (word : List Char) (cs : List Char) : Option (List Char) :=
  if word.isPrefixOf cs then some (cs.drop word.length) else none

/-! ## Strings -/

/-- Four hexadecimal digits. -/
def readUnit? (cs : List Char) : Option (Nat × List Char) :=
  if (cs.take 4).length = 4 then
    (Text.ofHexDigits? (cs.take 4)).map fun n => (n, cs.drop 4)
  else none

/-- The character of an escape by its number; a high surrogate needs the low one behind it. -/
def readCodePoint? (cs : List Char) : Option (Char × List Char) := do
  let (high, rest) ← readUnit? cs
  if 0xD800 ≤ high ∧ high < 0xDC00 then
    let (low, rest) ← readUnit? (← expect? ['\\', 'u'] rest)
    if 0xDC00 ≤ low ∧ low < 0xE000 then
      some (Char.ofNat (0x10000 + (high - 0xD800) * 0x400 + (low - 0xDC00)), rest)
    else none
  else if 0xDC00 ≤ high ∧ high < 0xE000 then none
  else some (Char.ofNat high, rest)

/-- The character that a backslash and the given character stand for. -/
def shortEscape? : Char → Option Char
  | '"' => some '"'
  | '\\' => some '\\'
  | '/' => some '/'
  | 'b' => some '\x08'
  | 'f' => some '\x0c'
  | 'n' => some '\n'
  | 'r' => some '\r'
  | 't' => some '\t'
  | _ => none

/-- The characters of a string up to its closing mark, in reverse. -/
def readString? : Nat → List Char → List Char → Option (List Char × List Char)
  | 0, _, _ => none
  | _ + 1, acc, '"' :: rest => some (acc, rest)
  | fuel + 1, acc, '\\' :: 'u' :: rest => do
    let (c, rest) ← readCodePoint? rest
    readString? fuel (c :: acc) rest
  | fuel + 1, acc, '\\' :: c :: rest => do readString? fuel ((← shortEscape? c) :: acc) rest
  | fuel + 1, acc, c :: rest => if c.toNat < 32 then none else readString? fuel (c :: acc) rest
  | _ + 1, _, [] => none

/-- A string after its opening mark. -/
def readText? (cs : List Char) : Option (String × List Char) :=
  (readString? (cs.length + 1) [] cs).map fun (acc, rest) => (String.ofList acc.reverse, rest)

/-! ## Numbers -/

/-- The fraction digits behind a point, if there is one. -/
def readFraction? : List Char → Option (List Char × List Char)
  | '.' :: rest =>
    match takeDigits rest with
    | ([], _) => none
    | (ds, rest) => some (ds, rest)
  | cs => some ([], cs)

/-- The number of a literal: an integer if it has neither fraction nor exponent and fits in 64
bits, signed or unsigned. -/
def literal? (negative : Bool) (whole fraction : List Char) (exponent : Option Int) :
    Option JsonNumber :=
  let asFloat :=
    let x := toFloat negative (ofDigits (whole ++ fraction))
      (exponent.getD 0 - fraction.length)
    if h : x.isFinite then some (JsonNumber.float x h) else none
  if fraction.isEmpty ∧ exponent.isNone then
    let n : Int := if negative then -(ofDigits whole : Int) else ofDigits whole
    if FixedWidth.fitsIn64 n then some (.int n) else asFloat
  else asFloat

/-- A number. -/
def readNumber? (cs : List Char) : Option (JsonNumber × List Char) := do
  let (negative, cs) :=
    match cs with
    | '-' :: rest => (true, rest)
    | cs => (false, cs)
  let (whole, cs) := takeDigits cs
  if whole.isEmpty ∨ (1 < whole.length ∧ whole.head? = some '0') then none
  let (fraction, cs) ← readFraction? cs
  let (exponent, cs) ← takeExponent? cs
  (literal? negative whole fraction exponent).map (·, cs)

/-! ## Values -/

mutual

/-- A value, with any blanks before it. -/
def readValue? : Nat → List Char → Option (Json × List Char)
  | 0, _ => none
  | fuel + 1, cs =>
    match skipBlanks cs with
    | '"' :: rest => (readText? rest).map fun (s, rest) => (.str s, rest)
    | '[' :: rest =>
      match skipBlanks rest with
      | ']' :: rest => some (.arr [], rest)
      | rest => (readItems? fuel rest).map fun (items, rest) => (.arr items, rest)
    | '\x7b' :: rest =>
      match skipBlanks rest with
      | '\x7d' :: rest => some (.obj [], rest)
      | rest => (readFields? fuel rest).map fun (fields, rest) => (object fields, rest)
    | 'n' :: rest => (expect? ['u', 'l', 'l'] rest).map (.null, ·)
    | 't' :: rest => (expect? ['r', 'u', 'e'] rest).map (.bool true, ·)
    | 'f' :: rest => (expect? ['a', 'l', 's', 'e'] rest).map (.bool false, ·)
    | rest => (readNumber? rest).map fun (n, rest) => (.num n, rest)

/-- The items of an array up to its end. -/
def readItems? : Nat → List Char → Option (List Json × List Char)
  | 0, _ => none
  | fuel + 1, cs => do
    let (item, rest) ← readValue? fuel cs
    match skipBlanks rest with
    | ',' :: rest => (readItems? fuel rest).map fun (items, rest) => (item :: items, rest)
    | ']' :: rest => some ([item], rest)
    | _ => none

/-- The fields of an object up to its end. -/
def readFields? : Nat → List Char → Option (List (String × Json) × List Char)
  | 0, _ => none
  | fuel + 1, cs => do
    let (key, rest) ← readText? (← expect? ['"'] (skipBlanks cs))
    let (value, rest) ← readValue? fuel (← expect? [':'] (skipBlanks rest))
    match skipBlanks rest with
    | ',' :: rest =>
      (readFields? fuel rest).map fun (fields, rest) => ((key, value) :: fields, rest)
    | '\x7d' :: rest => some ([(key, value)], rest)
    | _ => none

end

/-- The value of a whole text, blanks around it aside. -/
def parse? (s : String) : Option Json :=
  let cs := s.toList
  match readValue? (cs.length + 1) cs with
  | some (v, rest) => if (skipBlanks rest).isEmpty then some v else none
  | none => none

end Switchyard.Json
