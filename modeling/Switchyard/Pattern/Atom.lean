import Switchyard.Pattern.Mode
import Switchyard.Text.Hex

/-!
# Atoms of a pattern

The parts of a pattern that have no parts themselves, and the escapes that some of them are written
with.

Patterns are read without tables of the properties of characters.  So where a pattern is about
characters, it has no shorthands such as that for digits, it cannot ignore case, and it cannot tell
where a word ends.  Where it is about bytes it has all of these for ASCII, but must not be able to
cut a character apart.
-/

set_option autoImplicit false

namespace Switchyard.Pattern

/-- A part of a pattern without parts. -/
inductive Atom where
  /-- A character, or what may be a byte because it was written as one. -/
  | char (c : Char) (asByte : Bool)
  /-- The digits, the blanks or the characters of words, or all but these. -/
  | shorthand (negated : Bool)
  /-- A character that is not the end of a line. -/
  | any
  /-- The start or the end of the text or of a line. -/
  | edge
  /-- The start or the end of a word, or a place that is neither. -/
  | wordEdge

namespace Atom

/-- Whether a character is one of ASCII. -/
def isAscii (c : Char) : Bool := c.toNat < 0x80

/-- Whether an atom can be read in a mode. -/
def isAllowed (mode : Mode) : Atom → Bool
  | char c asByte => if mode.unicode then !mode.ignoreCase else isAscii c || !asByte
  | shorthand negated => !mode.unicode && !negated
  | any => mode.unicode
  | edge => true
  | wordEdge => !mode.unicode

/-- Whether an atom can be read inside of brackets. -/
def isAllowedInBrackets (mode : Mode) : Atom → Bool
  | char c _ => if mode.unicode then !mode.ignoreCase else isAscii c
  | shorthand negated => !mode.unicode && !negated
  | _ => false

end Atom

/-! ## Escapes -/

/-- Reads so many more hexadecimal digits of the number of a character. -/
def readHex? (mode : Mode) : (count value : Nat) → List Char → Option (Char × List Char)
  | 0, value, cs => if value.isValidChar then some (Char.ofNat value, cs) else none
  | count + 1, value, cs =>
    match mode.skip cs with
    | [] => none
    | c :: rest =>
      (Text.hexValue? c).bind fun digit => readHex? mode count (16 * value + digit) rest

/-- The letters of the control characters. -/
def controls : List (Char × Char) :=
  [('a', '\x07'), ('f', '\x0c'), ('n', '\n'), ('r', '\x0d'), ('t', '\t'), ('v', '\x0b')]

/-- The atom of a single character behind a backslash.  Any character of ASCII that is no letter or
digit stands for itself. -/
def escaped? (c : Char) : Option Atom :=
  if ['d', 's', 'w'].contains c then some (.shorthand false)
  else if ['D', 'S', 'W'].contains c then some (.shorthand true)
  else if ['A', 'z'].contains c then some .edge
  else if ['b', 'B', '<', '>'].contains c then some .wordEdge
  else
    match controls.lookup c with
    | some control => some (.char control false)
    | none => if Atom.isAscii c && !c.isAlphanum then some (.char c false) else none

/-- Reads the rest of an escape behind its backslash: the number of a character in two, four or
eight digits, or a single character. -/
def readEscape? (mode : Mode) : List Char → Option (Atom × List Char)
  | [] => none
  | 'x' :: cs => (readHex? mode 2 0 cs).map fun (c, rest) => (.char c true, rest)
  | 'u' :: cs => (readHex? mode 4 0 cs).map fun (c, rest) => (.char c false, rest)
  | 'U' :: cs => (readHex? mode 8 0 cs).map fun (c, rest) => (.char c false, rest)
  | c :: cs => (escaped? c).map fun atom => (atom, cs)

end Switchyard.Pattern
