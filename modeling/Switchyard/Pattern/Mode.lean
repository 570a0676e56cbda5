import Switchyard.Text.Blank

/-!
# Modes of a pattern

A pattern is a regular expression that the value of a field is compared with.  How its text is to
be read depends on modes, which flags in the pattern switch on and off.
-/

set_option autoImplicit false

namespace Switchyard.Pattern

/-- The modes that matter to whether a pattern can be read. -/
structure Mode where
  /-- Whether the pattern is about characters; else it is about bytes. -/
  unicode : Bool := true
  /-- Whether letters of either case are the same. -/
  ignoreCase : Bool := false
  /-- Whether blanks and comments may stand between the parts of the pattern. -/
  verbose : Bool := false

/-! ## Blanks and comments -/

/-- Skips blanks and comments; a comment goes from a number sign to the end of its line. -/
def skipBlanks (inComment : Bool) : List Char → List Char
  | [] => []
  | c :: cs =>
    if inComment then skipBlanks (c ≠ '\n') cs
    else if Text.isBlank c then skipBlanks false cs
    else if c = '#' then skipBlanks true cs
    else c :: cs

namespace Mode

/-- Skips what has no meaning in a mode. -/
def skip (mode : Mode) (cs : List Char) : List Char :=
  if mode.verbose then skipBlanks false cs else cs

/-- The character behind the current one that is not a blank.  The look ahead passes the mark of a
comment, but not the comment. -/
def peek (mode : Mode) (cs : List Char) : Option Char :=
  if mode.verbose then
    match cs.dropWhile Text.isBlank with
    | '#' :: rest => (rest.dropWhile Text.isBlank).head?
    | rest => rest.head?
  else cs.head?

/-! ## Flags -/

/-- The letters of all modes: of case, lines, dots, greed, characters, line ends and blanks. -/
def letters : List Char := ['i', 'm', 's', 'U', 'u', 'R', 'x']

/-- Whether a text is a list of flags: no flag stands twice, and something follows the hyphen that
switches the flags behind it off. -/
def areFlags (flags : List Char) : Bool :=
  flags.all (fun c => c = '-' || letters.contains c) && decide flags.Nodup &&
    flags.getLast? != some '-'

/-- The modes after some flags. -/
def switch (mode : Mode) (flags : List Char) : Mode :=
  let (on, off) := flags.span (· ≠ '-')
  let state (letter : Char) (old : Bool) :=
    on.contains letter || (old && !off.contains letter)
  { unicode := state 'u' mode.unicode
    ignoreCase := state 'i' mode.ignoreCase
    verbose := state 'x' mode.verbose }

/-- No flags change nothing. -/
@[simp] theorem switch_nil (mode : Mode) : mode.switch [] = mode := by
  obtain ⟨unicode, ignoreCase, verbose⟩ := mode
  cases unicode <;> cases ignoreCase <;> cases verbose <;> rfl

end Mode

end Switchyard.Pattern
