import Switchyard.Pattern.Atom

/-!
# Brackets of a pattern

Brackets hold a set of characters: characters, ranges, shorthands, classes by their names, brackets
in them, and operators between such sets.  Only whether they can be read matters here, and how
deeply they are nested.
-/

set_option autoImplicit false

namespace Switchyard.Pattern

/-- The height of so many parts that stand beside each other, by that of the highest: a part alone
is not nested any deeper. -/
def heightOf (parts highest : Nat) : Nat := if parts ≤ 1 then highest else highest + 1

/-- What has been read of brackets that are still open. -/
structure Bracket where
  /-- Whether nothing but hyphens has been read. -/
  atStart : Bool := true
  /-- The height of what stands before the last operator. -/
  left : Option Nat := none
  /-- How many items stand behind the last operator. -/
  items : Nat := 0
  /-- The height of the highest of these items. -/
  highest : Nat := 0

namespace Bracket

/-- The height of what has been read. -/
def height (b : Bracket) : Nat :=
  match b.left with
  | none => heightOf b.items b.highest
  | some left => max left (heightOf b.items b.highest) + 1

/-- One more item. -/
def add (b : Bracket) (height : Nat) : Bracket :=
  { b with atStart := false, items := b.items + 1, highest := max b.highest height }

/-- One more operator. -/
def operate (b : Bracket) : Bracket := { atStart := false, left := some b.height }

/-- Whether a character stands for itself at this place, whatever it means elsewhere: hyphens at the
start do, and a closing bracket that comes first. -/
def isPlain (b : Bracket) (c : Char) : Bool :=
  b.atStart && (c = '-' || c = ']' && b.items = 0)

end Bracket

/-! ## Items -/

/-- The names of the classes of characters of ASCII. -/
def classNames : List String :=
  ["alnum", "alpha", "ascii", "blank", "cntrl", "digit", "graph", "lower", "print", "punct",
    "space", "upper", "word", "xdigit"]

/-- Reads a class by its name behind an opening bracket, and whether it is negated.  A text that is
no class is brackets within brackets. -/
def readClass? : List Char → Option (Bool × List Char)
  | ':' :: cs =>
    let (negated, cs) := match cs with
      | '^' :: rest => (true, rest)
      | _ => (false, cs)
    match cs.span (· ≠ ':') with
    | (name, ':' :: ']' :: rest) =>
      if classNames.contains (String.ofList name) then some (negated, rest) else none
    | _ => none
  | _ => none

/-- Reads a character or a shorthand. -/
def readItem? (mode : Mode) : List Char → Option (Atom × List Char)
  | [] => none
  | '\\' :: cs => readEscape? mode cs
  | c :: cs => some (.char c false, cs)

/-- Reads an item, or a range between two characters in their order.  A hyphen in front of the
closing bracket or of another hyphen makes no range. -/
def readRange? (mode : Mode) (cs : List Char) : Option (List Char) := do
  let (low, rest) ← readItem? mode cs
  if !low.isAllowedInBrackets mode then none
  else
    match mode.skip rest with
    | '-' :: behind =>
      if [some ']', some '-'].contains (mode.peek behind) then some ('-' :: behind)
      else
        let (high, rest) ← readItem? mode (mode.skip behind)
        match low, high with
        | .char first _, .char last _ =>
          if high.isAllowedInBrackets mode && first ≤ last then some rest else none
        | _, _ => none
    | rest => some rest

/-- Reads the negation of brackets behind the opening one.  What is about bytes has none, since it
would take in half characters. -/
def readNegation? (mode : Mode) (cs : List Char) : Option (List Char) :=
  match mode.skip cs with
  | '^' :: rest => if mode.unicode then some rest else none
  | rest => some rest

/-! ## Brackets -/

/-- Reads on in brackets that stand in other ones, up to where the outermost are closed.  Gives the
height of all. -/
def readBracket? (mode : Mode) :
    (fuel : Nat) → Bracket → List Bracket → List Char → Option (Nat × List Char)
  | 0, _, _, _ => none
  | fuel + 1, b, outer, cs =>
    match mode.skip cs with
    | [] => none
    | c :: rest =>
      if b.isPlain c then
        if (Atom.char c false).isAllowedInBrackets mode then
          readBracket? mode fuel { b.add 0 with atStart := c = '-' } outer rest
        else none
      else if c = ']' then
        match outer with
        | [] => some (b.height + 1, rest)
        | next :: outer => readBracket? mode fuel (next.add (b.height + 1)) outer rest
      else if c = '[' then
        match readClass? rest with
        | some (negated, rest) =>
          if (if mode.unicode then !mode.ignoreCase else !negated) then
            readBracket? mode fuel (b.add 0) outer rest
          else none
        | none =>
          (readNegation? mode rest).bind fun rest =>
            readBracket? mode fuel {} (b :: outer) rest
      else if ['&', '-', '~'].contains c && rest.head? = some c then
        readBracket? mode fuel b.operate outer rest.tail
      else
        (readRange? mode (c :: rest)).bind fun rest => readBracket? mode fuel (b.add 0) outer rest

/-- Reads brackets behind the opening one, and gives their height. -/
def readBrackets? (mode : Mode) (cs : List Char) : Option (Nat × List Char) :=
  (readNegation? mode cs).bind (readBracket? mode (cs.length + 1) {} [])

end Switchyard.Pattern
