import Switchyard.Pattern.Bracket
import Switchyard.Text.Alphanumeric

/-!
# Patterns

A pattern is a sequence of alternatives, and each of these a sequence of items: atoms, brackets,
groups, which hold a pattern themselves, and items with a mark of repetition.  `Pattern.isValid`
judges whether a text is one; no pattern is ever compared with a value, because there are no spans.

A pattern comes from between the braces of a directive.  So it holds no closing brace, and what
would need one, such as a count of repetitions, is no pattern.
-/

set_option autoImplicit false

namespace Switchyard.Pattern

/-- What has been read of a group that is still open, or of the pattern as a whole. -/
structure Group where
  mode : Mode := {}
  /-- The height of the highest of the alternatives before the current one. -/
  before : Option Nat := none
  /-- How many items the current alternative has. -/
  items : Nat := 0
  /-- The height of the highest of these items. -/
  highest : Nat := 0
  /-- The height of the last item, if it can be repeated. -/
  last : Option Nat := none

namespace Group

/-- The height of what has been read. -/
def height (g : Group) : Nat :=
  match g.before with
  | none => heightOf g.items g.highest
  | some before => max before (heightOf g.items g.highest) + 1

/-- One more item. -/
def add (g : Group) (height : Nat) : Group :=
  { g with items := g.items + 1, highest := max g.highest height, last := some height }

/-- One more alternative. -/
def alternate (g : Group) : Group :=
  { mode := g.mode, before := some (max (g.before.getD 0) (heightOf g.items g.highest)) }

/-- Other modes from here to the end of the group. -/
def switch (g : Group) (flags : List Char) : Group :=
  { g with mode := g.mode.switch flags, items := g.items + 1, last := none }

/-- The last item repeated, if there is one. -/
def repeat? (g : Group) : Option Group :=
  g.last.map fun height =>
    { g with highest := max g.highest (height + 1), last := some (height + 1) }

end Group

/-! ## Opening a group -/

/-- What an opening parenthesis may begin. -/
inductive Opening where
  /-- Flags for the rest of the group that is open. -/
  | flags (flags : List Char)
  /-- A group with flags of its own. -/
  | group (flags : List Char)
  /-- A group with a name. -/
  | named (name : List Char)

/-- Whether a text can be the name of a group. -/
def isName : List Char → Bool
  | [] => false
  | c :: cs =>
    (c = '_' || Text.isAlphabetic c) &&
      cs.all fun c => ['_', '.', '[', ']'].contains c || Text.isAlphanumeric c

/-- Reads the name of a group up to its closing angle bracket. -/
def readName? (cs : List Char) : Option (Opening × List Char) :=
  match cs.span (· ≠ '>') with
  | (_, []) => none
  | (name, _ :: rest) => if isName name then some (.named name, rest) else none

/-- Reads what follows an opening parenthesis. -/
def readOpening? : List Char → Option (Opening × List Char)
  | '?' :: 'P' :: '<' :: cs => readName? cs
  | '?' :: '<' :: cs => readName? cs
  | '?' :: cs =>
    match cs.span fun c => c ≠ ':' ∧ c ≠ ')' with
    | (flags, ':' :: rest) => if Mode.areFlags flags then some (.group flags, rest) else none
    | (flags, ')' :: rest) =>
      if Mode.areFlags flags && !flags.isEmpty then some (.flags flags, rest) else none
    | _ => none
  | cs => some (.group [], cs)

/-! ## Patterns -/

/-- The atoms that are written without a backslash. -/
def atomOf : Char → Atom
  | '.' => .any
  | '^' => .edge
  | '$' => .edge
  | c => .char c false

/-- What follows a mark of repetition: another mark may make it take as little as it can. -/
def skipLazy : List Char → List Char
  | '?' :: cs => cs
  | cs => cs

/-- Reads on in a group that stands in other ones, to the end of the pattern.  Gives the height of
the pattern; `names` are those of the groups so far, which have to be different. -/
def read? : (fuel : Nat) → (names : List (List Char)) → Group → List Group → List Char → Option Nat
  | 0, _, _, _, _ => none
  | fuel + 1, names, g, outer, cs =>
    match g.mode.skip cs with
    | [] => if outer.isEmpty then some g.height else none
    | '(' :: rest =>
      match readOpening? (g.mode.skip rest) with
      | none => none
      | some (.flags flags, rest) => read? fuel names (g.switch flags) outer rest
      | some (.group flags, rest) =>
        read? fuel names { mode := g.mode.switch flags } (g :: outer) rest
      | some (.named name, rest) =>
        if names.contains name then none
        else read? fuel (name :: names) { mode := g.mode } (g :: outer) rest
    | ')' :: rest =>
      match outer with
      | [] => none
      | next :: outer => read? fuel names (next.add (g.height + 1)) outer rest
    | '|' :: rest => read? fuel names g.alternate outer rest
    | '[' :: rest =>
      (readBrackets? g.mode rest).bind fun (height, rest) =>
        read? fuel names (g.add height) outer rest
    | '{' :: _ => none
    | '\\' :: rest =>
      (readEscape? g.mode rest).bind fun (atom, rest) =>
        if atom.isAllowed g.mode then read? fuel names (g.add 0) outer rest else none
    | c :: rest =>
      if ['?', '*', '+'].contains c then
        g.repeat?.bind fun g => read? fuel names g outer (skipLazy rest)
      else if (atomOf c).isAllowed g.mode then read? fuel names (g.add 0) outer rest
      else none

/-- How deeply a pattern may be nested. -/
def maxHeight : Nat := 250

/-- Whether a text is a pattern. -/
def isValid (cs : List Char) : Bool :=
  match read? (cs.length + 1) [] {} [] cs with
  | some height => height ≤ maxHeight
  | none => false

end Switchyard.Pattern
