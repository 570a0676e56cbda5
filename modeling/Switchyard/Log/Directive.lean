import Switchyard.Log.Event
import Switchyard.Pattern.Group
import Switchyard.Settings.Number
import Switchyard.Text.Alphanumeric
import Switchyard.Text.Blank
import Switchyard.Text.Bytes

/-!
# Directives

A directive of a log filter says up to which level some events are logged.  Its text consists of a
path, which the target of an event has to start with; of brackets around the span that the event
has to happen in and, in braces, around a field that it has to have; and of a level behind an
equals sign.  Each part may be missing:

* a level alone is about every target;
* a directive without a level, or with an empty one, logs every level;
* an empty pair of brackets asks for a span without a name.

`DirectiveText.ofChars?` takes a text apart, and `Directive.ofText?` makes a directive of it.
-/

set_option autoImplicit false

namespace Switchyard

/-! ## Levels by name -/

namespace Level

/-- The names that a level may have in a directive, in the order of the ranks from zero. -/
def ranked : List String := ["off", "error", "warn", "info", "debug", "trace"]

/-- The rank of a level by its number, or by its name in letters of either case. -/
def rank? (cs : List Char) : Option Nat :=
  match Settings.nat? cs with
  | some n => if n < ranked.length then some n else none
  | none => ranked.idxOf? (String.ofList (cs.map Char.toLower))

end Level

/-! ## The text of a directive -/

/-- The parts of the text of a directive. -/
structure DirectiveText where
  path : List Char
  span : Option (List Char) := none
  field : Option (List Char) := none
  level : Option (List Char) := none

namespace DirectiveText

/-- What may follow the brackets: nothing, or the level behind an equals sign. -/
def readLevel? (text : List Char) (start : Nat) : List Char → Option (Option (List Char))
  | [] => some none
  | '=' :: _ => some (some (Text.dropBytes (start + 1) text))
  | _ => none

/-- Reads the rest of a directive behind a path and the opening bracket. -/
def readBrackets? (text path : List Char) (start : Nat) (cs : List Char) :
    Option DirectiveText :=
  match cs.span fun c => c ≠ ']' ∧ c ≠ '{' with
  | (span, ']' :: rest) =>
    (readLevel? text (start + Text.bytes span + 1) rest).map fun level =>
      { path, span := some (Text.sliceBytes text start span), level }
  | (span, '{' :: rest) =>
    let start' := start + Text.bytes span + 1
    match rest.span (· ≠ '}') with
    | ([], _) => none
    | (field, '}' :: ']' :: rest) =>
      (readLevel? text (start' + Text.bytes field + 2) rest).map fun level =>
        { path
          span := if span.isEmpty then none else some (Text.sliceBytes text start span)
          field := some (Text.sliceBytes text start' field)
          level }
    | _ => none
  | _ => none

/-- Whether a path may start with a character. -/
def startsPath (c : Char) : Bool := Text.isAlphanumeric c || c = '-' || c = ':' || c = '_'

/-- Takes the text of a directive apart.  A path ends only at an equals sign or a bracket, and a
level only at the end of the text.  The parts are found in the text without the blanks around it,
and cut out of the text with them, at the same places: so blanks in front move every part. -/
def ofChars? (text : List Char) : Option DirectiveText :=
  match Text.trim text with
  | [] => none
  | '[' :: rest => readBrackets? text [] 1 rest
  | c :: rest =>
    if startsPath c then
      match (c :: rest).span fun c => c ≠ '=' ∧ c ≠ '[' with
      | (_, []) => some { path := text }
      | (path, '=' :: _) =>
        some
          { path := Text.sliceBytes text 0 path
            level := some (Text.dropBytes (Text.bytes path + 1) text) }
      | (path, _ :: rest) =>
        readBrackets? text (Text.sliceBytes text 0 path) (Text.bytes path + 1) rest
    else none

end DirectiveText

/-! ## Directives -/

/-- What a directive asks of a field: that the event has it, or also that its value fits. -/
structure FieldCondition where
  name : String
  value : Option String

namespace FieldCondition

/-- Whether values can be compared with a text: it is a number or a pattern. -/
def isValue (cs : List Char) : Bool := (Settings.float? cs).isSome || Pattern.isValid cs

/-- A field by its name alone, or its name and value around an equals sign. -/
def ofChars? (cs : List Char) : Option FieldCondition :=
  match cs.span (· ≠ '=') with
  | (name, []) => some ⟨String.ofList name, none⟩
  | (name, _ :: rest) =>
    let value := rest.takeWhile (· ≠ '=')
    if isValue value then some ⟨String.ofList name, some (String.ofList value)⟩ else none

end FieldCondition

/-- Logs the events that it is about up to a rank of severity; rank zero logs none. -/
structure Directive where
  /-- What the target of an event has to start with. -/
  path : String := ""
  /-- The span that an event has to happen in. -/
  span : Option String := none
  /-- The field that an event has to have. -/
  field : Option FieldCondition := none
  rank : Nat := Level.trace.rank

namespace Directive

/-- The rank of the level of a directive; a level that is missing or empty is the least severe. -/
def levelRank? : Option (List Char) → Option Nat
  | none => some Level.trace.rank
  | some [] => some Level.trace.rank
  | some level => Level.rank? level

/-- The directive of the parts of a text.  A path alone that is the name of a level is no path. -/
def ofParts? : DirectiveText → Option Directive
  | { path, span := none, field := none, level := none } =>
    match Level.rank? path with
    | some rank => some { rank }
    | none => some { path := String.ofList path }
  | { path, span, field, level } => do
    let field ← field.mapM FieldCondition.ofChars?
    let rank ← levelRank? level
    return { path := String.ofList path, span := span.map String.ofList, field, rank }

/-- Reads a directive. -/
def ofText? (s : String) : Option Directive := (DirectiveText.ofChars? s.toList).bind ofParts?

/-- Whether a directive is about an event.  The program opens no spans, and the value of a field
is looked at only inside of spans, so a directive that asks for either is about no event. -/
def concerns (d : Directive) (e : Event) : Bool :=
  d.path.toList.isPrefixOf e.target.toList && d.span.isNone &&
    match d.field with
    | none => true
    | some field => field.value.isNone && e.allFields.any fun f => f.1 = field.name

/-- The name of the field that a directive asks for, empty if it asks for none. -/
def fieldName (d : Directive) : String :=
  match d.field with
  | some field => field.name
  | none => ""

/-- Whether a directive gives way to a later one about the same event: to one with a longer path,
and of equal paths to one with a field, the name of the field not being a lesser one. -/
def yields (d later : Directive) : Bool :=
  d.path.length < later.path.length ||
    (d.path.length = later.path.length && d.fieldName ≤ later.fieldName)

end Directive

end Switchyard
