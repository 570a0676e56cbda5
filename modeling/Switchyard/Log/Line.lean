import Switchyard.Log.Event
import Switchyard.Json.Canonical
import Switchyard.Text.Terminal

/-!
# Log lines

An event is logged as one line, in one of two formats.  A line for machines is a JSON object of
the level, the text, the fields in their order and the target; a field that is named twice stays
twice.  A line for people is the level, the target, the text, and the fields as `name=value`,
where a field that is itself named `message` shows its value alone.  The text and the fields that
are named like it cannot command the terminal that shows them: `Text.disarm` writes out the control
characters that could.
-/

set_option autoImplicit false

namespace Switchyard

/-- The format of a log line. -/
inductive LogFormat where
  | json
  | pretty
deriving DecidableEq

namespace LogFormat

/-- The format of a setting: `pretty` in letters of either case, and JSON for any other text. -/
def ofText (s : String) : LogFormat :=
  if s.toList.map Char.toLower = ['p', 'r', 'e', 't', 't', 'y'] then pretty else json

/-- The format of a setting that may be missing. -/
def ofSetting (setting : Option String) : LogFormat :=
  match setting with
  | some s => ofText s
  | none => json

/-- The name of a format. -/
def name : LogFormat → String
  | json => "Json"
  | pretty => "Pretty"

end LogFormat

/-- The value of a field in JSON. -/
def FieldValue.toJson : FieldValue → Json
  | text s => .str s
  | count n => .ofNat n
  | flag b => .bool b

/-- The value of a field in a line for people. -/
def FieldValue.display : FieldValue → String
  | text s => s
  | count n => toString n
  | flag b => if b then "true" else "false"

namespace Event

/-- The line of an event for machines. -/
def jsonLine (e : Event) : String :=
  Json.text <| .obj <|
    ("level", .str e.level.name) ::
      (e.allFields.map (fun f => (f.1, f.2.toJson)) ++ [("target", .str e.target)])

/-- A field in a line for people. -/
def displayField (f : String × FieldValue) : String :=
  if f.1 = "message" then Text.disarm f.2.display else f.1 ++ "=" ++ f.2.display

/-- The line of an event for people. -/
def prettyLine (e : Event) : String :=
  e.level.name ++ " " ++ e.target ++ ": " ++ " ".intercalate (e.allFields.map displayField)

/-- The line of an event. -/
def line (format : LogFormat) (e : Event) : String :=
  match format with
  | .json => e.jsonLine
  | .pretty => e.prettyLine

end Event

end Switchyard
