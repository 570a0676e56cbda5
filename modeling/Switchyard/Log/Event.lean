import Switchyard.Store.Basic
import Switchyard.Write.Error

/-!
# Events

What the program reports while it works.  An `Event` is a domain value: what happened, with what
it happened to.  Its level, its origin, its text and its fields are read off it, so that a log
line is a way of writing an event and nothing else.
-/

set_option autoImplicit false

namespace Switchyard

/-- How severe an event is, most severe first. -/
inductive Level where
  | error
  | warn
  | info
  | debug
  | trace
deriving DecidableEq

namespace Level

/-- The place of a level, counted from one at the most severe. -/
def rank : Level → Nat
  | error => 1
  | warn => 2
  | info => 3
  | debug => 4
  | trace => 5

/-- The name of a level in a log line. -/
def name : Level → String
  | error => "ERROR"
  | warn => "WARN"
  | info => "INFO"
  | debug => "DEBUG"
  | trace => "TRACE"

end Level

/-- Something that happened. -/
inductive Event where
  /-- A write inserted a batch into its table. -/
  | insertedBatch (table : Table) (rows : Nat)
  /-- A write persisted its aggregate. -/
  | committed (id : CommitId) (note : CommitNote)
  /-- A write failed and gives up its transaction. -/
  | rollingBack (error : WriteError)
  /-- Giving up a transaction failed too. -/
  | rollbackFailed (error : StoreError)
  /-- A write ran out of its time. -/
  | timedOut (timeout : Nat)
  /-- A transaction was rolled back with so many batches staged. -/
  | discardedStaged (batches : Nat)
  /-- An edit would change nothing. -/
  | unchanged (mrid : Mrid)
  /-- An edit was persisted as a new version. -/
  | committedVersion (mrid : Mrid) (id : CommitId) (deleted : Bool)
  /-- So many pieces of equipment have misnumbered terminals. -/
  | misnumbered (equipment : Nat)
  /-- The equipment of a voltage level was loaded. -/
  | loadedEquipment (voltageLevel : Mrid) (lines generators loads : Nat)
  /-- A graph was built around some seeds. -/
  | builtLocalGraph (seeds hops terminals : Nat)
  /-- The tap of a line was switched to the node of a piece of equipment. -/
  | switchedTap (line target : Mrid)
  /-- The switching layer of a voltage level is complete. -/
  | synthesizedVoltageLevel (voltageLevel : Mrid)
      (lines generators loads nodes switches alreadyConnected : Nat)
  /-- Two nodes of different voltage levels were linked. -/
  | linkedLevels (source target : Mrid)
  /-- The links of a substation are complete. -/
  | synthesizedLinks (substation : Mrid)
      (voltageLevels switches transformers alreadyConnected : Nat)

/-- The value of a field of an event. -/
inductive FieldValue where
  | text (s : String)
  | count (n : Nat)
  | flag (b : Bool)

namespace Event

/-- How severe an event is. -/
def level : Event → Level
  | insertedBatch .. => .debug
  | committed .. => .info
  | rollingBack .. => .warn
  | rollbackFailed .. => .warn
  | timedOut .. => .warn
  | discardedStaged .. => .debug
  | unchanged .. => .info
  | committedVersion .. => .info
  | misnumbered .. => .warn
  | loadedEquipment .. => .debug
  | builtLocalGraph .. => .debug
  | switchedTap .. => .debug
  | synthesizedVoltageLevel .. => .info
  | linkedLevels .. => .debug
  | synthesizedLinks .. => .info

/-- The part of the program that reports the event, below the common root of all parts. -/
def origin : Event → String
  | insertedBatch .. => "writer"
  | committed .. => "writer"
  | rollingBack .. => "writer"
  | rollbackFailed .. => "writer"
  | timedOut .. => "writer"
  | discardedStaged .. => "store::memory"
  | unchanged .. => "versioned"
  | committedVersion .. => "versioned"
  | misnumbered .. => "integrity"
  | loadedEquipment .. => "loader"
  | builtLocalGraph .. => "loader"
  | switchedTap .. => "synth::voltage_level"
  | synthesizedVoltageLevel .. => "synth::voltage_level"
  | linkedLevels .. => "synth::substation"
  | synthesizedLinks .. => "synth::substation"

/-- The path under which events are filtered. -/
def target (e : Event) : String := "grid_topology_kernel::" ++ e.origin

/-- The text of an event. -/
def message : Event → String
  | insertedBatch .. => "Inserted batch"
  | committed .. => "Committed aggregate"
  | rollingBack .. => "Rolling back aggregate write"
  | rollbackFailed .. => "Rollback failed"
  | timedOut .. => "Aggregate write timed out"
  | discardedStaged .. => "Discarding staged in-memory writes"
  | unchanged .. => "No changes detected, no commit performed"
  | committedVersion .. => "Committed new version"
  | misnumbered .. => "Equipment with invalid terminal sequence numbers"
  | loadedEquipment .. => "Loaded voltage level equipment"
  | builtLocalGraph .. => "Built local connectivity graph"
  | switchedTap .. => "Switched line tap"
  | synthesizedVoltageLevel .. => "Synthesized voltage level"
  | linkedLevels .. => "Linked voltage levels"
  | synthesizedLinks .. => "Synthesized substation links"

/-- The fields of an event after its text. -/
def fields : Event → List (String × FieldValue)
  | insertedBatch table rows => [("table", .text table.name), ("rows", .count rows)]
  | committed id note =>
    [("commit_id", .text (toString id)), ("message", .text note.message),
      ("author", .text note.author)]
  | rollingBack error => [("error", .text error.message)]
  | rollbackFailed error => [("error", .text error.message)]
  | timedOut timeout => [("timeout_ms", .count timeout)]
  | discardedStaged batches => [("staged_batches", .count batches)]
  | unchanged mrid => [("mrid", .text mrid.text)]
  | committedVersion mrid id deleted =>
    [("mrid", .text mrid.text), ("commit_id", .text (toString id)), ("deleted", .flag deleted)]
  | misnumbered equipment => [("equipment", .count equipment)]
  | loadedEquipment voltageLevel lines generators loads =>
    [("voltage_level", .text voltageLevel.text), ("lines", .count lines),
      ("generators", .count generators), ("loads", .count loads)]
  | builtLocalGraph seeds hops terminals =>
    [("seeds", .count seeds), ("hops", .count hops), ("terminals", .count terminals)]
  | switchedTap line target => [("line", .text line.text), ("target", .text target.text)]
  | synthesizedVoltageLevel voltageLevel lines generators loads nodes switches alreadyConnected =>
    [("voltage_level", .text voltageLevel.text), ("lines", .count lines),
      ("generators", .count generators), ("loads", .count loads), ("nodes", .count nodes),
      ("switches", .count switches), ("already_connected", .count alreadyConnected)]
  | linkedLevels source target => [("from", .text source.text), ("to", .text target.text)]
  | synthesizedLinks substation voltageLevels switches transformers alreadyConnected =>
    [("substation", .text substation.text), ("voltage_levels", .count voltageLevels),
      ("switches", .count switches), ("transformers", .count transformers),
      ("already_connected", .count alreadyConnected)]

/-- Every field of an event, its text first. -/
def allFields (e : Event) : List (String × FieldValue) :=
  ("message", .text e.message) :: e.fields

end Event

end Switchyard
