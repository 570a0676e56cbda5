import Switchyard.Store.Backend
import Switchyard.Version

/-!
# Loading current records

A store answers with every version that fulfils a condition, and what is wanted are the assets
whose *current* version does.  `loadActive` asks twice: first which assets have a version that
matches, then for their whole history, which it resolves and filters again.  So an asset that was
moved elsewhere by a later version is not found under its old place.
-/

set_option autoImplicit false

namespace Switchyard

/-- Why something could not be loaded. -/
inductive LoadError where
  /-- The store failed. -/
  | store (error : StoreError)
  /-- The asset has no active version. -/
  | notFound (table : Table) (mrid : Mrid)
  /-- A voltage level refers to a base voltage that is not active. -/
  | missingBaseVoltage (voltageLevel baseVoltage : Mrid)
  /-- Lines that own more than one active terminal. -/
  | multipleTerminals (lines : List Mrid)
deriving DecidableEq

/-- The message of an error. -/
def LoadError.message : LoadError → String
  | store error => error.message
  | notFound table mrid => "No active " ++ table.name ++ " with mrid " ++ mrid.text
  | missingBaseVoltage voltageLevel baseVoltage =>
    "Voltage level " ++ voltageLevel.text ++ " references missing base voltage " ++
      baseVoltage.text
  | multipleTerminals lines =>
    "The lines " ++ ", ".intercalate (lines.map Mrid.text) ++ " have already multiple terminals"

namespace Backend

variable {α : Type} [Record α]

/-- The assets whose current version is active and fulfils a condition, in ascending order. -/
def loadActive (α : Type) [Record α] (b : Backend) (p : Predicate) :
    Except StoreError (List α) :=
  match b.fetch α p with
  | .error e => .error e
  | .ok matched =>
    if p = .all then .ok (Version.active matched)
    else if matched.isEmpty then .ok []
    else
      match b.fetch α (.mridIn (matched.map Record.mrid)) with
      | .error e => .error e
      | .ok history =>
        .ok ((Version.active history).filter fun r => p.holds (Record.encode r))

/-- `loadActive`, its error among those of loading. -/
def load (α : Type) [Record α] (b : Backend) (p : Predicate) : Except LoadError (List α) :=
  (b.loadActive α p).mapError .store

/-- The active version of one asset. -/
def loadOne (α : Type) [Record α] (b : Backend) (mrid : Mrid) : Except LoadError α :=
  match b.load α (.mridIn [mrid]) with
  | .error e => .error e
  | .ok [] => .error (.notFound (Record.table α) mrid)
  | .ok (r :: _) => .ok r

end Backend

end Switchyard
