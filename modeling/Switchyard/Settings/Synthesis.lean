import Switchyard.Graph.Distance
import Switchyard.PerUnit
import Switchyard.Settings.Number
import Switchyard.Text.Blank

/-!
# Settings of synthesis

What a run depends on besides its input.  Every setting has a default, which also holds where the
given value cannot be read; white space around a value does not count.
-/

set_option autoImplicit false

namespace Switchyard

/-- The settings of synthesis and of the writes that follow it. -/
structure SynthesisSettings where
  /-- Paths of fewer edges than this count as connections. -/
  hopBound : Nat := Graph.defaultHopBound
  /-- The system that transformers are rated in. -/
  perUnit : PerUnit := {}
  /-- How many seconds a write may take. -/
  writeTimeout : Nat := 30
  /-- The model that new assets are registered in. -/
  modelId : Int32 := 0
deriving DecidableEq

namespace SynthesisSettings

/-- The settings that a table of named values gives.  A base power has to be positive. -/
def ofLookup (lookup : String → Option String) : SynthesisSettings :=
  let value (name : String) := (lookup name).map fun s => Text.trim s.toList
  let default : SynthesisSettings := {}
  let base := ((value "GRID_BASE_MVA").bind Settings.float?).filter fun x => 0.0 < x
  { hopBound :=
      ((value "GRID_HOP_BOUND").bind (Settings.natBelow? UInt64.size)).getD default.hopBound
    perUnit := ⟨base.getD default.perUnit.base⟩
    writeTimeout :=
      ((value "GRID_WRITE_TIMEOUT_SECS").bind (Settings.natBelow? UInt64.size)).getD
        default.writeTimeout
    modelId := ((value "GRID_MODEL_ID").bind Settings.int32?).getD default.modelId }

theorem ofLookup_none : ofLookup (fun _ => none) = {} := rfl

end SynthesisSettings

end Switchyard
