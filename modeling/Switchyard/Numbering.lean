import Switchyard.Version
import Switchyard.Asset.Connection

/-!
# The numbering of terminals

The terminals of one piece of equipment should be numbered from one to their count.  The check
takes the active terminals of a history, groups them by equipment, and reports every group whose
least number is not one or whose greatest number is not the size of the group, with its terminals
in ascending order of number.
-/

set_option autoImplicit false

namespace Switchyard.Numbering

/-- The pieces of equipment whose terminals are misnumbered, in ascending order, each with its
terminals in ascending order of number. -/
structure Report where
  terminals : List (Mrid × List Terminal)

/-- The name of the check. -/
def checkName : String := "InvalidSequenceNumbers"

/-- Whether every piece of equipment passed. -/
def Report.isClean (r : Report) : Bool := r.terminals.isEmpty

/-- Puts an identity into an ascending list unless it is there already. -/
def insertAscending (id : Mrid) : List Mrid → List Mrid
  | [] => [id]
  | other :: rest =>
    if id < other then id :: other :: rest
    else if id = other then other :: rest
    else other :: insertAscending id rest

/-- The distinct identities of a list in ascending order. -/
def ascending (ids : List Mrid) : List Mrid := ids.foldl (fun acc id => insertAscending id acc) []

/-- Whether the numbers start at one and end at their count, which is a 32-bit number like them. -/
def isNumbered (numbers : List Int32) : Bool :=
  (numbers.map Int32.toInt).min? = some 1 ∧
    (numbers.map Int32.toInt).max? = some (Int32.ofNat numbers.length).toInt

/-- The terminals of one piece of equipment. -/
def ofEquipment (equipment : Mrid) (terminals : List Terminal) : List Terminal :=
  terminals.filter fun t => t.conductingEquipmentMrid = equipment

/-- Terminals in ascending order of number; those of one number keep their order. -/
def sortByNumber (terminals : List Terminal) : List Terminal :=
  terminals.mergeSort fun a b => decide (a.sequenceNumber ≤ b.sequenceNumber)

/-- The report on a history of terminals. -/
def check (history : List Terminal) : Report :=
  let terminals := Version.active history
  let groups := (ascending (terminals.map (·.conductingEquipmentMrid))).map fun equipment =>
    (equipment, ofEquipment equipment terminals)
  let bad := groups.filter fun group => !isNumbered (group.2.map (·.sequenceNumber))
  { terminals := bad.map fun group => (group.1, sortByNumber group.2) }

end Switchyard.Numbering
