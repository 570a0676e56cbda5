import Switchyard.Synthesis.Draft
import Switchyard.Synthesis.Input

/-!
# The switching layer of a voltage level

Every piece of equipment gets a connectivity node and a terminal that joins it to the node.  Every
line gets a second node besides, its *tap*, and the tap is switched to the node of the line itself
and to the node of every piece of equipment after it, so that generators and loads are reached
from lines only and never from each other.  Two pieces of equipment that are connected already are
not switched together.

The created terminals enter the graph as soon as their switch exists.  The path over a tap from one
piece of equipment to another has six edges, so the switches of a run come to count as connections
in that run only under a bound above six.
-/

set_option autoImplicit false

namespace Switchyard

/-- A piece of equipment and the node it was joined to. -/
structure Seat where
  equipment : Mrid
  node : Mrid

namespace VoltageLevelEquipment

/-- The text of the next label of a run. -/
def nextLabel (e : VoltageLevelEquipment) (d : Draft) : String :=
  e.voltageLevel.name ++ " " ++ toString d.labels

/-- The number that the new terminal of a piece of equipment takes: the one that is asked for, else
for a line that owns a terminal the number of the other end, else one. -/
def terminalNumber (e : VoltageLevelEquipment) (graph : Graph) (isLine : Bool)
    (equipment : Mrid) : Int32 :=
  match e.override? equipment with
  | some number => number
  | none =>
    match if isLine then graph.terminalOf? equipment else none with
    | some existing => otherEnd existing.sequenceNumber
    | none => 1

/-- Gives a piece of equipment its node and its terminal. -/
def seat (e : VoltageLevelEquipment) (isLine : Bool) (d : Draft) (equipment : Mrid) : Draft :=
  let label := e.nextLabel d
  let node := d.ids.peek 0
  ((d.addNode label e.voltageLevel.mrid).addTerminal label node equipment
    (e.terminalNumber d.graph isLine equipment)).countLabel

/-- Gives every piece of equipment its node and its terminal, and then adds the terminals to the
graph. -/
def seatAll (e : VoltageLevelEquipment) (d : Draft) : Draft :=
  let d := e.lineMrids.foldl (e.seat true) d
  let d := e.otherMrids.foldl (e.seat false) d
  d.extendGraph d.topology.terminals

/-- Switches the tap of a line to the node of a piece of equipment. -/
def switchTap (e : VoltageLevelEquipment) (line tap : Mrid) (target : Seat) (d : Draft) : Draft :=
  let label := e.nextLabel d
  let switch := d.ids.peek 0
  let d := d.addSwitch label e.voltageLevel
  let made := (d.addTerminal label tap switch 1).addTerminal label target.node switch 2
  (made.extendGraph (made.topology.terminals.drop d.topology.terminals.length)).countLabel.report
    (.switchedTap line target.equipment)

/-- Switches the tap of a line to the node of another piece of equipment, unless the two are
connected already. -/
def switchUnlessConnected (e : VoltageLevelEquipment) (hopBound : Nat) (line tap : Mrid)
    (d : Draft) (target : Seat) : Draft :=
  if d.graph.isConnected line target.equipment hopBound then d.skip
  else e.switchTap line tap target d

/-- Gives a line its tap, and switches the tap to the line itself and to what comes after it. -/
def tapLine (e : VoltageLevelEquipment) (hopBound : Nat) (line : Seat) (after : List Seat)
    (d : Draft) : Draft :=
  let tap := d.ids.peek 0
  let d := (d.addNode (e.nextLabel d) e.voltageLevel.mrid).countLabel
  after.foldl (e.switchUnlessConnected hopBound line.equipment tap)
    (e.switchTap line.equipment tap line d)

/-- Gives so many lines, which come first among the seats, their taps. -/
def tapLines (e : VoltageLevelEquipment) (hopBound : Nat) : Nat → List Seat → Draft → Draft
  | lines + 1, line :: after, d =>
    tapLines e hopBound lines after (e.tapLine hopBound line after d)
  | _, _, d => d

/-- The seats of all equipment, once every piece has its node. -/
def seats (e : VoltageLevelEquipment) (d : Draft) : List Seat :=
  e.members.zipWith Seat.mk (d.topology.connectivityNodes.map (·.mrid))

/-- What is reported once the layer is complete. -/
def synthesizedEvent (e : VoltageLevelEquipment) (d : Draft) : Event :=
  .synthesizedVoltageLevel e.voltageLevel.mrid e.lines.length e.generators.length e.loads.length
    d.topology.connectivityNodes.length d.topology.switches.length d.skipped

/-- Creates the switching layer of a voltage level, for equipment that counts as connected when it
is closer than a bound. -/
def synthesize (e : VoltageLevelEquipment) (hopBound : Nat) (graph : Graph) (ids : MridSource) :
    Synthesis :=
  let name := e.voltageLevel.name
  let d := Draft.start graph ids ("Reporting group " ++ name) ("RG " ++ name)
    ("Reporting group for voltage level " ++ name)
  let d := e.seatAll d
  let d := e.tapLines hopBound e.lines.length (e.seats d) d
  (d.report (e.synthesizedEvent d)).finish

end VoltageLevelEquipment

end Switchyard
