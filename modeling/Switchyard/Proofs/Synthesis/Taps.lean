import Switchyard.Proofs.Mrid.Fresh
import Switchyard.Proofs.Synthesis.Drafts
import Switchyard.Synthesis.VoltageLevel

/-!
# Seats, taps and switches

The switching layer of a voltage level is made of three kinds of portions: a *seat* is the node and
the terminal of a piece of equipment, a *tap* is the second node of a line, and a *wire* is a switch
between a tap and a seat.  Every portion takes its identities from the source and appends its
records to the topology.

A `Tapping` says which seats the tap of a line is switched to, its own seat coming first.  What a
list of tappings creates is read off the tappings and the sources that they start from (`sourced`):
the taps, and the wires in their order, each of which stands for a switch and its two terminals.
-/

set_option autoImplicit false

namespace Switchyard

/-- A line of a switching layer, and the seats that its tap is switched to besides its own. -/
structure Tapping where
  line : Seat
  targets : List Seat

/-- A switch of a switching layer: it joins the tap of a line to a seat. -/
structure Wire where
  line : Seat
  tap : Mrid
  switch : Mrid
  target : Seat

/-- The piece of equipment and the node that a terminal joins. -/
def Terminal.seat (t : Terminal) : Seat := ⟨t.conductingEquipmentMrid, t.connectivityNodeMrid⟩

/-- What the two terminals of a switch join: the tap comes first. -/
def Wire.attachments (w : Wire) : List (Mrid × Mrid × Int32) :=
  [(w.switch, w.tap, 1), (w.switch, w.target.node, 2)]

theorem Wire.mem_attachments_iff (w : Wire) {equipment node : Mrid} {number : Int32} :
    (equipment, node, number) ∈ w.attachments ↔
      equipment = w.switch ∧ node = w.tap ∧ number = 1 ∨
        equipment = w.switch ∧ node = w.target.node ∧ number = 2 := by
  simp [Wire.attachments]

/-- How many identities a seat takes. -/
def seatDraws : Nat := 3

/-- How many identities a switch takes. -/
def switchDraws : Nat := 5

/-- How many identities a line takes. -/
def Tapping.draws (t : Tapping) : Nat := 1 + switchDraws * (t.targets.length + 1)

/-- How many identities some lines take. -/
def drawCount : List Tapping → Nat
  | [] => 0
  | t :: ts => t.draws + drawCount ts

/-! ## What the source tells -/

section Source

/-- The seats of some equipment. -/
def seatsFrom : MridSource → List Mrid → List Seat
  | _, [] => []
  | ids, m :: ms => ⟨m, ids.peek 0⟩ :: seatsFrom (ids.advance seatDraws) ms

/-- The wires of a tap. -/
def wiresFrom (line : Seat) (tap : Mrid) : MridSource → List Seat → List Wire
  | _, [] => []
  | ids, t :: ts => ⟨line, tap, ids.peek 0, t⟩ :: wiresFrom line tap (ids.advance switchDraws) ts

/-- The wires of a line, the one to its own seat first. -/
def Tapping.wires (t : Tapping) (ids : MridSource) : List Wire :=
  wiresFrom t.line (ids.peek 0) (ids.advance 1) (t.line :: t.targets)

/-- Some tappings with the source that each of them starts from. -/
def sourced : MridSource → List Tapping → List (MridSource × Tapping)
  | _, [] => []
  | ids, t :: ts => (ids, t) :: sourced (ids.advance t.draws) ts

/-- The taps of some lines. -/
def taps (ids : MridSource) (ts : List Tapping) : List Mrid :=
  (sourced ids ts).map fun x => x.1.peek 0

/-- The wires of some lines. -/
def wires (ids : MridSource) (ts : List Tapping) : List Wire :=
  (sourced ids ts).flatMap fun x => x.2.wires x.1

variable (ids : MridSource)

theorem map_equipment_seatsFrom (ms : List Mrid) : (seatsFrom ids ms).map (·.equipment) = ms := by
  induction ms generalizing ids with
  | nil => rfl
  | cons m ms ih => rw [seatsFrom, List.map_cons, ih]

theorem length_seatsFrom (ms : List Mrid) : (seatsFrom ids ms).length = ms.length := by
  have h := congrArg List.length (map_equipment_seatsFrom ids ms)
  rwa [List.length_map] at h

theorem seatsFrom_append (ms ns : List Mrid) :
    seatsFrom ids (ms ++ ns) =
      seatsFrom ids ms ++ seatsFrom (ids.advance (seatDraws * ms.length)) ns := by
  induction ms generalizing ids with
  | nil => rfl
  | cons m ms ih =>
    rw [List.cons_append, seatsFrom, seatsFrom, ih, List.cons_append, MridSource.advance_advance,
      List.length_cons, Nat.mul_succ, Nat.add_comm seatDraws]

theorem map_target_wiresFrom (line : Seat) (tap : Mrid) (ts : List Seat) :
    (wiresFrom line tap ids ts).map (·.target) = ts := by
  induction ts generalizing ids with
  | nil => rfl
  | cons t ts ih => rw [wiresFrom, List.map_cons, ih]

/-- What the wires of a tap have in common. -/
theorem of_mem_wiresFrom {ids : MridSource} {line : Seat} {tap : Mrid} {ts : List Seat} {w : Wire}
    (h : w ∈ wiresFrom line tap ids ts) : w.line = line ∧ w.tap = tap ∧ w.target ∈ ts := by
  induction ts generalizing ids with
  | nil => exact absurd h (by simp [wiresFrom])
  | cons t ts ih =>
    rcases List.mem_cons.1 h with rfl | h
    · exact ⟨rfl, rfl, List.mem_cons_self⟩
    · obtain ⟨hline, htap, htarget⟩ := ih h
      exact ⟨hline, htap, List.mem_cons_of_mem t htarget⟩

theorem taps_cons (t : Tapping) (ts : List Tapping) :
    taps ids (t :: ts) = ids.peek 0 :: taps (ids.advance t.draws) ts := rfl

theorem wires_cons (t : Tapping) (ts : List Tapping) :
    wires ids (t :: ts) = t.wires ids ++ wires (ids.advance t.draws) ts := rfl

theorem map_snd_sourced (ts : List Tapping) : (sourced ids ts).map Prod.snd = ts := by
  induction ts generalizing ids with
  | nil => rfl
  | cons t ts ih => rw [sourced, List.map_cons, ih]

theorem length_sourced (ts : List Tapping) : (sourced ids ts).length = ts.length := by
  rw [← List.length_map Prod.snd, map_snd_sourced]

theorem length_taps (ts : List Tapping) : (taps ids ts).length = ts.length := by
  rw [taps, List.length_map, length_sourced]

variable {ids} in
/-- A tap has wires to the seats that its line is switched to, and to no others. -/
theorem exists_wire_iff_mem {ts : List Tapping} {i : Nat} {tap : Mrid} {t : Tapping} {s : Seat}
    (hnodup : (taps ids ts).Nodup) (htap : (taps ids ts)[i]? = some tap) (ht : ts[i]? = some t) :
    (∃ w ∈ wires ids ts, w.tap = tap ∧ w.target = s) ↔ s ∈ t.line :: t.targets := by
  rw [← map_snd_sourced ids ts, List.getElem?_map] at ht
  obtain ⟨⟨ids', t'⟩, hsourced, rfl⟩ := Option.map_eq_some_iff.1 ht
  obtain rfl : ids'.peek 0 = tap := by
    rw [taps, List.getElem?_map, hsourced] at htap
    exact Option.some.inj htap
  have hmem := List.mem_of_getElem? hsourced
  constructor
  · rintro ⟨w, hw, htap, rfl⟩
    obtain ⟨x, hx, hwx⟩ := List.mem_flatMap.1 hw
    obtain ⟨-, htap', htarget⟩ := of_mem_wiresFrom hwx
    rwa [List.inj_on_of_nodup_map hnodup hx hmem (htap'.symm.trans htap)] at htarget
  · intro hs
    have htargets := map_target_wiresFrom (ids'.advance 1) t'.line (ids'.peek 0)
      (t'.line :: t'.targets)
    rw [← htargets] at hs
    obtain ⟨w, hw, rfl⟩ := List.mem_map.1 hs
    exact ⟨w, List.mem_flatMap.2 ⟨_, hmem, hw⟩, (of_mem_wiresFrom hw).2.1, rfl⟩

end Source

namespace VoltageLevelEquipment

variable (e : VoltageLevelEquipment)

/-! ## Seats -/

section Seats

variable (isLine : Bool) (d : Draft) (m : Mrid) (ms : List Mrid)

/-- The records of a seat. -/
def seatMade : Topology :=
  let marker : BusNameMarker := .labelled (d.ids.peek 1) (e.nextLabel d) d.group
  { reportingGroup := d.topology.reportingGroup
    busNameMarkers := [marker]
    connectivityNodes := [.labelled (d.ids.peek 0) (e.nextLabel d) e.voltageLevel.mrid]
    terminals :=
      [.marked (d.ids.peek 2) (d.ids.peek 0) m marker (e.terminalNumber d.graph isLine m)] }

/-- The records of some seats. -/
def seatsMade : Topology := Draft.portions (e.seat isLine) (e.seatMade isLine) d ms

theorem topology_seat :
    (e.seat isLine d m).topology = d.topology.append (e.seatMade isLine d m) := by
  simp [seat, seatMade, Topology.append, Draft.countLabel, Draft.addNode, Draft.addTerminal,
    Draft.nextMarker, Draft.group]

theorem topology_foldl_seat :
    (ms.foldl (e.seat isLine) d).topology = d.topology.append (e.seatsMade isLine d ms) :=
  Draft.topology_foldl (e.topology_seat isLine) d ms

theorem ids_seat : (e.seat isLine d m).ids = d.ids.advance seatDraws := rfl

theorem graph_seat : (e.seat isLine d m).graph = d.graph := rfl

theorem skipped_seat : (e.seat isLine d m).skipped = d.skipped := rfl

theorem ids_foldl_seat :
    (ms.foldl (e.seat isLine) d).ids = d.ids.advance (seatDraws * ms.length) :=
  Draft.ids_foldl (e.ids_seat isLine) d ms

theorem graph_foldl_seat : (ms.foldl (e.seat isLine) d).graph = d.graph :=
  Draft.foldl_keeps (·.graph) (e.graph_seat isLine) d ms

theorem skipped_foldl_seat : (ms.foldl (e.seat isLine) d).skipped = d.skipped :=
  Draft.foldl_keeps (·.skipped) (e.skipped_seat isLine) d ms

/-- The terminals of seats join the equipment to its nodes. -/
theorem terminals_seatsMade :
    (e.seatsMade isLine d ms).terminals.map (·.seat) = seatsFrom d.ids ms := by
  induction ms generalizing d with
  | nil => rfl
  | cons m ms ih => exact congrArg (List.cons _) (ih (e.seat isLine d m))

theorem nodes_seatsMade :
    (e.seatsMade isLine d ms).connectivityNodes.map (·.mrid) =
      (seatsFrom d.ids ms).map (·.node) := by
  induction ms generalizing d with
  | nil => rfl
  | cons m ms ih => exact congrArg (List.cons _) (ih (e.seat isLine d m))

theorem switches_seatsMade : (e.seatsMade isLine d ms).switches = [] := by
  induction ms generalizing d with
  | nil => rfl
  | cons m ms ih => exact ih (e.seat isLine d m)

end Seats

/-! ## Wires -/

section Wires

variable (line : Seat) (tap : Mrid) (d : Draft) (t : Seat) (ts : List Seat)

/-- The records of a wire. -/
def wireMade : Topology :=
  let marker (k : Nat) : BusNameMarker := .labelled (d.ids.peek k) (e.nextLabel d) d.group
  { reportingGroup := d.topology.reportingGroup
    busNameMarkers := [marker 1, marker 3]
    switches := [.labelled (d.ids.peek 0) (e.nextLabel d) e.voltageLevel]
    terminals :=
      [.marked (d.ids.peek 2) tap (d.ids.peek 0) (marker 1) 1,
        .marked (d.ids.peek 4) t.node (d.ids.peek 0) (marker 3) 2] }

/-- Switches a tap to a seat. -/
def addWire (d : Draft) (t : Seat) : Draft := e.switchTap line.equipment tap t d

/-- The records of the wires of a tap. -/
def wiresMade : Topology := Draft.portions (e.addWire line tap) (e.wireMade tap) d ts

theorem topology_addWire :
    (e.addWire line tap d t).topology = d.topology.append (e.wireMade tap d t) := by
  simp [addWire, switchTap, wireMade, Topology.append, Draft.countLabel, Draft.report,
    Draft.extendGraph, Draft.addSwitch, Draft.addTerminal, Draft.nextMarker, Draft.group]

theorem ids_addWire : (e.addWire line tap d t).ids = d.ids.advance switchDraws := rfl

theorem skipped_addWire : (e.addWire line tap d t).skipped = d.skipped := rfl

/-- The terminals of a wire enter the graph. -/
theorem graph_addWire :
    (e.addWire line tap d t).graph = d.graph.addAll (e.wireMade tap d t).terminals := by
  show d.graph.addAll
    ((e.addWire line tap d t).topology.terminals.drop d.topology.terminals.length) = _
  rw [topology_addWire]
  exact congrArg d.graph.addAll List.drop_left

theorem graph_terminals_addWire :
    (e.addWire line tap d t).graph.terminals =
      d.graph.terminals ++ (e.wireMade tap d t).terminals := by
  rw [graph_addWire, Graph.terminals_addAll]

theorem topology_foldl_addWire :
    (ts.foldl (e.addWire line tap) d).topology = d.topology.append (e.wiresMade line tap d ts) :=
  Draft.topology_foldl (e.topology_addWire line tap) d ts

theorem graph_terminals_foldl_addWire :
    (ts.foldl (e.addWire line tap) d).graph.terminals =
      d.graph.terminals ++ (e.wiresMade line tap d ts).terminals :=
  Draft.graph_terminals_foldl (e.graph_terminals_addWire line tap) d ts

theorem ids_foldl_addWire :
    (ts.foldl (e.addWire line tap) d).ids = d.ids.advance (switchDraws * ts.length) :=
  Draft.ids_foldl (e.ids_addWire line tap) d ts

theorem attachments_wiresMade :
    (e.wiresMade line tap d ts).attachments =
      (wiresFrom line tap d.ids ts).flatMap (·.attachments) := by
  induction ts generalizing d with
  | nil => rfl
  | cons t ts ih =>
    have hwire : (e.wireMade tap d t).attachments =
        (Wire.mk line tap (d.ids.peek 0) t).attachments := rfl
    rw [wiresMade, Draft.portions, Topology.attachments_append, hwire, wiresFrom,
      List.flatMap_cons, ← ids_addWire, ← ih]
    rfl

theorem switches_wiresMade :
    (e.wiresMade line tap d ts).switches.map (·.mrid) =
      (wiresFrom line tap d.ids ts).map (·.switch) := by
  induction ts generalizing d with
  | nil => rfl
  | cons t ts ih => exact congrArg (List.cons _) (ih (e.addWire line tap d t))

theorem nodes_wiresMade : (e.wiresMade line tap d ts).connectivityNodes = [] := by
  induction ts generalizing d with
  | nil => rfl
  | cons t ts ih => exact ih (e.addWire line tap d t)

end Wires

/-! ## Lines -/

section Lines

variable (d : Draft) (t : Tapping) (ts : List Tapping)

/-- Gives a line its tap. -/
def addTap (d : Draft) : Draft := (d.addNode (e.nextLabel d) e.voltageLevel.mrid).countLabel

/-- The records of a tap. -/
def tapMade : Topology :=
  { reportingGroup := d.topology.reportingGroup
    connectivityNodes := [.labelled (d.ids.peek 0) (e.nextLabel d) e.voltageLevel.mrid] }

/-- Gives a line its tap, and switches the tap to its seats. -/
def layTap (d : Draft) (t : Tapping) : Draft :=
  (t.line :: t.targets).foldl (e.addWire t.line (d.ids.peek 0)) (e.addTap d)

/-- The records of a line. -/
def lineMade : Topology :=
  (e.tapMade d).append (e.wiresMade t.line (d.ids.peek 0) (e.addTap d) (t.line :: t.targets))

/-- The records of some lines. -/
def linesMade : Topology := Draft.portions e.layTap e.lineMade d ts

theorem topology_addTap : (e.addTap d).topology = d.topology.append (e.tapMade d) := by
  simp [addTap, tapMade, Topology.append, Draft.countLabel, Draft.addNode]

theorem topology_layTap : (e.layTap d t).topology = d.topology.append (e.lineMade d t) := by
  rw [layTap, topology_foldl_addWire, topology_addTap, Topology.append_assoc, lineMade]

theorem graph_terminals_layTap :
    (e.layTap d t).graph.terminals = d.graph.terminals ++ (e.lineMade d t).terminals := by
  rw [layTap, graph_terminals_foldl_addWire]
  rfl

theorem ids_layTap : (e.layTap d t).ids = d.ids.advance t.draws := by
  rw [layTap, ids_foldl_addWire, List.length_cons, Tapping.draws, ← MridSource.advance_advance]
  rfl

/-- **Lines append their records, and change nothing that was there.** -/
theorem topology_foldl_layTap :
    (ts.foldl e.layTap d).topology = d.topology.append (e.linesMade d ts) :=
  Draft.topology_foldl e.topology_layTap d ts

/-- The terminals of lines enter the graph. -/
theorem graph_terminals_foldl_layTap :
    (ts.foldl e.layTap d).graph.terminals = d.graph.terminals ++ (e.linesMade d ts).terminals :=
  Draft.graph_terminals_foldl e.graph_terminals_layTap d ts

theorem ids_foldl_layTap :
    (ts.foldl e.layTap d).ids = d.ids.advance (drawCount ts) := by
  induction ts generalizing d with
  | nil => rfl
  | cons t ts ih =>
    rw [List.foldl_cons, ih, ids_layTap, MridSource.advance_advance, drawCount]

theorem skipped_layTap : (e.layTap d t).skipped = d.skipped :=
  Draft.foldl_keeps (·.skipped) (e.skipped_addWire t.line (d.ids.peek 0)) (e.addTap d)
    (t.line :: t.targets)

theorem skipped_foldl_layTap : (ts.foldl e.layTap d).skipped = d.skipped :=
  Draft.foldl_keeps (·.skipped) e.skipped_layTap d ts

theorem linesMade_cons :
    e.linesMade d (t :: ts) = (e.lineMade d t).append (e.linesMade (e.layTap d t) ts) := rfl

theorem attachments_lineMade :
    (e.lineMade d t).attachments = (t.wires d.ids).flatMap (·.attachments) :=
  e.attachments_wiresMade t.line (d.ids.peek 0) (e.addTap d) (t.line :: t.targets)

theorem switches_lineMade :
    (e.lineMade d t).switches.map (·.mrid) = (t.wires d.ids).map (·.switch) :=
  e.switches_wiresMade t.line (d.ids.peek 0) (e.addTap d) (t.line :: t.targets)

theorem nodes_lineMade : (e.lineMade d t).connectivityNodes.map (·.mrid) = [d.ids.peek 0] := by
  have hwires := e.nodes_wiresMade t.line (d.ids.peek 0) (e.addTap d) (t.line :: t.targets)
  rw [lineMade, Topology.append, hwires]
  rfl

/-- The terminals of lines are those of their wires. -/
theorem attachments_linesMade :
    (e.linesMade d ts).attachments = (wires d.ids ts).flatMap (·.attachments) := by
  induction ts generalizing d with
  | nil => rfl
  | cons t ts ih =>
    rw [linesMade_cons, Topology.attachments_append, attachments_lineMade, ih, ids_layTap,
      wires_cons, List.flatMap_append]

/-- The switches of lines are those of their wires. -/
theorem switches_linesMade :
    (e.linesMade d ts).switches.map (·.mrid) = (wires d.ids ts).map (·.switch) := by
  induction ts generalizing d with
  | nil => rfl
  | cons t ts ih =>
    rw [linesMade_cons, wires_cons, List.map_append, ← switches_lineMade, ← ids_layTap, ← ih]
    exact List.map_append

/-- The nodes of lines are their taps. -/
theorem nodes_linesMade :
    (e.linesMade d ts).connectivityNodes.map (·.mrid) = taps d.ids ts := by
  induction ts generalizing d with
  | nil => rfl
  | cons t ts ih =>
    rw [taps_cons, ← e.ids_layTap d t, ← ih]
    exact List.map_append.trans (congrArg (· ++ _) (e.nodes_lineMade d t))

end Lines

end VoltageLevelEquipment

end Switchyard
