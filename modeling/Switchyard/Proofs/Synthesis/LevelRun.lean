import Switchyard.Proofs.Synthesis.TapRun

/-!
# Runs over a voltage level

A run is told by its tappings: what it creates (`topology_synthesize`), what its graph has
(`terminals_synthesize`), and what it takes from the source (`drawn_synthesize`) are read off the
list of them.  The terminals of the created records are those of the seats and of the wires, and no
others (`seat_or_wire_of_attaches`).
-/

set_option autoImplicit false

namespace Switchyard

namespace VoltageLevelEquipment

variable (e : VoltageLevelEquipment) (hopBound : Nat) (graph : Graph) (ids : MridSource)

/-! ## The parts of a run -/

/-- The draft that the layer is added to. -/
def emptyDraft : Draft :=
  .start graph ids ("Reporting group " ++ e.voltageLevel.name) ("RG " ++ e.voltageLevel.name)
    ("Reporting group for voltage level " ++ e.voltageLevel.name)

/-- The draft once every piece of equipment has its seat. -/
def seated : Draft := e.seatAll (e.emptyDraft graph ids)

/-- The seats of a run. -/
def seatsOf : List Seat := seatsFrom (ids.advance 1) e.members

/-- What the source is left with once every piece of equipment has its seat. -/
def seatedIds : MridSource := (ids.advance 1).advance (seatDraws * e.members.length)

/-- The tappings of a run. -/
def tappingsOf : List Tapping :=
  e.tappings hopBound e.lines.length (e.seatsOf ids) (e.seated graph ids)

/-- The draft at the end of a run. -/
def finalDraft : Draft :=
  ((e.tappingsOf hopBound graph ids).foldl e.layTap (e.seated graph ids)).skipMore
    (e.linePairs.length - targetCount (e.tappingsOf hopBound graph ids))

theorem ids_seated : (e.seated graph ids).ids = e.seatedIds ids :=
  e.ids_seatAll (e.emptyDraft graph ids)

theorem terminals_seatsOf :
    (e.allSeatsMade (e.emptyDraft graph ids)).terminals.map (·.seat) = e.seatsOf ids :=
  e.terminals_allSeatsMade (e.emptyDraft graph ids)

theorem map_equipment_seatsOf : (e.seatsOf ids).map (·.equipment) = e.members :=
  map_equipment_seatsFrom _ _

theorem length_seatsOf : (e.seatsOf ids).length = e.members.length := length_seatsFrom _ _

theorem length_tappingsOf : (e.tappingsOf hopBound graph ids).length = e.lines.length := by
  have hlen := congrArg List.length
    (e.map_line_tappings hopBound e.lines.length (e.seatsOf ids) (e.seated graph ids))
  have hle : e.lines.length ≤ e.members.length := by
    rw [length_members]
    omega
  rw [List.length_map, List.length_take, length_seatsOf, Nat.min_eq_left hle] at hlen
  exact hlen

theorem linePairs_eq :
    e.linePairs = (pairsAfter e.lines.length (e.seatsOf ids)).map
      (Prod.map (·.equipment) (·.equipment)) := by
  rw [← pairsAfter_map, map_equipment_seatsOf, linePairs]

theorem nodes_seated :
    (e.seated graph ids).topology.connectivityNodes.map (·.mrid) =
      (e.seatsOf ids).map (·.node) := by
  rw [seated, topology_seatAll]
  exact e.nodes_allSeatsMade (e.emptyDraft graph ids)

theorem seats_seated : e.seats (e.seated graph ids) = e.seatsOf ids := by
  rw [seats, nodes_seated, ← e.map_equipment_seatsOf ids, List.zipWith_map, List.zipWith_self]
  exact List.map_id _

/-- The terminals of the seats are in the graph once every piece of equipment has its seat. -/
theorem terminals_seated :
    (e.seated graph ids).graph.terminals =
      graph.terminals ++ (e.allSeatsMade (e.emptyDraft graph ids)).terminals := by
  rw [seated, graph_seatAll, topology_seatAll, Graph.terminals_addAll]
  rfl

theorem skipped_seated : (e.seated graph ids).skipped = 0 := by
  show (e.otherMrids.foldl (e.seat false)
    (e.lineMrids.foldl (e.seat true) (e.emptyDraft graph ids))).skipped = 0
  rw [skipped_foldl_seat, skipped_foldl_seat]
  rfl

theorem grows_seated : graph.Grows (e.seated graph ids).graph :=
  ⟨_, e.graph_seatAll (e.emptyDraft graph ids)⟩

theorem tapLines_seated :
    e.tapLines hopBound e.lines.length (e.seatsOf ids) (e.seated graph ids) =
      e.finalDraft hopBound graph ids := by
  have hcount : e.linePairs.length = (pairsAfter e.lines.length (e.seatsOf ids)).length := by
    rw [e.linePairs_eq ids, List.length_map]
  rw [tapLines_eq, finalDraft, tappingsOf, hcount]

theorem synthesize_eq :
    e.synthesize hopBound graph ids =
      ((e.finalDraft hopBound graph ids).report
        (e.synthesizedEvent (e.finalDraft hopBound graph ids))).finish := by
  rw [← tapLines_seated, ← e.seats_seated graph ids]
  rfl

theorem graph_synthesize :
    (e.synthesize hopBound graph ids).graph =
      (e.tapLines hopBound e.lines.length (e.seatsOf ids) (e.seated graph ids)).graph := by
  rw [synthesize_eq, tapLines_seated]
  rfl

theorem grows_synthesize : graph.Grows (e.synthesize hopBound graph ids).graph := by
  rw [graph_synthesize]
  exact (e.grows_seated graph ids).trans (e.grows_tapLines _ _ _ _)

/-! ## What a run amounts to -/

/-- The records of a run. -/
def layerMade : Topology :=
  (e.allSeatsMade (e.emptyDraft graph ids)).append
    (e.linesMade (e.seated graph ids) (e.tappingsOf hopBound graph ids))

theorem topology_synthesize :
    (e.synthesize hopBound graph ids).model.topology =
      (e.emptyDraft graph ids).topology.append (e.layerMade hopBound graph ids) := by
  rw [layerMade, ← Topology.append_assoc, ← topology_seatAll, ← seated, ← topology_foldl_layTap,
    synthesize_eq]
  rfl

/-- The terminals of a run, and those of its seats first. -/
theorem terminals_synthesize_eq :
    (e.synthesize hopBound graph ids).model.topology.terminals =
      (e.allSeatsMade (e.emptyDraft graph ids)).terminals ++
        (e.linesMade (e.seated graph ids) (e.tappingsOf hopBound graph ids)).terminals := by
  rw [topology_synthesize]
  rfl

/-- The graph of a run has the terminals of its model after its old ones. -/
theorem terminals_synthesize :
    (e.synthesize hopBound graph ids).graph.terminals =
      graph.terminals ++ (e.synthesize hopBound graph ids).model.topology.terminals := by
  rw [graph_synthesize, tapLines_seated, finalDraft, Draft.graph_skipMore,
    graph_terminals_foldl_layTap, terminals_seated, terminals_synthesize_eq, List.append_assoc]

/-- The nodes of a run: those of the seats, and then the taps. -/
theorem nodes_synthesize :
    (e.synthesize hopBound graph ids).model.topology.connectivityNodes.map (·.mrid) =
      (e.seatsOf ids).map (·.node) ++
        taps (e.seatedIds ids) (e.tappingsOf hopBound graph ids) := by
  have hseats : (e.seatsOf ids).map (·.node) =
      (e.allSeatsMade (e.emptyDraft graph ids)).connectivityNodes.map (·.mrid) :=
    (e.nodes_allSeatsMade (e.emptyDraft graph ids)).symm
  rw [topology_synthesize, hseats, ← e.ids_seated graph ids, ← e.nodes_linesMade,
    ← List.map_append]
  rfl

/-- The switches of a run are those of its wires. -/
theorem switches_synthesize :
    (e.synthesize hopBound graph ids).model.topology.switches.map (·.mrid) =
      (wires (e.seatedIds ids) (e.tappingsOf hopBound graph ids)).map (·.switch) := by
  have hswitches : (e.layerMade hopBound graph ids).switches =
      (e.linesMade (e.seated graph ids) (e.tappingsOf hopBound graph ids)).switches := by
    rw [layerMade, Topology.append, switches_allSeatsMade]
    rfl
  rw [topology_synthesize, ← e.ids_seated graph ids, ← e.switches_linesMade, ← hswitches]
  rfl

/-- The terminals of a run, without those of its seats, are those of its wires. -/
theorem attachments_synthesize :
    (e.synthesize hopBound graph ids).model.topology.attachments =
      (e.allSeatsMade (e.emptyDraft graph ids)).attachments ++
        (wires (e.seatedIds ids) (e.tappingsOf hopBound graph ids)).flatMap (·.attachments) := by
  rw [← e.ids_seated graph ids, ← e.attachments_linesMade, ← Topology.attachments_append,
    ← layerMade, topology_synthesize]
  rfl

/-- A run has a switch for every line, and one for every seat that a line is switched to. -/
theorem length_switches_synthesize :
    (e.synthesize hopBound graph ids).model.topology.switches.length =
      e.lines.length + targetCount (e.tappingsOf hopBound graph ids) := by
  have hlen := congrArg List.length (e.switches_synthesize hopBound graph ids)
  rw [List.length_map, List.length_map, length_wires, length_tappingsOf] at hlen
  exact hlen

/-- A run leaves alone the pairs that get no switch. -/
theorem alreadyConnected_synthesize :
    (e.synthesize hopBound graph ids).model.alreadyConnected =
      e.linePairs.length - targetCount (e.tappingsOf hopBound graph ids) := by
  have hfinal : (e.finalDraft hopBound graph ids).skipped =
      e.linePairs.length - targetCount (e.tappingsOf hopBound graph ids) := by
    rw [finalDraft, Draft.skipped_skipMore, skipped_foldl_layTap, skipped_seated, Nat.zero_add]
  rw [synthesize_eq]
  exact hfinal

/-- What the source is left with after a run. -/
theorem ids_synthesize :
    (e.synthesize hopBound graph ids).ids =
      ids.advance (1 + (seatDraws * e.members.length +
        drawCount (e.tappingsOf hopBound graph ids))) := by
  have hfinish : (e.synthesize hopBound graph ids).ids = (e.finalDraft hopBound graph ids).ids := by
    rw [synthesize_eq]
    rfl
  rw [hfinish, finalDraft, Draft.ids_skipMore, ids_foldl_layTap, ids_seated, seatedIds,
    MridSource.advance_advance, MridSource.advance_advance]

/-- What a run takes from the source. -/
theorem drawn_synthesize :
    (e.synthesize hopBound graph ids).ids.drawn - ids.drawn =
      1 + (seatDraws * e.members.length + drawCount (e.tappingsOf hopBound graph ids)) := by
  rw [ids_synthesize, MridSource.drawn_advance, Nat.add_sub_cancel_left]

/-! ## Seats and wires in the records -/

variable {e hopBound graph ids}

theorem equipment_mem_members {s : Seat} (hs : s ∈ e.seatsOf ids) : s.equipment ∈ e.members := by
  rw [← e.map_equipment_seatsOf ids]
  exact List.mem_map_of_mem hs

/-- Every terminal of a run belongs to a seat or to a wire. -/
theorem seat_or_wire_of_attaches {equipment node : Mrid} {number : Int32}
    (h : (e.synthesize hopBound graph ids).model.topology.Attaches equipment node number) :
    ⟨equipment, node⟩ ∈ e.seatsOf ids ∨
      ∃ w ∈ wires (e.seatedIds ids) (e.tappingsOf hopBound graph ids),
        (equipment, node, number) ∈ w.attachments := by
  rw [Topology.Attaches, attachments_synthesize] at h
  rcases List.mem_append.1 h with h | h
  · obtain ⟨t, ht, heq⟩ := List.mem_map.1 h
    have hseat := List.mem_map_of_mem (f := Terminal.seat) ht
    rw [terminals_seatsOf] at hseat
    obtain ⟨rfl, hrest⟩ := Prod.mk.inj heq
    obtain ⟨rfl, -⟩ := Prod.mk.inj hrest
    exact .inl hseat
  · exact .inr (List.mem_flatMap.1 h)

/-- Every seat has its terminal. -/
theorem exists_attaches_of_mem_seatsOf {s : Seat} (hs : s ∈ e.seatsOf ids) :
    ∃ number, (e.synthesize hopBound graph ids).model.topology.Attaches s.equipment s.node
      number := by
  rw [← e.terminals_seatsOf graph ids] at hs
  obtain ⟨t, ht, rfl⟩ := List.mem_map.1 hs
  refine ⟨t.sequenceNumber, ?_⟩
  rw [Topology.Attaches, attachments_synthesize]
  exact List.mem_append_left _ (List.mem_map_of_mem (f := Terminal.attachment) ht)

/-- Every wire has its terminals. -/
theorem attaches_of_mem_wires {w : Wire}
    (hw : w ∈ wires (e.seatedIds ids) (e.tappingsOf hopBound graph ids)) :
    (e.synthesize hopBound graph ids).model.topology.Attaches w.switch w.tap 1 ∧
      (e.synthesize hopBound graph ids).model.topology.Attaches w.switch w.target.node 2 := by
  rw [Topology.Attaches, Topology.Attaches, attachments_synthesize]
  have hmem {x : Mrid × Mrid × Int32} (hx : x ∈ w.attachments) :=
    List.mem_append_right (e.allSeatsMade (e.emptyDraft graph ids)).attachments
      (List.mem_flatMap.2 ⟨w, hw, hx⟩)
  exact ⟨hmem List.mem_cons_self, hmem (List.mem_cons_of_mem _ List.mem_cons_self)⟩

end VoltageLevelEquipment

end Switchyard
