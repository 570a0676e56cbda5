import Switchyard.Proofs.Synthesis.TapLayer
import Switchyard.Proofs.Synthesis.TapPlan

/-!
# Which switches a voltage level gets

Up to a bound of six a run switches the tap of a line to a later piece of equipment exactly if the
two are not connected within the bound in the graph that the run starts from.  Whatever the run adds
on the way is nothing to the other pairs, so the switches can be counted beforehand.

How the switches of a run are placed is read off its records by `SwitchesTap`, which is first
related to the wires (`switches_iff_exists_wire`) and then to the tappings
(`switchesTap_iff_mem_targets`).  The main statement is `switched_iff_not_connected`.
-/

set_option autoImplicit false

namespace Switchyard

open Switchyard.Graph

/-- Some switch joins two nodes, the one by its first terminal and the other by its second. -/
def Topology.Switches (t : Topology) (a b : Mrid) : Prop :=
  ∃ s ∈ t.switches, t.Attaches s.mrid a 1 ∧ t.Attaches s.mrid b 2

/-- The switches are different, and each of them has a first and a second terminal and no others. -/
structure Topology.WellSwitched (t : Topology) : Prop where
  nodup : (t.switches.map (·.mrid)).Nodup
  ends : ∀ s ∈ t.switches, ∃ a b, ∀ node number,
    t.Attaches s.mrid node number ↔ node = a ∧ number = 1 ∨ node = b ∧ number = 2

namespace VoltageLevelEquipment

/-- The tap of the `i`-th line is switched to the node of the `j`-th piece of equipment.  The nodes
of a run are those of the equipment, in its order, and after them the taps, in the order of the
lines. -/
def SwitchesTap (e : VoltageLevelEquipment) (t : Topology) (i j : Nat) : Prop :=
  ∃ tap node, t.connectivityNodes[e.members.length + i]? = some tap ∧
    t.connectivityNodes[j]? = some node ∧ t.Switches tap.mrid node.mrid

/-- Every piece of equipment is attached to the node at its place, and to no other node. -/
def SeatsInOrder (e : VoltageLevelEquipment) (t : Topology) : Prop :=
  ∀ (j : Nat) (m : Mrid), e.members[j]? = some m →
    ∃ node, t.connectivityNodes[j]? = some node ∧
      ∀ n, (∃ number, t.Attaches m n number) ↔ n = node.mrid

variable {e : VoltageLevelEquipment} {hopBound : Nat} {graph : Graph} {ids : MridSource}
  {connected : Mrid → Mrid → Bool} {i j : Nat} {a b : Mrid} {s : Seat}

/-! ## The nodes of a run -/

theorem length_nodes :
    (e.synthesize hopBound graph ids).model.topology.connectivityNodes.length =
      e.members.length + e.lines.length := by
  have hlen := congrArg List.length (e.nodes_synthesize hopBound graph ids)
  rw [List.length_map, List.length_append, List.length_map, length_seatsOf, length_taps,
    length_tappingsOf] at hlen
  exact hlen

variable (hopBound graph) in
/-- The node of a seat stands at the place of the seat. -/
theorem exists_node (hs : (e.seatsOf ids)[j]? = some s) :
    ∃ node, (e.synthesize hopBound graph ids).model.topology.connectivityNodes[j]? = some node ∧
      node.mrid = s.node := by
  have hlt := (List.getElem?_eq_some_iff.1 hs).1
  rw [← Option.map_eq_some_iff, ← List.getElem?_map, nodes_synthesize, List.getElem?_append_left,
    List.getElem?_map, hs]
  · rfl
  · rwa [List.length_map]

/-- The taps stand after the nodes of the seats. -/
theorem exists_tap {tap : Mrid}
    (htap : (taps (e.seatedIds ids) (e.tappingsOf hopBound graph ids))[i]? = some tap) :
    ∃ node, (e.synthesize hopBound graph ids).model.topology.connectivityNodes[
        e.members.length + i]? = some node ∧ node.mrid = tap := by
  have hlen : ((e.seatsOf ids).map (·.node)).length = e.members.length := by
    rw [List.length_map, length_seatsOf]
  rw [← Option.map_eq_some_iff, ← List.getElem?_map, nodes_synthesize, ← hlen,
    List.getElem?_append_right (Nat.le_add_right _ _), Nat.add_sub_cancel_left, htap]

/-- How the switches are placed, by the identities of the nodes. -/
theorem switchesTap_iff_switches {tap : Mrid}
    (htap : (taps (e.seatedIds ids) (e.tappingsOf hopBound graph ids))[i]? = some tap)
    (hs : (e.seatsOf ids)[j]? = some s) :
    e.SwitchesTap (e.synthesize hopBound graph ids).model.topology i j ↔
      (e.synthesize hopBound graph ids).model.topology.Switches tap s.node := by
  obtain ⟨node, hnode, hnodeEq⟩ := exists_node hopBound graph hs
  obtain ⟨other, hother, hotherEq⟩ := exists_tap htap
  rw [SwitchesTap, hnode, hother, ← hnodeEq, ← hotherEq]
  constructor
  · rintro ⟨_, _, ⟨rfl⟩, ⟨rfl⟩, h⟩
    exact h
  · exact fun h => ⟨_, _, rfl, rfl, h⟩

variable (ids) in
theorem getElem?_seatsOf (hj : e.members[j]? = some b) :
    ∃ node, (e.seatsOf ids)[j]? = some ⟨b, node⟩ := by
  rw [← e.map_equipment_seatsOf ids, List.getElem?_map] at hj
  obtain ⟨⟨m, node⟩, hs, rfl⟩ := Option.map_eq_some_iff.1 hj
  exact ⟨node, hs⟩

theorem nodup_seatsOf (hnodup : e.members.Nodup) : (e.seatsOf ids).Nodup := by
  rw [← e.map_equipment_seatsOf ids] at hnodup
  exact hnodup.of_map

/-- Different seats are for different equipment. -/
theorem eq_of_equipment_eq (hnodup : e.members.Nodup) {t : Seat} (hs : s ∈ e.seatsOf ids)
    (ht : t ∈ e.seatsOf ids) (h : s.equipment = t.equipment) : s = t := by
  rw [← e.map_equipment_seatsOf ids] at hnodup
  exact List.inj_on_of_nodup_map hnodup hs ht h

/-! ## From records to wires -/

/-- The switches of a run are the switches of its wires. -/
theorem exists_wire_of_mem_switches {s : Switch}
    (hs : s ∈ (e.synthesize hopBound graph ids).model.topology.switches) :
    ∃ w ∈ wires (e.seatedIds ids) (e.tappingsOf hopBound graph ids), w.switch = s.mrid := by
  have hswitch := List.mem_map_of_mem (f := fun s : Switch => s.mrid) hs
  rw [switches_synthesize] at hswitch
  exact List.mem_map.1 hswitch

section Fresh

variable (hfresh : e.DrawsFresh graph ids (e.synthesize hopBound graph ids))

include hfresh

theorem nodup_nodes_seatsOf : ((e.seatsOf ids).map (·.node)).Nodup := by
  have hnodup := hfresh.nodup_parts
  rw [map_fst_parts_run] at hnodup
  exact hnodup.of_append_left

theorem nodup_tapParts :
    ((tapParts (e.seatedIds ids) (e.tappingsOf hopBound graph ids)).map Prod.fst).Nodup := by
  have hnodup := hfresh.nodup_parts
  rw [map_fst_parts_run] at hnodup
  exact hnodup.of_append_right

/-- No piece of equipment is a switch of the run. -/
theorem not_member_of_mem_wires {w : Wire}
    (hw : w ∈ wires (e.seatedIds ids) (e.tappingsOf hopBound graph ids)) :
    w.switch ∉ e.members := by
  intro hmember
  have hpart := hfresh.part_eq_some (List.mem_append_right _ (parts_of_mem_wires hw).1)
  rw [hfresh.part_eq_none (.inr hmember)] at hpart
  exact absurd hpart (by simp)

/-- What a switch of the run is attached to. -/
theorem attaches_switch_iff {w : Wire}
    (hw : w ∈ wires (e.seatedIds ids) (e.tappingsOf hopBound graph ids)) {node : Mrid}
    {number : Int32} :
    (e.synthesize hopBound graph ids).model.topology.Attaches w.switch node number ↔
      node = w.tap ∧ number = 1 ∨ node = w.target.node ∧ number = 2 := by
  have hends : (w.switch, node, number) ∈ w.attachments ↔
      node = w.tap ∧ number = 1 ∨ node = w.target.node ∧ number = 2 := by
    simp [w.mem_attachments_iff]
  rw [← hends]
  constructor
  · intro h
    rcases seat_or_wire_of_attaches h with hseat | ⟨w', hw', hmem⟩
    · exact absurd (equipment_mem_members hseat) (not_member_of_mem_wires hfresh hw)
    · have hnodup := (nodup_tapParts hfresh).sublist (switches_sublist_tapParts _ _)
      have hswitch : w.switch = w'.switch := by
        rcases w'.mem_attachments_iff.1 hmem with ⟨h, -⟩ | ⟨h, -⟩ <;> exact h
      rwa [List.inj_on_of_nodup_map hnodup hw hw' hswitch, ← hswitch]
  · intro h
    rcases w.mem_attachments_iff.1 h with ⟨-, rfl, rfl⟩ | ⟨-, rfl, rfl⟩
    · exact (attaches_of_mem_wires hw).1
    · exact (attaches_of_mem_wires hw).2

theorem wellSwitched_synthesize :
    (e.synthesize hopBound graph ids).model.topology.WellSwitched := by
  refine ⟨?_, ?_⟩
  · rw [switches_synthesize]
    exact (nodup_tapParts hfresh).sublist (switches_sublist_tapParts _ _)
  · intro s hs
    obtain ⟨w, hw, heq⟩ := exists_wire_of_mem_switches hs
    refine ⟨w.tap, w.target.node, ?_⟩
    intro node number
    rw [← heq, attaches_switch_iff hfresh hw]

/-- **The switches of a run are its wires.** -/
theorem switches_iff_exists_wire :
    (e.synthesize hopBound graph ids).model.topology.Switches a b ↔
      ∃ w ∈ wires (e.seatedIds ids) (e.tappingsOf hopBound graph ids),
        w.tap = a ∧ w.target.node = b := by
  constructor
  · rintro ⟨s, hs, hfirst, hsecond⟩
    obtain ⟨w, hw, heq⟩ := exists_wire_of_mem_switches hs
    rw [← heq, attaches_switch_iff hfresh hw] at hfirst hsecond
    exact ⟨w, hw, by simpa [eq_comm] using hfirst, by simpa [eq_comm] using hsecond⟩
  · rintro ⟨w, hw, rfl, rfl⟩
    have hswitch := List.mem_map_of_mem (f := Wire.switch) hw
    rw [← switches_synthesize] at hswitch
    obtain ⟨s, hs, heq⟩ := List.mem_map.1 hswitch
    have hattaches := attaches_of_mem_wires hw
    rw [← heq] at hattaches
    exact ⟨s, hs, hattaches⟩

/-- Whatever has its node at a place has it at no other place. -/
theorem eq_of_node_eq {t : Seat} (hs : s ∈ e.seatsOf ids) (ht : t ∈ e.seatsOf ids)
    (h : s.node = t.node) : s = t :=
  List.inj_on_of_nodup_map (nodup_nodes_seatsOf hfresh) hs ht h

/-- **What the tap of a line is switched to is read off the tappings.** -/
theorem switchesTap_iff_mem_targets {t : Tapping}
    (ht : (e.tappingsOf hopBound graph ids)[i]? = some t) (hs : (e.seatsOf ids)[j]? = some s) :
    e.SwitchesTap (e.synthesize hopBound graph ids).model.topology i j ↔
      s ∈ t.line :: t.targets := by
  have hlt : i < (taps (e.seatedIds ids) (e.tappingsOf hopBound graph ids)).length := by
    rw [length_taps]
    exact (List.getElem?_eq_some_iff.1 ht).1
  have htap := List.getElem?_eq_getElem hlt
  have hnodup := (nodup_tapParts hfresh).sublist (taps_sublist_tapParts _ _)
  have hs' := List.mem_of_getElem? hs
  rw [switchesTap_iff_switches htap hs, switches_iff_exists_wire hfresh,
    ← exists_wire_iff_mem hnodup htap ht]
  refine exists_congr fun w => and_congr_right fun hw => and_congr_right fun _ => ?_
  -- different seats have different nodes
  constructor
  · obtain ⟨x, hx, htarget⟩ := exists_tapping_of_mem_wires hw
    exact eq_of_node_eq hfresh (e.mem_seats_of_mem_tappings _ _ _ _ hx htarget) hs'
  · rintro rfl
    rfl

/-- Every piece of equipment has its own node. -/
theorem seatsInOrder_synthesize (hnodup : e.members.Nodup) :
    e.SeatsInOrder (e.synthesize hopBound graph ids).model.topology := by
  intro j m hm
  obtain ⟨n, hs⟩ := getElem?_seatsOf ids hm
  obtain ⟨node, hnode, rfl⟩ := exists_node hopBound graph hs
  have hs' := List.mem_of_getElem? hs
  refine ⟨node, hnode, fun n => ⟨?_, ?_⟩⟩
  · rintro ⟨number, h⟩
    rcases seat_or_wire_of_attaches h with hseat | ⟨w, hw, hmem⟩
    · exact congrArg Seat.node (eq_of_equipment_eq hnodup hseat hs' rfl)
    · have hswitch : m = w.switch := by
        rcases w.mem_attachments_iff.1 hmem with ⟨h, -⟩ | ⟨h, -⟩ <;> exact h
      exact absurd (hswitch ▸ List.mem_of_getElem? hm) (not_member_of_mem_wires hfresh hw)
  · rintro rfl
    exact exists_attaches_of_mem_seatsOf hs'

/-- **The switches of a planned run.** -/
theorem switchesTap_iff_of_planned (hnodup : e.members.Nodup)
    (hplan : e.tappingsOf hopBound graph ids = planned connected e.lines.length (e.seatsOf ids))
    (ha : e.lineMrids[i]? = some a) (hb : e.members[j]? = some b) :
    e.SwitchesTap (e.synthesize hopBound graph ids).model.topology i j ↔
      i = j ∨ i < j ∧ ¬ connected a b = true := by
  have hlt : i < (e.tappingsOf hopBound graph ids).length := by
    rw [length_tappingsOf]
    exact lt_length_lines ha
  obtain ⟨t, ht⟩ : ∃ t, (e.tappingsOf hopBound graph ids)[i]? = some t :=
    ⟨_, List.getElem?_eq_getElem hlt⟩
  obtain ⟨node, hs⟩ := getElem?_seatsOf ids hb
  obtain ⟨other, hline⟩ := getElem?_seatsOf ids (getElem?_members_of_line ha)
  rw [switchesTap_iff_mem_targets hfresh ht hs]
  rw [hplan] at ht
  have hequipment : t.line.equipment = a :=
    congrArg Seat.equipment (Option.some.inj ((getElem?_planned ht).1.symm.trans hline))
  rw [mem_planned_iff (nodup_seatsOf hnodup) ht hs, hequipment]

end Fresh

/-! ## Up to a bound of six -/

/-- Up to a bound of six a run is planned from the graph that it starts from. -/
theorem tappingsOf_eq_of_fresh (hg : graph.InStep) (hbound : hopBound ≤ 6)
    (hnodup : e.members.Nodup)
    (hfresh : e.DrawsFresh graph ids (e.synthesize hopBound graph ids)) :
    e.tappingsOf hopBound graph ids =
      planned (fun a b => graph.isConnected a b hopBound) e.lines.length (e.seatsOf ids) := by
  apply tappingsOf_eq_planned
  intro g hfrom hto p hp
  obtain ⟨ha, hb, hne⟩ := of_mem_linePairs hnodup hp
  exact isConnected_of_grows hg hbound hfresh ha hb hne hfrom hto

/-- How many switches a run makes up to a bound of six, and how many pairs it leaves alone. -/
theorem count_of_fresh (hg : graph.InStep) (hbound : hopBound ≤ 6) (hnodup : e.members.Nodup)
    (hfresh : e.DrawsFresh graph ids (e.synthesize hopBound graph ids)) :
    (e.synthesize hopBound graph ids).model.topology.switches.length +
          (e.connectedPairs hopBound graph).length =
        e.lines.length * (e.lines.length + 1) / 2 +
          e.lines.length * (e.generators.length + e.loads.length) ∧
      (e.synthesize hopBound graph ids).model.alreadyConnected =
        (e.connectedPairs hopBound graph).length := by
  obtain ⟨hswitches, hskipped⟩ := count_of_planned (tappingsOf_eq_of_fresh hg hbound hnodup hfresh)
  have hsplit := List.length_eq_length_filter_add (l := e.linePairs)
    fun p => graph.isConnected p.1 p.2 hopBound
  have hcount := e.length_lines_add_linePairs
  rw [hswitches, hskipped, connectedPairs]
  exact ⟨by omega, rfl⟩

/-- **Up to a bound of six, the tap of a line is switched to the line itself and to exactly those
pieces of equipment after it that were not connected to it before the run.**  So there are as many
switches as lines and pairs that were not connected. -/
theorem switched_iff_not_connected (e : VoltageLevelEquipment) (hnodup : e.members.Nodup)
    (ts : List Terminal) {hopBound : Nat} (hbound : hopBound ≤ 6) (ids : MridSource)
    {run : Synthesis} (hrun : e.synthesize hopBound (.ofTerminals ts) ids = run)
    (hfresh : e.DrawsFresh (.ofTerminals ts) ids run) :
    run.model.topology.connectivityNodes.length = e.members.length + e.lines.length ∧
      e.SeatsInOrder run.model.topology ∧ run.model.topology.WellSwitched ∧
      (∀ (i j : Nat) (a b : Mrid), e.lineMrids[i]? = some a → e.members[j]? = some b →
        (e.SwitchesTap run.model.topology i j ↔
          i = j ∨ i < j ∧ ¬ (Graph.ofTerminals ts).isConnected a b hopBound = true)) ∧
      run.model.topology.switches.length + (e.connectedPairs hopBound (.ofTerminals ts)).length =
        e.lines.length * (e.lines.length + 1) / 2 +
          e.lines.length * (e.generators.length + e.loads.length) ∧
      run.model.alreadyConnected = (e.connectedPairs hopBound (.ofTerminals ts)).length ∧
      (ts = [] → run.model.topology.switches.length =
        e.lines.length * (e.lines.length + 1) / 2 +
          e.lines.length * (e.generators.length + e.loads.length)) := by
  subst hrun
  have hg := inStep_ofTerminals ts
  have hplan := tappingsOf_eq_of_fresh hg hbound hnodup hfresh
  obtain ⟨hswitches, hskipped⟩ := count_of_fresh hg hbound hnodup hfresh
  refine ⟨length_nodes, seatsInOrder_synthesize hfresh hnodup, wellSwitched_synthesize hfresh, ?_,
    hswitches, hskipped, ?_⟩
  · intro i j a b ha hb
    exact switchesTap_iff_of_planned hfresh hnodup hplan ha hb
  · rintro rfl
    rwa [connectedPairs_ofTerminals_nil, List.length_nil, Nat.add_zero] at hswitches

/-- The first line is switched to the second one, but not to the generator that it is connected to,
and the second line is switched to the generator. -/
theorem switched_iff_not_connected_twoLines :
    ∃ run, twoLinesOneGenerator.synthesize 6 (.ofTerminals lineToGenerator) .sequential = run ∧
      twoLinesOneGenerator.SwitchesTap run.model.topology 0 1 ∧
      ¬ twoLinesOneGenerator.SwitchesTap run.model.topology 0 2 ∧
      twoLinesOneGenerator.SwitchesTap run.model.topology 1 2 ∧
      run.model.topology.switches.length = 4 := by
  obtain ⟨-, -, -, hswitches, hcount, -⟩ := switched_iff_not_connected twoLinesOneGenerator
    (by decide) lineToGenerator (Nat.le_refl 6) .sequential rfl
    ⟨by decide +kernel, by decide +kernel⟩
  have hconnected : (twoLinesOneGenerator.connectedPairs 6 (.ofTerminals lineToGenerator)).length =
      1 := by decide +kernel
  rw [hconnected] at hcount
  refine ⟨_, rfl, (hswitches 0 1 _ _ rfl rfl).2 (.inr ⟨by decide, by decide +kernel⟩), ?_,
    (hswitches 1 2 _ _ rfl rfl).2 (.inr ⟨by decide, by decide +kernel⟩), Nat.succ.inj hcount⟩
  intro h
  rcases (hswitches 0 2 _ _ rfl rfl).1 h with heq | ⟨-, hnot⟩
  · exact absurd heq (by decide)
  · exact hnot (by decide +kernel)

end VoltageLevelEquipment

end Switchyard
