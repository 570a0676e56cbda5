import Switchyard.Proofs.Graph.Layer
import Switchyard.Proofs.Synthesis.LevelRun

/-!
# What a run adds is a layer

The inner points of what a run adds to a voltage level are the nodes of the seats, the taps and the
switches.  `parts` says of each what it is.  With fresh identities no two of them are the same and
none is a point of the old graph or a piece of equipment, so what the run adds stands on the
equipment (`standsOn_synthesize`), and a hop bound of at most six sees nothing of it, neither in the
end nor on the way (`isConnected_of_grows`).
-/

set_option autoImplicit false

namespace Switchyard

open Switchyard.Graph

/-- With no repeated key, the lookup finds what was put in. -/
theorem lookup_eq_some_of_mem {l : List (Mrid × Part)} (hnodup : (l.map Prod.fst).Nodup)
    {id : Mrid} {p : Part} (h : (id, p) ∈ l) : l.lookup id = some p := by
  obtain ⟨l₁, l₂, rfl⟩ := List.append_of_mem h
  refine List.lookup_eq_some_iff.2 ⟨l₁, l₂, rfl, ?_⟩
  intro q hq
  rw [bne_iff_ne]
  intro heq
  rw [List.map_append, List.map_cons] at hnodup
  exact List.disjoint_of_nodup_append hnodup (List.mem_map_of_mem hq) (heq ▸ List.mem_cons_self)

/-! ## Inner points -/

/-- The node of a seat, and what it is. -/
def Seat.part (s : Seat) : Mrid × Part := (s.node, .node s.equipment)

/-- The switch of a wire, and what it is. -/
def Wire.part (w : Wire) : Mrid × Part := (w.switch, .switch w.line.equipment w.target.equipment)

/-- The inner points of a line, and what they are. -/
def Tapping.parts (t : Tapping) (ids : MridSource) : List (Mrid × Part) :=
  (ids.peek 0, .tap t.line.equipment) :: (t.wires ids).map (·.part)

/-- The inner points of some lines, and what they are. -/
def tapParts (ids : MridSource) (ts : List Tapping) : List (Mrid × Part) :=
  (sourced ids ts).flatMap fun x => x.2.parts x.1

section Parts

variable (ids : MridSource)

theorem map_fst_part_seats (ss : List Seat) :
    (ss.map (·.part)).map Prod.fst = ss.map (·.node) := by
  rw [List.map_map]
  rfl

theorem map_fst_parts (t : Tapping) :
    (t.parts ids).map Prod.fst = ids.peek 0 :: (t.wires ids).map (·.switch) := by
  rw [Tapping.parts, List.map_cons, List.map_map]
  rfl

theorem map_fst_tapParts_cons (t : Tapping) (ts : List Tapping) :
    (tapParts ids (t :: ts)).map Prod.fst =
      (t.parts ids).map Prod.fst ++ (tapParts (ids.advance t.draws) ts).map Prod.fst :=
  List.map_append

theorem nodes_seatsFrom_sublist_take (ms : List Mrid) :
    ((seatsFrom ids ms).map (·.node)).Sublist (ids.take (seatDraws * ms.length)) := by
  induction ms generalizing ids with
  | nil => exact List.nil_sublist _
  | cons m ms ih =>
    rw [List.length_cons, Nat.mul_succ, Nat.add_comm]
    exact MridSource.append_sublist_take (MridSource.singleton_sublist_take (by decide)) (ih _)

theorem switches_wiresFrom_sublist_take (line : Seat) (tap : Mrid) (ts : List Seat) :
    ((wiresFrom line tap ids ts).map (·.switch)).Sublist (ids.take (switchDraws * ts.length)) := by
  induction ts generalizing ids with
  | nil => exact List.nil_sublist _
  | cons t ts ih =>
    rw [List.length_cons, Nat.mul_succ, Nat.add_comm]
    exact MridSource.append_sublist_take (MridSource.singleton_sublist_take (by decide)) (ih _)

theorem parts_sublist_take (t : Tapping) :
    ((t.parts ids).map Prod.fst).Sublist (ids.take t.draws) := by
  rw [map_fst_parts, Tapping.draws]
  exact MridSource.append_sublist_take (MridSource.singleton_sublist_take (by decide))
    (switches_wiresFrom_sublist_take _ _ _ (t.line :: t.targets))

theorem tapParts_sublist_take (ts : List Tapping) :
    ((tapParts ids ts).map Prod.fst).Sublist (ids.take (drawCount ts)) := by
  induction ts generalizing ids with
  | nil => exact List.nil_sublist _
  | cons t ts ih =>
    rw [map_fst_tapParts_cons, drawCount]
    exact MridSource.append_sublist_take (parts_sublist_take ids t) (ih _)

theorem taps_sublist_tapParts (ts : List Tapping) :
    (taps ids ts).Sublist ((tapParts ids ts).map Prod.fst) := by
  induction ts generalizing ids with
  | nil => exact List.nil_sublist _
  | cons t ts ih =>
    rw [map_fst_tapParts_cons, taps_cons, map_fst_parts]
    exact ((ih _).trans (List.sublist_append_right _ _)).cons_cons _

theorem switches_sublist_tapParts (ts : List Tapping) :
    ((wires ids ts).map (·.switch)).Sublist ((tapParts ids ts).map Prod.fst) := by
  induction ts generalizing ids with
  | nil => exact List.nil_sublist _
  | cons t ts ih =>
    rw [map_fst_tapParts_cons, wires_cons, List.map_append, map_fst_parts]
    exact (List.sublist_cons_self _ _).append (ih _)

variable {ids} {ts : List Tapping} {w : Wire}

/-- The switch and the tap of a wire are what they should be. -/
theorem parts_of_mem_wires (hw : w ∈ wires ids ts) :
    w.part ∈ tapParts ids ts ∧ (w.tap, .tap w.line.equipment) ∈ tapParts ids ts := by
  obtain ⟨x, hx, hwx⟩ := List.mem_flatMap.1 hw
  obtain ⟨hline, htap, -⟩ := of_mem_wiresFrom hwx
  refine ⟨List.mem_flatMap.2 ⟨x, hx, ?_⟩, List.mem_flatMap.2 ⟨x, hx, ?_⟩⟩
  · exact List.mem_cons_of_mem _ (List.mem_map_of_mem hwx)
  · rw [hline, htap]
    exact List.mem_cons_self

/-- A wire goes to a seat of one of the tappings. -/
theorem exists_tapping_of_mem_wires (hw : w ∈ wires ids ts) :
    ∃ t ∈ ts, w.target ∈ t.line :: t.targets := by
  obtain ⟨x, hx, hwx⟩ := List.mem_flatMap.1 hw
  obtain ⟨-, -, htarget⟩ := of_mem_wiresFrom hwx
  refine ⟨x.2, ?_, htarget⟩
  rw [← map_snd_sourced ids ts]
  exact List.mem_map_of_mem hx

end Parts

/-! ## The layer of a run -/

namespace VoltageLevelEquipment

variable (e : VoltageLevelEquipment) (hopBound : Nat) (graph : Graph) (ids : MridSource)

/-- The inner points of a run, and what they are. -/
def parts : List (Mrid × Part) :=
  (e.seatsOf ids).map (·.part) ++ tapParts (e.seatedIds ids) (e.tappingsOf hopBound graph ids)

/-- What an inner point of a run is. -/
def part (id : Mrid) : Option Part := (e.parts hopBound graph ids).lookup id

/-- The identities that a run took are pairwise different, and neither points of the graph before
the run nor pieces of equipment. -/
def DrawsFresh (run : Synthesis) : Prop :=
  ids.Fresh (run.ids.drawn - ids.drawn) fun id => graph.contains id = true ∨ id ∈ e.members

theorem map_fst_parts_run :
    (e.parts hopBound graph ids).map Prod.fst =
      (e.seatsOf ids).map (·.node) ++
        (tapParts (e.seatedIds ids) (e.tappingsOf hopBound graph ids)).map Prod.fst := by
  rw [parts, List.map_append, map_fst_part_seats]

/-- The inner points are among the identities that the run took. -/
theorem parts_run_sublist_take :
    ((e.parts hopBound graph ids).map Prod.fst).Sublist
      (ids.take ((e.synthesize hopBound graph ids).ids.drawn - ids.drawn)) := by
  rw [drawn_synthesize, map_fst_parts_run]
  refine MridSource.sublist_take_of_advance ?_
  exact MridSource.append_sublist_take (nodes_seatsFrom_sublist_take _ _)
    (tapParts_sublist_take _ _)

variable {e hopBound graph ids} {a b : Mrid} {bound : Nat} {g : Graph}

/-- What occurs among the terminals of a run are pieces of equipment and taken identities. -/
theorem mem_members_or_take_of_occurs {id : Mrid}
    (h : Occurs (e.synthesize hopBound graph ids).model.topology.terminals id) :
    id ∈ e.members ∨
      id ∈ ids.take ((e.synthesize hopBound graph ids).ids.drawn - ids.drawn) := by
  have htaken {id : Mrid} {p : Part} (hp : (id, p) ∈ e.parts hopBound graph ids) :
      id ∈ ids.take ((e.synthesize hopBound graph ids).ids.drawn - ids.drawn) :=
    (e.parts_run_sublist_take hopBound graph ids).subset (List.mem_map_of_mem hp)
  have hnode {s : Seat} (hs : s ∈ e.seatsOf ids) :
      (s.node, Part.node s.equipment) ∈ e.parts hopBound graph ids :=
    List.mem_append_left _ (List.mem_map_of_mem (f := Seat.part) hs)
  obtain ⟨t, ht, hend⟩ := occurs_iff.1 h
  have hattaches : (e.synthesize hopBound graph ids).model.topology.Attaches
      t.conductingEquipmentMrid t.connectivityNodeMrid t.sequenceNumber :=
    List.mem_map_of_mem (f := Terminal.attachment) ht
  rcases seat_or_wire_of_attaches hattaches with hseat | ⟨w, hw, hmem⟩
  · rcases hend with rfl | rfl
    · exact .inr (htaken (hnode hseat))
    · exact .inl (equipment_mem_members hseat)
  · obtain ⟨hswitch, htap⟩ := parts_of_mem_wires hw
    obtain ⟨x, hx, htarget⟩ := exists_tapping_of_mem_wires hw
    have hseat := e.mem_seats_of_mem_tappings _ _ _ _ hx htarget
    rcases w.mem_attachments_iff.1 hmem with ⟨hequipment, hnode', -⟩ | ⟨hequipment, hnode', -⟩
    · rcases hend with rfl | rfl
      · rw [hnode']
        exact .inr (htaken (List.mem_append_right _ htap))
      · rw [hequipment]
        exact .inr (htaken (List.mem_append_right _ hswitch))
    · rcases hend with rfl | rfl
      · rw [hnode']
        exact .inr (htaken (hnode hseat))
      · rw [hequipment]
        exact .inr (htaken (List.mem_append_right _ hswitch))

namespace DrawsFresh

variable (h : e.DrawsFresh graph ids (e.synthesize hopBound graph ids))

include h

theorem nodup_parts : ((e.parts hopBound graph ids).map Prod.fst).Nodup :=
  h.nodup.sublist (e.parts_run_sublist_take hopBound graph ids)

theorem part_eq_some {id : Mrid} {p : Part} (hp : (id, p) ∈ e.parts hopBound graph ids) :
    e.part hopBound graph ids id = some p :=
  lookup_eq_some_of_mem h.nodup_parts hp

theorem part_eq_none {id : Mrid} (hid : graph.contains id = true ∨ id ∈ e.members) :
    e.part hopBound graph ids id = none := by
  refine List.lookup_eq_none_iff.2 fun p hp => bne_iff_ne.2 ?_
  rintro rfl
  exact h.not_used _ ((e.parts_run_sublist_take hopBound graph ids).subset
    (List.mem_map_of_mem hp)) hid

theorem part_node {s : Seat} (hs : s ∈ e.seatsOf ids) :
    e.part hopBound graph ids s.node = some (.node s.equipment) :=
  h.part_eq_some (List.mem_append_left _ (List.mem_map_of_mem (f := Seat.part) hs))

/-- **All terminals of a run fit the layer.** -/
theorem fits {t : Terminal}
    (ht : t ∈ (e.synthesize hopBound graph ids).model.topology.terminals) :
    Part.Fits (e.part hopBound graph ids) t.connectivityNodeMrid t.conductingEquipmentMrid := by
  have hattaches : (e.synthesize hopBound graph ids).model.topology.Attaches
      t.conductingEquipmentMrid t.connectivityNodeMrid t.sequenceNumber :=
    List.mem_map_of_mem (f := Terminal.attachment) ht
  rcases seat_or_wire_of_attaches hattaches with hseat | ⟨w, hw, hmem⟩
  · -- a terminal of a seat
    have hmember := List.mem_map_of_mem (f := Seat.equipment) hseat
    rw [map_equipment_seatsOf] at hmember
    exact .seat (h.part_node hseat) (h.part_eq_none (.inr hmember))
  · -- a terminal of a wire, at its tap or at its seat
    obtain ⟨hswitch, htap⟩ := parts_of_mem_wires hw
    obtain ⟨x, hx, htarget⟩ := exists_tapping_of_mem_wires hw
    have hseat := e.mem_seats_of_mem_tappings _ _ _ _ hx htarget
    have hswitch' := h.part_eq_some (List.mem_append_right _ hswitch)
    rcases w.mem_attachments_iff.1 hmem with ⟨hequipment, hnode, -⟩ | ⟨hequipment, hnode, -⟩
    · rw [hequipment, hnode]
      exact .tapSide (h.part_eq_some (List.mem_append_right _ htap)) hswitch'
    · rw [hequipment, hnode]
      exact .nodeSide (h.part_node hseat) hswitch'

end DrawsFresh

/-- **What a run adds stands on the equipment**, and so does what it has added on the way. -/
theorem standsOn_of_grows (hg : graph.InStep)
    (hfresh : e.DrawsFresh graph ids (e.synthesize hopBound graph ids)) (hfrom : graph.Grows g)
    (hto : g.Grows (e.synthesize hopBound graph ids).graph) :
    Part.StandsOn (e.part hopBound graph ids) graph.terminals g.terminals := by
  refine ⟨?_, ?_, ?_⟩
  · intro t ht
    exact hfrom.subset ht
  · intro t ht
    have hin := hto.subset ht
    rw [terminals_synthesize] at hin
    exact (List.mem_append.1 hin).imp_right hfresh.fits
  · intro id hid
    exact hfresh.part_eq_none (.inl (hg.contains_iff.2 hid))

/-- **Up to six, a hop bound sees nothing of what a run adds.** -/
theorem isConnected_of_grows (hg : graph.InStep) (hbound : bound ≤ 6)
    (hfresh : e.DrawsFresh graph ids (e.synthesize hopBound graph ids)) (ha : a ∈ e.members)
    (hb : b ∈ e.members) (hne : a ≠ b) (hfrom : graph.Grows g)
    (hto : g.Grows (e.synthesize hopBound graph ids).graph) :
    g.isConnected a b bound = graph.isConnected a b bound :=
  (standsOn_of_grows hg hfresh hfrom hto).isConnected_eq hg (hfrom.inStep hg)
    (hfresh.part_eq_none (.inr ha)) (hfresh.part_eq_none (.inr hb)) hne hbound

end VoltageLevelEquipment

end Switchyard
