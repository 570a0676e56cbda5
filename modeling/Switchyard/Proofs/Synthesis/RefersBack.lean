import Switchyard.Proofs.Synthesis.TwoSources

/-!
# What created records refer to

Records are created in portions.  A portion refers to the input, to the group of its run, to nodes
of earlier portions, and otherwise to records of its own (`Topology.RefersBack`).  Portions that do
so can be put together, so the records of a whole run refer to the input and to each other
(`SubstationLevels.refersBack_linkAll`, `VoltageLevelEquipment.refersBack_synthesize`).
-/

set_option autoImplicit false

namespace Switchyard

/-! ## Portions that refer back -/

namespace Topology

/-- The switches and the transformers. -/
def createdEquipment (t : Topology) : List Mrid :=
  t.switches.map (·.mrid) ++ t.powerTransformers.map (·.mrid)

/-- What the records refer to, by their kind: the group of the run, the input, nodes that were there
before, and records of earlier tables. -/
structure RefersBack (t : Topology) (group : Mrid) (input nodes : List Mrid) : Prop where
  /-- Every marker belongs to the group of the run. -/
  marker : ∀ m ∈ t.busNameMarkers, m.reportingGroupMrid = group
  /-- Every terminal has a marker of its own. -/
  map_marker : t.terminals.map (·.busNameMarkerMrid) = t.busNameMarkers.map (·.mrid)
  node : ∀ n ∈ t.connectivityNodes, n.connectivityNodeContainerMrid ∈ input
  switch : ∀ s ∈ t.switches, s.baseVoltageMrid ∈ input ∧ s.equipmentContainerMrid ∈ input
  transformer : ∀ w ∈ t.powerTransformers,
    w.baseVoltageMrid ∈ input ∧ w.equipmentContainerMrid ∈ input
  terminal : ∀ x ∈ t.terminals, x.conductingEquipmentMrid ∈ input ++ t.createdEquipment ∧
    x.connectivityNodeMrid ∈ input ++ nodes ++ t.connectivityNodes.map (·.mrid)
  winding : ∀ w ∈ t.powerTransformerEnds, w.baseVoltageMrid ∈ input ∧
    w.terminalMrid ∈ t.terminals.map (·.mrid) ∧
    w.powerTransformerMrid ∈ t.powerTransformers.map (·.mrid)

namespace RefersBack

variable {t u : Topology} {group : Mrid} {input nodes nodes' : List Mrid}

theorem empty (reportingGroup : ReportingGroup) :
    ({ reportingGroup } : Topology).RefersBack group input nodes where
  marker := by simp
  map_marker := rfl
  node := by simp
  switch := by simp
  transformer := by simp
  terminal := by simp
  winding := by simp

theorem mono (h : t.RefersBack group input nodes) (hnodes : nodes ⊆ nodes') :
    t.RefersBack group input nodes' where
  __ := h
  terminal x hx := by
    obtain ⟨hequipment, hnode⟩ := h.terminal x hx
    refine ⟨hequipment, ?_⟩
    simp only [List.mem_append] at hnode ⊢
    exact hnode.imp_left (Or.imp_right fun hold => hnodes hold)

/-- **A portion may refer to the nodes of the one before it.** -/
theorem append (ht : t.RefersBack group input nodes)
    (hu : u.RefersBack group input (nodes ++ t.connectivityNodes.map (·.mrid))) :
    (t.append u).RefersBack group input nodes where
  marker := List.forall_mem_append.2 ⟨ht.marker, hu.marker⟩
  map_marker := by
    simp only [Topology.append, List.map_append, ht.map_marker, hu.map_marker]
  node := List.forall_mem_append.2 ⟨ht.node, hu.node⟩
  switch := List.forall_mem_append.2 ⟨ht.switch, hu.switch⟩
  transformer := List.forall_mem_append.2 ⟨ht.transformer, hu.transformer⟩
  terminal := by
    refine List.forall_mem_append.2 ⟨fun x hx => ?_, fun x hx => ?_⟩
    · have := ht.terminal x hx
      simp only [createdEquipment, Topology.append, List.map_append, List.mem_append] at this ⊢
      tauto
    · have := hu.terminal x hx
      simp only [createdEquipment, Topology.append, List.map_append, List.mem_append] at this ⊢
      tauto
  winding := by
    refine List.forall_mem_append.2 ⟨fun w hw => ?_, fun w hw => ?_⟩
    · have := ht.winding w hw
      simp only [Topology.append, List.map_append, List.mem_append]
      tauto
    · have := hu.winding w hw
      simp only [Topology.append, List.map_append, List.mem_append]
      tauto

end RefersBack

end Topology

/-- Steps of which each has a portion that refers back have portions that do. -/
theorem Draft.refersBack_portions {α : Type} {make : Draft → α → Draft}
    {part : Draft → α → Topology} {input nodes : List Mrid}
    (hgroup : ∀ d a, (make d a).group = d.group) {as : List α}
    (hpart : ∀ d, ∀ a ∈ as, (part d a).RefersBack d.group input nodes) (d : Draft) :
    (portions make part d as).RefersBack d.group input nodes := by
  induction as generalizing d with
  | nil => exact .empty _
  | cons a as ih =>
    have hrest := ih (fun d b hb => hpart d b (List.mem_cons_of_mem a hb)) (make d a)
    rw [hgroup] at hrest
    exact (hpart d a List.mem_cons_self).append (hrest.mono (List.subset_append_left _ _))

/-! ## Links between voltage levels -/

/-- A link refers to its pair and to records of its own. -/
theorem CrossPair.refersBack_made {p : CrossPair} {substation : Mrid} {input nodes : List Mrid}
    (hsubstation : substation ∈ input) (hp : p.mrids ⊆ input) (pu : PerUnit) (d : Draft) :
    (p.made substation pu d).RefersBack d.group input nodes := by
  simp only [mrids, List.cons_subset, List.nil_subset, and_true] at hp
  obtain ⟨hlevel, hbase, hbase', hfirst, hsecond⟩ := hp
  refine ⟨?_, rfl, ?_, ?_, ?_, ?_, ?_⟩
  · simp [made, linkMarker, BusNameMarker.labelled]
  · simp [made, ConnectivityNode.labelled, hlevel]
  · simp [made, Switch.labelled, hlevel, hbase]
  · simp [made, PowerTransformer.labelled, hbase, hsubstation]
  · simp [made, linkTerminals, Terminal.marked, Topology.createdEquipment, Switch.labelled,
      PowerTransformer.labelled, ConnectivityNode.labelled, hfirst, hsecond]
  · simp [made, linkWindings, linkTerminals, Terminal.marked, PowerTransformer.labelled,
      PowerTransformerEnd.labelled, hbase, hbase']

/-- **The records of a run over a substation refer back.** -/
theorem SubstationLevels.refersBack_linkAll (s : SubstationLevels) (hopBound : Nat) (pu : PerUnit)
    (graph : Graph) (ids : MridSource) :
    (s.linkAll hopBound pu graph ids).model.topology.RefersBack (ids.peek 0) s.inputMrids [] := by
  rw [model_linkAll, linksModel, topology_linkEach_emptyDraft, CrossPair.madeEach_eq_portions]
  have hgroup (d : Draft) (p : CrossPair) : (p.link s.substation.mrid pu d).group = d.group := rfl
  refine Draft.refersBack_portions hgroup (fun d p hp => ?_) (s.emptyDraft .empty ids)
  have hpair : p ∈ s.crossPairs := (CrossPair.linked_sublist _ _ _ _ _).subset hp
  exact CrossPair.refersBack_made List.mem_cons_self (mrids_subset_inputMrids hpair) pu d

/-! ## Switching layers -/

namespace VoltageLevelEquipment

variable (e : VoltageLevelEquipment) {nodes : List Mrid}

/-! ### The group of the run -/

theorem group_seat (isLine : Bool) (d : Draft) (m : Mrid) : (e.seat isLine d m).group = d.group :=
  rfl

theorem group_foldl_seat (isLine : Bool) (d : Draft) (ms : List Mrid) :
    (ms.foldl (e.seat isLine) d).group = d.group :=
  Draft.foldl_keeps Draft.group (e.group_seat isLine) d ms

theorem group_addWire (line : Seat) (tap : Mrid) (d : Draft) (t : Seat) :
    (e.addWire line tap d t).group = d.group := rfl

theorem group_layTap (d : Draft) (t : Tapping) : (e.layTap d t).group = d.group :=
  Draft.foldl_keeps Draft.group (e.group_addWire t.line (d.ids.peek 0)) (e.addTap d)
    (t.line :: t.targets)

/-! ### The portions -/

/-- A seat refers to its piece of equipment and to records of its own. -/
theorem refersBack_seatMade (isLine : Bool) (d : Draft) {m : Mrid} (hm : m ∈ e.members) :
    (e.seatMade isLine d m).RefersBack d.group e.inputMrids nodes := by
  have hmember := mem_inputMrids_of_mem_members hm
  refine ⟨?_, rfl, ?_, ?_, ?_, ?_, ?_⟩
  · simp [seatMade, BusNameMarker.labelled]
  · simp [seatMade, ConnectivityNode.labelled, inputMrids]
  · simp [seatMade]
  · simp [seatMade]
  · simp [seatMade, Terminal.marked, ConnectivityNode.labelled, hmember]
  · simp [seatMade]

theorem refersBack_tapMade (d : Draft) : (e.tapMade d).RefersBack d.group e.inputMrids nodes := by
  refine ⟨?_, rfl, ?_, ?_, ?_, ?_, ?_⟩
  · simp [tapMade]
  · simp [tapMade, ConnectivityNode.labelled, inputMrids]
  all_goals simp [tapMade]

/-- A wire refers to the nodes that it joins, which were there before. -/
theorem refersBack_wireMade {tap : Mrid} (d : Draft) {t : Seat} (htap : tap ∈ nodes)
    (ht : t.node ∈ nodes) : (e.wireMade tap d t).RefersBack d.group e.inputMrids nodes := by
  refine ⟨?_, rfl, ?_, ?_, ?_, ?_, ?_⟩
  · simp [wireMade, BusNameMarker.labelled]
  · simp [wireMade]
  · simp [wireMade, Switch.labelled, inputMrids]
  · simp [wireMade]
  · simp [wireMade, Terminal.marked, Topology.createdEquipment, Switch.labelled, htap, ht]
  · simp [wireMade]

/-- A line refers to the nodes of the seats that its tap is switched to. -/
theorem refersBack_lineMade (d : Draft) {t : Tapping}
    (ht : ∀ seat ∈ t.line :: t.targets, seat.node ∈ nodes) :
    (e.lineMade d t).RefersBack d.group e.inputMrids nodes := by
  refine (e.refersBack_tapMade d).append ?_
  refine Draft.refersBack_portions (e.group_addWire t.line (d.ids.peek 0))
    (fun d' seat hseat => ?_) (e.addTap d)
  exact e.refersBack_wireMade d' (List.mem_append_right _ (List.mem_singleton_self _))
    (List.mem_append_left _ (ht seat hseat))

theorem refersBack_seatsMade (isLine : Bool) (d : Draft) {ms : List Mrid} (hms : ms ⊆ e.members) :
    (e.seatsMade isLine d ms).RefersBack d.group e.inputMrids nodes :=
  Draft.refersBack_portions (e.group_seat isLine)
    (fun d _ hm => e.refersBack_seatMade isLine d (hms hm)) d

theorem refersBack_allSeatsMade (d : Draft) :
    (e.allSeatsMade d).RefersBack d.group e.inputMrids nodes := by
  refine (e.refersBack_seatsMade true d (List.subset_append_left _ _)).append ?_
  rw [← e.group_foldl_seat true d e.lineMrids]
  exact e.refersBack_seatsMade false _ (List.subset_append_right _ _)

/-- **The records of a run over a voltage level refer back.** -/
theorem refersBack_synthesize (hopBound : Nat) (graph : Graph) (ids : MridSource) :
    (e.synthesize hopBound graph ids).model.topology.RefersBack (ids.peek 0) e.inputMrids [] := by
  have hgroup : (e.seated graph ids).group = ids.peek 0 := by
    show (e.otherMrids.foldl _ (e.lineMrids.foldl _ (e.emptyDraft graph ids))).group = _
    rw [group_foldl_seat, group_foldl_seat]
    rfl
  have hseats : (e.allSeatsMade (e.emptyDraft graph ids)).RefersBack (ids.peek 0) e.inputMrids [] :=
    e.refersBack_allSeatsMade _
  have hlines : (e.linesMade (e.seated graph ids) (e.tappingsOf hopBound graph ids)).RefersBack
      (ids.peek 0) e.inputMrids ((e.seatsOf ids).map (·.node)) := by
    rw [← hgroup]
    refine Draft.refersBack_portions e.group_layTap (fun d t ht => ?_) _
    refine e.refersBack_lineMade d fun seat hseat => List.mem_map_of_mem ?_
    exact e.mem_seats_of_mem_tappings _ _ _ _ ht hseat
  -- the nodes that the lines refer to are those of the seats
  have hnodes : (e.allSeatsMade (e.emptyDraft graph ids)).connectivityNodes.map (·.mrid) =
      (e.seatsOf ids).map (·.node) := e.nodes_allSeatsMade _
  rw [← hnodes] at hlines
  rw [topology_synthesize, layerMade]
  exact (Topology.RefersBack.empty _).append (hseats.append hlines)

end VoltageLevelEquipment

end Switchyard
