import Switchyard.Proofs.Synthesis.Choices
import Switchyard.Proofs.Synthesis.Closed

/-!
# The layout of a voltage level model

Two nested loops append nodes, switches, terminals and markers, and number them with one running
index.  Whichever pairs are left alone, the lists stay aligned: the nodes are those of the equipment
and then the taps, and the `k`-th switch has the two terminals at the places that belong to `k`,
the first at the tap of its line and the second at the node that it is for (`Topology.IsLayer`).
The labels of nodes and switches are the running indices (`Topology.IsLabelled`).

A pair is told by the places of the line and of the other piece of equipment, and a line is paired
with itself too.  `tapPlaces` lists the pairs in lexicographic order, which is the order in which a
run treats them.  The main statement is `voltageLevel_layout`.
-/

set_option autoImplicit false

namespace Switchyard

/-! ## The places of the pairs -/

instance asymm_lexLt : Std.Asymm (Prod.lexLt : Nat × Nat → Nat × Nat → Prop) where
  asymm p q h h' := by
    simp only [Prod.lexLt] at h h'
    omega

/-- The pairs of one of the first `lines` pieces of equipment and itself or something after it, by
their places. -/
def tapPlaces (lines members : Nat) : List (Nat × Nat) :=
  (List.range lines).flatMap fun i => (List.range' i (members - i)).map (Prod.mk i)

section TapPlaces

variable {lines members i j : Nat}

theorem tapPlaces_succ (lines members : Nat) :
    tapPlaces (lines + 1) members =
      tapPlaces lines members ++ (List.range' lines (members - lines)).map (Prod.mk lines) := by
  rw [tapPlaces, List.range_succ, List.flatMap_append, List.flatMap_singleton, tapPlaces]

theorem mem_tapPlaces_iff : (i, j) ∈ tapPlaces lines members ↔ i < lines ∧ i ≤ j ∧ j < members := by
  simp only [tapPlaces, List.mem_flatMap, List.mem_range, List.mem_map, List.mem_range'_1,
    Prod.mk.injEq]
  constructor
  · rintro ⟨i, hi, j, ⟨hle, hlt⟩, rfl, rfl⟩
    omega
  · rintro ⟨hi, hle, hlt⟩
    exact ⟨i, hi, j, ⟨hle, by omega⟩, rfl, rfl⟩

theorem pairwise_tapPlaces (lines members : Nat) :
    (tapPlaces lines members).Pairwise Prod.lexLt := by
  refine List.pairwise_flatMap.2 ⟨fun i _ => ?_, List.pairwise_lt_range.imp ?_⟩
  · have hascending : (List.range' i (members - i)).Pairwise (· < ·) := List.pairwise_lt_range'
    rw [List.pairwise_map]
    exact hascending.imp fun hlt => .inr ⟨rfl, hlt⟩
  · intro i j hlt p hp q hq
    obtain ⟨-, -, rfl⟩ := List.mem_map.1 hp
    obtain ⟨-, -, rfl⟩ := List.mem_map.1 hq
    exact .inl hlt

example : tapPlaces 2 3 = [(0, 0), (0, 1), (0, 2), (1, 1), (1, 2)] := by decide

end TapPlaces

/-- The label of a voltage level with a number. -/
def VoltageLevelEquipment.label (e : VoltageLevelEquipment) (k : Nat) : String :=
  e.voltageLevel.name ++ " " ++ toString k

namespace Topology

/-! ## Nodes and switches at their places -/

/-- The identities of the nodes. -/
def nodeMrids (t : Topology) : List Mrid := t.connectivityNodes.map (·.mrid)

theorem nodeMrids_append (t u : Topology) :
    (t.append u).nodeMrids = t.nodeMrids ++ u.nodeMrids := List.map_append

/-- The first `members` nodes are those of equipment and the others are taps, and the first
`members` terminals are for the equipment.  Then the `k`-th switch is for the `i`-th tap and the
`j`-th piece of equipment if its first terminal is at the tap and the second at the node of the
equipment, the two of them being at the places of `k`. -/
def SwitchAt (t : Topology) (members k i j : Nat) : Prop :=
  ∃ (switch : Switch) (tap node : Mrid), t.switches[k]? = some switch ∧
    t.nodeMrids[members + i]? = some tap ∧ t.nodeMrids[j]? = some node ∧
    t.attachments[members + 2 * k]? = some (switch.mrid, tap, 1) ∧
    t.attachments[members + 2 * k + 1]? = some (switch.mrid, node, 2)

/-- Every piece of equipment has the node and the terminal at its own place, and then there are so
many taps, and the switches and terminals for some pairs of a tap and a piece of equipment. -/
structure IsLayer (t : Topology) (members : List Mrid) (taps : Nat) (pairs : List (Nat × Nat)) :
    Prop where
  length_nodes : t.connectivityNodes.length = members.length + taps
  length_switches : t.switches.length = pairs.length
  length_terminals : t.terminals.length = members.length + 2 * pairs.length
  transformers : t.powerTransformers = []
  windings : t.powerTransformerEnds = []
  seat : ∀ (k : Nat) (m : Mrid), members[k]? = some m →
    ∃ node number, t.nodeMrids[k]? = some node ∧ t.attachments[k]? = some (m, node, number)
  switch : ∀ k i j : Nat, pairs[k]? = some (i, j) → t.SwitchAt members.length k i j

/-- A switch at the node of a piece of equipment is at one of the taps besides, and at nothing
else. -/
def SwitchesToTapsOnly (t : Topology) (members taps : Nat) : Prop :=
  ∀ (k : Nat) (node : Mrid), k < members → t.nodeMrids[k]? = some node →
    ∀ switch ∈ t.switches, ∀ number, t.Attaches switch.mrid node number →
      ∃ i < taps, ∃ tap, t.nodeMrids[members + i]? = some tap ∧
        ∀ other number, t.Attaches switch.mrid other number → other = node ∨ other = tap

variable {t : Topology} {e : VoltageLevelEquipment} {members : List Mrid} {taps i j k n : Nat}
  {pairs : List (Nat × Nat)} {d : Draft} {tap : Mrid} {s : Seat}

/-- Later records do not move a switch. -/
theorem SwitchAt.append (h : t.SwitchAt n k i j) (u : Topology) :
    (t.append u).SwitchAt n k i j := by
  obtain ⟨switch, tap, node, hswitch, htap, hnode, hfirst, hsecond⟩ := h
  rw [SwitchAt, nodeMrids_append, attachments_append]
  exact ⟨switch, tap, node, getElem?_append_of_eq_some hswitch _,
    getElem?_append_of_eq_some htap _, getElem?_append_of_eq_some hnode _,
    getElem?_append_of_eq_some hfirst _, getElem?_append_of_eq_some hsecond _⟩

namespace IsLayer

theorem length_nodeMrids (h : t.IsLayer members taps pairs) :
    t.nodeMrids.length = members.length + taps := by
  rw [nodeMrids, List.length_map, h.length_nodes]

theorem length_attachments (h : t.IsLayer members taps pairs) :
    t.attachments.length = members.length + 2 * pairs.length := by
  rw [attachments, List.length_map, h.length_terminals]

theorem seat_append (h : t.IsLayer members taps pairs) (u : Topology) {m : Mrid}
    (hm : members[k]? = some m) :
    ∃ node number, (t.append u).nodeMrids[k]? = some node ∧
      (t.append u).attachments[k]? = some (m, node, number) := by
  obtain ⟨node, number, hnode, hterminal⟩ := h.seat k m hm
  rw [nodeMrids_append, attachments_append]
  exact ⟨node, number, getElem?_append_of_eq_some hnode _,
    getElem?_append_of_eq_some hterminal _⟩

/-- **A tap can be added.** -/
theorem append_tapMade (h : t.IsLayer members taps pairs) :
    (t.append (e.tapMade d)).IsLayer members (taps + 1) pairs where
  length_nodes := List.length_append.trans (congrArg (· + 1) h.length_nodes)
  length_switches := List.length_append.trans h.length_switches
  length_terminals := List.length_append.trans h.length_terminals
  transformers := (List.append_nil _).trans h.transformers
  windings := (List.append_nil _).trans h.windings
  seat _ _ := h.seat_append _
  switch k i j hk := (h.switch k i j hk).append _

/-- **A switch can be added**, between a tap and a node that are there. -/
theorem append_wireMade (h : t.IsLayer members taps pairs)
    (htap : t.nodeMrids[members.length + i]? = some tap)
    (hnode : t.nodeMrids[j]? = some s.node) :
    (t.append (e.wireMade tap d s)).IsLayer members taps (pairs ++ [(i, j)]) where
  length_nodes := List.length_append.trans h.length_nodes
  length_switches := by
    rw [List.length_append, ← h.length_switches]
    exact List.length_append
  length_terminals := by
    rw [List.length_append, Nat.mul_add, ← Nat.add_assoc, ← h.length_terminals]
    exact List.length_append
  transformers := (List.append_nil _).trans h.transformers
  windings := (List.append_nil _).trans h.windings
  seat _ _ := h.seat_append _
  switch k i' j' hk := by
    rcases getElem?_concat_eq_some hk with hold | ⟨rfl, heq⟩
    · exact (h.switch k i' j' hold).append _
    · obtain ⟨rfl, rfl⟩ := Prod.mk.inj heq
      rw [SwitchAt, nodeMrids_append, attachments_append]
      exact ⟨_, tap, s.node, getElem?_append_of_length (j := 0) h.length_switches.symm rfl,
        getElem?_append_of_eq_some htap _, getElem?_append_of_eq_some hnode _,
        getElem?_append_of_length (j := 0) h.length_attachments.symm rfl,
        getElem?_append_of_length (j := 1) (by rw [h.length_attachments]) rfl⟩

end IsLayer

/-! ## Labels -/

/-- The nodes and the switches together have the labels with the numbers below `n`, each of them
once. -/
def IsLabelled (t : Topology) (e : VoltageLevelEquipment) (n : Nat) : Prop :=
  ∃ nodeLabels switchLabels : List Nat,
    (nodeLabels ++ switchLabels).Perm (List.range n) ∧
    List.Forall₂ (fun node k => node = .labelled node.mrid (e.label k) e.voltageLevel.mrid)
      t.connectivityNodes nodeLabels ∧
    List.Forall₂ (fun switch k => switch = .labelled switch.mrid (e.label k) e.voltageLevel)
      t.switches switchLabels

namespace IsLabelled

/-- There are as many nodes and switches as labels. -/
theorem length_eq (h : t.IsLabelled e n) :
    n = t.connectivityNodes.length + t.switches.length := by
  obtain ⟨nodeLabels, switchLabels, hperm, hnodes, hswitches⟩ := h
  have hlength := hperm.length_eq
  rw [List.length_append, List.length_range] at hlength
  rw [hnodes.length_eq, hswitches.length_eq, hlength]

/-- A node with the next label can be added. -/
theorem append_node (h : t.IsLabelled e n) {u : Topology} {id : Mrid}
    (hnodes : u.connectivityNodes = [.labelled id (e.label n) e.voltageLevel.mrid])
    (hswitches : u.switches = []) : (t.append u).IsLabelled e (n + 1) := by
  obtain ⟨nodeLabels, switchLabels, hperm, hnodeLabels, hswitchLabels⟩ := h
  refine ⟨nodeLabels ++ [n], switchLabels, ?_, ?_, ?_⟩
  · rw [List.range_succ, List.append_assoc]
    refine (List.perm_append_comm.append_left nodeLabels).trans ?_
    rw [← List.append_assoc]
    exact hperm.append_right _
  · rw [append, hnodes]
    exact List.rel_append hnodeLabels (.cons rfl .nil)
  · rwa [append, hswitches, List.append_nil]

/-- A switch with the next label can be added. -/
theorem append_switch (h : t.IsLabelled e n) {u : Topology} {id : Mrid}
    (hnodes : u.connectivityNodes = [])
    (hswitches : u.switches = [.labelled id (e.label n) e.voltageLevel]) :
    (t.append u).IsLabelled e (n + 1) := by
  obtain ⟨nodeLabels, switchLabels, hperm, hnodeLabels, hswitchLabels⟩ := h
  refine ⟨nodeLabels, switchLabels ++ [n], ?_, ?_, ?_⟩
  · rw [List.range_succ, ← List.append_assoc]
    exact hperm.append_right _
  · rwa [append, hnodes, List.append_nil]
  · rw [append, hswitches]
    exact List.rel_append hswitchLabels (.cons rfl .nil)

end IsLabelled

end Topology

namespace VoltageLevelEquipment

variable {e : VoltageLevelEquipment} {hopBound : Nat} {graph : Graph} {ids : MridSource}

/-! ## Tapping lines -/

/-- Two different places have equipment that is connected in a graph.  What is at one and the same
place does not count. -/
def AreConnected (e : VoltageLevelEquipment) (hopBound : Nat) (g : Graph) (p : Nat × Nat) : Prop :=
  p.1 ≠ p.2 ∧ ∃ a b, e.members[p.1]? = some a ∧ e.members[p.2]? = some b ∧
    g.isConnected a b hopBound = true

/-- A draft with so many taps, in which some pairs were treated and some of them switched. -/
structure Tapped (e : VoltageLevelEquipment) (hopBound : Nat) (graph : Graph) (seats : List Seat)
    (taps : Nat) (d : Draft) (treated pairs : List (Nat × Nat)) : Prop where
  layer : d.topology.IsLayer e.members taps pairs
  labelled : d.topology.IsLabelled e d.labels
  treats : d.Treats (e.AreConnected hopBound) Prod.lexLt graph e.members.length 2 treated pairs
  nodes : seats.map (·.node) <+: d.topology.nodeMrids

section Seats

variable {seats after : List Seat} {line s : Seat} {i j n taps : Nat} {d : Draft} {tap : Mrid}
  {treated pairs : List (Nat × Nat)} {g : Graph}

/-- What a run asks of two seats is whether their places are connected. -/
theorem areConnected_iff (hseats : seats.map (·.equipment) = e.members)
    (hline : seats[i]? = some line) (hs : seats[j]? = some s) (hne : i ≠ j) :
    e.AreConnected hopBound g (i, j) ↔
      g.isConnected line.equipment s.equipment hopBound = true := by
  rw [AreConnected, ← hseats, List.getElem?_map, List.getElem?_map, hline, hs]
  simp [hne]

/-- The seats that follow a place are the one at it and those that follow the next place. -/
theorem of_drop_eq_cons (h : seats.drop j = s :: after) :
    seats[j]? = some s ∧ seats.drop (j + 1) = after := by
  refine ⟨?_, ?_⟩
  · rw [← List.head?_drop, h]
    rfl
  · rw [← List.tail_drop, h]
    rfl

namespace Tapped

/-- Another line gets its tap. -/
theorem addTap (h : e.Tapped hopBound graph seats taps d treated pairs) :
    e.Tapped hopBound graph seats (taps + 1) (e.addTap d) treated pairs := by
  have hstep := e.step_addTap d
  refine ⟨?_, ?_, h.treats.congr ?_ hstep.graph hstep.skipped, ?_⟩
  all_goals rw [hstep.topology]
  · exact h.layer.append_tapMade
  · rw [hstep.labels]
    exact h.labelled.append_node rfl rfl
  · exact List.append_nil _
  · rw [Topology.nodeMrids_append]
    exact h.nodes.trans (List.prefix_append _ _)

/-- The new tap comes after the others. -/
theorem getElem?_addTap (h : e.Tapped hopBound graph seats taps d treated pairs) :
    (e.addTap d).topology.nodeMrids[e.members.length + taps]? = some (d.ids.peek 0) := by
  rw [topology_addTap, Topology.nodeMrids_append]
  exact getElem?_append_of_length (j := 0) h.layer.length_nodeMrids.symm rfl

/-- A pair that is connected can be left alone. -/
theorem skip (h : e.Tapped hopBound graph seats taps d treated pairs)
    (hbefore : ∀ p ∈ treated, Prod.lexLt p (i, j))
    (hconnected : e.AreConnected hopBound d.graph (i, j)) :
    e.Tapped hopBound graph seats taps d.skip (treated ++ [(i, j)]) pairs :=
  ⟨h.layer, h.labelled, h.treats.leave hbefore hconnected, h.nodes⟩

/-- A pair that is not connected can get its switch. -/
theorem addWire (line : Seat) (h : e.Tapped hopBound graph seats taps d treated pairs)
    (hbefore : ∀ p ∈ treated, Prod.lexLt p (i, j))
    (hconnected : ¬ e.AreConnected hopBound d.graph (i, j)) (hs : seats[j]? = some s)
    (htap : d.topology.nodeMrids[e.members.length + i]? = some tap) :
    e.Tapped hopBound graph seats taps (e.addWire line tap d s) (treated ++ [(i, j)])
      (pairs ++ [(i, j)]) := by
  have hstep := e.step_addWire line tap d s
  have hnode : d.topology.nodeMrids[j]? = some s.node := by
    obtain ⟨rest, hrest⟩ := h.nodes
    rw [← hrest]
    refine getElem?_append_of_eq_some ?_ rest
    rw [List.getElem?_map, hs]
    rfl
  refine ⟨?_, ?_, h.treats.make hbefore hconnected hstep rfl, ?_⟩
  all_goals rw [hstep.topology]
  · exact h.layer.append_wireMade htap hnode
  · rw [hstep.labels]
    exact h.labelled.append_switch rfl rfl
  · rw [Topology.nodeMrids_append]
    exact h.nodes.trans (List.prefix_append _ _)

/-- A switch does not move the nodes. -/
theorem getElem?_addWire {k : Nat} {node : Mrid} (h : d.topology.nodeMrids[k]? = some node) :
    (e.addWire line tap d s).topology.nodeMrids[k]? = some node := by
  rw [topology_addWire, Topology.nodeMrids_append]
  exact getElem?_append_of_eq_some h _

/-- The tap of a line is switched to what comes after a place. -/
theorem foldl_switchUnlessConnected (hseats : seats.map (·.equipment) = e.members)
    (hline : seats[i]? = some line) (hlt : i < j) (hafter : seats.drop j = after)
    (htap : d.topology.nodeMrids[e.members.length + i]? = some tap)
    (hpairwise :
      (treated ++ (List.range' j after.length).map (Prod.mk i)).Pairwise Prod.lexLt)
    (h : e.Tapped hopBound graph seats taps d treated pairs) :
    ∃ made, e.Tapped hopBound graph seats taps
      (after.foldl (e.switchUnlessConnected hopBound line.equipment tap) d)
      (treated ++ (List.range' j after.length).map (Prod.mk i)) made := by
  induction after generalizing j d treated pairs with
  | nil => exact ⟨pairs, by simpa using h⟩
  | cons s after ih =>
    obtain ⟨hs, hrest⟩ := of_drop_eq_cons hafter
    have hiff : e.AreConnected hopBound d.graph (i, j) ↔
        d.graph.isConnected line.equipment s.equipment hopBound = true :=
      areConnected_iff hseats hline hs (Nat.ne_of_lt hlt)
    rw [List.length_cons, List.range'_succ, List.map_cons] at hpairwise ⊢
    have hbefore := Draft.before_of_pairwise hpairwise
    rw [List.append_cons] at hpairwise ⊢
    rw [List.foldl_cons, switchUnlessConnected]
    by_cases hconnected : d.graph.isConnected line.equipment s.equipment hopBound = true
    · rw [if_pos hconnected]
      exact ih (Nat.lt_succ_of_lt hlt) hrest htap hpairwise
        (h.skip hbefore (hiff.2 hconnected))
    · rw [if_neg hconnected]
      exact ih (Nat.lt_succ_of_lt hlt) hrest (getElem?_addWire htap) hpairwise
        (h.addWire line hbefore (fun hin => hconnected (hiff.1 hin)) hs htap)

/-- **The next line can be tapped.** -/
theorem tapLine (hseats : seats.map (·.equipment) = e.members)
    (hafter : seats.drop i = line :: after)
    (h : e.Tapped hopBound graph seats i d (tapPlaces i seats.length) pairs) :
    ∃ made, e.Tapped hopBound graph seats (i + 1) (e.tapLine hopBound line after d)
      (tapPlaces (i + 1) seats.length) made := by
  obtain ⟨hline, hrest⟩ := of_drop_eq_cons hafter
  have hlength : seats.length - i = after.length + 1 := by
    rw [← List.length_drop, hafter, List.length_cons]
  have hplaces : tapPlaces (i + 1) seats.length = tapPlaces i seats.length ++
      (i, i) :: (List.range' (i + 1) after.length).map (Prod.mk i) := by
    rw [tapPlaces_succ, hlength, List.range'_succ, List.map_cons]
  have hpairwise := pairwise_tapPlaces (i + 1) seats.length
  rw [hplaces] at hpairwise ⊢
  have hbefore := Draft.before_of_pairwise hpairwise
  rw [List.append_cons] at hpairwise ⊢
  -- a line is always switched to itself
  have hown := h.addTap.addWire line hbefore (fun hin => hin.1 rfl) hline
    h.getElem?_addTap
  exact hown.foldl_switchUnlessConnected hseats hline (Nat.lt_succ_self i) hrest
    (getElem?_addWire h.getElem?_addTap) hpairwise

/-- **So can the lines that follow a place.** -/
theorem tapLines (hseats : seats.map (·.equipment) = e.members) (hle : i + n ≤ seats.length)
    (h : e.Tapped hopBound graph seats i d (tapPlaces i seats.length) pairs) :
    ∃ made, e.Tapped hopBound graph seats (i + n) (e.tapLines hopBound n (seats.drop i) d)
      (tapPlaces (i + n) seats.length) made := by
  induction n generalizing i d pairs with
  | zero => exact ⟨pairs, h⟩
  | succ n ih =>
    have hdrop := List.drop_eq_getElem_cons (i := i) (l := seats) (by omega)
    obtain ⟨made, hmade⟩ := h.tapLine hseats hdrop
    have hshift : i + (n + 1) = i + 1 + n := by omega
    rw [hdrop, hshift]
    exact ih (by omega) hmade

end Tapped

end Seats

/-! ## Runs -/

/-- What a seat does not change is as it was before the seats. -/
theorem topology_seated_keeps {β : Type} (read : Topology → β)
    (h : ∀ isLine d m, read (e.seat isLine d m).topology = read d.topology) :
    read (e.seated graph ids).topology = read (e.emptyDraft graph ids).topology := by
  show read (e.otherMrids.foldl (e.seat false)
    (e.lineMrids.foldl (e.seat true) (e.emptyDraft graph ids))).topology = _
  rw [Draft.foldl_keeps (fun d => read d.topology) (h false),
    Draft.foldl_keeps (fun d => read d.topology) (h true)]

/-- The seats of a run are labelled in order. -/
theorem isLabelled_seated :
    (e.seated graph ids).topology.IsLabelled e (e.seated graph ids).labels := by
  have hseat (isLine : Bool) (d : Draft) (hd : d.topology.IsLabelled e d.labels) (m : Mrid) :
      (e.seat isLine d m).topology.IsLabelled e (e.seat isLine d m).labels := by
    have hstep := e.step_seat isLine d m
    rw [hstep.topology, hstep.labels]
    exact hd.append_node rfl rfl
  have hstart : (e.emptyDraft graph ids).topology.IsLabelled e 0 := ⟨[], [], .nil, .nil, .nil⟩
  have hlines := List.foldlRecOn e.lineMrids (e.seat true)
    (motive := fun d => d.topology.IsLabelled e d.labels) hstart fun d hd m _ => hseat true d hd m
  exact List.foldlRecOn e.otherMrids (e.seat false)
    (motive := fun d => d.topology.IsLabelled e d.labels) hlines fun d hd m _ => hseat false d hd m

/-- Before the first line is tapped every piece of equipment has its seat. -/
theorem tapped_seated (e : VoltageLevelEquipment) (hopBound : Nat) (graph : Graph)
    (ids : MridSource) :
    e.Tapped hopBound graph (e.seatsOf ids) 0 (e.seated graph ids) [] [] := by
  have hterminals : (e.seated graph ids).topology.terminals.map (·.seat) = e.seatsOf ids := by
    rw [seated, topology_seatAll]
    exact e.terminals_seatsOf graph ids
  have hlength := congrArg List.length hterminals
  rw [List.length_map, length_seatsOf] at hlength
  have hnodes := e.nodes_seated graph ids
  refine ⟨⟨?_, ?_, hlength, ?_, ?_, fun k m hm => ?_, by simp⟩, isLabelled_seated,
    .start hlength (e.graph_seatAll _) (e.skipped_seated graph ids), ?_⟩
  · rw [← List.length_map, hnodes, List.length_map, length_seatsOf, Nat.add_zero]
  · rw [topology_seated_keeps (·.switches) fun _ _ _ => rfl]
    rfl
  · exact topology_seated_keeps (·.powerTransformers) fun _ _ _ => rfl
  · exact topology_seated_keeps (·.powerTransformerEnds) fun _ _ _ => rfl
  · obtain ⟨node, hs⟩ := getElem?_seatsOf ids hm
    have hterminal := hs
    rw [← hterminals, List.getElem?_map] at hterminal
    obtain ⟨x, hx, heq⟩ := Option.map_eq_some_iff.1 hterminal
    obtain ⟨rfl, rfl⟩ := Seat.mk.inj heq
    refine ⟨x.connectivityNodeMrid, x.sequenceNumber, ?_, ?_⟩
    · rw [Topology.nodeMrids, hnodes, List.getElem?_map, hs]
      rfl
    · rw [Topology.attachments, List.getElem?_map, hx]
      rfl
  · rw [Topology.nodeMrids, hnodes]

/-- **In the end all lines are tapped.** -/
theorem tapped_finalDraft (e : VoltageLevelEquipment) (hopBound : Nat) (graph : Graph)
    (ids : MridSource) :
    ∃ pairs, e.Tapped hopBound graph (e.seatsOf ids) e.lines.length
      (e.finalDraft hopBound graph ids) (tapPlaces e.lines.length e.members.length) pairs := by
  have hle : 0 + e.lines.length ≤ (e.seatsOf ids).length := by
    rw [length_seatsOf, length_members]
    omega
  obtain ⟨pairs, h⟩ := (e.tapped_seated hopBound graph ids).tapLines
    (e.map_equipment_seatsOf ids) hle
  rw [List.drop_zero, tapLines_seated, Nat.zero_add, length_seatsOf] at h
  exact ⟨pairs, h⟩

/-! ## What equipment is switched to -/

/-- A wire goes out from one of the taps. -/
theorem tap_mem_taps {ids : MridSource} {ts : List Tapping} {w : Wire} (hw : w ∈ wires ids ts) :
    w.tap ∈ taps ids ts := by
  obtain ⟨x, hx, hwx⟩ := List.mem_flatMap.1 hw
  rw [(of_mem_wiresFrom hwx).2.1]
  exact List.mem_map_of_mem hx

/-- **The equipment is switched to taps only.** -/
theorem switchesToTapsOnly_synthesize
    (hfresh : e.DrawsFresh graph ids (e.synthesize hopBound graph ids)) :
    (e.synthesize hopBound graph ids).model.topology.SwitchesToTapsOnly e.members.length
      e.lines.length := by
  have hmrids := e.nodes_synthesize hopBound graph ids
  have hlength : ((e.seatsOf ids).map (·.node)).length = e.members.length := by
    rw [List.length_map, length_seatsOf]
  intro k node hk hnode switch hswitch number hattaches
  obtain ⟨w, hw, heq⟩ := exists_wire_of_mem_switches hswitch
  obtain ⟨i, hi⟩ := List.mem_iff_getElem?.1 (tap_mem_taps hw)
  have hseat : node ∈ (e.seatsOf ids).map (·.node) := by
    rw [Topology.nodeMrids, hmrids, List.getElem?_append_left (by omega)] at hnode
    exact List.mem_of_getElem? hnode
  -- the nodes of the equipment are no taps
  have hne : node ≠ w.tap := by
    have hnodup := hfresh.nodup_parts
    rw [map_fst_parts_run] at hnodup
    rintro rfl
    exact List.disjoint_of_nodup_append hnodup hseat
      ((taps_sublist_tapParts _ _).subset (tap_mem_taps hw))
  have hends {other : Mrid} {number : Int32} :
      (e.synthesize hopBound graph ids).model.topology.Attaches w.switch other number ↔
        other = w.tap ∧ number = 1 ∨ other = w.target.node ∧ number = 2 :=
    attaches_switch_iff hfresh hw
  rw [heq] at hends
  obtain ⟨rfl, -⟩ := (hends.1 hattaches).resolve_left fun h => hne h.1
  refine ⟨i, ?_, w.tap, ?_, fun other number hother => ?_⟩
  · have hlt := (List.getElem?_eq_some_iff.1 hi).1
    rwa [length_taps, length_tappingsOf] at hlt
  · rw [Topology.nodeMrids, hmrids]
    exact getElem?_append_of_length (by rw [hlength]) hi
  · exact (hends.1 hother).symm.imp And.left And.left

/-! ## The main statement -/

/-- **The layout of a voltage level model.**  For every graph and every hop bound, the pairs that a
run switches are those of a line and itself, and those of a line and something after it that are not
connected in the graph with the terminals that came first: those of the equipment and of the
switches made earlier.  Numbered in lexicographic order, the `k`-th of them has the `k`-th switch
and the terminals at the places of `k`.  Every pair is either switched or counted as connected, each
terminal has its marker, and the nodes and switches have the running labels.  If the identities that
the run took are new, those of the records are different, and the equipment is switched to taps
only. -/
theorem voltageLevel_layout (e : VoltageLevelEquipment) (graph : Graph) (hopBound : Nat)
    (ids : MridSource) {run : Synthesis} (hrun : e.synthesize hopBound graph ids = run) :
    ∃ pairs : List (Nat × Nat), pairs.Pairwise Prod.lexLt ∧
      (∀ i j, (i, j) ∈ pairs ↔ i < e.lines.length ∧ i ≤ j ∧ j < e.members.length ∧
        ¬ e.AreConnected hopBound (graph.addAll (run.model.topology.terminals.take
          (e.members.length + 2 * pairs.countP fun p => Prod.lexLt p (i, j)))) (i, j)) ∧
      run.model.topology.IsLayer e.members e.lines.length pairs ∧
      run.model.topology.terminals.map (·.busNameMarkerMrid) =
        run.model.topology.busNameMarkers.map (·.mrid) ∧
      run.model.topology.switches.length + run.model.alreadyConnected =
        e.lines.length * (e.lines.length + 1) / 2 +
          e.lines.length * (e.members.length - e.lines.length) ∧
      run.model.topology.IsLabelled e
        (e.members.length + e.lines.length + run.model.topology.switches.length) ∧
      (e.DrawsFresh graph ids run → run.model.topology.mrids.Nodup ∧
        run.model.topology.SwitchesToTapsOnly e.members.length e.lines.length) := by
  subst hrun
  obtain ⟨pairs, h⟩ := e.tapped_finalDraft hopBound graph ids
  have htopology : (e.synthesize hopBound graph ids).model.topology =
      (e.finalDraft hopBound graph ids).topology := by
    rw [synthesize_eq]
    rfl
  have hlayer := h.layer
  have hlabelled := h.labelled
  rw [← htopology] at hlayer hlabelled
  refine ⟨pairs, h.treats.pairwise_made, fun i j => ?_, hlayer,
    (e.refersBack_synthesize hopBound graph ids).map_marker, ?_, ?_, fun hfresh => ⟨?_, ?_⟩⟩
  · rw [h.treats.mem_iff, mem_tapPlaces_iff, htopology, and_assoc, and_assoc]
  · have hothers : e.members.length - e.lines.length = e.generators.length + e.loads.length := by
      rw [length_members]
      omega
    have hcount := e.length_lines_add_linePairs
    have hle : targetCount (e.tappingsOf hopBound graph ids) ≤ e.linePairs.length := by
      rw [e.linePairs_eq ids, List.length_map]
      exact e.targetCount_tappings_le _ _ _ _
    rw [hothers, length_switches_synthesize, alreadyConnected_synthesize]
    omega
  · rwa [← hlayer.length_nodes, ← hlabelled.length_eq]
  · exact (Synthesis.RunsOver.voltageLevel e).mrids_perm.nodup_iff.2 hfresh.nodup
  · exact switchesToTapsOnly_synthesize hfresh

/-- The first line is connected to the generator already, so there are four switches: of each line
to itself, of the first line to the second, and of the second line to the generator. -/
theorem voltageLevel_layout_twoLines :
    ∃ run, twoLinesOneGenerator.synthesize 5 (.ofTerminals lineToGenerator) .sequential = run ∧
      (∃ pairs : List (Nat × Nat), pairs.length = 4 ∧
        run.model.topology.IsLayer twoLinesOneGenerator.members 2 pairs) ∧
      run.model.topology.switches.length + run.model.alreadyConnected = 5 ∧
      run.model.topology.IsLabelled twoLinesOneGenerator 9 ∧
      run.model.topology.mrids.Nodup ∧ run.model.topology.SwitchesToTapsOnly 3 2 := by
  obtain ⟨pairs, -, -, hlayer, -, hcount, hlabelled, hfresh⟩ :=
    voltageLevel_layout twoLinesOneGenerator (.ofTerminals lineToGenerator) 5 .sequential rfl
  have hswitches : (twoLinesOneGenerator.synthesize 5 (.ofTerminals lineToGenerator)
      .sequential).model.topology.switches.length = 4 := by decide +kernel
  obtain ⟨hnodup, htaps⟩ := hfresh ⟨by decide +kernel, by decide +kernel⟩
  refine ⟨_, rfl, ⟨pairs, ?_, hlayer⟩, hcount, ?_, hnodup, htaps⟩
  · rw [← hlayer.length_switches, hswitches]
  · rwa [hswitches] at hlabelled

end VoltageLevelEquipment

end Switchyard
