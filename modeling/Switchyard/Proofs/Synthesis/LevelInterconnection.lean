import Switchyard.Proofs.Synthesis.LevelRun

/-!
# A voltage level ends up interconnected

A run leaves a pair of a line and a piece of equipment after it alone if the two are within the hop
bound, and else joins them over the tap of the line, by six terminals.  What comes later in the run
only adds terminals, so in the end the two are within the bound, or six terminals apart if that is
more.  This takes nothing for granted about the identities.

The main statement is `level_interconnected`.
-/

set_option autoImplicit false

namespace Switchyard.VoltageLevelEquipment

open Switchyard.Graph

variable {e : VoltageLevelEquipment} {hopBound : Nat} {d : Draft} {line t : Seat} {tap a b : Mrid}
  {after : List Seat}

/-- Every line is within `n` terminals of every line, generator and load. -/
def InterconnectedWithin (e : VoltageLevelEquipment) (graph : Graph) (n : Nat) : Prop :=
  ∀ a ∈ e.lineMrids, ∀ b ∈ e.members, ∃ d ≤ n, graph.distance a b = some d

/-! ## A wire -/

variable (e line) in
/-- A wire joins a tap to the equipment of a seat by three terminals. -/
theorem walk_addWire (ht : Joined d.graph.terminals t.node t.equipment) :
    Walk (e.addWire line tap d t).graph.terminals 3 tap t.equipment := by
  have hmade {a b : Mrid} (h : Joined (e.wireMade tap d t).terminals a b) :
      Joined (e.addWire line tap d t).graph.terminals a b := by
    rw [graph_terminals_addWire]
    exact h.mono fun _ ht => List.mem_append_right _ ht
  have htap : Joined (e.wireMade tap d t).terminals tap (d.ids.peek 0) :=
    ⟨_, List.mem_cons_self, .inl ⟨rfl, rfl⟩⟩
  have hnode : Joined (e.wireMade tap d t).terminals (d.ids.peek 0) t.node :=
    ⟨_, List.mem_cons_of_mem _ List.mem_cons_self, .inr ⟨rfl, rfl⟩⟩
  have hseat := (e.grows_addWire line d tap t).joined ht
  exact .cons (hmade htap) (.cons (hmade hnode) (.single hseat))

/-- A wire connects the line of the tap to the equipment of the seat. -/
theorem isConnected_addWire (hg : d.graph.InStep)
    (hline : Walk d.graph.terminals 3 tap line.equipment)
    (ht : Joined d.graph.terminals t.node t.equipment) :
    (e.addWire line tap d t).graph.isConnected line.equipment t.equipment 7 = true := by
  have hgrows := e.grows_addWire line d tap t
  have hwalk := (hgrows.walk hline).reverse.append (walk_addWire e line ht)
  exact (hgrows.inStep hg).isConnected_iff_walk.2
    ⟨hwalk.occurs_left, hwalk.reverse.occurs_left, 6, by decide, hwalk⟩

/-! ## A line -/

/-- A seat that was considered is connected to the line. -/
theorem isConnected_switchUnlessConnected (hg : d.graph.InStep)
    (hline : Walk d.graph.terminals 3 tap line.equipment)
    (ht : Joined d.graph.terminals t.node t.equipment) :
    (e.switchUnlessConnected hopBound line.equipment tap d t).graph.isConnected line.equipment
      t.equipment (max 7 hopBound) = true := by
  rw [switchUnlessConnected]
  by_cases h : d.graph.isConnected line.equipment t.equipment hopBound = true
  · rw [if_pos h]
    exact isConnected_weaken h (Nat.le_max_right _ _)
  · rw [if_neg h]
    exact isConnected_weaken (isConnected_addWire hg hline ht) (Nat.le_max_left _ _)

variable (e hopBound line tap) in
theorem grows_switchUnlessConnected (d : Draft) (t : Seat) :
    d.graph.Grows (e.switchUnlessConnected hopBound line.equipment tap d t).graph := by
  rw [switchUnlessConnected_eq_treat]
  exact Draft.grows_treat _ (fun d => e.grows_addWire line d tap) d t

theorem isConnected_foldl_switchUnlessConnected (hg : d.graph.InStep)
    (hline : Walk d.graph.terminals 3 tap line.equipment)
    (hafter : ∀ s ∈ after, Joined d.graph.terminals s.node s.equipment) (ht : t ∈ after) :
    (after.foldl (e.switchUnlessConnected hopBound line.equipment tap) d).graph.isConnected
      line.equipment t.equipment (max 7 hopBound) = true := by
  induction after generalizing d with
  | nil => exact absurd ht (by simp)
  | cons s after ih =>
    have hgrows := e.grows_switchUnlessConnected hopBound line tap d s
    rw [List.foldl_cons]
    rcases List.mem_cons.1 ht with rfl | ht
    · -- later seats only add terminals
      have hrest := Draft.grows_foldl (e.grows_switchUnlessConnected hopBound line tap)
        (e.switchUnlessConnected hopBound line.equipment tap d t) after
      exact hrest.isConnected (hgrows.inStep hg)
        (isConnected_switchUnlessConnected hg hline (hafter t List.mem_cons_self))
    · exact ih (hgrows.inStep hg) (hgrows.walk hline)
        (fun r hr => hgrows.joined (hafter r (List.mem_cons_of_mem s hr))) ht

/-- **Once a line has its tap, it is connected to every seat after it.** -/
theorem isConnected_tapLine (hg : d.graph.InStep)
    (hseats : ∀ s ∈ line :: after, Joined d.graph.terminals s.node s.equipment) (ht : t ∈ after) :
    (e.tapLine hopBound line after d).graph.isConnected line.equipment t.equipment
      (max 7 hopBound) = true := by
  have hgrows := e.grows_addWire line (e.addTap d) (d.ids.peek 0) line
  exact isConnected_foldl_switchUnlessConnected (hgrows.inStep hg)
    (walk_addWire (d := e.addTap d) e line (hseats line List.mem_cons_self))
    (fun s hs => hgrows.joined (hseats s (List.mem_cons_of_mem line hs))) ht

/-! ## All lines -/

theorem isConnected_tapLines {n : Nat} {seats : List Seat} (hg : d.graph.InStep)
    (hseats : ∀ s ∈ seats, Joined d.graph.terminals s.node s.equipment)
    (h : (line, t) ∈ pairsAfter n seats) :
    (e.tapLines hopBound n seats d).graph.isConnected line.equipment t.equipment
      (max 7 hopBound) = true := by
  induction seats generalizing n d with
  | nil => cases n <;> exact absurd h (by simp [pairsAfter])
  | cons s after ih =>
    cases n with
    | zero => exact absurd h (by simp [pairsAfter])
    | succ n =>
      have hgrows := e.grows_tapLine hopBound s after d
      rw [pairsAfter_succ_cons] at h
      rw [tapLines]
      rcases List.mem_append.1 h with h | h
      · -- later lines only add terminals
        obtain ⟨r, hr, heq⟩ := List.mem_map.1 h
        obtain ⟨rfl, rfl⟩ := Prod.mk.inj heq
        exact (e.grows_tapLines hopBound n after _).isConnected (hgrows.inStep hg)
          (isConnected_tapLine hg hseats hr)
      · exact ih (hgrows.inStep hg)
          (fun r hr => hgrows.joined (hseats r (List.mem_cons_of_mem s hr))) h

/-! ## A run -/

variable {graph : Graph} {ids : MridSource}

/-- Every piece of equipment is joined to its node before the first line gets its tap. -/
theorem joined_seated : ∀ s ∈ e.seatsOf ids,
    Joined (e.seated graph ids).graph.terminals s.node s.equipment := by
  intro s hs
  rw [← e.terminals_seatsOf graph ids] at hs
  obtain ⟨t, ht, rfl⟩ := List.mem_map.1 hs
  refine ⟨t, ?_, .inl ⟨rfl, rfl⟩⟩
  rw [terminals_seated]
  exact List.mem_append_right _ ht

theorem occurs_synthesize (ha : a ∈ e.members) :
    Occurs (e.synthesize hopBound graph ids).graph.terminals a := by
  rw [← e.map_equipment_seatsOf ids] at ha
  obtain ⟨s, hs, rfl⟩ := List.mem_map.1 ha
  rw [graph_synthesize]
  exact (e.grows_tapLines _ _ _ _).occurs ⟨_, (joined_seated s hs).symm⟩

/-- A run connects every line to all equipment after it. -/
theorem isConnected_synthesize (hg : graph.InStep) (h : (a, b) ∈ e.linePairs) :
    (e.synthesize hopBound graph ids).graph.isConnected a b (max 7 hopBound) = true := by
  rw [e.linePairs_eq ids] at h
  obtain ⟨⟨s, t⟩, hmem, heq⟩ := List.mem_map.1 h
  obtain ⟨rfl, rfl⟩ := Prod.mk.inj heq
  rw [graph_synthesize]
  exact isConnected_tapLines ((e.grows_seated graph ids).inStep hg) joined_seated hmem

variable (hopBound ids) in
/-- A run connects every line to all equipment. -/
theorem isConnected_of_line (hg : graph.InStep) (ha : a ∈ e.lineMrids) (hb : b ∈ e.members) :
    (e.synthesize hopBound graph ids).graph.isConnected a b (max 7 hopBound) = true := by
  have hg' := (e.grows_synthesize hopBound graph ids).inStep hg
  obtain ⟨i, hi⟩ := List.mem_iff_getElem?.1 ha
  obtain ⟨j, hj⟩ := List.mem_iff_getElem?.1 hb
  have hlt := lt_length_lines hi
  have hmember := getElem?_members_of_line hi
  rcases Nat.lt_trichotomy i j with hij | rfl | hij
  · exact isConnected_synthesize hg (mem_pairsAfter_iff.2 ⟨i, j, hlt, hij, hmember, hj⟩)
  · obtain rfl := Option.some.inj (hmember.symm.trans hj)
    exact hg'.isConnected_self (occurs_synthesize hb) (by omega)
  · -- then the other one is a line too
    rw [hg'.isConnected_comm]
    exact isConnected_synthesize hg (mem_pairsAfter_iff.2 ⟨j, i, by omega, hij, hj, hmember⟩)

/-- **After a run every line is within the hop bound of every line, generator and load, or at most
six terminals apart.**  So if there is a line, all of them are in one component of the graph. -/
theorem level_interconnected (e : VoltageLevelEquipment) (ts : List Terminal) (hopBound : Nat)
    (ids : MridSource) :
    e.InterconnectedWithin (e.synthesize hopBound (.ofTerminals ts) ids).graph
        (max 6 (hopBound - 1)) ∧
      (e.lines ≠ [] → ∀ a ∈ e.members, ∀ b ∈ e.members,
        ∃ d, (e.synthesize hopBound (.ofTerminals ts) ids).graph.distance a b = some d) := by
  have hg := inStep_ofTerminals ts
  have hg' := (e.grows_synthesize hopBound _ ids).inStep hg
  refine ⟨?_, ?_⟩
  · intro a ha b hb
    obtain ⟨d, hd, hlt⟩ := isConnected_iff.1 (isConnected_of_line hopBound ids hg ha hb)
    exact ⟨d, by omega, hd⟩
  · intro hlines a ha b hb
    -- over any line
    obtain ⟨l, hl⟩ := List.exists_mem_of_ne_nil _ hlines
    have hline {c : Mrid} (hc : c ∈ e.members) :=
      isConnected_of_line hopBound ids hg (List.mem_map_of_mem hl) hc
    have hal := hg'.isConnected_comm _ _ _ ▸ hline ha
    obtain ⟨d, hd, -⟩ := isConnected_iff.1 (hg'.isConnected_trans hal (hline hb))
    exact ⟨d, hd⟩

/-- A run over two lines and a generator under the default bound. -/
theorem level_interconnected_twoLines :
    twoLinesOneGenerator.lines ≠ [] ∧
      (∃ d ≤ 6, (twoLinesOneGenerator.synthesize defaultHopBound (.ofTerminals [])
        .sequential).graph.distance (.ofNat 101) (.ofNat 103) = some d) ∧
      ∃ d, (twoLinesOneGenerator.synthesize defaultHopBound (.ofTerminals [])
        .sequential).graph.distance (.ofNat 103) (.ofNat 102) = some d := by
  obtain ⟨hwithin, hall⟩ := level_interconnected twoLinesOneGenerator [] defaultHopBound .sequential
  have hlines : twoLinesOneGenerator.lines ≠ [] := by decide
  exact ⟨hlines, hwithin _ (by decide) _ (by decide), hall hlines _ (by decide) _ (by decide)⟩

end Switchyard.VoltageLevelEquipment
