import Switchyard.Proofs.Load.AfterWrite
import Switchyard.Proofs.Load.Equipment
import Switchyard.Proofs.Store.Written
import Switchyard.Proofs.Synthesis.LocalGraph
import Switchyard.Proofs.Synthesis.Reloaded
import Switchyard.Proofs.Synthesis.Switching

/-!
# The numbering after a run over a voltage level

A run gives every piece of equipment of a voltage level one more terminal.  That of a line takes the
number that the other end of the line leaves free, and a line with two terminals is not even loaded,
so lines stay numbered exactly.  The terminal of a generator or a load always takes the number one.
This is right for the first terminal, and wrong for every later one.

So once the run is written, the equipment that is numbered wrong is that of which this could be
foretold: the generators and loads of the level that owned a terminal before
(`misnumbered_after_level`).
-/

set_option autoImplicit false

namespace Switchyard

open Switchyard.Graph Switchyard.Numbering

/-! ## The numbers that a run gives -/

namespace VoltageLevelEquipment

variable (e : VoltageLevelEquipment)

/-- What a terminal says about the numbering: its owner and its number. -/
def numberPair (t : Terminal) : Mrid × Int32 := (t.conductingEquipmentMrid, t.sequenceNumber)

theorem map_numberPair_seatsMade (isLine : Bool) (d : Draft) (ms : List Mrid) :
    (e.seatsMade isLine d ms).terminals.map numberPair =
      ms.map fun m => (m, e.terminalNumber d.graph isLine m) := by
  induction ms generalizing d with
  | nil => rfl
  | cons m ms ih => exact congrArg (List.cons _) (ih (e.seat isLine d m))

theorem map_numberPair_linesMade (d : Draft) (ts : List Tapping) :
    (e.linesMade d ts).terminals.map numberPair =
      ((wires d.ids ts).map (·.switch)).flatMap fun switch => [(switch, 1), (switch, 2)] := by
  have hattachments := e.attachments_linesMade d ts
  have hpair : (e.linesMade d ts).terminals.map numberPair =
      (e.linesMade d ts).attachments.map fun x => (x.1, x.2.2) := by
    rw [Topology.attachments, List.map_map]
    rfl
  rw [hpair, hattachments, List.map_flatMap, List.flatMap_map]
  rfl

variable (hopBound : Nat) (graph : Graph) (ids : MridSource)

/-- The numbers that a run gives to the terminals of a piece of equipment that it creates. -/
def newNumbers (m : Mrid) : List Int32 :=
  if m ∈ e.lineMrids then [e.terminalNumber graph true m]
  else if m ∈ e.otherMrids then [e.terminalNumber graph false m]
  else [1, 2]

variable {e hopBound graph ids}

/-- No piece of equipment is a switch of the run. -/
theorem not_member_of_mem_switches
    (hfresh : e.DrawsFresh graph ids (e.synthesize hopBound graph ids)) {s : Switch}
    (hs : s ∈ (e.synthesize hopBound graph ids).model.topology.switches) :
    s.mrid ∉ e.members := by
  obtain ⟨w, hw, hswitch⟩ := exists_wire_of_mem_switches hs
  exact hswitch ▸ not_member_of_mem_wires hfresh hw

/-- **Each switch of a run has the numbers one and two**, whatever the equipment is. -/
theorem numbersOf_switch (hfresh : e.DrawsFresh graph ids (e.synthesize hopBound graph ids))
    {s : Switch} (hs : s ∈ (e.synthesize hopBound graph ids).model.topology.switches) :
    numbersOf s.mrid (e.synthesize hopBound graph ids).model.topology.terminals = [1, 2] := by
  have hseats : numbersOf s.mrid (e.allSeatsMade (e.emptyDraft graph ids)).terminals = [] := by
    refine numbersOf_eq_nil_iff.2 fun t ht heq => not_member_of_mem_switches hfresh hs ?_
    rw [← e.map_equipment_seatsOf ids, ← e.terminals_seatsOf graph ids, ← heq, List.map_map]
    exact List.mem_map_of_mem (f := Seat.equipment ∘ Terminal.seat) ht
  have hswitch : s.mrid ∈
      (e.synthesize hopBound graph ids).model.topology.switches.map (·.mrid) :=
    List.mem_map_of_mem hs
  rw [switches_synthesize, ← e.ids_seated graph ids] at hswitch
  have hnodup : ((wires (e.seated graph ids).ids (e.tappingsOf hopBound graph ids)).map
      (·.switch)).Nodup := by
    rw [ids_seated]
    exact (nodup_tapParts hfresh).sublist (switches_sublist_tapParts _ _)
  rw [terminals_synthesize_eq, numbersOf_append, hseats, List.nil_append]
  exact numbersOf_of_pairs hnodup (e.map_numberPair_linesMade _ _) hswitch

/-- The terminals of a run go through the equipment and then through the switches. -/
theorem map_numberPair_synthesize (hnodup : e.members.Nodup)
    (hswitches : ∀ s ∈ (e.synthesize hopBound graph ids).model.topology.switches,
      s.mrid ∉ e.members) :
    (e.synthesize hopBound graph ids).model.topology.terminals.map numberPair =
      (e.members ++
        (e.synthesize hopBound graph ids).model.topology.switches.map (·.mrid)).flatMap
          fun m => (e.newNumbers graph m).map (m, ·) := by
  have hlines : e.lineMrids.flatMap (fun m => (e.newNumbers graph m).map (m, ·)) =
      e.lineMrids.map fun m => (m, e.terminalNumber graph true m) := by
    rw [List.map_eq_flatMap]
    refine List.flatMap_congr fun m hm => ?_
    rw [newNumbers, if_pos hm]
    rfl
  have hothers : e.otherMrids.flatMap (fun m => (e.newNumbers graph m).map (m, ·)) =
      e.otherMrids.map fun m => (m, e.terminalNumber graph false m) := by
    rw [List.map_eq_flatMap]
    refine List.flatMap_congr fun m hm => ?_
    have hnot : m ∉ e.lineMrids := fun hline => List.disjoint_of_nodup_append hnodup hline hm
    rw [newNumbers, if_neg hnot, if_pos hm]
    rfl
  have hwires : ((e.synthesize hopBound graph ids).model.topology.switches.map (·.mrid)).flatMap
      (fun m => (e.newNumbers graph m).map (m, ·)) =
        ((wires (e.seated graph ids).ids (e.tappingsOf hopBound graph ids)).map
          (·.switch)).flatMap fun switch => [(switch, 1), (switch, 2)] := by
    rw [ids_seated, ← switches_synthesize]
    refine List.flatMap_congr fun m hm => ?_
    obtain ⟨s, hs, rfl⟩ := List.mem_map.1 hm
    have hnot := hswitches s hs
    rw [members, List.mem_append, not_or] at hnot
    rw [newNumbers, if_neg hnot.1, if_neg hnot.2]
    rfl
  rw [terminals_synthesize_eq, List.map_append, map_numberPair_linesMade, List.flatMap_append,
    hwires, members, List.flatMap_append, hlines, hothers]
  congr 1
  show ((e.seatsMade true _ _).terminals ++ (e.seatsMade false _ _).terminals).map numberPair = _
  rw [List.map_append, map_numberPair_seatsMade, map_numberPair_seatsMade, graph_foldl_seat]
  rfl

section Fresh

variable (hnodup : e.members.Nodup)
  (hfresh : e.DrawsFresh graph ids (e.synthesize hopBound graph ids))

include hnodup hfresh

/-- **A run gives one number to each piece of equipment, and the numbers one and two to each of its
switches.** -/
theorem numbersOf_synthesize (m : Mrid) :
    numbersOf m (e.synthesize hopBound graph ids).model.topology.terminals =
      if m ∈ e.members ++
          (e.synthesize hopBound graph ids).model.topology.switches.map (·.mrid) then
        e.newNumbers graph m
      else [] := by
  have hswitches : ((e.synthesize hopBound graph ids).model.topology.switches.map
      (·.mrid)).Nodup := by
    rw [switches_synthesize]
    exact (nodup_tapParts hfresh).sublist (switches_sublist_tapParts _ _)
  refine numbersOf_eq_of_flatMap (List.nodup_append'.2 ⟨hnodup, hswitches, ?_⟩)
    (map_numberPair_synthesize hnodup fun s => not_member_of_mem_switches hfresh)
  intro m hm hswitch
  obtain ⟨s, hs, rfl⟩ := List.mem_map.1 hswitch
  exact not_member_of_mem_switches hfresh hs hm

theorem numbersOf_line {m : Mrid} (hm : m ∈ e.lineMrids) :
    numbersOf m (e.synthesize hopBound graph ids).model.topology.terminals =
      [e.terminalNumber graph true m] := by
  have hmember : m ∈ e.members := List.mem_append_left _ hm
  rw [numbersOf_synthesize hnodup hfresh, if_pos (List.mem_append_left _ hmember), newNumbers,
    if_pos hm]

theorem numbersOf_other {m : Mrid} (hm : m ∈ e.otherMrids) :
    numbersOf m (e.synthesize hopBound graph ids).model.topology.terminals =
      [e.terminalNumber graph false m] := by
  have hmember : m ∈ e.members := List.mem_append_right _ hm
  have hnot : m ∉ e.lineMrids := fun hline => List.disjoint_of_nodup_append hnodup hline hm
  rw [numbersOf_synthesize hnodup hfresh, if_pos (List.mem_append_left _ hmember), newNumbers,
    if_neg hnot, if_pos hm]

end Fresh

end VoltageLevelEquipment

/-! ## The equipment of a store -/

namespace Backend

variable {b : Backend} {voltageLevel : Mrid} {e : VoltageLevelEquipment} {history : List Terminal}

/-- A line takes the number of its other end if it owns a terminal, and else the number one. -/
theorem terminalNumber_line (hfetch : b.fetch Terminal .all = .ok history)
    (h : b.loadEquipment voltageLevel = .ok e) {line : Mrid} (hline : line ∈ e.lineMrids) :
    e.terminalNumber (.ofTerminals (Version.active history)) true line =
      ((numbersOf line (Version.active history)).head?.map otherEnd).getD 1 := by
  rw [VoltageLevelEquipment.terminalNumber, override?_of_load hfetch h, if_pos hline]
  cases hnumber : (numbersOf line (Version.active history)).head? with
  | some number => rfl
  | none =>
    -- then no terminal of the line is in the graph either
    have hnone : (ofTerminals (Version.active history)).terminalOf? line = none := by
      rw [head?_numbersOf, Option.map_eq_none_iff] at hnumber
      rwa [terminalOf?, terminals_ofTerminals]
    simp [hnone]

/-- Any other equipment takes the number one. -/
theorem terminalNumber_other (hfetch : b.fetch Terminal .all = .ok history)
    (h : b.loadEquipment voltageLevel = .ok e) (graph : Graph) {m : Mrid}
    (hm : m ∉ e.lineMrids) : e.terminalNumber graph false m = 1 := by
  rw [VoltageLevelEquipment.terminalNumber, override?_of_load hfetch h, if_neg hm]
  rfl

/-- A line whose terminals are numbered exactly stays so with the number that it takes. -/
theorem isExact_append_line (hfetch : b.fetch Terminal .all = .ok history)
    (h : b.loadEquipment voltageLevel = .ok e) {line : Mrid} (hline : line ∈ e.lineMrids)
    (hexact : IsExact (numbersOf line (Version.active history))) :
    IsExact (numbersOf line (Version.active history) ++
      [e.terminalNumber (.ofTerminals (Version.active history)) true line]) := by
  have hlength := length_numbersOf_le_one hfetch h hline
  rw [terminalNumber_line hfetch h hline]
  generalize numbersOf line (Version.active history) = numbers at hexact hlength
  match numbers with
  | [] => decide
  | [number] =>
    obtain rfl := hexact.eq_one
    decide
  | _ :: _ :: _ => simp at hlength

/-- What is new to a store is fresh for a run over its equipment. -/
theorem drawsFresh_of_load (hfetch : b.fetch Terminal .all = .ok history)
    (h : b.loadEquipment voltageLevel = .ok e) {ids : MridSource} {run : Synthesis}
    (hfresh : ids.Fresh (run.ids.drawn - ids.drawn) (· ∈ b.store.mentions)) :
    e.DrawsFresh (.ofTerminals (Version.active history)) ids run := by
  refine hfresh.mono fun id hin => ?_
  rcases hin with hpoint | hmember
  · rw [(inStep_ofTerminals _).contains_iff, terminals_ofTerminals] at hpoint
    exact mem_mentions_of_occurs hfetch hpoint
  · exact mem_mentions_of_mem_members h hmember

/-- The terminals of a store of records can be read if the equipment of some voltage level can. -/
theorem fetch_terminals_of_loadEquipment (htyped : b.store.IsTyped)
    (h : b.loadEquipment voltageLevel = .ok e) :
    ∃ history, b.fetch Terminal .all = .ok history := by
  obtain ⟨-, -, -, -, hnumbers⟩ := loadEquipment_eq_ok_iff.1 h
  obtain ⟨terminals, hterminals, -⟩ := exists_loadTerminals_of_loadNextNumbers hnumbers
  refine exists_fetch_all_of_isTyped htyped (by decide) ?_
  cases houtage : b.outage.query (Record.table Terminal) with
  | none => rfl
  | some error =>
    simp [loadTerminals, loadActive, fetch, query, houtage, answerUnless] at hterminals

end Backend

/-! ## The main statement -/

/-- How the equipment of a store is numbered after a run over a voltage level: exactly, but for the
generators and loads of the level that owned a terminal before. -/
structure VoltageLevelEquipment.NumbersAfter (e : VoltageLevelEquipment) (switches : List Switch)
    (before after : List Terminal) : Prop where
  not_isExact_iff (m : Mrid) : ¬ IsExact (numbersOf m after) ↔
    m ∈ e.otherMrids ∧ ∃ t ∈ before, t.conductingEquipmentMrid = m
  line : ∀ m ∈ e.lineMrids, IsExact (numbersOf m after)
  switch : ∀ s ∈ switches, (numbersOf s.mrid after).Perm [1, 2]

/-- It is enough to know which numbers the members take, and that the switches are new. -/
theorem VoltageLevelEquipment.numbersAfter_of_perm {e : VoltageLevelEquipment}
    {hopBound : Nat} {graph : Graph} {ids : MridSource} {before after : List Terminal}
    (hnodup : e.members.Nodup)
    (hfresh : e.DrawsFresh graph ids (e.synthesize hopBound graph ids))
    (hlines : ∀ m ∈ e.lineMrids,
      IsExact (numbersOf m before ++ [e.terminalNumber graph true m]))
    (hothers : ∀ m ∈ e.otherMrids, e.terminalNumber graph false m = 1)
    (hswitches : ∀ s ∈ (e.synthesize hopBound graph ids).model.topology.switches,
      numbersOf s.mrid before = [])
    (hexact : ∀ m, IsExact (numbersOf m before))
    (hafter : ∀ m, (numbersOf m after).Perm (numbersOf m before ++
      numbersOf m (e.synthesize hopBound graph ids).model.topology.terminals)) :
    e.NumbersAfter (e.synthesize hopBound graph ids).model.topology.switches before after := by
  have hline : ∀ m ∈ e.lineMrids, IsExact (numbersOf m after) := by
    intro m hm
    rw [isExact_iff_of_perm (hafter m), numbersOf_line hnodup hfresh hm]
    exact hlines m hm
  have hother : ∀ m ∈ e.otherMrids, (numbersOf m after).Perm (numbersOf m before ++ [1]) := by
    intro m hm
    have h := hafter m
    rwa [numbersOf_other hnodup hfresh hm, hothers m hm] at h
  have hswitch : ∀ s ∈ (e.synthesize hopBound graph ids).model.topology.switches,
      (numbersOf s.mrid after).Perm [1, 2] := by
    intro s hs
    have h := hafter s.mrid
    rwa [hswitches s hs, numbersOf_switch hfresh hs] at h
  refine ⟨fun m => ⟨fun hwrong => ?_, ?_⟩, hline, hswitch⟩
  · by_cases hm : m ∈ e.otherMrids
    · refine ⟨hm, ?_⟩
      by_contra hnone
      have hbefore : numbersOf m before = [] :=
        numbersOf_eq_nil_iff.2 fun t ht heq => hnone ⟨t, ht, heq⟩
      refine hwrong ((isExact_iff_of_perm (hother m hm)).2 ?_)
      rw [hbefore]
      decide
    · -- the numbers of all others are right
      refine absurd ?_ hwrong
      by_cases hnew : m ∈ e.members ++
          (e.synthesize hopBound graph ids).model.topology.switches.map (·.mrid)
      · rcases List.mem_append.1 hnew with hmember | hmem
        · exact hline m ((List.mem_append.1 hmember).resolve_right hm)
        · obtain ⟨s, hs, rfl⟩ := List.mem_map.1 hmem
          exact (isExact_iff_of_perm (hswitch s hs)).2 (by decide)
      · rw [isExact_iff_of_perm (hafter m), numbersOf_synthesize hnodup hfresh, if_neg hnew,
          List.append_nil]
        exact hexact m
  · rintro ⟨hm, t, ht, rfl⟩
    rw [isExact_iff_of_perm (hother _ hm)]
    refine (hexact _).not_isExact_append_one fun hnone => ?_
    exact numbersOf_eq_nil_iff.1 hnone t ht rfl

/-- **After the pipeline of a voltage level, exactly those of its generators and loads are numbered
wrong that already owned an active terminal**, if all equipment was numbered exactly before, no
member occurs twice and the run took identities that are pairwise different and new to the store.
Every line, every new switch and all other equipment is numbered exactly.  The store may hold
whatever seeds, writes and edits put into it: a terminal has no float, so all of them can be
read. -/
theorem misnumbered_after_level {b : Backend} (hwritten : b.store.Written) {voltageLevel : Mrid}
    {e : VoltageLevelEquipment} (hload : b.loadEquipment voltageLevel = .ok e)
    (hnodup : e.members.Nodup) (hopBound : Nat) (ids : MridSource) :
    ∃ before graph, b.loadActive Terminal .all = .ok before ∧ b.loadGraph = .ok graph ∧
      ((∀ m, IsExact (numbersOf m before)) →
        ids.Fresh ((e.synthesize hopBound graph ids).ids.drawn - ids.drawn)
          (· ∈ b.store.mentions) →
        ∀ (modelId : Int32) (note : CommitNote) (limit : Option Nat) (id : CommitId),
          (b.write modelId note limit (e.synthesize hopBound graph ids).model).result = .ok id →
          ∃ after,
            (b.write modelId note limit
              (e.synthesize hopBound graph ids).model).backend.loadActive Terminal .all =
                .ok after ∧
            e.NumbersAfter (e.synthesize hopBound graph ids).model.topology.switches before
              after) := by
  obtain ⟨history, hfetch⟩ := Backend.fetch_terminals_of_loadEquipment hwritten.isTyped hload
  have hbefore : b.loadActive Terminal .all = .ok (Version.active history) := by
    rw [Backend.loadActive, hfetch]
    rfl
  refine ⟨_, _, hbefore, Backend.loadGraph_eq hfetch, ?_⟩
  intro hexact hfresh modelId note limit id hwrite
  have hrun : Synthesis.RunsOver hopBound (.ofTerminals (Version.active history)) ids _ :=
    .voltageLevel e
  -- what the write makes visible
  obtain ⟨after, hafter, hperm⟩ := loadActive_terminals_after (persisted_of_write_model hwrite)
    hfetch ((hrun.newTo_terminals hfresh).stamp id)
  refine ⟨after, hafter, VoltageLevelEquipment.numbersAfter_of_perm hnodup
    (Backend.drawsFresh_of_load hfetch hload hfresh) ?_ ?_ ?_ hexact ?_⟩
  · intro m hm
    exact Backend.isExact_append_line hfetch hload hm (hexact m)
  · intro m hm
    exact Backend.terminalNumber_other hfetch hload _ fun hline =>
      List.disjoint_of_nodup_append hnodup hline hm
  · -- a switch of the run is new, so it owned no terminal
    intro s hs
    have hmem : s.mrid ∈ (e.synthesize hopBound (.ofTerminals (Version.active history))
        ids).model.topology.mrids := by
      simp only [Topology.mrids, Topology.gather, List.mem_append]
      exact .inl (.inl (.inl (.inr (List.mem_map_of_mem (f := Record.mrid) hs))))
    refine numbersOf_eq_nil_iff.2 fun t ht heq => ?_
    refine hfresh.not_used _ (hrun.mrids_perm.subset hmem) ?_
    rw [← heq]
    exact Backend.mem_mentions_of_occurs hfetch (.equipment ht)
  · intro m
    have hstamp (t : Topology) : numbersOf m (t.stamp id).terminals = numbersOf m t.terminals :=
      numbersOf_stamp id
    rw [← hstamp, ← numbersOf_append]
    exact perm_numbersOf hperm

/-- A terminal of number one. -/
def firstTerminal (n equipment : Nat) : Terminal :=
  { mrid := .ofNat n, conductingEquipmentMrid := .ofNat equipment, sequenceNumber := 1 }

/-- A store with a voltage level of two lines and two generators, of which the first each owns a
terminal. -/
def twoLinesTwoGenerators : Store :=
  (((({} : Store).seed [({ mrid := .ofNat 10 } : VoltageLevel)]).seed
    [({ mrid := .ofNat 101, equipmentContainerMrid := .ofNat 10 } : AcLineSegment),
      { mrid := .ofNat 102, equipmentContainerMrid := .ofNat 10 }]).seed
    [({ mrid := .ofNat 103, equipmentContainerMrid := .ofNat 10 } : SynchronousMachine),
      { mrid := .ofNat 104, equipmentContainerMrid := .ofNat 10 }]).seed
    [firstTerminal 1 101, firstTerminal 2 103]

/-- Once the level was switched, the generator that owned a terminal has two of number one.  The
line that owned one has the numbers one and two, and the generator that owned none has the number
one. -/
theorem misnumbered_after_level_twoGenerators :
    let b : Backend := { store := twoLinesTwoGenerators }
    ∃ e graph after, b.loadEquipment (.ofNat 10) = .ok e ∧ b.loadGraph = .ok graph ∧
      (b.afterWriting (e.synthesize defaultHopBound graph
        (.startingAt 1000))).backend.loadActive Terminal .all = .ok after ∧
      ¬ IsExact (numbersOf (.ofNat 103) after) ∧ IsExact (numbersOf (.ofNat 101) after) ∧
      IsExact (numbersOf (.ofNat 104) after) := by
  intro b
  have hwritten : b.store.Written := .seed _ <| .seed _ <| .seed _ <| .seed _ .fresh
  have hpipeline : ((b.loadEquipment (.ofNat 10)).toOption.bind fun e =>
      b.loadGraph.toOption.map fun graph =>
        decide e.members.Nodup &&
          decide (e.lineMrids = [.ofNat 101, .ofNat 102]) &&
          decide (e.otherMrids = [.ofNat 103, .ofNat 104]) &&
          decide ((MridSource.startingAt 1000).Fresh
            ((e.synthesize defaultHopBound graph (.startingAt 1000)).ids.drawn - 0)
            (· ∈ b.store.mentions)) &&
          decide ((b.afterWriting (e.synthesize defaultHopBound graph
            (.startingAt 1000))).result.toOption = some ⟨1⟩)) = some true := by
    decide +kernel
  obtain ⟨e, hload, hrest⟩ := Option.bind_eq_some_iff.1 hpipeline
  obtain ⟨graph, hgraph, hall⟩ := Option.map_eq_some_iff.1 hrest
  simp only [Bool.and_eq_true, decide_eq_true_eq] at hall
  obtain ⟨⟨⟨⟨hnodup, hlines⟩, hothers⟩, hfresh⟩, hwrite⟩ := hall
  obtain ⟨before, _, hbefore, hgraph', hafter⟩ := misnumbered_after_level hwritten
    (toOption_eq_some_iff.1 hload) hnodup defaultHopBound (.startingAt 1000)
  obtain rfl := Except.ok.inj ((toOption_eq_some_iff.1 hgraph).symm.trans hgraph')
  have hterminals : b.loadActive Terminal .all = .ok [firstTerminal 1 101, firstTerminal 2 103] :=
    toOption_eq_some_iff.1 (by decide +kernel)
  obtain rfl := Except.ok.inj (hterminals.symm.trans hbefore)
  obtain ⟨after, hreload, hnumbers⟩ := hafter (isExact_of_owners (by decide +kernel)) hfresh 0
    { message := "links", author := "engineer" } none _ (toOption_eq_some_iff.1 hwrite)
  refine ⟨e, graph, after, toOption_eq_some_iff.1 hload, hgraph', hreload, ?_, ?_, ?_⟩
  · rw [hnumbers.not_isExact_iff, hothers]
    decide +kernel
  · exact hnumbers.line _ (by simp [hlines])
  · by_contra hwrong
    rw [hnumbers.not_isExact_iff] at hwrong
    exact absurd hwrong.2 (by decide +kernel)

end Switchyard
