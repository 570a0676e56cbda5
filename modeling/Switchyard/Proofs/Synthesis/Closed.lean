import Switchyard.Proofs.Store.References
import Switchyard.Proofs.Synthesis.LinkRecords
import Switchyard.Proofs.Synthesis.Numbering
import Switchyard.Proofs.Synthesis.RefersBack
import Switchyard.Proofs.Synthesis.Reloaded

/-!
# Models are closed

Whatever a record of a run refers to is there: it belongs to the input, or it is a record of the
same run that is inserted before it.  If the records of a topology refer back, then all references
point from a table to tables before it, which is the order of the batches (`RefersBack.inOrder`).

What a run creates between nodes, switches and transformers, has a first and a second terminal
(`numbersOf_createdEquipment`).

The main statement is `created_records_closed`.
-/

set_option autoImplicit false

namespace Switchyard

open Switchyard.Numbering

/-! ## The order of the batches -/

theorem ReportingGroup.references_eq (g : ReportingGroup) : Record.references g = [] := rfl

theorem BusNameMarker.references_eq (m : BusNameMarker) :
    Record.references m = [m.reportingGroupMrid] := rfl

theorem ConnectivityNode.references_eq (n : ConnectivityNode) :
    Record.references n = [n.connectivityNodeContainerMrid] := rfl

theorem Switch.references_eq (s : Switch) :
    Record.references s = [s.baseVoltageMrid, s.equipmentContainerMrid] := rfl

theorem PowerTransformer.references_eq (w : PowerTransformer) :
    Record.references w = [w.baseVoltageMrid, w.equipmentContainerMrid] := rfl

theorem Terminal.references_eq (t : Terminal) :
    Record.references t =
      [t.conductingEquipmentMrid, t.connectivityNodeMrid, t.busNameMarkerMrid] := rfl

theorem PowerTransformerEnd.references_eq (w : PowerTransformerEnd) :
    Record.references w = [w.terminalMrid, w.baseVoltageMrid, w.powerTransformerMrid] := rfl

namespace Topology

variable {t : Topology} {input : List Mrid}

/-- The batches hold all records, in their order. -/
theorem flatMap_mrids_batches (t : Topology) : t.batches.flatMap Batch.mrids = t.mrids := by
  rw [batches, gather_map (g := List.flatMap Batch.mrids) fun _ _ => List.flatMap_append, mrids]
  congr 1
  funext α _ rs
  exact Batch.flatMap_mrids_ofNonempty rs

/-- **Records that refer back are inserted after what they refer to.** -/
theorem RefersBack.inOrder (h : t.RefersBack t.reportingGroup.mrid input []) :
    Batch.InOrder input t.batches := by
  have hmarker {x : Terminal} (hx : x ∈ t.terminals) :
      x.busNameMarkerMrid ∈ t.busNameMarkers.map Record.mrid := by
    have hmem : x.busNameMarkerMrid ∈ t.terminals.map (·.busNameMarkerMrid) :=
      List.mem_map_of_mem hx
    rwa [h.map_marker] at hmem
  simp only [batches, gather, Batch.inOrder_append, Batch.inOrder_ofNonempty, List.flatMap_append,
    Batch.flatMap_mrids_ofNonempty, List.forall_mem_singleton, ReportingGroup.references_eq,
    BusNameMarker.references_eq, ConnectivityNode.references_eq, Switch.references_eq,
    PowerTransformer.references_eq, Terminal.references_eq, PowerTransformerEnd.references_eq,
    List.cons_subset, List.nil_subset, and_true, true_and, List.mem_append]
  -- the tables in their order
  refine ⟨⟨⟨⟨⟨fun m hm => ?_, fun n hn => ?_⟩, fun s hs => ?_⟩, fun w hw => ?_⟩, fun x hx => ?_⟩,
    fun w hw => ?_⟩
  · rw [h.marker m hm]
    exact .inr (List.mem_singleton_self _)
  · exact .inl (h.node n hn)
  · exact ⟨.inl (h.switch s hs).1, .inl (h.switch s hs).2⟩
  · exact ⟨.inl (h.transformer w hw).1, .inl (h.transformer w hw).2⟩
  · obtain ⟨hequipment, hnode⟩ := h.terminal x hx
    simp only [createdEquipment, List.mem_append, List.not_mem_nil, or_false] at hequipment hnode
    refine ⟨hequipment.imp_right fun hnew => ?_, hnode.imp_right fun hnew => ?_, ?_⟩
    · exact hnew.imp_left .inr
    · exact .inl (.inl (.inr hnew))
    · exact .inr (.inl (.inl (.inl (.inr (hmarker hx)))))
  · obtain ⟨hbase, hterminal, htransformer⟩ := h.winding w hw
    exact ⟨.inr (.inr hterminal), .inl hbase, .inr (.inl (.inr htransformer))⟩

end Topology

/-! ## The terminals of what is created -/

namespace VoltageLevelEquipment

variable {e : VoltageLevelEquipment} {hopBound : Nat} {graph : Graph} {ids : MridSource} {m : Mrid}

/-- A run over a voltage level creates no transformers. -/
theorem transformers_synthesize :
    (e.synthesize hopBound graph ids).model.topology.powerTransformers = [] := by
  have happend (t u : Topology) (ht : t.powerTransformers = []) (hu : u.powerTransformers = []) :
      (t.append u).powerTransformers = [] := by rw [Topology.append, ht, hu, List.append_nil]
  have hseats (isLine : Bool) (d : Draft) (ms : List Mrid) :
      (e.seatsMade isLine d ms).powerTransformers = [] :=
    Draft.portions_induction (fun _ => rfl) happend (fun _ _ => rfl) d ms
  have hlines (d : Draft) (ts : List Tapping) : (e.linesMade d ts).powerTransformers = [] := by
    refine Draft.portions_induction (fun _ => rfl) happend (fun d t => happend _ _ rfl ?_) d ts
    exact Draft.portions_induction (fun _ => rfl) happend (fun _ _ => rfl) _ _
  rw [topology_synthesize]
  exact happend _ _ rfl (happend _ _ (happend _ _ (hseats true _ _) (hseats false _ _))
    (hlines _ _))

/-- The switches of a run over a voltage level have two terminals each. -/
theorem numbersOf_createdEquipment
    (hfresh : e.DrawsFresh graph ids (e.synthesize hopBound graph ids))
    (hm : m ∈ (e.synthesize hopBound graph ids).model.topology.createdEquipment) :
    numbersOf m (e.synthesize hopBound graph ids).model.topology.terminals = [1, 2] := by
  rw [Topology.createdEquipment, transformers_synthesize, List.map_nil, List.append_nil] at hm
  obtain ⟨s, hs, rfl⟩ := List.mem_map.1 hm
  exact numbersOf_switch hfresh hs

end VoltageLevelEquipment

namespace CrossPair

variable {substation : Mrid} {pu : PerUnit} {d : Draft} {ps : List CrossPair} {m : Mrid}

/-- **The switches and the transformers of links have two terminals each.** -/
theorem numbersOf_createdEquipment (hnodup : (d.ids.take (linkDraws * ps.length)).Nodup)
    (hm : m ∈ (madeEach substation pu d ps).createdEquipment) :
    numbersOf m (madeEach substation pu d ps).terminals = [1, 2] := by
  have howners :
      ((wiredEach substation pu d ps).flatMap fun l => [l.switch, l.transformer]).Nodup :=
    (nodup_inner_wiredEach hnodup).sublist <| .flatMap_right _ fun l _ =>
      (List.sublist_cons_self l.node [l.transformer]).cons_cons l.switch
  refine numbersOf_of_pairs howners ?_ ?_
  · have hattachments := congrArg (List.map fun x => (x.1, x.2.2))
      (attachments_madeEach substation pu d ps)
    rw [Topology.attachments, List.map_map, List.map_flatMap] at hattachments
    refine hattachments.trans ?_
    rw [List.flatMap_assoc]
    rfl
  · rw [Topology.createdEquipment, switches_madeEach, transformers_madeEach, List.mem_append,
      List.mem_map, List.mem_map] at hm
    rcases hm with ⟨l, hl, rfl⟩ | ⟨l, hl, rfl⟩
    · exact List.mem_flatMap.2 ⟨l, hl, by simp⟩
    · exact List.mem_flatMap.2 ⟨l, hl, by simp⟩

end CrossPair

/-! ## The main statement -/

/-- The records of a run are new and refer to the input or to each other, each batch refers only to
the input and to the batches before it, and what was created has a first and a second terminal. -/
structure Topology.IsClosed (t : Topology) (input : List Mrid) : Prop where
  nodup : t.mrids.Nodup
  not_mem_input : ∀ id ∈ t.mrids, id ∉ input
  refersBack : t.RefersBack t.reportingGroup.mrid input []
  /-- The batches bring all records. -/
  mrids_batches : t.batches.flatMap Batch.mrids = t.mrids
  mem_of_references : ∀ (earlier : List Batch) (b : Batch) (later : List Batch),
    t.batches = earlier ++ b :: later →
      ∀ id ∈ b.references, id ∈ input ∨ id ∈ earlier.flatMap Batch.mrids
  numbersOf : ∀ m ∈ t.createdEquipment, numbersOf m t.terminals = [1, 2]

namespace Synthesis

variable {hopBound : Nat} {graph : Graph} {ids : MridSource} {run : Synthesis} {input : List Mrid}

/-- The group of a run has the first identity that it took. -/
theorem RunsOver.reportingGroup_mrid (h : run.RunsOver hopBound graph ids) :
    run.model.topology.reportingGroup.mrid = ids.peek 0 := by
  cases h with
  | voltageLevel e =>
    rw [VoltageLevelEquipment.topology_synthesize]
    rfl
  | @substation s pu _ hrun =>
    obtain rfl := SubstationLevels.eq_linkAll_of_synthesize hrun
    rw [SubstationLevels.model_linkAll, SubstationLevels.linksModel,
      SubstationLevels.topology_linkEach_emptyDraft, CrossPair.reportingGroup_madeEach]
    rfl

/-- It is enough that the records refer back, and how what was created is numbered. -/
theorem RunsOver.isClosed (h : run.RunsOver hopBound graph ids)
    (htaken : run.TakesUnknown graph input ids)
    (hrefers : run.model.topology.RefersBack (ids.peek 0) input [])
    (hnumbers : ∀ m ∈ run.model.topology.createdEquipment,
      Numbering.numbersOf m run.model.topology.terminals = [1, 2]) :
    run.model.topology.IsClosed input := by
  rw [← h.reportingGroup_mrid] at hrefers
  refine ⟨h.mrids_perm.nodup_iff.2 htaken.nodup, fun id hid hin => ?_, hrefers,
    run.model.topology.flatMap_mrids_batches, fun earlier b later heq id hid => ?_, hnumbers⟩
  · exact htaken.not_used id (h.mrids_perm.subset hid) (.inr hin)
  · exact List.mem_append.1 (Batch.inOrder_iff.1 hrefers.inOrder earlier b later heq hid)

end Synthesis

/-- **Models are closed and their batches are in the order of what they refer to.**  For every graph
and every hop bound, if the identities that a run over a voltage level or over a substation took are
pairwise different and new to the graph and to the input, then whatever a created record refers to
is in the input or was created in the same run, and a record of an earlier batch in that case; every
terminal has its own marker, and every marker belongs to the group of the run.  Every created switch
and transformer has exactly two terminals, numbered one and two. -/
theorem created_records_closed (graph : Graph) (hopBound : Nat) (ids : MridSource) :
    (∀ e : VoltageLevelEquipment,
      (e.synthesize hopBound graph ids).TakesUnknown graph e.inputMrids ids →
        (e.synthesize hopBound graph ids).model.topology.IsClosed e.inputMrids) ∧
      ∀ (s : SubstationLevels) (pu : PerUnit) (run : Synthesis),
        s.synthesize hopBound pu graph ids = .ok run → run.TakesUnknown graph s.inputMrids ids →
          run.model.topology.IsClosed s.inputMrids := by
  refine ⟨fun e htaken => ?_, fun s pu run hrun htaken => ?_⟩
  · have hfresh : e.DrawsFresh graph ids (e.synthesize hopBound graph ids) :=
      htaken.mono fun _ hin => hin.imp_right VoltageLevelEquipment.mem_inputMrids_of_mem_members
    exact (Synthesis.RunsOver.voltageLevel e).isClosed htaken
      (e.refersBack_synthesize hopBound graph ids)
      fun _ => VoltageLevelEquipment.numbersOf_createdEquipment hfresh
  · refine (Synthesis.RunsOver.substation hrun).isClosed htaken ?_ ?_
    all_goals obtain rfl := SubstationLevels.eq_linkAll_of_synthesize hrun
    · exact s.refersBack_linkAll hopBound pu graph ids
    · intro m hm
      have hlinks := htaken.nodup
      rw [SubstationLevels.drawn_linkAll, MridSource.take_add] at hlinks
      rw [SubstationLevels.model_linkAll, SubstationLevels.linksModel,
        SubstationLevels.topology_linkEach_emptyDraft] at hm ⊢
      exact CrossPair.numbersOf_createdEquipment hlinks.of_append_right hm

open VoltageLevelEquipment (twoLinesOneGenerator lineToGenerator)
open SubstationLevels (threeNodeLevels joiningTerminals)

/-- A voltage level whose first line is connected already, and a substation with one link, which has
records of all seven tables. -/
theorem created_records_closed_oneLink :
    (twoLinesOneGenerator.synthesize 5 (.ofTerminals lineToGenerator)
        .sequential).model.topology.IsClosed twoLinesOneGenerator.inputMrids ∧
      ∃ run, (threeNodeLevels false).synthesize 5 {} (.ofTerminals joiningTerminals) .sequential =
          .ok run ∧
        run.model.topology.IsClosed (threeNodeLevels false).inputMrids ∧
        run.model.topology.batches.length = 7 ∧
        run.model.topology.createdEquipment.length = 2 := by
  have hok := ((threeNodeLevels false).synthesize_isOk_iff 5 {} (.ofTerminals joiningTerminals)
    .sequential).2 (by decide)
  refine ⟨(created_records_closed (.ofTerminals lineToGenerator) 5 .sequential).1
      twoLinesOneGenerator ⟨by decide +kernel, by decide +kernel⟩, _, hok,
    (created_records_closed (.ofTerminals joiningTerminals) 5 .sequential).2
      (threeNodeLevels false) {} _ hok ⟨by decide +kernel, by decide +kernel⟩, ?_, ?_⟩
  all_goals decide +kernel

end Switchyard
