import Switchyard.Proofs.Synthesis.CrossPairs

/-!
# Runs over a substation

A run links some of the pairs of a substation and skips the others, and this is all it does: its
model, its graph and what it takes from the source are read off the list of the pairs it links
(`model_linkAll`, `graph_linkAll`, `drawn_linkAll`).
-/

set_option autoImplicit false

namespace Switchyard.SubstationLevels

open Switchyard.Graph CrossPair

variable (s : SubstationLevels) (hopBound : Nat) (pu : PerUnit) (graph : Graph)
  (ids : MridSource) (pairs : List CrossPair)

/-- The draft that the links are added to. -/
def emptyDraft : Draft :=
  .start graph ids (s.substation.name ++ " voltage level connections") (s.substation.name ++ " vlc")
    "Group representing all items created to connect voltage levels"

/-- The pairs that a run links. -/
def linkedPairs : List CrossPair :=
  linked hopBound s.substation.mrid pu (s.emptyDraft graph ids) s.crossPairs

/-- The model of a run that links some pairs and skips the others. -/
def linksModel : Model :=
  { topology := (linkEach s.substation.mrid pu (s.emptyDraft .empty ids) pairs).topology
    alreadyConnected := s.crossPairs.length - pairs.length }

/-! ## What a run amounts to -/

/-- The draft at the end of a run. -/
def finalDraft : Draft :=
  (linkEach s.substation.mrid pu (s.emptyDraft graph ids)
    (s.linkedPairs hopBound pu graph ids)).skipMore
      (s.crossPairs.length - (s.linkedPairs hopBound pu graph ids).length)

theorem linkAll_eq :
    s.linkAll hopBound pu graph ids =
      ((s.finalDraft hopBound pu graph ids).report
        (s.synthesizedEvent (s.finalDraft hopBound pu graph ids))).finish := by
  rw [finalDraft, linkedPairs, ← foldl_linkUnlessConnected]
  rfl

theorem graph_linkAll :
    (s.linkAll hopBound pu graph ids).graph =
      (linkEach s.substation.mrid pu (s.emptyDraft graph ids)
        (s.linkedPairs hopBound pu graph ids)).graph := by
  rw [linkAll_eq]
  rfl

/-- A run links its linked pairs and skips the others. -/
theorem model_linkAll :
    (s.linkAll hopBound pu graph ids).model =
      s.linksModel pu ids (s.linkedPairs hopBound pu graph ids) := by
  have hskipped : (s.finalDraft hopBound pu graph ids).skipped =
      s.crossPairs.length - (s.linkedPairs hopBound pu graph ids).length := by
    rw [finalDraft, Draft.skipped_skipMore, skipped_linkEach]
    exact Nat.zero_add _
  rw [linkAll_eq]
  exact congrArg₂ Model.mk (topology_linkEach_congr _ _ _ rfl rfl) hskipped

/-- An empty draft holds the records of its links and nothing else. -/
theorem topology_linkEach_emptyDraft :
    (linkEach s.substation.mrid pu (s.emptyDraft graph ids) pairs).topology =
      madeEach s.substation.mrid pu (s.emptyDraft graph ids) pairs := by
  have hgroup := reportingGroup_madeEach s.substation.mrid pu (s.emptyDraft graph ids) pairs
  rw [topology_linkEach, Topology.append, ← hgroup]
  rfl

/-- A run creates a switch and a transformer for every pair that it links. -/
theorem length_switches_linksModel :
    (s.linksModel pu ids pairs).topology.switches.length = pairs.length ∧
      (s.linksModel pu ids pairs).topology.powerTransformers.length = pairs.length := by
  rw [linksModel, topology_linkEach_emptyDraft]
  refine ⟨?_, ?_⟩
  · rw [count_madeEach _ _ (fun t => t.switches.length) (fun _ => rfl)
      (fun _ _ => List.length_append) fun _ _ => rfl, Nat.one_mul]
  · rw [count_madeEach _ _ (fun t => t.powerTransformers.length) (fun _ => rfl)
      (fun _ _ => List.length_append) fun _ _ => rfl, Nat.one_mul]

/-- The graph of a run has the terminals of its model after its old ones. -/
theorem terminals_linkAll :
    (s.linkAll hopBound pu graph ids).graph.terminals =
      graph.terminals ++ (s.linkAll hopBound pu graph ids).model.topology.terminals := by
  have htopology : (s.linkAll hopBound pu graph ids).model.topology =
      (linkEach s.substation.mrid pu (s.emptyDraft graph ids)
        (s.linkedPairs hopBound pu graph ids)).topology := by
    rw [model_linkAll]
    exact topology_linkEach_congr _ _ _ rfl rfl
  rw [graph_linkAll, graph_terminals_linkEach, htopology, topology_linkEach_emptyDraft]
  rfl

/-- What the source is left with after a run. -/
theorem ids_linkAll :
    (s.linkAll hopBound pu graph ids).ids =
      ids.advance (1 + linkDraws * (s.linkedPairs hopBound pu graph ids).length) := by
  have hfinish : (s.linkAll hopBound pu graph ids).ids =
      (s.finalDraft hopBound pu graph ids).ids := by
    rw [linkAll_eq]
    rfl
  rw [hfinish, finalDraft, Draft.ids_skipMore, ids_linkEach, emptyDraft, Draft.ids_start,
    MridSource.advance_advance]

theorem drawn_linkAll :
    (s.linkAll hopBound pu graph ids).ids.drawn - ids.drawn =
      1 + linkDraws * (s.linkedPairs hopBound pu graph ids).length := by
  rw [ids_linkAll, MridSource.drawn_advance, Nat.add_sub_cancel_left]

variable {s hopBound pu graph ids}

/-- If the identities of some records of a link are among those that it takes, and in their order,
the same goes for a run. -/
theorem sublist_take_linkAll (mrids : Topology → List Mrid)
    (hnil : ∀ group, mrids { reportingGroup := group } = [])
    (happend : ∀ t u, mrids (t.append u) = mrids t ++ mrids u)
    (hmade : ∀ (d : Draft) (p : CrossPair),
      (mrids (p.made s.substation.mrid pu d)).Sublist (d.ids.take linkDraws)) :
    (mrids (s.linkAll hopBound pu graph ids).model.topology).Sublist
      (ids.take ((s.linkAll hopBound pu graph ids).ids.drawn - ids.drawn)) := by
  rw [model_linkAll, linksModel, topology_linkEach_emptyDraft, drawn_linkAll, MridSource.take_add]
  exact (sublist_take_madeEach _ _ hnil happend hmade).trans (List.sublist_append_right _ _)

/-- What occurs among the terminals of a run are nodes of the levels and taken identities. -/
theorem occurs_linkAll {id : Mrid}
    (h : Occurs (s.linkAll hopBound pu graph ids).model.topology.terminals id) :
    id ∈ s.nodeMrids ∨
      id ∈ ids.take ((s.linkAll hopBound pu graph ids).ids.drawn - ids.drawn) := by
  rw [model_linkAll, linksModel, topology_linkEach_emptyDraft] at h
  rw [drawn_linkAll, MridSource.take_add, List.mem_append]
  rcases occurs_madeEach h with ⟨p, hp, hends⟩ | htaken
  · obtain ⟨hfirst, hsecond⟩ := ends_mem_nodeMrids ((linked_sublist _ _ _ _ _).subset hp)
    rcases hends with rfl | rfl
    · exact .inl hfirst
    · exact .inl hsecond
  · exact .inr (.inr htaken)

theorem inStep_linkAll (hg : graph.InStep) : (s.linkAll hopBound pu graph ids).graph.InStep := by
  rw [graph_linkAll]
  exact inStep_linkEach _ _ _ hg

end Switchyard.SubstationLevels
