import Switchyard.Proofs.Load.NewRecords
import Switchyard.Proofs.Synthesis.Interconnection

/-!
# Loading, linking and writing a second time

A run puts the node of each link into the voltage level of the link's first node.  So a substation
that is loaded again after the run was written has more nodes than before (`Extends`), and the
second run is one over other data.  It leaves every pair of old nodes alone, since they are within
the default bound by now, but it links the created nodes wherever they are not close enough to the
nodes of other levels (`second_run_links_created_nodes`).  That happens as soon as one level has two
nodes (`second_run_not_idle`).
-/

set_option autoImplicit false

namespace Switchyard

open Switchyard.Graph CrossPair

/-! ## Pairs with a created node -/

/-- One of the nodes of a pair is among some nodes. -/
def CrossPair.Touches (p : CrossPair) (nodes : List Mrid) : Prop :=
  p.firstNode.mrid ∈ nodes ∨ p.secondNode.mrid ∈ nodes

/-- The nodes that a run created. -/
def Model.createdNodes (m : Model) : List Mrid := m.topology.connectivityNodes.map (·.mrid)

theorem Model.createdNodes_stamp (c : CommitId) (m : Model) :
    (m.stamp c).createdNodes = m.createdNodes := by
  rw [createdNodes, stamp, Topology.stamp, Topology.mapRecords, List.map_map]
  rfl

/-- A pair of old nodes was a pair before. -/
theorem SubstationLevels.Extends.exists_pair {created : List ConnectivityNode}
    {s s' : SubstationLevels} (h : s.Extends created s') {p : CrossPair} (hp : p ∈ s'.crossPairs)
    (hold : ¬ p.Touches (created.map (·.mrid))) :
    ∃ q ∈ s.crossPairs, q.firstNode = p.firstNode ∧ q.secondNode = p.secondNode := by
  obtain ⟨i, j, hij, a', b', ha', hb', hp⟩ := mem_crossPairsOf_iff.1 hp
  obtain ⟨hi', rfl⟩ := List.getElem?_eq_some_iff.1 ha'
  obtain ⟨hj', rfl⟩ := List.getElem?_eq_some_iff.1 hb'
  have hlen := h.levels.length_eq
  have hi : i < s.levels.length := by omega
  have hj : j < s.levels.length := by omega
  have hfirst := ((h.levels.get hi hi').mem_nodes_iff _).1 (firstNode_mem hp)
  have hsecond := ((h.levels.get hj hj').mem_nodes_iff _).1 (secondNode_mem hp)
  have hfirst' := hfirst.resolve_right fun hc => hold (.inl (List.mem_map_of_mem hc.1))
  have hsecond' := hsecond.resolve_right fun hc => hold (.inr (List.mem_map_of_mem hc.1))
  obtain ⟨q, hq, hends⟩ := exists_mem_pairsWith hfirst' hsecond'
  exact ⟨q, mem_crossPairsOf_iff.2 ⟨i, j, hij, _, _, List.getElem?_eq_getElem hi,
    List.getElem?_eq_getElem hj, hq⟩, hends⟩

/-! ## The records of a run -/

/-- No node and no terminal is a tombstone. -/
structure Topology.Live (t : Topology) : Prop where
  nodes : ∀ n ∈ t.connectivityNodes, n.deleted = false
  terminals : ∀ x ∈ t.terminals, x.deleted = false

theorem Topology.Live.append {t u : Topology} (ht : t.Live) (hu : u.Live) : (t.append u).Live :=
  ⟨fun n hn => (List.mem_append.1 hn).elim (ht.nodes n) (hu.nodes n),
    fun x hx => (List.mem_append.1 hx).elim (ht.terminals x) (hu.terminals x)⟩

theorem CrossPair.live_made (p : CrossPair) (substation : Mrid) (pu : PerUnit) (d : Draft) :
    (p.made substation pu d).Live := by
  refine ⟨fun n hn => ?_, fun x hx => ?_⟩
  · rw [List.mem_singleton.1 hn]
    rfl
  · simp only [made, linkTerminals, List.mem_cons, List.not_mem_nil, or_false] at hx
    rcases hx with rfl | rfl | rfl | rfl <;> rfl

namespace SubstationLevels

variable {s : SubstationLevels} {hopBound : Nat} {pu : PerUnit} {graph : Graph}
  {ids : MridSource} {store : Store}

/-- A run creates no tombstones. -/
theorem live_linkAll : (s.linkAll hopBound pu graph ids).model.topology.Live := by
  rw [model_linkAll, linksModel, topology_linkEach_emptyDraft]
  exact madeEach_induction _ _ (fun _ => ⟨by simp, by simp⟩) (fun _ _ => Topology.Live.append)
    fun d p => p.live_made _ pu d

/-- The identities that a run took are pairwise different and mentioned nowhere in a store. -/
def DrawsUnused (store : Store) (ids : MridSource) (run : Synthesis) : Prop :=
  ids.Fresh (run.ids.drawn - ids.drawn) (· ∈ store.mentions)

/-- The nodes of a run are new. -/
theorem newTo_nodes_linkAll
    (hfresh : DrawsUnused store ids (s.linkAll hopBound pu graph ids)) :
    NewTo (s.linkAll hopBound pu graph ids).model.topology.connectivityNodes store := by
  refine newTo_of_sublist_take hfresh ?_ live_linkAll.nodes
  refine sublist_take_linkAll (fun t => t.connectivityNodes.map Record.mrid) (fun _ => rfl)
    (fun _ _ => List.map_append) fun d p => ?_
  exact List.singleton_sublist.2 (MridSource.peek_mem_take (by decide))

/-- The terminals of a run are new. -/
theorem newTo_terminals_linkAll
    (hfresh : DrawsUnused store ids (s.linkAll hopBound pu graph ids)) :
    NewTo (s.linkAll hopBound pu graph ids).model.topology.terminals store := by
  refine newTo_of_sublist_take hfresh ?_ live_linkAll.terminals
  refine sublist_take_linkAll (fun t => t.terminals.map Record.mrid) (fun _ => rfl)
    (fun _ _ => List.map_append) fun d p => ?_
  have hplaces : [4, 6, 8, 10].Sublist (List.range linkDraws) := by decide
  exact hplaces.map d.ids.peek

/-! ## The second run -/

/-- A graph with the terminals of another one, and with some further ones under a stamp, joins
whatever was joined with the further ones. -/
theorem joined_of_stamp {g : Graph} {ts us : List Terminal} {c : CommitId}
    (hmem : ∀ x, x ∈ g.terminals ↔ x ∈ ts ∨ x ∈ us.map (Record.stamp c)) {a b : Mrid}
    (h : Joined (ts ++ us) a b) : Joined g.terminals a b := by
  rcases joined_append.1 h with ⟨t, ht, hends⟩ | ⟨t, ht, hends⟩
  · exact ⟨t, (hmem t).2 (.inl ht), hends⟩
  · exact ⟨_, (hmem _).2 (.inr (List.mem_map_of_mem ht)), hends⟩

/-- What a run does that leaves every pair alone but those with a created node: it links some of
these, and none exactly if all of them are connected already. -/
structure LinksCreated (s : SubstationLevels) (created : List Mrid) (pu : PerUnit) (graph : Graph)
    (ids : MridSource) (run : Synthesis) (pairs : List CrossPair) : Prop where
  model_eq : run.model = s.linksModel pu ids pairs
  sublist : pairs.Sublist s.crossPairs
  touches : ∀ p ∈ pairs, p.Touches created
  length_switches : run.model.topology.switches.length = pairs.length
  length_transformers : run.model.topology.powerTransformers.length = pairs.length
  nil_iff : pairs = [] ↔
    ∀ p ∈ s.crossPairs, p.Touches created → p.isConnected defaultHopBound graph = true

theorem linksCreated_linkAll {created : List Mrid} (hg : graph.InStep)
    (hold : ∀ p ∈ s.crossPairs, ¬ p.Touches created → p.isConnected defaultHopBound graph = true) :
    s.LinksCreated created pu graph ids (s.linkAll defaultHopBound pu graph ids)
      (s.linkedPairs defaultHopBound pu graph ids) where
  model_eq := s.model_linkAll defaultHopBound pu graph ids
  sublist := linked_sublist _ _ _ _ _
  touches p hp := by
    by_contra hnot
    have hmem := (linked_sublist _ _ _ _ _).subset hp
    exact not_isConnected_of_mem_linked (d := s.emptyDraft graph ids) hg hp (hold p hmem hnot)
  length_switches := by
    rw [model_linkAll]
    exact (s.length_switches_linksModel pu ids _).1
  length_transformers := by
    rw [model_linkAll]
    exact (s.length_switches_linksModel pu ids _).2
  nil_iff := by
    constructor
    · exact fun hnil p hp _ => isConnected_of_linked_eq_nil hnil p hp
    · refine fun hall => linked_eq_nil _ _ fun p hp => ?_
      by_cases htouches : p.Touches created
      · exact hall p hp htouches
      · exact hold p hp htouches

/-- Once a run is written, the pairs that it treated are connected in the graph of the store. -/
theorem isConnected_of_written {graph' : Graph} {c : CommitId} (hg : graph.InStep)
    (hg' : graph'.InStep)
    (hmem : ∀ x, x ∈ graph'.terminals ↔ x ∈ graph.terminals ∨
      x ∈ ((s.linkAll defaultHopBound pu graph ids).model.topology.stamp c).terminals)
    {p : CrossPair} (hp : p ∈ s.crossPairs) : p.isConnected defaultHopBound graph' = true := by
  have hreached : p.Reached (max 4 (defaultHopBound - 1))
      (s.linkAll defaultHopBound pu graph ids).graph := reached_of_mem hg hp
  refine (hreached.mono fun a b hjoined => ?_).isConnected hg' (by decide)
  rw [terminals_linkAll] at hjoined
  exact joined_of_stamp hmem hjoined

/-- **Loading, linking and writing a second time links created nodes only.**  The substation loads
again, with the created nodes in their levels, and every pair of old nodes is connected.  So a
second run over what was loaded first creates nothing, and one over what was loaded again creates a
switch and a transformer for some pairs with a created node. -/
theorem second_run_links_created_nodes (b : Backend) {substation : Mrid} {s : SubstationLevels}
    {nodes : List ConnectivityNode} {terminals : List Terminal}
    (hload : b.loadSubstation substation = .ok s)
    (hnodes : b.fetch ConnectivityNode .all = .ok nodes)
    (hterminals : b.fetch Terminal .all = .ok terminals) (pu : PerUnit) (ids : MridSource)
    (modelId : Int32) (note : CommitNote) (limit : Option Nat) :
    ∃ graph run, b.loadGraph = .ok graph ∧
      s.synthesize defaultHopBound pu graph ids = .ok run ∧
      ∀ id, DrawsUnused b.store ids run →
        (b.write modelId note limit run.model).result = .ok id →
        ∃ s' graph',
          (b.write modelId note limit run.model).backend.loadSubstation substation = .ok s' ∧
          (b.write modelId note limit run.model).backend.loadGraph = .ok graph' ∧
          s.Extends (run.model.topology.stamp id).connectivityNodes s' ∧
          ∀ ids',
            (∃ again, s.synthesize defaultHopBound pu graph' ids' = .ok again ∧
              again.model = s.linksModel pu ids' []) ∧
            ∃ again pairs, s'.synthesize defaultHopBound pu graph' ids' = .ok again ∧
              s'.LinksCreated run.model.createdNodes pu graph' ids' again pairs := by
  have hs := Backend.isConsistent_of_loadSubstation hload
  obtain ⟨graph, hgraph, hg⟩ : ∃ graph, b.loadGraph = .ok graph ∧ graph.InStep :=
    ⟨_, Backend.loadGraph_eq hterminals, inStep_ofTerminals _⟩
  refine ⟨graph, _, hgraph, (s.synthesize_isOk_iff _ _ _ _).2 hs, fun id hfresh hwrite => ?_⟩
  -- what the write makes visible
  have hatomic := allOrNothing_of_lawful b modelId note limit
    (s.linkAll defaultHopBound pu graph ids).model
  rw [AllOrNothing, hwrite] at hatomic
  obtain ⟨-, -, batches, hbatches, hpersisted⟩ := hatomic
  obtain rfl := Except.ok.inj hbatches
  obtain ⟨s', hload', hextends⟩ :=
    loadSubstation_after hpersisted hload hnodes ((newTo_nodes_linkAll hfresh).stamp id)
  obtain ⟨graph', hgraph', hg', hmem⟩ := loadGraph_after hpersisted hgraph hterminals
    ((newTo_terminals_linkAll hfresh).stamp id)
  have hs' := Backend.isConsistent_of_loadSubstation hload'
  -- the pairs of the first run are connected in the graph that is loaded again
  have hconnected : ∀ q ∈ s.crossPairs, q.isConnected defaultHopBound graph' = true :=
    fun _ => isConnected_of_written hg hg' hmem
  refine ⟨s', graph', hload', hgraph', hextends, fun ids' => ⟨⟨_, (s.synthesize_isOk_iff _ _ _ _).2
    hs, ?_⟩, _, _, (s'.synthesize_isOk_iff _ _ _ _).2 hs', linksCreated_linkAll hg' ?_⟩⟩
  · rw [model_linkAll, linkedPairs, linked_eq_nil _ _ hconnected]
  · intro p hp hold
    obtain ⟨q, hq, hfirst, hsecond⟩ := hextends.exists_pair hp (by
      rw [← Model.createdNodes_stamp id] at hold
      exact hold)
    have hq' := hconnected q hq
    rwa [CrossPair.isConnected, hfirst, hsecond] at hq'

instance (store : Store) (ids : MridSource) (run : Synthesis) :
    Decidable (DrawsUnused store ids run) :=
  inferInstanceAs (Decidable (ids.Fresh _ _))

end SubstationLevels

/-! ## A substation with three nodes -/

/-- One pass over a substation: what is loaded is linked under the default bound. -/
def Backend.pass? (b : Backend) (substation : Mrid) (pu : PerUnit) (ids : MridSource) :
    Option Synthesis :=
  match b.loadSubstation substation, b.loadGraph with
  | .ok s, .ok graph => (s.synthesize defaultHopBound pu graph ids).toOption
  | _, _ => none

theorem Backend.pass?_eq_some {b : Backend} {substation : Mrid} {pu : PerUnit} {ids : MridSource}
    {run : Synthesis} (h : b.pass? substation pu ids = some run) :
    ∃ s graph, b.loadSubstation substation = .ok s ∧ b.loadGraph = .ok graph ∧
      s.synthesize defaultHopBound pu graph ids = .ok run := by
  rw [pass?] at h
  split at h
  · rename_i s graph hload hgraph
    exact ⟨s, graph, hload, hgraph, toOption_eq_some_iff.1 h⟩
  · simp at h

/-- A written reference. -/
def reference (n : Nat) : Json := .str (Mrid.ofNat n).text

/-- The row of an asset without names. -/
def assetRow (n : Nat) (own : List (String × Json)) : Json :=
  .obj ([("mrid", reference n), ("commit_id", .ofInt 0), ("deleted", .bool false),
    ("name", .str ""), ("short_name", .str ""), ("description", .str "")] ++ own)

/-- The row of a voltage level of substation 100. -/
def levelRow (n baseVoltage : Nat) : Json :=
  assetRow n [("base_voltage_mrid", reference baseVoltage), ("substation_mrid", reference 100),
    ("low_voltage_limit", .ofInt 0), ("high_voltage_limit", .ofInt 0)]

/-- The row of a node of a voltage level. -/
def nodeRow (n level : Nat) : Json :=
  assetRow n [("connectivity_node_container_mrid", reference level)]

/-- A store with a substation of two voltage levels, one with a node and one with two. -/
def threeNodes : Backend :=
  { store := { contents := { batches :=
      [⟨.substations, [assetRow 100 []]⟩,
        ⟨.baseVoltages, [assetRow 101 [("nominal_voltage", .ofInt 400)],
          assetRow 102 [("nominal_voltage", .ofInt 132)]]⟩,
        ⟨.voltageLevels, [levelRow 103 101, levelRow 104 102]⟩,
        ⟨.connectivityNodes, [nodeRow 105 103, nodeRow 106 104, nodeRow 107 104]⟩] } } }

/-- The store after a run was written to it. -/
def Backend.afterWriting (b : Backend) (run : Synthesis) : WriteOutcome Model :=
  b.write 0 { message := "links", author := "engineer" } none run.model

/-- In the second pass each of the two created nodes is linked to the node that the other one was
created for. -/
theorem exists_passes_threeNodes :
    ∃ run again, threeNodes.pass? (.ofNat 100) {} (.startingAt 1000) = some run ∧
      SubstationLevels.DrawsUnused threeNodes.store (.startingAt 1000) run ∧
      (threeNodes.afterWriting run).result = .ok ⟨1⟩ ∧
      (threeNodes.afterWriting run).backend.pass? (.ofNat 100) {} (.startingAt 2000) =
        some again ∧
      again.model.topology.switches.length = 2 ∧
      again.model.topology.powerTransformers.length = 2 := by
  have hpasses :
      ((threeNodes.pass? (.ofNat 100) {} (.startingAt 1000)).bind fun run =>
        ((threeNodes.afterWriting run).backend.pass? (.ofNat 100) {} (.startingAt 2000)).map
          fun again =>
            decide (SubstationLevels.DrawsUnused threeNodes.store (.startingAt 1000) run) &&
              decide ((threeNodes.afterWriting run).result.toOption = some ⟨1⟩) &&
              decide (again.model.topology.switches.length = 2) &&
              decide (again.model.topology.powerTransformers.length = 2)) = some true := by
    decide +kernel
  obtain ⟨run, hrun, hrest⟩ := Option.bind_eq_some_iff.1 hpasses
  obtain ⟨again, hagain, hall⟩ := Option.map_eq_some_iff.1 hrest
  simp only [Bool.and_eq_true, decide_eq_true_eq] at hall
  obtain ⟨⟨⟨hfresh, hresult⟩, hswitches⟩, htransformers⟩ := hall
  exact ⟨run, again, hrun, hfresh, toOption_eq_some_iff.1 hresult, hagain, hswitches,
    htransformers⟩

/-- **A second pass can create a switch and a transformer**, though every row of the store can be
read, the substation loads and the identities are fresh: with a node in one level and two in the
other, the second pass makes two links. -/
theorem second_run_not_idle :
    (∃ rs, threeNodes.fetch Substation .all = .ok rs) ∧
      (∃ rs, threeNodes.fetch BaseVoltage .all = .ok rs) ∧
      (∃ rs, threeNodes.fetch VoltageLevel .all = .ok rs) ∧
      (∃ rs, threeNodes.fetch ConnectivityNode .all = .ok rs) ∧
      ∃ run again, threeNodes.pass? (.ofNat 100) {} (.startingAt 1000) = some run ∧
        SubstationLevels.DrawsUnused threeNodes.store (.startingAt 1000) run ∧
        (threeNodes.afterWriting run).result = .ok ⟨1⟩ ∧
        (threeNodes.afterWriting run).backend.pass? (.ofNat 100) {} (.startingAt 2000) =
          some again ∧
        ¬ (again.model.topology.switches = [] ∧ again.model.topology.powerTransformers = []) := by
  refine ⟨exists_eq_ok_of_isOk (by decide +kernel), exists_eq_ok_of_isOk (by decide +kernel),
    exists_eq_ok_of_isOk (by decide +kernel), exists_eq_ok_of_isOk (by decide +kernel), ?_⟩
  obtain ⟨run, again, hrun, hfresh, hresult, hagain, hswitches, -⟩ := exists_passes_threeNodes
  refine ⟨run, again, hrun, hfresh, hresult, hagain, fun h => ?_⟩
  rw [h.1] at hswitches
  simp at hswitches

/-- What the second pass does in a substation with three nodes. -/
theorem second_run_links_created_nodes_threeNodes :
    ∃ s nodes terminals, threeNodes.loadSubstation (.ofNat 100) = .ok s ∧
      threeNodes.fetch ConnectivityNode .all = .ok nodes ∧
      threeNodes.fetch Terminal .all = .ok terminals ∧
      ∃ graph run s' graph' again pairs, threeNodes.loadGraph = .ok graph ∧
        s.synthesize defaultHopBound {} graph (.startingAt 1000) = .ok run ∧
        (threeNodes.afterWriting run).backend.loadSubstation (.ofNat 100) = .ok s' ∧
        (threeNodes.afterWriting run).backend.loadGraph = .ok graph' ∧
        s'.synthesize defaultHopBound {} graph' (.startingAt 2000) = .ok again ∧
        s'.LinksCreated run.model.createdNodes {} graph' (.startingAt 2000) again pairs ∧
        pairs.length = 2 := by
  obtain ⟨nodes, hnodes⟩ : ∃ rs, threeNodes.fetch ConnectivityNode .all = .ok rs :=
    exists_eq_ok_of_isOk (by decide +kernel)
  obtain ⟨terminals, hterminals⟩ : ∃ rs, threeNodes.fetch Terminal .all = .ok rs :=
    exists_eq_ok_of_isOk (by decide +kernel)
  obtain ⟨run, again, hpass, hfresh, hresult, hpass', hswitches, -⟩ := exists_passes_threeNodes
  obtain ⟨s, graph, hload, hgraph, hrun⟩ := Backend.pass?_eq_some hpass
  obtain ⟨s', graph', hload', hgraph', hagain⟩ := Backend.pass?_eq_some hpass'
  obtain ⟨_, _, hgraph₁, hrun₁, hafter⟩ := SubstationLevels.second_run_links_created_nodes
    threeNodes hload hnodes hterminals {} (.startingAt 1000) 0
    { message := "links", author := "engineer" } none
  obtain rfl := Except.ok.inj (hgraph.symm.trans hgraph₁)
  obtain rfl := Except.ok.inj (hrun.symm.trans hrun₁)
  obtain ⟨_, _, hload₂, hgraph₂, -, hsecond⟩ := hafter _ hfresh hresult
  obtain rfl := Except.ok.inj (hload'.symm.trans hload₂)
  obtain rfl := Except.ok.inj (hgraph'.symm.trans hgraph₂)
  obtain ⟨-, _, pairs, hagain₂, hlinks⟩ := hsecond (.startingAt 2000)
  obtain rfl := Except.ok.inj (hagain.symm.trans hagain₂)
  exact ⟨s, nodes, terminals, hload, hnodes, hterminals, graph, run, s', graph', again, pairs,
    hgraph, hrun, hload', hgraph', hagain, hlinks, hlinks.length_switches.symm.trans hswitches⟩

end Switchyard
