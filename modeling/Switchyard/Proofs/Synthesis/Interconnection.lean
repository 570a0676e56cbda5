import Switchyard.Proofs.Synthesis.LinkRun

/-!
# A substation ends up interconnected

After a run, nodes of different voltage levels are within the hop bound of each other, or four
terminals apart if that is more.  From the default bound of five on, this makes a second run over
the same data idle.  A bound of four or less does not see the links of the first run, whose ends
are exactly four terminals apart: the second run then skips what the first one skipped, and makes
every link once more.

The main statement is `interconnected`.
-/

set_option autoImplicit false

namespace Switchyard.SubstationLevels

open Switchyard.Graph CrossPair

variable (s : SubstationLevels) (hopBound : Nat) (pu : PerUnit) (graph : Graph)
  (ids : MridSource)

/-! ## Interconnected levels and fresh runs -/

/-- Two nodes of different levels are points of a graph at a distance of at most `n`. -/
def InterconnectedWithin (n : Nat) : Prop :=
  ∀ (i j : Nat) (a b : ConnectableLevel), i ≠ j → s.levels[i]? = some a → s.levels[j]? = some b →
    ∀ x ∈ a.nodes, ∀ y ∈ b.nodes, ∃ d ≤ n, graph.distance x.mrid y.mrid = some d

/-- The identities that a run took are pairwise different, and neither points of the graph before
the run nor nodes of the substation. -/
def DrawsFresh (run : Synthesis) : Prop :=
  ids.Fresh (run.ids.drawn - ids.drawn) fun id => graph.contains id = true ∨ id ∈ s.nodeMrids

variable {s hopBound pu graph ids}

/-- The identities that a run takes for its links are fresh. -/
theorem DrawsFresh.links (hg : graph.InStep)
    (h : s.DrawsFresh graph ids (s.linkAll hopBound pu graph ids)) :
    (s.emptyDraft graph ids).ids.Fresh
      (linkDraws * (s.linkedPairs hopBound pu graph ids).length)
      (InUse (s.emptyDraft graph ids) s.nodeMrids) := by
  rw [DrawsFresh, drawn_linkAll] at h
  refine h.rest.mono fun id hin => .inl ?_
  exact hin.imp_left hg.contains_iff.2

/-! ## The distance of the nodes -/

theorem interconnectedWithin_linkAll (hg : graph.InStep) :
    s.InterconnectedWithin (s.linkAll hopBound pu graph ids).graph (max 4 (hopBound - 1)) := by
  -- an earlier level and a later one, the distance being the same in both directions
  have hlt {i j : Nat} {a b : ConnectableLevel} (hij : i < j) (ha : s.levels[i]? = some a)
      (hb : s.levels[j]? = some b) {x y : ConnectivityNode} (hx : x ∈ a.nodes) (hy : y ∈ b.nodes) :
      ∃ d ≤ max 4 (hopBound - 1),
        (s.linkAll hopBound pu graph ids).graph.distance x.mrid y.mrid = some d := by
    obtain ⟨p, hp, rfl, rfl⟩ := exists_mem_pairsWith hx hy
    have hreached : p.Reached (max 4 (hopBound - 1)) (s.linkAll hopBound pu graph ids).graph :=
      reached_of_mem hg (mem_crossPairsOf_iff.2 ⟨i, j, hij, a, b, ha, hb, hp⟩)
    obtain ⟨m, hm, hwalk⟩ := hreached.walk
    obtain ⟨d, hd, hshort⟩ := hwalk.exists_shortest
    exact ⟨d, by omega,
      (inStep_linkAll hg).distance_eq_some_iff.2 ⟨hreached.first, hreached.second, hshort⟩⟩
  intro i j a b hij ha hb x hx y hy
  rcases Nat.lt_or_gt_of_ne hij with h | h
  · exact hlt h ha hb hx hy
  · rw [(inStep_linkAll hg).distance_comm]
    exact hlt h hb ha hy hx

/-! ## A second run -/

/-- A bound that sees the links of a run leaves nothing to link. -/
theorem linkedPairs_again_eq_nil (hg : graph.InStep) (hbound : 5 ≤ hopBound)
    (ids' : MridSource) :
    s.linkedPairs hopBound pu (s.linkAll hopBound pu graph ids).graph ids' = [] := by
  refine linked_eq_nil _ _ fun p hp => ?_
  have hreached : p.Reached (max 4 (hopBound - 1)) (s.linkAll hopBound pu graph ids).graph :=
    reached_of_mem hg hp
  exact hreached.isConnected (inStep_linkAll hg) (by omega)

/-- Fresh identities and different nodes: the linked pairs are those not connected before. -/
theorem linkedPairs_eq_filter (hg : graph.InStep) (hbound : hopBound ≤ 5)
    (hnodup : s.nodeMrids.Nodup)
    (hfresh : s.DrawsFresh graph ids (s.linkAll hopBound pu graph ids)) :
    s.linkedPairs hopBound pu graph ids =
      s.crossPairs.filter fun p => ¬ p.isConnected hopBound graph = true :=
  linked_eq_filter hg hbound (hfresh.links hg) (fun _ => within_of_mem_crossPairsOf hnodup)
    (pairwise_crossPairsOf hnodup)

/-- A bound that does not see the links of a run leaves everything as it was. -/
theorem isConnected_linkAll (hg : graph.InStep) (hbound : hopBound ≤ 4)
    (hnodup : s.nodeMrids.Nodup)
    (hfresh : s.DrawsFresh graph ids (s.linkAll hopBound pu graph ids)) {p : CrossPair}
    (hp : p ∈ s.crossPairs) :
    p.isConnected hopBound (s.linkAll hopBound pu graph ids).graph =
      p.isConnected hopBound graph := by
  rw [graph_linkAll]
  refine isConnected_linkEach (d := s.emptyDraft graph ids) hg hbound (hfresh.links hg)
    (fun q hq => ?_) (within_of_mem_crossPairsOf hnodup hp)
  exact within_of_mem_crossPairsOf hnodup ((linked_sublist _ _ _ _ _).subset hq)

/-- **After a run the nodes of different voltage levels are within the bound, or at most four apart.
From a bound of five on, a second run over the same data creates nothing but its reporting group;
below, it makes the links of the first run once more.** -/
theorem interconnected (s : SubstationLevels) (hs : s.IsConsistent) (ts : List Terminal)
    (hopBound : Nat) (pu : PerUnit) (ids : MridSource) :
    ∃ run, s.synthesize hopBound pu (.ofTerminals ts) ids = .ok run ∧
      s.InterconnectedWithin run.graph (max 4 (hopBound - 1)) ∧
      ∀ ids', ∃ again, s.synthesize hopBound pu run.graph ids' = .ok again ∧
        (5 ≤ hopBound →
          again.model.topology = { reportingGroup := again.model.topology.reportingGroup } ∧
          again.model.topology.recordCount = 1 ∧
          again.graph = run.graph ∧
          again.model.alreadyConnected = s.crossPairs.length) ∧
        (hopBound ≤ 4 → s.nodeMrids.Nodup → s.DrawsFresh (.ofTerminals ts) ids run →
          s.DrawsFresh run.graph ids' again →
          ∃ pairs,
            s.linkedPairs hopBound pu (.ofTerminals ts) ids = pairs ∧
            s.linkedPairs hopBound pu run.graph ids' = pairs ∧
            pairs = s.crossPairs.filter
              (fun p => ¬ p.isConnected hopBound (.ofTerminals ts) = true) ∧
            run.model = s.linksModel pu ids pairs ∧
            again.model = s.linksModel pu ids' pairs) := by
  have hg := inStep_ofTerminals ts
  have hok {g : Graph} {ids' : MridSource} :
      s.synthesize hopBound pu g ids' = .ok (s.linkAll hopBound pu g ids') :=
    (s.synthesize_isOk_iff hopBound pu g ids').2 hs
  refine ⟨_, hok, interconnectedWithin_linkAll hg, fun ids' => ⟨_, hok, fun hbound => ?_, ?_⟩⟩
  · have hnil : s.linkedPairs hopBound pu (s.linkAll hopBound pu (.ofTerminals ts) ids).graph ids' =
        [] := linkedPairs_again_eq_nil hg hbound ids'
    rw [model_linkAll, hnil]
    refine ⟨rfl, rfl, ?_, rfl⟩
    rw [graph_linkAll, hnil]
    rfl
  · intro hbound hnodup hfresh hfresh'
    have hpairs := linkedPairs_eq_filter hg (by omega) hnodup hfresh
    have hagain := linkedPairs_eq_filter (inStep_linkAll hg) (by omega) hnodup hfresh'
    -- the bound sees the same connections in both graphs
    have hsame :
        s.linkedPairs hopBound pu (s.linkAll hopBound pu (.ofTerminals ts) ids).graph ids' =
          s.linkedPairs hopBound pu (.ofTerminals ts) ids := by
      rw [hagain, hpairs]
      refine List.filter_congr fun p hp => ?_
      rw [isConnected_linkAll hg hbound hnodup hfresh hp]
    refine ⟨_, rfl, hsame, hpairs, model_linkAll s hopBound pu _ ids, ?_⟩
    rw [← hsame]
    exact model_linkAll s hopBound pu _ ids'

/-- Two voltage levels with a node each. -/
def twoLevels : SubstationLevels :=
  { levels := [{ nodes := [{ mrid := .ofNat 101 }] }, { nodes := [{ mrid := .ofNat 102 }] }] }

/-- A bound of four makes the one link of the two levels in every run. -/
theorem interconnected_twoLevels :
    twoLevels.IsConsistent ∧
      ∃ run again, twoLevels.synthesize 4 {} (.ofTerminals []) .sequential = .ok run ∧
        twoLevels.InterconnectedWithin run.graph 4 ∧
        twoLevels.synthesize 4 {} run.graph (.startingAt 201) = .ok again ∧
        ∃ pairs, pairs.length = 1 ∧ run.model = twoLevels.linksModel {} .sequential pairs ∧
          again.model = twoLevels.linksModel {} (.startingAt 201) pairs := by
  have hs : twoLevels.IsConsistent := by decide
  have hok {g : Graph} {ids : MridSource} :
      twoLevels.synthesize 4 {} g ids = .ok (twoLevels.linkAll 4 {} g ids) :=
    (twoLevels.synthesize_isOk_iff 4 {} g ids).2 hs
  obtain ⟨run, hrun, hwithin, hrest⟩ := interconnected twoLevels hs [] 4 {} .sequential
  obtain ⟨again, hagain, -, hdouble⟩ := hrest (.startingAt 201)
  obtain rfl := Except.ok.inj (hok.symm.trans hrun)
  obtain rfl := Except.ok.inj (hok.symm.trans hagain)
  obtain ⟨pairs, rfl, -, -, hmodel, hmodel'⟩ := hdouble (Nat.le_refl 4) (by decide)
    ⟨by decide +kernel, by decide +kernel⟩ ⟨by decide +kernel, by decide +kernel⟩
  exact ⟨hs, _, _, hrun, hwithin, hagain, _, by decide +kernel, hmodel, hmodel'⟩

end Switchyard.SubstationLevels
