import Switchyard.Proofs.Synthesis.Choices
import Switchyard.Proofs.Synthesis.Closed

/-!
# The layout of a substation model

The records of one link are created in one order and listed in another, and refer to each other
across six lists.  All the same the lists stay aligned: whichever pairs are left alone, the records
of the `k`-th link stand at the places that belong to `k` (`LinkRecords.StandsAt`) and join the
nodes of the `k`-th linked pair (`LinkRecords.Joins`).

The linked pairs are numbered in the order in which a run treats them, which is the lexicographic
order of their places (`PlacedPair.Before`).  The main statement is `substation_layout`.
-/

set_option autoImplicit false

namespace Switchyard

/-! ## Pairs and their places -/

/-- A pair with the places of its levels; those of its nodes it has already. -/
structure PlacedPair extends CrossPair where
  firstLevel : Nat
  secondLevel : Nat

/-- The order in which pairs are treated: by the first level, the second level, the node of the
first and the node of the second. -/
def PlacedPair.Before (p q : PlacedPair) : Prop :=
  p.firstLevel < q.firstLevel ∨ p.firstLevel = q.firstLevel ∧
    (p.secondLevel < q.secondLevel ∨ p.secondLevel = q.secondLevel ∧
      (p.firstPlace < q.firstPlace ∨ p.firstPlace = q.firstPlace ∧ p.secondPlace < q.secondPlace))

instance : DecidableRel PlacedPair.Before := fun p q => by
  unfold PlacedPair.Before
  infer_instance

instance : Std.Asymm PlacedPair.Before where
  asymm p q h h' := by
    simp only [PlacedPair.Before] at h h'
    omega

/-- The pair is one of a node of a level and a node of a later level, at their places. -/
structure SubstationLevels.HasPair (s : SubstationLevels) (p : PlacedPair) : Prop where
  lt : p.firstLevel < p.secondLevel
  first : s.levels[p.firstLevel]? = some p.first
  second : s.levels[p.secondLevel]? = some p.second
  firstNode : p.first.nodes[p.firstPlace]? = some p.firstNode
  secondNode : p.second.nodes[p.secondPlace]? = some p.secondNode

/-- The pairs of nodes of two levels of a list, with their places, if the list starts at a place. -/
def placedPairsOf : Nat → List ConnectableLevel → List PlacedPair
  | _, [] => []
  | i, first :: rest =>
    ((rest.zipIdx (i + 1)).flatMap fun x => (first.pairsWith x.1).map fun p =>
      { p with firstLevel := i, secondLevel := x.2 }) ++ placedPairsOf (i + 1) rest

/-- Without their places these are the pairs that a run treats. -/
theorem map_toCrossPair_placedPairsOf (i : Nat) (levels : List ConnectableLevel) :
    (placedPairsOf i levels).map (·.toCrossPair) = crossPairsOf levels := by
  induction levels generalizing i with
  | nil => rfl
  | cons first rest ih =>
    have hrest : rest.flatMap first.pairsWith =
        (rest.zipIdx (i + 1)).flatMap fun x => first.pairsWith x.1 := by
      nth_rewrite 1 [← List.zipIdx_map_fst (i + 1) rest]
      exact List.flatMap_map ..
    rw [placedPairsOf, List.map_append, ih, crossPairsOf, hrest, List.map_flatMap]
    simp only [List.map_map, Function.comp_def, List.map_id']

/-- The members of a numbered list are numbered in ascending order. -/
theorem pairwise_zipIdx {α : Type} (as : List α) (n : Nat) :
    (as.zipIdx n).Pairwise fun x y => x.2 < y.2 := by
  rw [← List.pairwise_map (f := Prod.snd) (R := (· < ·)), List.zipIdx_map_snd]
  exact List.pairwise_lt_range'

theorem pairwise_pairsWith (a b : ConnectableLevel) :
    (a.pairsWith b).Pairwise fun p q => p.firstPlace < q.firstPlace ∨
      p.firstPlace = q.firstPlace ∧ p.secondPlace < q.secondPlace := by
  refine List.pairwise_flatMap.2 ⟨fun x _ => ?_, (pairwise_zipIdx a.nodes 0).imp ?_⟩
  · rw [List.pairwise_map]
    exact (pairwise_zipIdx b.nodes 0).imp fun hlt => .inr ⟨rfl, hlt⟩
  · intro x y hlt p hp q hq
    obtain ⟨-, -, rfl⟩ := List.mem_map.1 hp
    obtain ⟨-, -, rfl⟩ := List.mem_map.1 hq
    exact .inl hlt

theorem le_firstLevel {i : Nat} {levels : List ConnectableLevel} {p : PlacedPair}
    (hp : p ∈ placedPairsOf i levels) : i ≤ p.firstLevel := by
  induction levels generalizing i with
  | nil => exact absurd hp List.not_mem_nil
  | cons first rest ih =>
    rcases List.mem_append.1 hp with hp | hp
    · obtain ⟨x, -, hp⟩ := List.mem_flatMap.1 hp
      obtain ⟨-, -, rfl⟩ := List.mem_map.1 hp
      exact Nat.le_refl i
    · exact Nat.le_of_succ_le (ih hp)

/-- **Pairs are treated in the lexicographic order of their places.** -/
theorem pairwise_placedPairsOf (i : Nat) (levels : List ConnectableLevel) :
    (placedPairsOf i levels).Pairwise PlacedPair.Before := by
  induction levels generalizing i with
  | nil => exact .nil
  | cons first rest ih =>
    refine List.pairwise_append.2 ⟨?_, ih (i + 1), fun p hp q hq => .inl ?_⟩
    · refine List.pairwise_flatMap.2 ⟨fun x _ => ?_, (pairwise_zipIdx rest (i + 1)).imp ?_⟩
      · rw [List.pairwise_map]
        exact (pairwise_pairsWith first x.1).imp fun hplaces => .inr ⟨rfl, .inr ⟨rfl, hplaces⟩⟩
      · intro x y hlt p hp q hq
        obtain ⟨-, -, rfl⟩ := List.mem_map.1 hp
        obtain ⟨-, -, rfl⟩ := List.mem_map.1 hq
        exact .inr ⟨rfl, .inl hlt⟩
    · obtain ⟨x, -, hp⟩ := List.mem_flatMap.1 hp
      obtain ⟨-, -, rfl⟩ := List.mem_map.1 hp
      exact le_firstLevel hq

theorem mem_placedPairsOf_iff {i : Nat} {levels : List ConnectableLevel} {p : PlacedPair} :
    p ∈ placedPairsOf i levels ↔
      ∃ m n : Nat, m < n ∧ p.firstLevel = i + m ∧ p.secondLevel = i + n ∧
        levels[m]? = some p.first ∧ levels[n]? = some p.second ∧
        p.toCrossPair ∈ p.first.pairsWith p.second := by
  induction levels generalizing i with
  | nil => simp [placedPairsOf]
  | cons first rest ih =>
    rw [placedPairsOf, List.mem_append, ih]
    constructor
    · rintro (hp | ⟨m, n, hlt, hm, hn, hfirst, hsecond, hp⟩)
      · obtain ⟨⟨second, j⟩, hj, hp⟩ := List.mem_flatMap.1 hp
        obtain ⟨pair, hpair, rfl⟩ := List.mem_map.1 hp
        obtain ⟨rfl, rfl, -⟩ := mem_pairsWith_iff.1 hpair
        obtain ⟨hle, hsecond⟩ := List.mk_mem_zipIdx_iff_le_and_getElem?_sub.1 hj
        have hj' : i + (j - i) = j := by omega
        refine ⟨0, j - i, by omega, rfl, hj'.symm, rfl, ?_, hpair⟩
        rwa [show j - i = j - (i + 1) + 1 by omega, List.getElem?_cons_succ]
      · exact ⟨m + 1, n + 1, by omega, by omega, by omega, hfirst, hsecond, hp⟩
    · rintro ⟨m, n, hlt, hm, hn, hfirst, hsecond, hp⟩
      obtain ⟨n, rfl⟩ : ∃ k, n = k + 1 := ⟨n - 1, by omega⟩
      cases m with
      | zero =>
        obtain rfl : first = p.first := Option.some.inj hfirst
        refine .inl (List.mem_flatMap.2 ⟨(p.second, p.secondLevel), ?_, ?_⟩)
        · refine List.mk_mem_zipIdx_iff_le_and_getElem?_sub.2 ⟨by omega, ?_⟩
          rwa [show p.secondLevel - (i + 1) = n by omega]
        · exact List.mem_map.2 ⟨p.toCrossPair, hp, by rw [← Nat.add_zero i, ← hm]⟩
      | succ m => exact .inr ⟨m, n, by omega, by omega, by omega, hfirst, hsecond, hp⟩

theorem SubstationLevels.mem_placedPairsOf_levels {s : SubstationLevels} {p : PlacedPair} :
    p ∈ placedPairsOf 0 s.levels ↔ s.HasPair p := by
  rw [mem_placedPairsOf_iff]
  constructor
  · rintro ⟨m, n, hlt, hm, hn, hfirst, hsecond, hp⟩
    obtain rfl : p.firstLevel = m := by omega
    obtain rfl : p.secondLevel = n := by omega
    obtain ⟨-, -, hnode, hnode'⟩ := mem_pairsWith_iff.1 hp
    exact ⟨hlt, hfirst, hsecond, hnode, hnode'⟩
  · intro h
    exact ⟨_, _, h.lt, (Nat.zero_add _).symm, (Nat.zero_add _).symm, h.first, h.second,
      mem_pairsWith_iff.2 ⟨rfl, rfl, h.firstNode, h.secondNode⟩⟩

/-! ## The records of a link -/

/-- The records of a link, without the markers of the terminals. -/
structure LinkRecords where
  node : ConnectivityNode
  switch : Switch
  transformer : PowerTransformer
  switchFirst : Terminal
  switchSecond : Terminal
  transformerFirst : Terminal
  transformerSecond : Terminal
  windingFirst : PowerTransformerEnd
  windingSecond : PowerTransformerEnd

namespace LinkRecords

/-- The records stand at the places of the `k`-th link. -/
structure StandsAt (l : LinkRecords) (t : Topology) (k : Nat) : Prop where
  node : t.connectivityNodes[k]? = some l.node
  switch : t.switches[k]? = some l.switch
  transformer : t.powerTransformers[k]? = some l.transformer
  switchFirst : t.terminals[4 * k]? = some l.switchFirst
  switchSecond : t.terminals[4 * k + 1]? = some l.switchSecond
  transformerFirst : t.terminals[4 * k + 2]? = some l.transformerFirst
  transformerSecond : t.terminals[4 * k + 3]? = some l.transformerSecond
  windingFirst : t.powerTransformerEnds[2 * k]? = some l.windingFirst
  windingSecond : t.powerTransformerEnds[2 * k + 1]? = some l.windingSecond

end LinkRecords

/-- The winding of a transformer at a terminal, under a number and for a voltage. -/
structure PowerTransformerEnd.IsWinding (w : PowerTransformerEnd) (number : Int32)
    (connection : WindingConnection) (transformer : Mrid) (terminal : Terminal)
    (voltage : BaseVoltage) : Prop where
  endNumber : w.endNumber = number
  connectionKind : w.connectionKind = connection
  transformer : w.powerTransformerMrid = transformer
  terminal : w.terminalMrid = terminal.mrid
  baseVoltage : w.baseVoltageMrid = voltage.mrid
  ratedU : w.ratedU = voltage.nominalVoltage

namespace LinkRecords

/-- The records join the nodes of a pair: a switch from the first node to the new one, which are
both in the first level, and a transformer from there to the second node. -/
structure Joins (l : LinkRecords) (substation : Mrid) (p : CrossPair) : Prop where
  node : l.node.connectivityNodeContainerMrid = p.first.voltageLevel.mrid
  switch : l.switch.equipmentContainerMrid = p.first.voltageLevel.mrid
  transformer : l.transformer.equipmentContainerMrid = substation
  switchFirst : l.switchFirst.attachment = (l.switch.mrid, l.node.mrid, 1)
  switchSecond : l.switchSecond.attachment = (l.switch.mrid, p.firstNode.mrid, 2)
  transformerFirst : l.transformerFirst.attachment = (l.transformer.mrid, l.node.mrid, 1)
  transformerSecond : l.transformerSecond.attachment = (l.transformer.mrid, p.secondNode.mrid, 2)
  windingFirst :
    l.windingFirst.IsWinding 1 .y l.transformer.mrid l.transformerFirst p.first.baseVoltage
  windingSecond :
    l.windingSecond.IsWinding 2 .yn l.transformer.mrid l.transformerSecond p.second.baseVoltage

variable {l : LinkRecords} {t : Topology} {k : Nat}

/-- Later records do not move those of a link. -/
theorem StandsAt.append (h : l.StandsAt t k) (u : Topology) : l.StandsAt (t.append u) k where
  node := getElem?_append_of_eq_some h.node _
  switch := getElem?_append_of_eq_some h.switch _
  transformer := getElem?_append_of_eq_some h.transformer _
  switchFirst := getElem?_append_of_eq_some h.switchFirst _
  switchSecond := getElem?_append_of_eq_some h.switchSecond _
  transformerFirst := getElem?_append_of_eq_some h.transformerFirst _
  transformerSecond := getElem?_append_of_eq_some h.transformerSecond _
  windingFirst := getElem?_append_of_eq_some h.windingFirst _
  windingSecond := getElem?_append_of_eq_some h.windingSecond _

end LinkRecords

/-- There are the records of `n` links, each of its terminals with a marker, and no others besides
the reporting group. -/
structure Topology.HoldsLinks (t : Topology) (n : Nat) : Prop extends t.HasLinks n where
  terminals : t.terminals.length = 4 * n
  markers : t.busNameMarkers.length = 4 * n
  windings : t.powerTransformerEnds.length = 2 * n

namespace CrossPair

variable {substation : Mrid} {t : Topology} {k : Nat}
  (p : CrossPair) (pu : PerUnit) (d : Draft)

/-- The records of the link that is made from a draft. -/
def linkRecords (substation : Mrid) (pu : PerUnit) (d : Draft) : LinkRecords where
  node := .labelled (d.ids.peek 2) p.label p.first.voltageLevel.mrid
  switch := .labelled (d.ids.peek 1) p.label p.first.voltageLevel
  transformer := .labelled (d.ids.peek 0) p.label substation p.first.voltageLevel.baseVoltageMrid
  switchFirst := .marked (d.ids.peek 4) (d.ids.peek 2) (d.ids.peek 1) (p.linkMarker d 3) 1
  switchSecond := .marked (d.ids.peek 6) p.firstNode.mrid (d.ids.peek 1) (p.linkMarker d 5) 2
  transformerFirst := .marked (d.ids.peek 8) (d.ids.peek 2) (d.ids.peek 0) (p.linkMarker d 7) 1
  transformerSecond :=
    .marked (d.ids.peek 10) p.secondNode.mrid (d.ids.peek 0) (p.linkMarker d 9) 2
  windingFirst := (p.linkWindings pu d).head (List.cons_ne_nil _ _)
  windingSecond := (p.linkWindings pu d).getLast (List.cons_ne_nil _ _)

/-- The windings have the base voltages that the levels came with, since these are consistent. -/
theorem joins_linkRecords (hfirst : p.first.IsConsistent) (hsecond : p.second.IsConsistent) :
    (p.linkRecords substation pu d).Joins substation p where
  node := rfl
  switch := rfl
  transformer := rfl
  switchFirst := rfl
  switchSecond := rfl
  transformerFirst := rfl
  transformerSecond := rfl
  windingFirst := ⟨rfl, rfl, rfl, rfl, hfirst.symm, rfl⟩
  windingSecond := ⟨rfl, rfl, rfl, rfl, hsecond.symm, rfl⟩

/-- A link after `k` others stands at the places of the `k`-th. -/
theorem standsAt_linkRecords (h : t.HoldsLinks k) :
    (p.linkRecords substation pu d).StandsAt (t.append (p.made substation pu d)) k where
  node := getElem?_append_of_length (j := 0) h.nodes.symm rfl
  switch := getElem?_append_of_length (j := 0) h.switches.symm rfl
  transformer := getElem?_append_of_length (j := 0) h.transformers.symm rfl
  switchFirst := getElem?_append_of_length (j := 0) h.terminals.symm rfl
  switchSecond := getElem?_append_of_length (j := 1) (by rw [h.terminals]) rfl
  transformerFirst := getElem?_append_of_length (j := 2) (by rw [h.terminals]) rfl
  transformerSecond := getElem?_append_of_length (j := 3) (by rw [h.terminals]) rfl
  windingFirst := getElem?_append_of_length (j := 0) h.windings.symm rfl
  windingSecond := getElem?_append_of_length (j := 1) (by rw [h.windings]) rfl

theorem holdsLinks_append (h : t.HoldsLinks k) :
    (t.append (p.made substation pu d)).HoldsLinks (k + 1) := by
  refine ⟨⟨?_, ?_, ?_⟩, ?_, ?_, ?_⟩
  · exact List.length_append.trans (congrArg (· + 1) h.switches)
  · exact List.length_append.trans (congrArg (· + 1) h.nodes)
  · exact List.length_append.trans (congrArg (· + 1) h.transformers)
  · exact List.length_append.trans (congrArg (· + 4) h.terminals)
  · exact List.length_append.trans (congrArg (· + 4) h.markers)
  · exact List.length_append.trans (congrArg (· + 2) h.windings)

end CrossPair

/-! ## Runs -/

/-- The records of a draft are those of links between the pairs of a list, in their order. -/
structure Draft.LaidOut (substation : Mrid) (d : Draft) (pairs : List PlacedPair) : Prop where
  holdsLinks : d.topology.HoldsLinks pairs.length
  link : ∀ (k : Nat) (p : PlacedPair), pairs[k]? = some p →
    ∃ l : LinkRecords, l.StandsAt d.topology k ∧ l.Joins substation p.toCrossPair

namespace Draft.LaidOut

variable {substation : Mrid} {pu : PerUnit} {graph : Graph} {d : Draft}
  {pairs treated : List PlacedPair} {p : PlacedPair}

/-- **A link keeps the layout.** -/
theorem link_next (h : d.LaidOut substation pairs) (hfirst : p.first.IsConsistent)
    (hsecond : p.second.IsConsistent) :
    (p.link substation pu d).LaidOut substation (pairs ++ [p]) := by
  refine ⟨?_, fun k q hq => ?_⟩
  · rw [CrossPair.topology_link, List.length_append, List.length_singleton]
    exact p.holdsLinks_append pu d h.holdsLinks
  · rw [CrossPair.topology_link]
    rcases getElem?_concat_eq_some hq with hold | ⟨rfl, rfl⟩
    · obtain ⟨l, hl, hjoins⟩ := h.link k q hold
      exact ⟨l, hl.append _, hjoins⟩
    · exact ⟨_, p.standsAt_linkRecords pu d h.holdsLinks, p.joins_linkRecords pu d hfirst hsecond⟩

/-- **To treat pairs is to lay out the links of some of them**, those that were not connected when
they were due. -/
theorem foldl_linkUnlessConnected (hopBound : Nat) (pu : PerUnit) (rest : List PlacedPair)
    (h : d.LaidOut substation pairs)
    (htreats : Treats (fun g p => p.isConnected hopBound g = true) PlacedPair.Before graph 0 4 d
      treated pairs)
    (hpairwise : (treated ++ rest).Pairwise PlacedPair.Before)
    (hrest : ∀ p ∈ rest, p.first.IsConsistent ∧ p.second.IsConsistent) :
    ∃ links : List PlacedPair,
      Draft.LaidOut substation
        (rest.foldl (fun d p => p.linkUnlessConnected hopBound substation pu d) d) links ∧
      Treats (fun g p => p.isConnected hopBound g = true) PlacedPair.Before graph 0 4
        (rest.foldl (fun d p => p.linkUnlessConnected hopBound substation pu d) d)
        (treated ++ rest) links := by
  induction rest generalizing d treated pairs with
  | nil => exact ⟨pairs, h, by simpa using htreats⟩
  | cons p rest ih =>
    obtain ⟨⟨hfirst, hsecond⟩, hrest⟩ := List.forall_mem_cons.1 hrest
    have hbefore := before_of_pairwise hpairwise
    rw [List.append_cons] at hpairwise ⊢
    rw [List.foldl_cons, CrossPair.linkUnlessConnected]
    by_cases hconnected : p.isConnected hopBound d.graph = true
    · rw [if_pos hconnected]
      exact ih ⟨h.holdsLinks, h.link⟩ (htreats.leave hbefore hconnected) hpairwise hrest
    · rw [if_neg hconnected]
      exact ih (h.link_next hfirst hsecond)
        (htreats.make hbefore hconnected (p.step_link substation pu d) rfl) hpairwise hrest

end Draft.LaidOut

namespace SubstationLevels

variable {s : SubstationLevels}

/-- The levels of a pair of a consistent substation are consistent. -/
theorem HasPair.isConsistent {p : PlacedPair} (h : s.HasPair p) (hs : s.IsConsistent) :
    p.first.IsConsistent ∧ p.second.IsConsistent :=
  ⟨hs _ (List.mem_of_getElem? h.first), hs _ (List.mem_of_getElem? h.second)⟩

/-- **The layout of a substation model.**  For every graph and every hop bound, the pairs that a run
over a consistent substation links are those that are not connected in the graph with the terminals
of the links made earlier.  Numbered in the order in which they are treated, the `k`-th of them has
the `k`-th node, switch and transformer and the terminals and windings at the places of `k`, and
these join its nodes.  There are no other records than those of the links, a marker for each
terminal and the reporting group, and every pair is either linked or counted as connected.  If the
identities that the run took are different, so are those of its records. -/
theorem substation_layout (s : SubstationLevels) (hs : s.IsConsistent) (graph : Graph)
    (hopBound : Nat) (pu : PerUnit) (ids : MridSource) :
    ∃ run, s.synthesize hopBound pu graph ids = .ok run ∧
      ∃ links : List PlacedPair, links.Pairwise PlacedPair.Before ∧
        (∀ p, p ∈ links ↔ s.HasPair p ∧ ¬ p.isConnected hopBound (graph.addAll
          (run.model.topology.terminals.take (4 * links.countP fun q => q.Before p))) = true) ∧
        (∀ (k : Nat) (p : PlacedPair), links[k]? = some p →
          ∃ l : LinkRecords, l.StandsAt run.model.topology k ∧
            l.Joins s.substation.mrid p.toCrossPair) ∧
        run.model.topology.HoldsLinks links.length ∧
        run.model.topology.terminals.map (·.busNameMarkerMrid) =
          run.model.topology.busNameMarkers.map (·.mrid) ∧
        (∀ m ∈ run.model.topology.busNameMarkers,
          m.reportingGroupMrid = run.model.topology.reportingGroup.mrid) ∧
        links.length + run.model.alreadyConnected = s.pairCount ∧
        ((ids.take (run.ids.drawn - ids.drawn)).Nodup → run.model.topology.mrids.Nodup) := by
  have hpairs : (placedPairsOf 0 s.levels).map (·.toCrossPair) = s.crossPairs :=
    map_toCrossPair_placedPairsOf 0 s.levels
  have hlength : (placedPairsOf 0 s.levels).length = s.pairCount := by
    rw [← length_crossPairs, ← hpairs, List.length_map]
  have hstart : (s.emptyDraft graph ids).LaidOut s.substation.mrid [] :=
    ⟨⟨⟨rfl, rfl, rfl⟩, rfl, rfl, rfl⟩, by simp⟩
  obtain ⟨links, hlinks, htreats⟩ := hstart.foldl_linkUnlessConnected hopBound pu
    (placedPairsOf 0 s.levels) (.start rfl rfl rfl)
    (pairwise_placedPairsOf 0 s.levels) fun p hp => (mem_placedPairsOf_levels.1 hp).isConsistent hs
  rw [← List.foldl_map, hpairs] at hlinks htreats
  have hok := (s.synthesize_isOk_iff hopBound pu graph ids).2 hs
  have hrun := Synthesis.RunsOver.substation hok
  have hrefers := s.refersBack_linkAll hopBound pu graph ids
  refine ⟨_, hok, links, htreats.pairwise_made, fun p => ?_, hlinks.link, hlinks.holdsLinks,
    hrefers.map_marker, ?_, htreats.length_made_add_skipped.trans hlength, fun hnodup => ?_⟩
  · rw [htreats.mem_iff, List.nil_append, mem_placedPairsOf_levels, Nat.zero_add]
    rfl
  · rw [hrun.reportingGroup_mrid]
    exact hrefers.marker
  · exact hrun.mrids_perm.nodup_iff.2 hnodup

/-- Of the two pairs one is connected already, and the other one gets the link with number zero. -/
theorem substation_layout_threeNodeLevels :
    ∃ run, (threeNodeLevels false).synthesize 5 {} (.ofTerminals joiningTerminals) .sequential =
        .ok run ∧
      run.model.topology.HoldsLinks 1 ∧ run.model.topology.mrids.Nodup ∧
      ∃ l : LinkRecords, l.StandsAt run.model.topology 0 ∧
        l.switchSecond.attachment = (l.switch.mrid, .ofNat 102, 2) := by
  obtain ⟨run, hrun, links, -, -, hlink, hholds, -, -, hcount, hnodup⟩ :=
    substation_layout (threeNodeLevels false) (by decide) (.ofTerminals joiningTerminals) 5 {}
      .sequential
  have hok := ((threeNodeLevels false).synthesize_isOk_iff 5 {} (.ofTerminals joiningTerminals)
    .sequential).2 (by decide)
  obtain rfl := Except.ok.inj (hok.symm.trans hrun)
  have hskipped : ((threeNodeLevels false).linkAll 5 {} (.ofTerminals joiningTerminals)
      .sequential).model.alreadyConnected = 1 := by decide +kernel
  have hpairs : (threeNodeLevels false).pairCount = 2 := by decide +kernel
  have hone : links.length = 1 := by omega
  obtain ⟨p, rfl⟩ := List.length_eq_one_iff.1 hone
  obtain ⟨l, hl, hjoins⟩ := hlink 0 p rfl
  have hnode : (((threeNodeLevels false).linkAll 5 {} (.ofTerminals joiningTerminals)
      .sequential).model.topology.terminals[1]?).map (·.connectivityNodeMrid) =
        some (.ofNat 102) := by decide +kernel
  have hsecond : l.switchSecond.connectivityNodeMrid = .ofNat 102 := by
    rw [hl.switchSecond] at hnode
    exact Option.some.inj hnode
  have hfirst := hjoins.switchSecond
  have hends : p.firstNode.mrid = .ofNat 102 := by
    rw [← hsecond]
    exact (congrArg (·.2.1) hfirst).symm
  rw [hends] at hfirst
  exact ⟨_, hok, hholds, hnodup (by decide +kernel), l, hl, hfirst⟩

end SubstationLevels

end Switchyard
