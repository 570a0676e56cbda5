import Mathlib.Algebra.BigOperators.Fin
import Switchyard.Proofs.Synthesis.Interconnection
import Switchyard.Proofs.Synthesis.LinkRecords

/-!
# Which nodes of a substation are linked

Up to the default bound a run links two nodes exactly if they belong to different voltage levels
and are not connected within the bound in the graph that the run starts from.  Whatever the run
links on the way is nothing to the other pairs, so the order of the levels and of their nodes does
not matter, and the links can be counted beforehand.

The main statement is `linked_iff_not_connected`.
-/

set_option autoImplicit false

namespace Switchyard

/-- The same voltage level, with its nodes in another order. -/
structure ConnectableLevel.Rearranges (a b : ConnectableLevel) : Prop where
  voltageLevel : a.voltageLevel = b.voltageLevel
  baseVoltage : a.baseVoltage = b.baseVoltage
  nodes : a.nodes.Perm b.nodes

namespace SubstationLevels

open Switchyard.Graph CrossPair

/-- The same substation, with its voltage levels and their nodes in another order. -/
def Rearranges (s s' : SubstationLevels) : Prop :=
  s.substation = s'.substation ∧
    ∃ levels, List.Forall₂ ConnectableLevel.Rearranges s.levels levels ∧ levels.Perm s'.levels

/-- Two identities are nodes of different voltage levels. -/
def AcrossLevels (s : SubstationLevels) (a b : Mrid) : Prop :=
  ∃ i j : Nat, i ≠ j ∧ ∃ x y, s.levels[i]? = some x ∧ s.levels[j]? = some y ∧
    a ∈ x.nodeMrids ∧ b ∈ y.nodeMrids

/-- For every two levels of a list, the product of the numbers of their nodes. -/
def pairCountOf (levels : List ConnectableLevel) : Nat :=
  ∑ i : Fin levels.length, ∑ j ∈ Finset.Ioi i, levels[i].nodes.length * levels[j].nodes.length

/-- How many pairs of nodes of different voltage levels there are. -/
def pairCount (s : SubstationLevels) : Nat := pairCountOf s.levels

/-- The pairs that are connected within a bound. -/
def connectedPairs (s : SubstationLevels) (hopBound : Nat) (graph : Graph) : List CrossPair :=
  s.crossPairs.filter fun p => p.isConnected hopBound graph

variable {s s' : SubstationLevels} {a b : Mrid}

/-! ## The nodes of different levels -/

/-- The ends of the pairs are a node of a level and a node of a later one. -/
theorem mem_map_ends_crossPairs_iff :
    (a, b) ∈ s.crossPairs.map CrossPair.ends ↔
      ∃ i j : Nat, i < j ∧ ∃ x y, s.levels[i]? = some x ∧ s.levels[j]? = some y ∧
        a ∈ x.nodeMrids ∧ b ∈ y.nodeMrids := by
  constructor
  · intro h
    obtain ⟨p, hp, hends⟩ := List.mem_map.1 h
    obtain ⟨i, j, hij, x, y, hx, hy, hp⟩ := mem_crossPairsOf_iff.1 hp
    obtain ⟨rfl, rfl⟩ : p.firstNode.mrid = a ∧ p.secondNode.mrid = b := Prod.mk.inj hends
    exact ⟨i, j, hij, x, y, hx, hy, firstNode_mrid_mem hp, secondNode_mrid_mem hp⟩
  · rintro ⟨i, j, hij, x, y, hx, hy, ha, hb⟩
    have hmem : (a, b) ∈ (x.pairsWith y).map CrossPair.ends := by
      rw [map_ends_pairsWith]
      exact List.mem_product.2 ⟨ha, hb⟩
    obtain ⟨p, hp, hends⟩ := List.mem_map.1 hmem
    exact List.mem_map.2 ⟨p, mem_crossPairsOf_iff.2 ⟨i, j, hij, x, y, hx, hy, hp⟩, hends⟩

/-- Nodes of different levels are the ends of a pair, in the one order or the other. -/
theorem acrossLevels_iff :
    s.AcrossLevels a b ↔
      (a, b) ∈ s.crossPairs.map CrossPair.ends ∨ (b, a) ∈ s.crossPairs.map CrossPair.ends := by
  rw [mem_map_ends_crossPairs_iff, mem_map_ends_crossPairs_iff]
  constructor
  · rintro ⟨i, j, hne, x, y, hx, hy, ha, hb⟩
    rcases Nat.lt_or_gt_of_ne hne with h | h
    · exact .inl ⟨i, j, h, x, y, hx, hy, ha, hb⟩
    · exact .inr ⟨j, i, h, y, x, hy, hx, hb, ha⟩
  · rintro (⟨i, j, h, x, y, hx, hy, ha, hb⟩ | ⟨i, j, h, x, y, hx, hy, hb, ha⟩)
    · exact ⟨i, j, Nat.ne_of_lt h, x, y, hx, hy, ha, hb⟩
    · exact ⟨j, i, Nat.ne_of_gt h, y, x, hy, hx, ha, hb⟩

/-- One of two nodes is in one set of nodes, and the other in another. -/
def Separates (a b : Mrid) (p q : Mrid → Prop) : Prop := (p a ∧ q b) ∨ (q a ∧ p b)

/-- Whether two nodes belong to different levels is seen from the sets of nodes of the levels. -/
theorem acrossLevels_iff_not_pairwise :
    s.AcrossLevels a b ↔
      ¬ (s.levels.map fun x n => n ∈ x.nodeMrids).Pairwise fun p q => ¬ Separates a b p q := by
  rw [List.pairwise_map, List.pairwise_iff_getElem]
  constructor
  · rintro ⟨i, j, hne, x, y, hx, hy, ha, hb⟩ hpairwise
    obtain ⟨hi, rfl⟩ := List.getElem?_eq_some_iff.1 hx
    obtain ⟨hj, rfl⟩ := List.getElem?_eq_some_iff.1 hy
    rcases Nat.lt_or_gt_of_ne hne with h | h
    · exact hpairwise i j hi hj h (.inl ⟨ha, hb⟩)
    · exact hpairwise j i hj hi h (.inr ⟨ha, hb⟩)
  · intro h
    push Not at h
    obtain ⟨i, j, hi, hj, hij, hseparates⟩ := h
    have hx := List.getElem?_eq_getElem hi
    have hy := List.getElem?_eq_getElem hj
    rcases hseparates with ⟨ha, hb⟩ | ⟨ha, hb⟩
    · exact ⟨i, j, Nat.ne_of_lt hij, _, _, hx, hy, ha, hb⟩
    · exact ⟨j, i, Nat.ne_of_gt hij, _, _, hy, hx, ha, hb⟩

/-- **The order of the levels and of their nodes does not matter.** -/
theorem Rearranges.acrossLevels_iff (h : s.Rearranges s') :
    s.AcrossLevels a b ↔ s'.AcrossLevels a b := by
  obtain ⟨-, levels, hlevels, hperm⟩ := h
  have hsets : (s.levels.map fun x n => n ∈ x.nodeMrids) =
      levels.map fun x n => n ∈ x.nodeMrids := by
    have hsame {x y : ConnectableLevel} (hxy : x.Rearranges y) :
        (fun n => n ∈ x.nodeMrids) = fun n => n ∈ y.nodeMrids :=
      funext fun n => propext (hxy.nodes.map _).mem_iff
    rw [← List.forall₂_eq_eq_eq, List.forall₂_map_left_iff, List.forall₂_map_right_iff]
    exact hlevels.imp fun _ _ => hsame
  have hsymm {p q : Mrid → Prop} (h : ¬ Separates a b p q) : ¬ Separates a b q p :=
    fun h' => h h'.symm
  rw [acrossLevels_iff_not_pairwise, acrossLevels_iff_not_pairwise, hsets,
    (hperm.map _).pairwise_iff hsymm]

theorem perm_nodeMrids_of_forall₂ {levels levels' : List ConnectableLevel}
    (h : List.Forall₂ ConnectableLevel.Rearranges levels levels') :
    (levels.flatMap (·.nodeMrids)).Perm (levels'.flatMap (·.nodeMrids)) := by
  induction h with
  | nil => exact .refl _
  | cons hxy _ ih =>
    rw [List.flatMap_cons, List.flatMap_cons]
    exact (hxy.nodes.map _).append ih

/-- Rearranging keeps the nodes. -/
theorem Rearranges.perm_nodeMrids (h : s.Rearranges s') : s.nodeMrids.Perm s'.nodeMrids := by
  obtain ⟨-, levels, hlevels, hperm⟩ := h
  exact (perm_nodeMrids_of_forall₂ hlevels).trans (hperm.flatMap_right _)

/-! ## How many pairs there are -/

theorem length_crossPairsOf (levels : List ConnectableLevel) :
    (crossPairsOf levels).length = pairCountOf levels := by
  induction levels with
  | nil => rfl
  | cons first rest ih =>
    have hfirst : (rest.flatMap first.pairsWith).length =
        ∑ j : Fin rest.length, first.nodes.length * rest[j].nodes.length := by
      rw [List.length_flatMap, ← Fin.sum_univ_fun_getElem]
      exact Finset.sum_congr rfl fun j _ => length_pairsWith
    have hcount : pairCountOf (first :: rest) =
        ∑ i : Fin (rest.length + 1), ∑ j ∈ Finset.Ioi i,
          (first :: rest)[i].nodes.length * (first :: rest)[j].nodes.length := rfl
    rw [crossPairsOf, List.length_append, hfirst, ih, hcount, Fin.sum_univ_succ, Fin.sum_Ioi_zero]
    simp only [Fin.sum_Ioi_succ]
    rfl

theorem length_crossPairs (s : SubstationLevels) : s.crossPairs.length = s.pairCount :=
  length_crossPairsOf s.levels

/-! ## The linked nodes -/

variable {hopBound : Nat} {pu : PerUnit} {graph : Graph} {ids : MridSource}

/-- A run with fresh identities links the ends of its linked pairs, and no other nodes. -/
theorem linksTo_linkAll_iff (hg : graph.InStep)
    (hfresh : s.DrawsFresh graph ids (s.linkAll hopBound pu graph ids)) :
    (s.linkAll hopBound pu graph ids).model.topology.LinksTo a b ↔
      (a, b) ∈ (s.linkedPairs hopBound pu graph ids).map CrossPair.ends := by
  rw [model_linkAll, linksModel, topology_linkEach_emptyDraft]
  exact linksTo_madeEach_iff (d := s.emptyDraft .empty ids) (hfresh.links hg).nodup

/-- **Up to the default bound the linked nodes are those of different levels that were not connected
before the run.** -/
theorem links_linkAll_iff (hg : graph.InStep) (hbound : hopBound ≤ 5) (hnodup : s.nodeMrids.Nodup)
    (hfresh : s.DrawsFresh graph ids (s.linkAll hopBound pu graph ids)) :
    (s.linkAll hopBound pu graph ids).model.topology.Links a b ↔
      s.AcrossLevels a b ∧ ¬ graph.isConnected a b hopBound = true := by
  have hlinks (a b : Mrid) : (s.linkAll hopBound pu graph ids).model.topology.LinksTo a b ↔
      (a, b) ∈ s.crossPairs.map CrossPair.ends ∧ ¬ graph.isConnected a b hopBound = true := by
    rw [linksTo_linkAll_iff hg hfresh, linkedPairs_eq_filter hg hbound hnodup hfresh]
    constructor
    · intro h
      obtain ⟨p, hp, hends⟩ := List.mem_map.1 h
      obtain ⟨hmem, hnot⟩ := List.mem_filter.1 hp
      obtain ⟨rfl, rfl⟩ : p.firstNode.mrid = a ∧ p.secondNode.mrid = b := Prod.mk.inj hends
      exact ⟨List.mem_map_of_mem hmem, of_decide_eq_true hnot⟩
    · rintro ⟨h, hnot⟩
      obtain ⟨p, hp, hends⟩ := List.mem_map.1 h
      obtain ⟨rfl, rfl⟩ : p.firstNode.mrid = a ∧ p.secondNode.mrid = b := Prod.mk.inj hends
      exact List.mem_map.2 ⟨p, List.mem_filter.2 ⟨hp, decide_eq_true hnot⟩, rfl⟩
  rw [Topology.Links, hlinks, hlinks, hg.isConnected_comm b a, acrossLevels_iff, or_and_right]

/-- Whatever is synthesized is what linking the levels gives. -/
theorem eq_linkAll_of_synthesize {run : Synthesis}
    (h : s.synthesize hopBound pu graph ids = .ok run) : s.linkAll hopBound pu graph ids = run := by
  rw [synthesize] at h
  split at h
  · exact absurd h (by simp)
  · exact Except.ok.inj h

/-- A run has a link for every pair that it links. -/
theorem hasLinks_linkAll :
    (s.linkAll hopBound pu graph ids).model.topology.HasLinks
      (s.linkedPairs hopBound pu graph ids).length := by
  rw [model_linkAll, linksModel, topology_linkEach_emptyDraft]
  exact hasLinks_madeEach _ _ _ _

/-- The links can be counted before the run. -/
theorem length_linkedPairs (hg : graph.InStep) (hbound : hopBound ≤ 5) (hnodup : s.nodeMrids.Nodup)
    (hfresh : s.DrawsFresh graph ids (s.linkAll hopBound pu graph ids)) :
    (s.linkedPairs hopBound pu graph ids).length =
      s.pairCount - (s.connectedPairs hopBound graph).length := by
  have hsplit := List.length_eq_length_filter_add (l := s.crossPairs) (·.isConnected hopBound graph)
  rw [length_crossPairs] at hsplit
  rw [linkedPairs_eq_filter hg hbound hnodup hfresh, connectedPairs, hsplit]
  simp

theorem alreadyConnected_linkAll (hg : graph.InStep) (hbound : hopBound ≤ 5)
    (hnodup : s.nodeMrids.Nodup)
    (hfresh : s.DrawsFresh graph ids (s.linkAll hopBound pu graph ids)) :
    (s.linkAll hopBound pu graph ids).model.alreadyConnected =
      (s.connectedPairs hopBound graph).length := by
  have hle : (s.connectedPairs hopBound graph).length ≤ s.crossPairs.length :=
    List.length_filter_le _ _
  rw [length_crossPairs] at hle
  rw [model_linkAll]
  show s.crossPairs.length - (s.linkedPairs hopBound pu graph ids).length = _
  rw [length_crossPairs, length_linkedPairs hg hbound hnodup hfresh]
  omega

/-- In a graph without terminals nothing is connected. -/
theorem connectedPairs_empty : s.connectedPairs hopBound (.ofTerminals []) = [] :=
  List.filter_eq_nil_iff.2 fun _ _ => by simp [CrossPair.isConnected, isConnected_ofTerminals_nil]

/-- **Up to the default bound two nodes are linked exactly if they belong to different levels and
were not connected before the run.**  So the order of the levels and of their nodes does not
matter, and there are as many links as pairs that were not connected. -/
theorem linked_iff_not_connected (s : SubstationLevels) (hs : s.IsConsistent)
    (hnodup : s.nodeMrids.Nodup) (ts : List Terminal) {hopBound : Nat} (hbound : hopBound ≤ 5)
    (pu : PerUnit) (ids : MridSource) :
    ∃ run, s.synthesize hopBound pu (.ofTerminals ts) ids = .ok run ∧
      (s.DrawsFresh (.ofTerminals ts) ids run →
        (∀ a b, run.model.topology.Links a b ↔
          s.AcrossLevels a b ∧ ¬ (Graph.ofTerminals ts).isConnected a b hopBound = true) ∧
        (∀ s' pu' ids' run', s.Rearranges s' →
          s'.synthesize hopBound pu' (.ofTerminals ts) ids' = .ok run' →
          s'.DrawsFresh (.ofTerminals ts) ids' run' →
          ∀ a b, run'.model.topology.Links a b ↔ run.model.topology.Links a b) ∧
        run.model.topology.HasLinks
          (s.pairCount - (s.connectedPairs hopBound (.ofTerminals ts)).length) ∧
        run.model.alreadyConnected = (s.connectedPairs hopBound (.ofTerminals ts)).length ∧
        (ts = [] → run.model.topology.HasLinks s.pairCount)) := by
  have hg := inStep_ofTerminals ts
  refine ⟨_, (s.synthesize_isOk_iff hopBound pu _ ids).2 hs, ?_⟩
  intro hfresh
  have hlinks (a b : Mrid) := links_linkAll_iff (a := a) (b := b) hg hbound hnodup hfresh
  have hcount : (s.linkAll hopBound pu (.ofTerminals ts) ids).model.topology.HasLinks _ :=
    hasLinks_linkAll
  rw [length_linkedPairs hg hbound hnodup hfresh] at hcount
  refine ⟨hlinks, ?_, hcount, alreadyConnected_linkAll hg hbound hnodup hfresh, ?_⟩
  · intro s' pu' ids' run' hs' hrun' hfresh' a b
    obtain rfl := eq_linkAll_of_synthesize hrun'
    have hnodup' : s'.nodeMrids.Nodup := hs'.perm_nodeMrids.nodup_iff.1 hnodup
    rw [links_linkAll_iff hg hbound hnodup' hfresh', hlinks, hs'.acrossLevels_iff]
  · rintro rfl
    rwa [connectedPairs_empty, List.length_nil, Nat.sub_zero] at hcount

/-- Two voltage levels with three nodes, in either order of the levels. -/
def threeNodeLevels (swapped : Bool) : SubstationLevels :=
  let levels : List ConnectableLevel :=
    [{ nodes := [{ mrid := .ofNat 101 }, { mrid := .ofNat 102 }] },
      { nodes := [{ mrid := .ofNat 103 }] }]
  { levels := if swapped then levels.reverse else levels }

/-- Two terminals of one piece of equipment, which connect two of the three nodes. -/
def joiningTerminals : List Terminal :=
  [{ conductingEquipmentMrid := .ofNat 201, connectivityNodeMrid := .ofNat 101 },
    { conductingEquipmentMrid := .ofNat 201, connectivityNodeMrid := .ofNat 103 }]

/-- Of two nodes, the one is connected to the node of the other level and is left alone, and the
other is linked to it; the same if the levels are swapped. -/
theorem linked_iff_not_connected_threeNodeLevels :
    ∃ run run',
      (threeNodeLevels false).synthesize 5 {} (.ofTerminals joiningTerminals) .sequential =
        .ok run ∧
      (threeNodeLevels true).synthesize 5 {} (.ofTerminals joiningTerminals) (.startingAt 1000) =
        .ok run' ∧
      run.model.topology.Links (.ofNat 102) (.ofNat 103) ∧
      ¬ run.model.topology.Links (.ofNat 101) (.ofNat 103) ∧
      run'.model.topology.Links (.ofNat 102) (.ofNat 103) ∧
      run.model.topology.HasLinks 1 := by
  have hok {swapped : Bool} {ids : MridSource} :
      (threeNodeLevels swapped).synthesize 5 {} (.ofTerminals joiningTerminals) ids =
        .ok ((threeNodeLevels swapped).linkAll 5 {} (.ofTerminals joiningTerminals) ids) := by
    refine ((threeNodeLevels swapped).synthesize_isOk_iff 5 {} _ ids).2 ?_
    cases swapped <;> decide
  have hswap : (threeNodeLevels false).Rearranges (threeNodeLevels true) :=
    ⟨rfl, _, List.forall₂_same.2 fun _ _ => ⟨rfl, rfl, .refl _⟩, (List.reverse_perm _).symm⟩
  obtain ⟨run, hrun, h⟩ := linked_iff_not_connected (threeNodeLevels false) (by decide) (by decide)
    joiningTerminals (Nat.le_refl 5) {} .sequential
  obtain rfl := Except.ok.inj (hok.symm.trans hrun)
  obtain ⟨hlinks, hrearranged, hcount, -, -⟩ := h ⟨by decide +kernel, by decide +kernel⟩
  have hlinked := (hlinks (.ofNat 102) (.ofNat 103)).2
    ⟨⟨0, 1, by decide, _, _, rfl, rfl, by decide, by decide⟩, by decide +kernel⟩
  refine ⟨_, _, hok, hok, hlinked, ?_, ?_, hcount⟩
  · intro h
    exact absurd ((hlinks _ _).1 h).2 (by decide +kernel)
  · exact (hrearranged _ {} _ _ hswap hok ⟨by decide +kernel, by decide +kernel⟩ _ _).2 hlinked

end SubstationLevels

end Switchyard
