import Mathlib.Data.List.Nodup
import Mathlib.Data.List.ProdSigma
import Switchyard.Proofs.Synthesis.Linking

/-!
# The pairs of a substation

Every node of one voltage level makes a pair with every node of each later one.  If no node occurs
twice over all levels, no two pairs join the same nodes (`pairwise_crossPairs`).
-/

set_option autoImplicit false

namespace Switchyard

open CrossPair

/-- The nodes of a voltage level. -/
def ConnectableLevel.nodeMrids (l : ConnectableLevel) : List Mrid := l.nodes.map (·.mrid)

/-- The nodes of all voltage levels. -/
def SubstationLevels.nodeMrids (s : SubstationLevels) : List Mrid :=
  s.levels.flatMap (·.nodeMrids)

variable {a b : ConnectableLevel} {levels rest : List ConnectableLevel} {p : CrossPair}

/-! ## Membership -/

/-- A pair of two levels is a node of each, with its place. -/
theorem mem_pairsWith_iff :
    p ∈ a.pairsWith b ↔ p.first = a ∧ p.second = b ∧
      a.nodes[p.firstPlace]? = some p.firstNode ∧ b.nodes[p.secondPlace]? = some p.secondNode := by
  simp only [ConnectableLevel.pairsWith, List.mem_flatMap, List.mem_map, Prod.exists,
    List.mk_mem_zipIdx_iff_getElem?]
  constructor
  · rintro ⟨m, i, hm, n, j, hn, rfl⟩
    exact ⟨rfl, rfl, hm, hn⟩
  · rintro ⟨rfl, rfl, hm, hn⟩
    exact ⟨_, _, hm, _, _, hn, rfl⟩

theorem firstNode_mem (hp : p ∈ a.pairsWith b) : p.firstNode ∈ a.nodes :=
  List.mem_of_getElem? (mem_pairsWith_iff.1 hp).2.2.1

theorem secondNode_mem (hp : p ∈ a.pairsWith b) : p.secondNode ∈ b.nodes :=
  List.mem_of_getElem? (mem_pairsWith_iff.1 hp).2.2.2

/-- Any two nodes of two levels make a pair. -/
theorem exists_mem_pairsWith {m n : ConnectivityNode} (hm : m ∈ a.nodes) (hn : n ∈ b.nodes) :
    ∃ p ∈ a.pairsWith b, p.firstNode = m ∧ p.secondNode = n := by
  obtain ⟨i, hi⟩ := List.getElem?_of_mem hm
  obtain ⟨j, hj⟩ := List.getElem?_of_mem hn
  exact ⟨⟨a, b, m, n, i, j⟩, mem_pairsWith_iff.2 ⟨rfl, rfl, hi, hj⟩, rfl, rfl⟩

/-- The pairs are those of an earlier level and a later one. -/
theorem mem_crossPairsOf_iff :
    p ∈ crossPairsOf levels ↔
      ∃ i j : Nat, i < j ∧ ∃ a b, levels[i]? = some a ∧ levels[j]? = some b ∧
        p ∈ a.pairsWith b := by
  induction levels with
  | nil => simp [crossPairsOf]
  | cons first rest ih =>
    rw [crossPairsOf, List.mem_append, List.mem_flatMap, ih]
    constructor
    · rintro (⟨b, hb, hp⟩ | ⟨i, j, hij, a, b, ha, hb, hp⟩)
      · obtain ⟨j, hj⟩ := List.getElem?_of_mem hb
        exact ⟨0, j + 1, by omega, first, b, rfl, hj, hp⟩
      · exact ⟨i + 1, j + 1, by omega, a, b, ha, hb, hp⟩
    · rintro ⟨i, j, hij, a, b, ha, hb, hp⟩
      obtain ⟨j, rfl⟩ : ∃ k, j = k + 1 := ⟨j - 1, by omega⟩
      cases i with
      | zero =>
        obtain rfl : first = a := Option.some.inj ha
        exact .inl ⟨b, List.mem_of_getElem? hb, hp⟩
      | succ i => exact .inr ⟨i, j, by omega, a, b, ha, hb, hp⟩

/-! ## The nodes of the pairs -/

theorem firstNode_mrid_mem (hp : p ∈ a.pairsWith b) : p.firstNode.mrid ∈ a.nodeMrids :=
  List.mem_map_of_mem (firstNode_mem hp)

theorem secondNode_mrid_mem (hp : p ∈ a.pairsWith b) : p.secondNode.mrid ∈ b.nodeMrids :=
  List.mem_map_of_mem (secondNode_mem hp)

/-- The nodes of a level, read off its numbered nodes. -/
theorem nodeMrids_eq_map_zipIdx (l : ConnectableLevel) :
    l.nodeMrids = l.nodes.zipIdx.map fun n => n.1.mrid := by
  rw [ConnectableLevel.nodeMrids]
  nth_rewrite 1 [← List.zipIdx_map_fst 0 l.nodes]
  exact List.map_map

/-- The pairs of two levels join each node of the one to each node of the other, once. -/
theorem map_ends_pairsWith : (a.pairsWith b).map ends = a.nodeMrids ×ˢ b.nodeMrids := by
  have hproduct : a.nodeMrids ×ˢ b.nodeMrids =
      a.nodeMrids.flatMap fun id => b.nodeMrids.map (Prod.mk id) := rfl
  rw [hproduct, nodeMrids_eq_map_zipIdx a, nodeMrids_eq_map_zipIdx b, List.flatMap_map,
    ConnectableLevel.pairsWith, List.map_flatMap]
  simp only [List.map_map]
  rfl

theorem length_pairsWith : (a.pairsWith b).length = a.nodes.length * b.nodes.length := by
  have h := congrArg List.length (map_ends_pairsWith (a := a) (b := b))
  rwa [List.length_map, List.length_product, ConnectableLevel.nodeMrids, List.length_map,
    ConnectableLevel.nodeMrids, List.length_map] at h

/-- A pair joins two nodes of the levels. -/
theorem ends_mem_nodeMrids (hp : p ∈ crossPairsOf levels) :
    p.firstNode.mrid ∈ levels.flatMap (·.nodeMrids) ∧
      p.secondNode.mrid ∈ levels.flatMap (·.nodeMrids) := by
  obtain ⟨i, j, -, a, b, ha, hb, hp⟩ := mem_crossPairsOf_iff.1 hp
  exact ⟨List.mem_flatMap.2 ⟨a, List.mem_of_getElem? ha, firstNode_mrid_mem hp⟩,
    List.mem_flatMap.2 ⟨b, List.mem_of_getElem? hb, secondNode_mrid_mem hp⟩⟩

/-- A pair of a level and a later one joins a node of that level to one of the later ones. -/
theorem ends_mem_of_mem_flatMap (hp : p ∈ rest.flatMap a.pairsWith) :
    p.firstNode.mrid ∈ a.nodeMrids ∧ p.secondNode.mrid ∈ rest.flatMap (·.nodeMrids) := by
  obtain ⟨b, hb, hp⟩ := List.mem_flatMap.1 hp
  exact ⟨firstNode_mrid_mem hp, List.mem_flatMap.2 ⟨b, hb, secondNode_mrid_mem hp⟩⟩

/-! ## Without repeated nodes -/

section Nodup

/-- The pairs of a level and the later ones join different nodes each. -/
theorem nodup_map_ends (ha : a.nodeMrids.Nodup) (hrest : (rest.flatMap (·.nodeMrids)).Nodup) :
    ((rest.flatMap a.pairsWith).map ends).Nodup := by
  obtain ⟨hnodup, hdisjoint⟩ := List.nodup_flatMap.1 hrest
  simp only [List.map_flatMap, map_ends_pairsWith]
  refine List.nodup_flatMap.2 ⟨fun b hb => ha.product (hnodup b hb), ?_⟩
  refine hdisjoint.imp fun hbc => ?_
  rintro ⟨m, n⟩ hb hc
  exact hbc (List.mem_product.1 hb).2 (List.mem_product.1 hc).2

/-- **No two pairs join the same nodes**, if no node occurs twice over all levels. -/
theorem pairwise_crossPairsOf (hnodup : (levels.flatMap (·.nodeMrids)).Nodup) :
    (crossPairsOf levels).Pairwise fun p q => ¬ q.SameEnds p := by
  induction levels with
  | nil => exact .nil
  | cons first rest ih =>
    obtain ⟨hfirst, hrest, hdisjoint⟩ := List.nodup_append'.1 hnodup
    refine List.pairwise_append.2 ⟨?_, ih hrest, fun p hp q hq => ?_⟩
    · have hends := List.pairwise_map.1 (nodup_map_ends hfirst hrest)
      refine hends.imp_of_mem fun {p q} hp hq hne hsame => ?_
      rcases sameEnds_iff.1 hsame with ⟨h₁, h₂⟩ | ⟨h₁, -⟩
      · exact hne (Prod.ext h₁.symm h₂.symm)
      · exact hdisjoint (h₁ ▸ (ends_mem_of_mem_flatMap hq).1) (ends_mem_of_mem_flatMap hp).2
    · have hin := (ends_mem_of_mem_flatMap hp).1
      obtain ⟨hq₁, hq₂⟩ := ends_mem_nodeMrids hq
      intro hsame
      rcases sameEnds_iff.1 hsame with ⟨h₁, -⟩ | ⟨-, h₂⟩
      · exact hdisjoint hin (h₁ ▸ hq₁)
      · exact hdisjoint hin (h₂ ▸ hq₂)

/-- A pair joins different nodes, if no node occurs twice over all levels. -/
theorem within_of_mem_crossPairsOf (hnodup : (levels.flatMap (·.nodeMrids)).Nodup)
    (hp : p ∈ crossPairsOf levels) : p.Within (levels.flatMap (·.nodeMrids)) := by
  obtain ⟨hfirst, hsecond⟩ := ends_mem_nodeMrids hp
  refine ⟨hfirst, hsecond, fun heq => ?_⟩
  obtain ⟨i, j, hij, a, b, ha, hb, hp⟩ := mem_crossPairsOf_iff.1 hp
  have hdisjoint := (List.nodup_flatMap.1 hnodup).2
  obtain ⟨hi, rfl⟩ := List.getElem?_eq_some_iff.1 ha
  obtain ⟨hj, rfl⟩ := List.getElem?_eq_some_iff.1 hb
  have hmem := secondNode_mrid_mem hp
  rw [← heq] at hmem
  exact List.pairwise_iff_getElem.1 hdisjoint i j hi hj hij (firstNode_mrid_mem hp) hmem

end Nodup

end Switchyard
