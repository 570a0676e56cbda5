import Mathlib.Data.List.Pairwise
import Switchyard.Proofs.Synthesis.Linking

/-!
# Links among the records

Whether two nodes were linked is seen from the records of a model alone: there are a switch, a node
and a transformer, and four terminals that join them into a path from the one to the other
(`Topology.Links`).

The links of a run take identities of their own.  So the records of two links never combine into a
third one, and the linked nodes are exactly the ends of the pairs that were linked
(`linksTo_madeEach_iff`).
-/

set_option autoImplicit false

namespace Switchyard

open Switchyard.Graph

/-! ## Linked nodes -/

namespace Topology

/-- There is a link from one node to another: a switch from the first to some node, and a
transformer from there to the second. -/
def LinksTo (t : Topology) (first second : Mrid) : Prop :=
  ∃ s ∈ t.switches, ∃ n ∈ t.connectivityNodes, ∃ w ∈ t.powerTransformers,
    t.Attaches s.mrid n.mrid 1 ∧ t.Attaches s.mrid first 2 ∧
      t.Attaches w.mrid n.mrid 1 ∧ t.Attaches w.mrid second 2

/-- There is a link between two nodes. -/
def Links (t : Topology) (a b : Mrid) : Prop := t.LinksTo a b ∨ t.LinksTo b a

/-- There are `n` switches, and as many nodes and transformers. -/
structure HasLinks (t : Topology) (n : Nat) : Prop where
  switches : t.switches.length = n
  nodes : t.connectivityNodes.length = n
  transformers : t.powerTransformers.length = n

end Topology

/-- What the four terminals of a link join. -/
def Graph.Link.attachments (l : Link) : List (Mrid × Mrid × Int32) :=
  [(l.switch, l.node, 1), (l.switch, l.first, 2), (l.transformer, l.node, 1),
    (l.transformer, l.second, 2)]

/-- The nodes that a link joins. -/
def Graph.Link.between (l : Link) : Mrid × Mrid := (l.first, l.second)

namespace CrossPair

variable (substation : Mrid) (pu : PerUnit) (d : Draft) (ps : List CrossPair)

/-! ## The links of a run -/

/-- The links that are made of some pairs, in their order. -/
def wiredEach : Draft → List CrossPair → List Link
  | _, [] => []
  | d, p :: ps => p.wired d :: wiredEach (p.link substation pu d) ps

theorem map_between_wiredEach :
    (wiredEach substation pu d ps).map Link.between = ps.map ends := by
  induction ps generalizing d with
  | nil => rfl
  | cons p ps ih => rw [wiredEach, List.map_cons, List.map_cons, ih, Link.between, wired, ends]

theorem attachments_madeEach :
    (madeEach substation pu d ps).attachments =
      (wiredEach substation pu d ps).flatMap Link.attachments := by
  induction ps generalizing d with
  | nil => rfl
  | cons p ps ih =>
    rw [madeEach, Topology.attachments_append, ih, wiredEach, List.flatMap_cons]
    rfl

theorem switches_madeEach :
    (madeEach substation pu d ps).switches.map (·.mrid) =
      (wiredEach substation pu d ps).map (·.switch) := by
  induction ps generalizing d with
  | nil => rfl
  | cons p ps ih =>
    rw [wiredEach, List.map_cons, ← ih]
    rfl

theorem nodes_madeEach :
    (madeEach substation pu d ps).connectivityNodes.map (·.mrid) =
      (wiredEach substation pu d ps).map (·.node) := by
  induction ps generalizing d with
  | nil => rfl
  | cons p ps ih =>
    rw [wiredEach, List.map_cons, ← ih]
    rfl

theorem transformers_madeEach :
    (madeEach substation pu d ps).powerTransformers.map (·.mrid) =
      (wiredEach substation pu d ps).map (·.transformer) := by
  induction ps generalizing d with
  | nil => rfl
  | cons p ps ih =>
    rw [wiredEach, List.map_cons, ← ih]
    rfl

theorem hasLinks_madeEach : (madeEach substation pu d ps).HasLinks ps.length := by
  have hlength : (wiredEach substation pu d ps).length = ps.length := by
    have h := congrArg List.length (map_between_wiredEach substation pu d ps)
    rwa [List.length_map, List.length_map] at h
  have hswitches := congrArg List.length (switches_madeEach substation pu d ps)
  have hnodes := congrArg List.length (nodes_madeEach substation pu d ps)
  have htransformers := congrArg List.length (transformers_madeEach substation pu d ps)
  rw [List.length_map, List.length_map, hlength] at hswitches hnodes htransformers
  exact ⟨hswitches, hnodes, htransformers⟩

/-! ## No two links share an inner point -/

section Nodup

variable {substation pu d ps} {a b x : Mrid} {l l' : Link}

theorem mem_take_of_mem_inner_wiredEach
    (h : x ∈ (wiredEach substation pu d ps).flatMap Link.inner) :
    x ∈ d.ids.take (linkDraws * ps.length) := by
  induction ps generalizing d with
  | nil => exact absurd h (by simp [wiredEach])
  | cons p ps ih =>
    rw [List.length_cons, Nat.mul_succ, Nat.add_comm, MridSource.take_add, List.mem_append]
    rw [wiredEach, List.flatMap_cons, List.mem_append] at h
    rcases h with h | h
    · exact .inl (p.mem_take_of_mem_inner d h)
    · exact .inr (ih h)

/-- With different identities the inner points of all links are different. -/
theorem nodup_inner_wiredEach (h : (d.ids.take (linkDraws * ps.length)).Nodup) :
    ((wiredEach substation pu d ps).flatMap Link.inner).Nodup := by
  induction ps generalizing d with
  | nil => exact List.nodup_nil
  | cons p ps ih =>
    rw [List.length_cons, Nat.mul_succ, Nat.add_comm, MridSource.take_add] at h
    obtain ⟨hfirst, hrest, hdisjoint⟩ := List.nodup_append'.1 h
    rw [wiredEach, List.flatMap_cons]
    refine List.nodup_append'.2 ⟨nodup_inner_wired hfirst, ih hrest, ?_⟩
    intro x hx hx'
    exact hdisjoint (p.mem_take_of_mem_inner d hx) (mem_take_of_mem_inner_wiredEach hx')

/-- Links with a common inner point are the same. -/
theorem eq_of_mem_inner (h : ((wiredEach substation pu d ps).flatMap Link.inner).Nodup)
    (hl : l ∈ wiredEach substation pu d ps) (hl' : l' ∈ wiredEach substation pu d ps)
    (hx : x ∈ l.inner) (hx' : x ∈ l'.inner) : l = l' := by
  by_contra hne
  have hdisjoint := (List.nodup_flatMap.1 h).2
  have hsymm : Std.Symm (Function.onFun List.Disjoint Link.inner) :=
    ⟨fun _ _ h _ hx hx' => h hx' hx⟩
  exact hdisjoint.forall hl hl' hne hx hx'

/-! ## The linked nodes -/

theorem attaches_madeEach_iff {equipment node : Mrid} {number : Int32} :
    (madeEach substation pu d ps).Attaches equipment node number ↔
      ∃ l ∈ wiredEach substation pu d ps, (equipment, node, number) ∈ l.attachments := by
  rw [Topology.Attaches, attachments_madeEach, List.mem_flatMap]

/-- What is attached to an inner point of a link is attached by the link itself. -/
theorem mem_attachments_of_attaches
    (hnodup : ((wiredEach substation pu d ps).flatMap Link.inner).Nodup)
    (hl : l ∈ wiredEach substation pu d ps) (hx : x ∈ l.inner) {node : Mrid} {number : Int32}
    (h : (madeEach substation pu d ps).Attaches x node number) :
    (x, node, number) ∈ l.attachments := by
  obtain ⟨l', hl', hmem⟩ := attaches_madeEach_iff.1 h
  have hx' : x ∈ l'.inner := by
    simp only [Link.attachments, List.mem_cons, List.not_mem_nil, or_false, Prod.mk.injEq] at hmem
    rcases hmem with ⟨rfl, -⟩ | ⟨rfl, -⟩ | ⟨rfl, -⟩ | ⟨rfl, -⟩ <;> simp [Link.inner]
  rwa [eq_of_mem_inner hnodup hl hl' hx hx']

theorem switch_ne_transformer
    (hnodup : ((wiredEach substation pu d ps).flatMap Link.inner).Nodup)
    (hl : l ∈ wiredEach substation pu d ps) : l.switch ≠ l.transformer := by
  have h := (List.nodup_flatMap.1 hnodup).1 l hl
  simp only [Link.inner, List.nodup_cons, List.mem_cons, not_or] at h
  exact h.1.2.1

/-- A switch and a transformer that meet at a node belong to one link. -/
theorem exists_of_linksTo (hnodup : ((wiredEach substation pu d ps).flatMap Link.inner).Nodup)
    (h : (madeEach substation pu d ps).LinksTo a b) :
    ∃ l ∈ wiredEach substation pu d ps, l.between = (a, b) := by
  obtain ⟨s, hs, n, -, w, hw, hnode, hfirst, hnode', hsecond⟩ := h
  obtain ⟨l, hl, hswitch⟩ : ∃ l ∈ wiredEach substation pu d ps, l.switch = s.mrid := by
    rw [← List.mem_map, ← switches_madeEach]
    exact List.mem_map_of_mem hs
  obtain ⟨l', hl', htransformer⟩ :
      ∃ l ∈ wiredEach substation pu d ps, l.transformer = w.mrid := by
    rw [← List.mem_map, ← transformers_madeEach]
    exact List.mem_map_of_mem hw
  rw [← hswitch] at hnode hfirst
  rw [← htransformer] at hnode' hsecond
  have hne := switch_ne_transformer hnodup hl
  have hne' := switch_ne_transformer hnodup hl'
  have hn : n.mrid = l.node := by
    have h := mem_attachments_of_attaches hnodup hl (by simp [Link.inner]) hnode
    simpa [Link.attachments, hne] using h
  have hn' : n.mrid = l'.node := by
    have h := mem_attachments_of_attaches hnodup hl' (by simp [Link.inner]) hnode'
    simpa [Link.attachments, hne'.symm] using h
  obtain rfl : l = l' := eq_of_mem_inner hnodup hl hl' (x := n.mrid)
    (by simp [Link.inner, hn]) (by simp [Link.inner, hn'])
  have ha : a = l.first := by
    have h := mem_attachments_of_attaches hnodup hl (by simp [Link.inner]) hfirst
    simpa [Link.attachments, hne] using h
  have hb : b = l.second := by
    have h := mem_attachments_of_attaches hnodup hl (by simp [Link.inner]) hsecond
    simpa [Link.attachments, hne.symm] using h
  exact ⟨l, hl, by rw [Link.between, ha, hb]⟩

theorem linksTo_of_mem (hl : l ∈ wiredEach substation pu d ps) :
    (madeEach substation pu d ps).LinksTo l.first l.second := by
  have attaches {x : Mrid × Mrid × Int32} (hx : x ∈ l.attachments) :
      x ∈ (madeEach substation pu d ps).attachments := by
    rw [attachments_madeEach]
    exact List.mem_flatMap.2 ⟨l, hl, hx⟩
  obtain ⟨s, hs, hswitch⟩ : ∃ s ∈ (madeEach substation pu d ps).switches, s.mrid = l.switch := by
    rw [← List.mem_map, switches_madeEach]
    exact List.mem_map_of_mem hl
  obtain ⟨n, hn, hnode⟩ :
      ∃ n ∈ (madeEach substation pu d ps).connectivityNodes, n.mrid = l.node := by
    rw [← List.mem_map, nodes_madeEach]
    exact List.mem_map_of_mem hl
  obtain ⟨w, hw, htransformer⟩ :
      ∃ w ∈ (madeEach substation pu d ps).powerTransformers, w.mrid = l.transformer := by
    rw [← List.mem_map, transformers_madeEach]
    exact List.mem_map_of_mem hl
  refine ⟨s, hs, n, hn, w, hw, ?_⟩
  rw [hswitch, hnode, htransformer]
  exact ⟨attaches (by simp [Link.attachments]), attaches (by simp [Link.attachments]),
    attaches (by simp [Link.attachments]), attaches (by simp [Link.attachments])⟩

/-- **The linked nodes are the ends of the pairs that were linked.** -/
theorem linksTo_madeEach_iff (hnodup : (d.ids.take (linkDraws * ps.length)).Nodup) :
    (madeEach substation pu d ps).LinksTo a b ↔ (a, b) ∈ ps.map ends := by
  rw [← map_between_wiredEach substation pu d ps, List.mem_map]
  constructor
  · exact exists_of_linksTo (nodup_inner_wiredEach hnodup)
  · rintro ⟨l, hl, hends⟩
    obtain ⟨rfl, rfl⟩ : l.first = a ∧ l.second = b := Prod.mk.inj hends
    exact linksTo_of_mem hl

end Nodup

end CrossPair

end Switchyard
