import Switchyard.Proofs.Graph.Growth
import Switchyard.Proofs.Graph.Link

/-!
# Distance as a metric

What the distance of two points means, for a graph that was built by adding terminals in any number
of portions: the least number of terminals of a walk between them.  So it is symmetric, it obeys the
triangle inequality, it is a matter of which points are joined and of nothing else
(`distance_eq_of_sameWiring`), and it can only shrink while the graph grows
(`Grows.distance_le`).

The main statement is `distance_shortest_walk`.
-/

set_option autoImplicit false

namespace Switchyard.Graph

/-- The graph that comes of adding terminals in some portions. -/
def ofPortions (portions : List (List Terminal)) : Graph := portions.foldl addAll empty

/-- Some terminals join a node to a piece of equipment exactly if others do. -/
def SameWiring (ts us : List Terminal) : Prop := ∀ edge, edge ∈ ts.map ends ↔ edge ∈ us.map ends

variable {g g' : Graph} {ts us : List Terminal} {a b c : Mrid} {m n : Nat}

/-! ## Portions -/

/-- It does not matter to a graph in which portions its terminals come. -/
theorem foldl_addAll (g : Graph) (portions : List (List Terminal)) :
    portions.foldl addAll g = g.addAll portions.flatten := by
  induction portions generalizing g with
  | nil => rfl
  | cons ts portions ih => rw [List.foldl_cons, ih, List.flatten_cons, addAll_append]

theorem ofPortions_eq (portions : List (List Terminal)) :
    ofPortions portions = ofTerminals portions.flatten := foldl_addAll empty portions

theorem terminals_ofPortions (portions : List (List Terminal)) :
    (ofPortions portions).terminals = portions.flatten := by
  rw [ofPortions_eq, terminals_ofTerminals]

theorem inStep_ofPortions (portions : List (List Terminal)) : (ofPortions portions).InStep :=
  ofPortions_eq portions ▸ inStep_ofTerminals _

/-! ## The wiring alone -/

theorem SameWiring.symm (h : SameWiring ts us) : SameWiring us ts := fun edge => (h edge).symm

theorem SameWiring.joined (h : SameWiring ts us) (hjoined : Joined ts a b) : Joined us a b := by
  rw [joined_iff_mem_ends] at hjoined ⊢
  exact hjoined.imp (h _).1 (h _).1

theorem SameWiring.occurs (h : SameWiring ts us) (ha : Occurs ts a) : Occurs us a :=
  let ⟨b, hjoined⟩ := ha
  ⟨b, h.joined hjoined⟩

theorem SameWiring.walk_iff (h : SameWiring ts us) : Walk ts n a b ↔ Walk us n a b := by
  constructor
  · intro hwalk
    exact hwalk.of_joined fun _ _ => h.joined
  · intro hwalk
    exact hwalk.of_joined fun _ _ => h.symm.joined

/-- Graphs with the same wiring have the same distances. -/
theorem distance_eq_of_sameWiring (hg : g.InStep) (hg' : g'.InStep)
    (h : SameWiring g.terminals g'.terminals) (a b : Mrid) :
    g.distance a b = g'.distance a b := by
  have hoccurs (x : Mrid) : Occurs g.terminals x ↔ Occurs g'.terminals x :=
    ⟨h.occurs, h.symm.occurs⟩
  apply Option.ext
  intro n
  simp only [hg.distance_eq_some_iff, hg'.distance_eq_some_iff, Shortest, h.walk_iff, hoccurs]

/-! ## Inequalities -/

/-- A walk between points of a graph is at least as long as their distance. -/
theorem InStep.distance_le (hg : g.InStep) (ha : Occurs g.terminals a)
    (hwalk : Walk g.terminals n a b) : ∃ k ≤ n, g.distance a b = some k := by
  obtain ⟨k, hk, hshort⟩ := hwalk.exists_shortest
  exact ⟨k, hk, hg.distance_eq_some_iff.2 ⟨ha, hwalk.occurs_right ha, hshort⟩⟩

/-- **The triangle inequality.** -/
theorem InStep.distance_triangle (hg : g.InStep) (hab : g.distance a b = some m)
    (hbc : g.distance b c = some n) : ∃ k ≤ m + n, g.distance a c = some k := by
  obtain ⟨ha, -, hshort⟩ := hg.distance_eq_some_iff.1 hab
  obtain ⟨-, -, hshort'⟩ := hg.distance_eq_some_iff.1 hbc
  exact hg.distance_le ha (hshort.1.append hshort'.1)

/-- **More terminals bring points closer only.** -/
theorem Grows.distance_le (h : g.Grows g') (hg : g.InStep) (hab : g.distance a b = some n) :
    ∃ k ≤ n, g'.distance a b = some k := by
  obtain ⟨ha, -, hshort⟩ := hg.distance_eq_some_iff.1 hab
  exact (h.inStep hg).distance_le (h.occurs ha) (h.walk hshort.1)

/-! ## The main statement -/

/-- **The distance of two identities is the least number of terminals of a walk between them, and
there is one exactly if both are points of the graph and some walk joins them.**  So two points are
connected within a bound if a walk of fewer terminals joins them; distances are symmetric and obey
the triangle inequality; which terminals join the points, how often, and in which order and portions
they were added is nothing to them; and further terminals never make them greater. -/
theorem distance_shortest_walk (portions : List (List Terminal)) :
    (∀ a b n, (ofPortions portions).distance a b = some n ↔
      Occurs portions.flatten a ∧ Occurs portions.flatten b ∧ Shortest portions.flatten n a b) ∧
    (∀ a b bound, (ofPortions portions).isConnected a b bound = true ↔
      Occurs portions.flatten a ∧ Occurs portions.flatten b ∧
        ∃ n < bound, Walk portions.flatten n a b) ∧
    (∀ a b, (ofPortions portions).distance a b = (ofPortions portions).distance b a) ∧
    (∀ a b c m n, (ofPortions portions).distance a b = some m →
      (ofPortions portions).distance b c = some n →
        ∃ k ≤ m + n, (ofPortions portions).distance a c = some k) ∧
    (∀ portions', SameWiring portions.flatten portions'.flatten → ∀ a b,
      (ofPortions portions).distance a b = (ofPortions portions').distance a b) ∧
    ∀ ts a b n, (ofPortions portions).distance a b = some n →
      ∃ k ≤ n, ((ofPortions portions).addAll ts).distance a b = some k := by
  have hg : (ofPortions portions).InStep := ofPortions_eq portions ▸ inStep_ofTerminals _
  have hterminals (portions : List (List Terminal)) :
      (ofPortions portions).terminals = portions.flatten := by
    rw [ofPortions_eq, terminals_ofTerminals]
  refine ⟨?_, ?_, hg.distance_comm, ?_, ?_, ?_⟩
  · intro a b n
    rw [hg.distance_eq_some_iff, hterminals]
  · intro a b bound
    rw [hg.isConnected_iff_walk, hterminals]
  · intro a b c m n hab hbc
    exact hg.distance_triangle hab hbc
  · intro portions' hsame
    have hg' : (ofPortions portions').InStep := ofPortions_eq portions' ▸ inStep_ofTerminals _
    refine distance_eq_of_sameWiring hg hg' ?_
    rwa [hterminals, hterminals]
  · intro ts a b n hab
    exact (Grows.addAll _ ts).distance_le hg hab

/-- A terminal that joins a piece of equipment to a node, both given by number. -/
def joining (equipment node : Nat) : Terminal :=
  { conductingEquipmentMrid := .ofNat equipment, connectivityNodeMrid := .ofNat node }

/-- Two pieces of equipment at one node, and a terminal of a third one that is its own node.  Added
at once, one of the terminals twice, they give the same distances as added one after the other, and
a further terminal brings the two pieces of equipment closer. -/
theorem distance_shortest_walk_twoPortions :
    (ofPortions [[joining 1 10], [joining 2 10, joining 3 3]]).distance (.ofNat 1) (.ofNat 2) =
        some 2 ∧
      Shortest [joining 1 10, joining 2 10, joining 3 3] 2 (.ofNat 1) (.ofNat 2) ∧
      (ofPortions [[joining 3 3, joining 2 10, joining 1 10, joining 2 10]]).distance (.ofNat 1)
        (.ofNat 2) = some 2 ∧
      ∃ k ≤ 2, ((ofPortions [[joining 1 10], [joining 2 10, joining 3 3]]).addAll
        [joining 1 2]).distance (.ofNat 1) (.ofNat 2) = some k := by
  obtain ⟨hwalks, -, -, -, hsame, hmore⟩ :=
    distance_shortest_walk [[joining 1 10], [joining 2 10, joining 3 3]]
  have htwo : (ofPortions [[joining 1 10], [joining 2 10, joining 3 3]]).distance (.ofNat 1)
      (.ofNat 2) = some 2 := by decide
  refine ⟨htwo, ((hwalks _ _ _).1 htwo).2.2, ?_, hmore _ _ _ _ htwo⟩
  rw [← hsame [[joining 3 3, joining 2 10, joining 1 10, joining 2 10]] ?_]
  · exact htwo
  · intro edge
    simp only [List.flatten_cons, List.flatten_nil, List.cons_append, List.nil_append,
      List.append_nil, List.map_cons, List.map_nil, List.mem_cons, List.not_mem_nil, or_false]
    grind

end Switchyard.Graph
