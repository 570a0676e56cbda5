import Mathlib.Data.Finset.Card
import Switchyard.Proofs.Graph.Metric

/-!
# Numbers of points, looked up and kept

A graph looks the number of a point up in its list of points (`Graph.index?`).  The numbers are those
from zero on, each of them that of one point, and the points are the ends of the terminals, whatever
the terminals are and in whatever portions they come (`index_in_step`).

So the numbers may as well be kept in a map.  `Indexed` is a graph with such an index, in which a
point is entered when it is first met; terminals, index, nodes and edges are filled in one by one.
`Indexed.Mirrors` ties it to the graph without an index, and every step keeps it
(`Mirrors.addEdge`).
-/

set_option autoImplicit false

namespace Switchyard

instance : Hashable Mrid := ⟨fun id => hash id.val⟩

namespace Graph

/-- A graph with an index of its points. -/
structure Indexed where
  /-- The terminals, in the order of insertion. -/
  terminals : List Terminal := []
  /-- The number of every point. -/
  index : Std.HashMap Mrid Nat := ∅
  /-- The points by number. -/
  nodes : List Mrid := []
  /-- For each terminal, the numbers of its node and of its equipment. -/
  edges : List (Nat × Nat) := []

namespace Indexed

/-- Looks a point up; one that has no number is entered with the next one. -/
def number (g : Indexed) (id : Mrid) : Indexed × Nat :=
  match g.index[id]? with
  | some i => (g, i)
  | none =>
    ({ g with index := g.index.insert id g.nodes.length, nodes := g.nodes ++ [id] },
      g.nodes.length)

/-- Adds the edge of a terminal. -/
def addEdge (g : Indexed) (t : Terminal) : Indexed :=
  let node := g.number t.connectivityNodeMrid
  let equipment := node.1.number t.conductingEquipmentMrid
  { equipment.1 with edges := equipment.1.edges ++ [(node.2, equipment.2)] }

/-- The graph with more terminals: first their edges are added, one by one, and then they are. -/
def addAll (g : Indexed) (ts : List Terminal) : Indexed :=
  { ts.foldl addEdge g with terminals := g.terminals ++ ts }

/-- The graph of a list of terminals. -/
def ofTerminals (ts : List Terminal) : Indexed := ({} : Indexed).addAll ts

/-- The graph that comes of adding terminals in some portions. -/
def ofPortions (portions : List (List Terminal)) : Indexed := portions.foldl addAll {}

/-! ## The terminals are kept apart -/

theorem number_withTerminals (g : Indexed) (us : List Terminal) (id : Mrid) :
    ({ g with terminals := us } : Indexed).number id =
      ({ (g.number id).1 with terminals := us }, (g.number id).2) := by
  simp only [number]
  split <;> rfl

theorem addEdge_withTerminals (g : Indexed) (us : List Terminal) (t : Terminal) :
    ({ g with terminals := us } : Indexed).addEdge t =
      { g.addEdge t with terminals := us } := by
  simp only [addEdge, number_withTerminals]

theorem foldl_addEdge_withTerminals (g : Indexed) (us ts : List Terminal) :
    ts.foldl addEdge { g with terminals := us } =
      { ts.foldl addEdge g with terminals := us } := by
  induction ts generalizing g with
  | nil => rfl
  | cons t ts ih => rw [List.foldl_cons, addEdge_withTerminals, ih, List.foldl_cons]

/-- Adding terminals in two portions is adding them at once. -/
theorem addAll_append (g : Indexed) (xs ys : List Terminal) :
    g.addAll (xs ++ ys) = (g.addAll xs).addAll ys := by
  simp only [addAll, foldl_addEdge_withTerminals, List.foldl_append, List.append_assoc]

theorem foldl_addAll (g : Indexed) (portions : List (List Terminal)) :
    portions.foldl addAll g = g.addAll portions.flatten := by
  induction portions generalizing g with
  | nil => simp [addAll]
  | cons ts portions ih => rw [List.foldl_cons, ih, List.flatten_cons, addAll_append]

theorem ofPortions_eq (portions : List (List Terminal)) :
    ofPortions portions = ofTerminals portions.flatten := foldl_addAll {} portions

/-! ## The index tells the places of the nodes -/

/-- In the index stands the place of every node, and nothing else. -/
def TellsPlaces (g : Indexed) : Prop := ∀ id, g.index[id]? = g.nodes.idxOf? id

theorem idxOf?_concat {points : List Mrid} {id : Mrid} (h : id ∉ points) (x : Mrid) :
    (points ++ [id]).idxOf? x = if id = x then some points.length else points.idxOf? x := by
  apply Option.ext
  intro i
  rw [idxOf?_eq_some_iff]
  split
  · rename_i heq
    subst heq
    simp [List.idxOf_append_of_notMem h]
  · rename_i hne
    rw [idxOf?_eq_some_iff, List.mem_append, List.mem_singleton, or_iff_left (Ne.symm hne)]
    exact and_congr_right fun hx => by rw [List.idxOf_append_of_mem hx]

variable {g : Indexed} {G : Graph}

/-- A point is numbered in the index as in the list of points. -/
theorem TellsPlaces.number_eq (h : g.TellsPlaces) (id : Mrid) :
    (g.number id).1.nodes = (place g.nodes id).1 ∧ (g.number id).2 = (place g.nodes id).2 := by
  rw [Indexed.number, place, h id]
  cases g.nodes.idxOf? id <;> exact ⟨rfl, rfl⟩

/-- Entering a point keeps the index right. -/
theorem TellsPlaces.number (h : g.TellsPlaces) (id : Mrid) : (g.number id).1.TellsPlaces := by
  intro x
  rw [Indexed.number]
  split
  · exact h x
  · rename_i hnone
    rw [h id] at hnone
    rw [Std.HashMap.getElem?_insert, idxOf?_concat (List.idxOf?_eq_none_iff.1 hnone), h x]
    simp only [beq_iff_eq]

theorem edges_number (g : Indexed) (id : Mrid) : (g.number id).1.edges = g.edges := by
  rw [number]
  split <;> rfl

/-! ## With and without an index -/

/-- The two graphs have the same points and edges, and the index tells where the points stand. -/
structure Mirrors (g : Indexed) (G : Graph) : Prop where
  nodes_eq : g.nodes = G.points
  edges_eq : g.edges = G.edges
  tellsPlaces : g.TellsPlaces

theorem mirrors_empty : ({} : Indexed).Mirrors Graph.empty := ⟨rfl, rfl, fun _ => by simp⟩

namespace Mirrors

theorem index_eq (h : g.Mirrors G) (id : Mrid) : g.index[id]? = G.index? id := by
  rw [h.tellsPlaces id, h.nodes_eq, index?]

/-- **The edge of one more terminal keeps the index in step.** -/
theorem addEdge (h : g.Mirrors G) (t : Terminal) : (g.addEdge t).Mirrors (G.add t) := by
  have hplaces := h.tellsPlaces.number t.connectivityNodeMrid
  obtain ⟨hnodes, hnode⟩ := h.tellsPlaces.number_eq t.connectivityNodeMrid
  obtain ⟨hnodes', hequipment⟩ := hplaces.number_eq t.conductingEquipmentMrid
  rw [h.nodes_eq] at hnodes hnode
  rw [hnodes] at hnodes' hequipment
  refine ⟨hnodes', ?_, hplaces.number t.conductingEquipmentMrid⟩
  simp only [Indexed.addEdge, Graph.add, edges_number, h.edges_eq, hnode, hequipment]

theorem foldl_addEdge (h : g.Mirrors G) (ts : List Terminal) :
    (ts.foldl Indexed.addEdge g).Mirrors (G.addAll ts) := by
  induction ts generalizing g G with
  | nil => exact h
  | cons t ts ih => exact ih (h.addEdge t)

/-- More terminals keep the index in step. -/
theorem addAll (h : g.Mirrors G) (ts : List Terminal) : (g.addAll ts).Mirrors (G.addAll ts) :=
  have hedges := h.foldl_addEdge ts
  ⟨hedges.nodes_eq, hedges.edges_eq, hedges.tellsPlaces⟩

end Mirrors

/-- **A graph with an index mirrors the one without.** -/
theorem mirrors_ofTerminals (ts : List Terminal) :
    (ofTerminals ts).Mirrors (Graph.ofTerminals ts) := mirrors_empty.addAll ts

end Indexed

/-! ## Numbers -/

/-- The ends of some terminals, the node of each before its equipment. -/
def endIds (ts : List Terminal) : List Mrid :=
  ts.flatMap fun t => [t.connectivityNodeMrid, t.conductingEquipmentMrid]

theorem mem_endIds_iff {ts : List Terminal} {id : Mrid} : id ∈ endIds ts ↔ Occurs ts id := by
  simp [endIds, occurs_iff, eq_comm]

namespace InStep

variable {g : Graph} {id : Mrid} {i : Nat}

/-- The number of a point is the place where it stands. -/
theorem index?_eq_some_iff_getElem? (h : g.InStep) :
    g.index? id = some i ↔ g.points[i]? = some id := by
  rw [index?, idxOf?_eq_some_iff]
  constructor
  · rintro ⟨hmem, rfl⟩
    exact List.getElem?_idxOf hmem
  · intro hget
    obtain ⟨hlt, rfl⟩ := List.getElem?_eq_some_iff.1 hget
    exact ⟨List.getElem_mem hlt, h.nodup.idxOf_getElem i hlt⟩

/-- The numbers of the points are those from zero on. -/
theorem exists_index?_eq_some_iff (h : g.InStep) :
    (∃ id, g.index? id = some i) ↔ i < g.pointCount := by
  simp only [h.index?_eq_some_iff_getElem?, List.getElem?_eq_some_iff]
  exact ⟨fun ⟨_, hlt, _⟩ => hlt, fun hlt => ⟨_, hlt, rfl⟩⟩

/-- A graph has as many points as there are ends of its terminals. -/
theorem pointCount_eq (h : g.InStep) : g.pointCount = (endIds g.terminals).toFinset.card := by
  rw [pointCount, ← List.toFinset_card_of_nodup h.nodup]
  congr 1
  ext id
  rw [List.mem_toFinset, List.mem_toFinset, h.mem_points_iff, mem_endIds_iff]

theorem edgeCount_eq (h : g.InStep) : g.edgeCount = g.terminals.length := by
  rw [edgeCount, h.edges_eq, List.length_map]

/-- The edge of a terminal joins the numbers of its node and of its equipment. -/
theorem exists_edge (h : g.InStep) {k : Nat} {t : Terminal} (ht : g.terminals[k]? = some t) :
    ∃ i j, g.index? t.connectivityNodeMrid = some i ∧
      g.index? t.conductingEquipmentMrid = some j ∧ g.edges[k]? = some (i, j) := by
  have hmem := List.mem_of_getElem? ht
  refine ⟨_, _, h.index?_eq_some_iff.2 ⟨.node hmem, rfl⟩,
    h.index?_eq_some_iff.2 ⟨.equipment hmem, rfl⟩, ?_⟩
  rw [h.edges_eq, List.getElem?_map, ht]
  rfl

end InStep

/-! ## The main statement -/

/-- **The index, the points and the edges of a graph are in step with its terminals**, whatever
terminals are added and in whatever portions.  Exactly the ends of the terminals have a number, no
two of them the same, and the numbers are those of the points; under its number stands the point
itself.  The edge of each terminal joins the numbers of its node and of its equipment.  There are as
many points as different ends and as many edges as terminals, repetitions and loops included.  A
graph that keeps its index in a map has the same terminals, points and edges, and in the map the same
numbers.  Adding terminals to a graph, with or without a map, is building it of all of them. -/
theorem index_in_step (portions : List (List Terminal)) (xs ys : List Terminal) :
    (ofPortions portions).terminals = portions.flatten ∧
    (∀ id, (∃ i, (ofPortions portions).index? id = some i) ↔
      ∃ t ∈ portions.flatten, t.connectivityNodeMrid = id ∨ t.conductingEquipmentMrid = id) ∧
    (∀ a b i, (ofPortions portions).index? a = some i →
      (ofPortions portions).index? b = some i → a = b) ∧
    (∀ i, (∃ id, (ofPortions portions).index? id = some i) ↔
      i < (ofPortions portions).pointCount) ∧
    (∀ id i, (ofPortions portions).index? id = some i ↔
      (ofPortions portions).points[i]? = some id) ∧
    (∀ (k : Nat) (t : Terminal), portions.flatten[k]? = some t →
      ∃ i j, (ofPortions portions).index? t.connectivityNodeMrid = some i ∧
        (ofPortions portions).index? t.conductingEquipmentMrid = some j ∧
        (ofPortions portions).edges[k]? = some (i, j)) ∧
    (ofPortions portions).pointCount = (endIds portions.flatten).toFinset.card ∧
    (ofPortions portions).edgeCount = portions.flatten.length ∧
    ((Indexed.ofPortions portions).terminals = (ofPortions portions).terminals ∧
      (Indexed.ofPortions portions).nodes = (ofPortions portions).points ∧
      (Indexed.ofPortions portions).edges = (ofPortions portions).edges ∧
      ∀ id, (Indexed.ofPortions portions).index[id]? = (ofPortions portions).index? id) ∧
    (ofTerminals xs).addAll ys = ofTerminals (xs ++ ys) ∧
    (Indexed.ofTerminals xs).addAll ys = Indexed.ofTerminals (xs ++ ys) := by
  have hg := inStep_ofPortions portions
  have hterminals := terminals_ofPortions portions
  refine ⟨hterminals, fun id => ?_, fun a b i ha hb => ?_, fun i => hg.exists_index?_eq_some_iff,
    fun id i => hg.index?_eq_some_iff_getElem?, fun k t ht => hg.exists_edge (hterminals ▸ ht),
    hterminals ▸ hg.pointCount_eq, hterminals ▸ hg.edgeCount_eq, ?_,
    (addAll_append empty xs ys).symm, (Indexed.addAll_append {} xs ys).symm⟩
  · rw [← Option.isSome_iff_exists, ← contains, hg.contains_iff, occurs_iff, hterminals]
  · rw [hg.index?_eq_some_iff_getElem?] at ha hb
    exact Option.some.inj (ha.symm.trans hb)
  · have hmirrors := Indexed.mirrors_ofTerminals portions.flatten
    rw [← Indexed.ofPortions_eq, ← ofPortions_eq] at hmirrors
    refine ⟨?_, hmirrors.nodes_eq, hmirrors.edges_eq, hmirrors.index_eq⟩
    rw [hterminals, Indexed.ofPortions_eq]
    rfl

/-- Two portions, in which one terminal comes twice, one the other way round, and one is a loop:
three points and four edges.  Equipment 1 was met second, and the loop joins the last number to
itself. -/
theorem index_in_step_loopAndRepeat :
    (ofPortions [[joining 1 10, joining 10 1], [joining 3 3, joining 1 10]]).index? (.ofNat 1) =
        some 1 ∧
      (Indexed.ofPortions [[joining 1 10, joining 10 1], [joining 3 3, joining 1 10]]).index[
        Mrid.ofNat 1]? = some 1 ∧
      (∃ i j, (ofPortions [[joining 1 10, joining 10 1],
          [joining 3 3, joining 1 10]]).index? (.ofNat 3) = some i ∧
        (ofPortions [[joining 1 10, joining 10 1],
          [joining 3 3, joining 1 10]]).index? (.ofNat 3) = some j ∧
        (ofPortions [[joining 1 10, joining 10 1],
          [joining 3 3, joining 1 10]]).edges[2]? = some (i, j)) ∧
      (ofPortions [[joining 1 10, joining 10 1], [joining 3 3, joining 1 10]]).edges =
        [(0, 1), (1, 0), (2, 2), (0, 1)] ∧
      (ofPortions [[joining 1 10, joining 10 1], [joining 3 3, joining 1 10]]).edgeCount = 4 := by
  obtain ⟨-, -, -, -, -, hedges, -, hcount, ⟨-, -, -, hindex⟩, -⟩ :=
    index_in_step [[joining 1 10, joining 10 1], [joining 3 3, joining 1 10]] [] []
  have hone : (ofPortions [[joining 1 10, joining 10 1], [joining 3 3, joining 1 10]]).index?
      (.ofNat 1) = some 1 := by decide
  exact ⟨hone, (hindex _).trans hone, hedges 2 (joining 3 3) rfl, by decide, hcount⟩

end Graph

end Switchyard
