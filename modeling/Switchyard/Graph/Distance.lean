import Switchyard.Graph.Basic

/-!
# Distances

The distance of two points is the least number of edges of a path between them.  It is found level
by level: `search` holds the points of the current level, `fringe` those of the next, and the
points of all levels so far, so that no point is reached twice.  A graph of `n` points has at most
`n` levels, which is the fuel of the search.

Two points count as connected when they are closer than a bound; an identity that is no point of
the graph is connected to nothing, not even to itself.
-/

set_option autoImplicit false

namespace Switchyard.Graph

/-- The ends of an edge that lie across from a level. -/
def across (frontier : List Nat) (edge : Nat × Nat) : List Nat :=
  (if edge.1 ∈ frontier then [edge.2] else []) ++ if edge.2 ∈ frontier then [edge.1] else []

/-- The points of the next level: one edge away from the current one, and on no level so far. -/
def fringe (edges : List (Nat × Nat)) (seen frontier : List Nat) : List Nat :=
  ((edges.flatMap (across frontier)).filter fun i => i ∉ seen).eraseDups

theorem mem_across {frontier : List Nat} {edge : Nat × Nat} {i : Nat} :
    i ∈ across frontier edge ↔
      edge.1 ∈ frontier ∧ i = edge.2 ∨ edge.2 ∈ frontier ∧ i = edge.1 := by
  rw [across, List.mem_append]
  split <;> split <;> simp_all

theorem mem_fringe {edges : List (Nat × Nat)} {seen frontier : List Nat} {i : Nat} :
    i ∈ fringe edges seen frontier ↔ i ∉ seen ∧ ∃ edge ∈ edges, i ∈ across frontier edge := by
  simp [fringe, List.mem_eraseDups, and_comm]

/-- The level of the goal, searching on from a level at the given depth. -/
def search (edges : List (Nat × Nat)) (goal : Nat) :
    Nat → Nat → List Nat → List Nat → Option Nat
  | 0, _, _, _ => none
  | fuel + 1, depth, seen, frontier =>
    if goal ∈ frontier then some depth
    else
      match fringe edges seen frontier with
      | [] => none
      | next => search edges goal fuel (depth + 1) (next ++ seen) next

/-- The least number of edges between two points; `none` if one of them is no point of the graph
or there is no path. -/
def distance (g : Graph) (a b : Mrid) : Option Nat :=
  match g.index? a, g.index? b with
  | some i, some j => search g.edges j g.points.length 0 [i] [i]
  | _, _ => none

/-- Whether two points are joined by a path of fewer than `bound` edges. -/
def isConnected (g : Graph) (a b : Mrid) (bound : Nat) : Bool :=
  match g.distance a b with
  | some d => decide (d < bound)
  | none => false

/-- The bound that holds unless another is asked for: the path from a node over a switch, a node
and a transformer to the next node has four edges. -/
def defaultHopBound : Nat := 5

theorem isConnected_iff {g : Graph} {a b : Mrid} {bound : Nat} :
    g.isConnected a b bound = true ↔ ∃ d, g.distance a b = some d ∧ d < bound := by
  rw [isConnected]
  split
  · rename_i d heq
    simp [heq]
  · rename_i heq
    simp [heq]

end Switchyard.Graph
