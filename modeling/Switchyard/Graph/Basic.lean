import Switchyard.Asset.Connection

/-!
# Connectivity graphs

The points of a connectivity graph are pieces of equipment and connectivity nodes, and every
terminal is an edge between the node it attaches to and the equipment it belongs to.  The graph is
undirected, several terminals may join the same two points, and a terminal whose two ends are the
same point is a loop.

Points are numbered in the order in which they first occur, the node of a terminal before its
equipment, and the edges are kept between numbers.  So three lists stay in step: the terminals, the
edges, one for each terminal, and the points.
-/

set_option autoImplicit false

namespace Switchyard

/-- The graph of some terminals. -/
structure Graph where
  /-- The terminals, in the order of insertion. -/
  terminals : List Terminal := []
  /-- The points by number. -/
  points : List Mrid := []
  /-- For each terminal, the numbers of its node and of its equipment. -/
  edges : List (Nat × Nat) := []

namespace Graph

/-- The graph without terminals. -/
def empty : Graph := {}

/-- The number of a point. -/
def index? (g : Graph) (id : Mrid) : Option Nat := g.points.idxOf? id

/-- Whether an identity is a point of the graph. -/
def contains (g : Graph) (id : Mrid) : Bool := (g.index? id).isSome

/-- Numbers a point, as the next one if it has no number yet. -/
def place (points : List Mrid) (id : Mrid) : List Mrid × Nat :=
  match points.idxOf? id with
  | some i => (points, i)
  | none => (points ++ [id], points.length)

/-- The graph with one more terminal. -/
def add (g : Graph) (t : Terminal) : Graph :=
  let node := place g.points t.connectivityNodeMrid
  let equipment := place node.1 t.conductingEquipmentMrid
  { terminals := g.terminals ++ [t]
    points := equipment.1
    edges := g.edges ++ [(node.2, equipment.2)] }

/-- The graph with more terminals. -/
def addAll (g : Graph) (ts : List Terminal) : Graph := ts.foldl add g

/-- The graph of a list of terminals. -/
def ofTerminals (ts : List Terminal) : Graph := empty.addAll ts

/-- The first terminal of a piece of equipment. -/
def terminalOf? (g : Graph) (equipment : Mrid) : Option Terminal :=
  g.terminals.find? fun t => t.conductingEquipmentMrid = equipment

/-- How many points the graph has. -/
def pointCount (g : Graph) : Nat := g.points.length

/-- How many edges the graph has, one for each terminal. -/
def edgeCount (g : Graph) : Nat := g.edges.length

/-! ## What adding terminals does -/

@[simp] theorem addAll_nil (g : Graph) : g.addAll [] = g := rfl

theorem addAll_cons (g : Graph) (t : Terminal) (ts : List Terminal) :
    g.addAll (t :: ts) = (g.add t).addAll ts := rfl

/-- Adding terminals in two portions is adding them at once. -/
theorem addAll_append (g : Graph) (xs ys : List Terminal) :
    g.addAll (xs ++ ys) = (g.addAll xs).addAll ys := by simp [addAll]

@[simp] theorem terminals_add (g : Graph) (t : Terminal) :
    (g.add t).terminals = g.terminals ++ [t] := rfl

/-- The terminals of a graph are listed in the order in which they were added. -/
@[simp] theorem terminals_addAll (g : Graph) (ts : List Terminal) :
    (g.addAll ts).terminals = g.terminals ++ ts := by
  induction ts generalizing g with
  | nil => simp
  | cons t ts ih => simp [addAll_cons, ih]

@[simp] theorem terminals_ofTerminals (ts : List Terminal) : (ofTerminals ts).terminals = ts := by
  simp [ofTerminals, empty]

end Graph

end Switchyard
