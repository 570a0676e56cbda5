import Switchyard.Load.Active
import Switchyard.Graph.Basic

/-!
# Loading graphs

`loadGraph` builds the graph of every active terminal.  `loadLocalGraph` builds only what lies
around some seeds: round by round it asks for the terminals that touch the points found in the
round before, so after `hops` rounds it has followed every path of that many edges from a seed.
-/

set_option autoImplicit false

namespace Switchyard

/-- What a search around some seeds has found: the points, those of them that the last round found,
and the terminals in the order in which they were found. -/
structure Survey where
  visited : List Mrid
  frontier : List Mrid
  terminals : List Terminal := []

namespace Survey

/-- The survey that knows its seeds only. -/
def around (seeds : List Mrid) : Survey := { visited := seeds, frontier := seeds }

/-- Takes a point into the survey. -/
def visit (s : Survey) (id : Mrid) : Survey :=
  if id ∈ s.visited then s
  else { s with visited := id :: s.visited, frontier := s.frontier ++ [id] }

/-- Takes a terminal and its ends into the survey, unless the terminal is known already. -/
def meet (s : Survey) (t : Terminal) : Survey :=
  if s.terminals.any fun known => known.mrid = t.mrid then s
  else
    let s := (s.visit t.conductingEquipmentMrid).visit t.connectivityNodeMrid
    { s with terminals := s.terminals ++ [t] }

/-- Takes the terminals that touch the frontier into the survey; what they find is the next
frontier. -/
def advance (s : Survey) (touching : List Terminal) : Survey :=
  touching.foldl meet { s with frontier := [] }

end Survey

namespace Backend

/-- The graph of every active terminal. -/
def loadGraph (b : Backend) : Except StoreError Graph :=
  (b.loadActive Terminal .all).map Graph.ofTerminals

/-- The active terminals that touch some points, those found by their equipment first. -/
def loadTouching (b : Backend) (points : List Mrid) : Except StoreError (List Terminal) := do
  let byEquipment ← b.loadActive Terminal (.columnIn "conducting_equipment_mrid" points)
  let byNode ← b.loadActive Terminal (.columnIn "connectivity_node_mrid" points)
  return byEquipment ++ byNode

/-- Goes on with a survey for some rounds, or until a round finds nothing new. -/
def survey (b : Backend) : Nat → Survey → Except StoreError Survey
  | 0, s => .ok s
  | rounds + 1, s =>
    if s.frontier.isEmpty then .ok s
    else
      match b.loadTouching s.frontier with
      | .error e => .error e
      | .ok touching => survey b rounds (s.advance touching)

/-- The graph of the active terminals that lie within some hops of the seeds. -/
def loadLocalGraph (b : Backend) (seeds : List Mrid) (hops : Nat) : Except StoreError Graph :=
  (b.survey hops (.around seeds)).map fun s => Graph.ofTerminals s.terminals

/-- What is reported about a graph that was built around some seeds. -/
def localGraphEvents (seeds : List Mrid) (hops : Nat) : Except StoreError Graph → List Event
  | .ok g => [.builtLocalGraph seeds.length hops g.terminals.length]
  | .error _ => []

end Backend

end Switchyard
