import Switchyard.Decimal.Whole
import Switchyard.Synthesis.Draft
import Switchyard.Synthesis.Input

/-!
# Links between the voltage levels of a substation

Every connectivity node of one voltage level is linked to every connectivity node of every other
one, unless the two are connected already.  A link is a switch, a new node and a transformer, a
path of four edges.  Its terminals enter the graph right away, so every pair is judged with the
links made before it.

The pairs are treated in the order of `SubstationLevels.crossPairs`: by the first level, the second
level, the node of the first and the node of the second.
-/

set_option autoImplicit false

namespace Switchyard

/-- A node of one voltage level and a node of a later one, each with its place in its level. -/
structure CrossPair where
  first : ConnectableLevel
  second : ConnectableLevel
  firstNode : ConnectivityNode
  secondNode : ConnectivityNode
  firstPlace : Nat
  secondPlace : Nat

/-- The pairs of a node of one level and a node of another. -/
def ConnectableLevel.pairsWith (first second : ConnectableLevel) : List CrossPair :=
  first.nodes.zipIdx.flatMap fun (firstNode, firstPlace) =>
    second.nodes.zipIdx.map fun (secondNode, secondPlace) =>
      { first, second, firstNode, secondNode, firstPlace, secondPlace }

/-- The pairs of nodes of two levels of a list, the earlier level first. -/
def crossPairsOf : List ConnectableLevel → List CrossPair
  | [] => []
  | first :: rest => rest.flatMap first.pairsWith ++ crossPairsOf rest

namespace CrossPair

/-- The label of the parts of a link: the voltages it joins, and the places of its nodes. -/
def label (p : CrossPair) : String :=
  Decimal.wholeText p.first.nominalVoltage ++ " kV to " ++
    Decimal.wholeText p.second.nominalVoltage ++ " kV (CN " ++ toString p.firstPlace ++ "-" ++
    toString p.secondPlace ++ ")"

/-- The nodes of a pair are closer than a bound. -/
def isConnected (p : CrossPair) (hopBound : Nat) (graph : Graph) : Bool :=
  graph.isConnected p.firstNode.mrid p.secondNode.mrid hopBound

/-- Creates a link: a switch from the first node to a new node, and a transformer from there to the
second node.  The transformer, the switch and the node are created first, then the four terminals,
then the two windings. -/
def link (p : CrossPair) (substation : Mrid) (pu : PerUnit) (d : Draft) : Draft :=
  let first := p.first.voltageLevel
  let transformer := d.ids.peek 0
  let switch := d.ids.peek 1
  let node := d.ids.peek 2
  let parts := ((d.addTransformer p.label substation first.baseVoltageMrid).addSwitch p.label
    first).addNode p.label first.mrid
  let switched := (parts.addTerminal p.label node switch 1).addTerminal p.label
    p.firstNode.mrid switch 2
  let joined := (switched.addTerminal p.label node transformer 1).addTerminal p.label
    p.secondNode.mrid transformer 2
  let wound := (joined.addWinding p.label
    { number := 1
      terminal := switched.ids.peek 1
      baseVoltage := first.baseVoltageMrid
      transformer
      connection := .y
      ratedU := p.first.nominalVoltage } pu).addWinding p.label
    { number := 2
      terminal := switched.ids.peek 3
      baseVoltage := p.second.voltageLevel.baseVoltageMrid
      transformer
      connection := .yn
      ratedU := p.second.nominalVoltage } pu
  (wound.extendGraph (wound.topology.terminals.drop d.topology.terminals.length)).report
    (.linkedLevels p.firstNode.mrid p.secondNode.mrid)

/-- Links the nodes of a pair unless they are connected already. -/
def linkUnlessConnected (hopBound : Nat) (substation : Mrid) (pu : PerUnit) (d : Draft)
    (p : CrossPair) : Draft :=
  if p.isConnected hopBound d.graph then d.skip else p.link substation pu d

end CrossPair

/-- A voltage level that came with another base voltage than the one it refers to, so that nothing
can be rated by it. -/
structure InconsistentVoltage where
  supplied : Mrid
  referenced : Mrid
deriving DecidableEq

/-- The message of the error. -/
def InconsistentVoltage.message (e : InconsistentVoltage) : String :=
  "Inconsistent base voltage mrid: " ++ e.supplied.text ++ " (base voltage) and " ++
    e.referenced.text ++ " (voltage level)"

namespace SubstationLevels

/-- The pairs of nodes of different voltage levels, in the order in which they are linked. -/
def crossPairs (s : SubstationLevels) : List CrossPair := crossPairsOf s.levels

/-- What is reported once all pairs were treated. -/
def synthesizedEvent (s : SubstationLevels) (d : Draft) : Event :=
  .synthesizedLinks s.substation.mrid s.levels.length d.topology.switches.length
    d.topology.powerTransformers.length d.skipped

/-- Links the voltage levels of a consistent substation. -/
def linkAll (s : SubstationLevels) (hopBound : Nat) (pu : PerUnit) (graph : Graph)
    (ids : MridSource) : Synthesis :=
  let name := s.substation.name
  let d := Draft.start graph ids (name ++ " voltage level connections") (name ++ " vlc")
    "Group representing all items created to connect voltage levels"
  let d := s.crossPairs.foldl (CrossPair.linkUnlessConnected hopBound s.substation.mrid pu) d
  (d.report (s.synthesizedEvent d)).finish

/-- Links the voltage levels of a substation, for nodes that count as connected when they are
closer than a bound.  A voltage level that came with a wrong base voltage is refused before
anything is created. -/
def synthesize (s : SubstationLevels) (hopBound : Nat) (pu : PerUnit) (graph : Graph)
    (ids : MridSource) : Except InconsistentVoltage Synthesis :=
  match s.levels.find? fun l => ¬ l.IsConsistent with
  | some l => .error ⟨l.baseVoltage.mrid, l.voltageLevel.baseVoltageMrid⟩
  | none => .ok (s.linkAll hopBound pu graph ids)

/-- Synthesis is refused exactly when some voltage level is inconsistent. -/
theorem synthesize_isOk_iff (s : SubstationLevels) (hopBound : Nat) (pu : PerUnit)
    (graph : Graph) (ids : MridSource) :
    s.synthesize hopBound pu graph ids = .ok (s.linkAll hopBound pu graph ids) ↔
      s.IsConsistent := by
  rw [synthesize]
  split
  · rename_i l h
    have hbad : ¬ l.IsConsistent := by simpa using List.find?_some h
    exact ⟨fun h' => by simp at h', fun h' => absurd (h' l (List.mem_of_find?_eq_some h)) hbad⟩
  · rename_i h
    simpa [IsConsistent] using h

end SubstationLevels

end Switchyard
