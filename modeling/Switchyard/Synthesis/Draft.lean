import Switchyard.Graph.Distance
import Switchyard.Log.Event
import Switchyard.Mrid.Source
import Switchyard.Synthesis.Parts
import Switchyard.Synthesis.Topology

/-!
# Drafts

A draft is a run of synthesis that is under way: the records created so far, the graph that the run
consults and extends, and the source that the identities come from.  Each operation creates one
part of the model, takes the identities it needs from the source, and appends the records to their
lists; nothing that is in a draft is ever changed again.
-/

set_option autoImplicit false

namespace Switchyard

/-- A run of synthesis that is under way. -/
structure Draft where
  topology : Topology
  graph : Graph
  ids : MridSource
  /-- How many labels were handed out so far. -/
  labels : Nat := 0
  /-- How many pairs were left alone so far because they were connected. -/
  skipped : Nat := 0
  events : List Event := []

/-- A finished run: what it created, and the graph and the source as it left them. -/
structure Synthesis where
  model : Model
  graph : Graph
  ids : MridSource
  events : List Event

namespace Draft

/-- A draft that holds nothing but its reporting group. -/
def start (graph : Graph) (ids : MridSource) (name shortName description : String) : Draft :=
  { topology := { reportingGroup := .named (ids.peek 0) name shortName description }
    graph
    ids := ids.advance 1 }

/-- The group that the markers of the run belong to. -/
def group (d : Draft) : Mrid := d.topology.reportingGroup.mrid

/-- Counts one more label as handed out. -/
def countLabel (d : Draft) : Draft := { d with labels := d.labels + 1 }

/-- Leaves a pair alone. -/
def skip (d : Draft) : Draft := { d with skipped := d.skipped + 1 }

/-- Reports an event. -/
def report (d : Draft) (e : Event) : Draft := { d with events := d.events ++ [e] }

/-- Creates a connectivity node. -/
def addNode (d : Draft) (label : String) (container : Mrid) : Draft :=
  { d with
    topology.connectivityNodes :=
      d.topology.connectivityNodes ++ [.labelled (d.ids.peek 0) label container]
    ids := d.ids.advance 1 }

/-- Creates a switch. -/
def addSwitch (d : Draft) (label : String) (level : VoltageLevel) : Draft :=
  { d with
    topology.switches := d.topology.switches ++ [.labelled (d.ids.peek 0) label level]
    ids := d.ids.advance 1 }

/-- Creates a transformer. -/
def addTransformer (d : Draft) (label : String) (substation baseVoltage : Mrid) : Draft :=
  { d with
    topology.powerTransformers :=
      d.topology.powerTransformers ++ [.labelled (d.ids.peek 0) label substation baseVoltage]
    ids := d.ids.advance 1 }

/-- Creates a winding. -/
def addWinding (d : Draft) (label : String) (winding : Winding) (pu : PerUnit) : Draft :=
  { d with
    topology.powerTransformerEnds :=
      d.topology.powerTransformerEnds ++ [.labelled (d.ids.peek 0) label winding pu]
    ids := d.ids.advance 1 }

/-- The marker that the next terminal will refer to. -/
def nextMarker (d : Draft) (label : String) : BusNameMarker :=
  .labelled (d.ids.peek 0) label d.group

/-- Creates a marker and a terminal that refers to it. -/
def addTerminal (d : Draft) (label : String) (node equipment : Mrid) (number : Int32) : Draft :=
  { d with
    topology.busNameMarkers := d.topology.busNameMarkers ++ [d.nextMarker label]
    topology.terminals :=
      d.topology.terminals ++
        [.marked (d.ids.peek 1) node equipment (d.nextMarker label) number]
    ids := d.ids.advance 2 }

/-- The draft whose graph has some more terminals. -/
def extendGraph (d : Draft) (terminals : List Terminal) : Draft :=
  { d with graph := d.graph.addAll terminals }

/-- The run that the draft amounts to once it is complete. -/
def finish (d : Draft) : Synthesis :=
  { model := { topology := d.topology, alreadyConnected := d.skipped }
    graph := d.graph
    ids := d.ids
    events := d.events }

/-! ## What each part takes from the source -/

@[simp] theorem ids_start (graph : Graph) (ids : MridSource)
    (name shortName description : String) :
    (start graph ids name shortName description).ids = ids.advance 1 := rfl

@[simp] theorem ids_addNode (d : Draft) (label : String) (container : Mrid) :
    (d.addNode label container).ids = d.ids.advance 1 := rfl

@[simp] theorem ids_addSwitch (d : Draft) (label : String) (level : VoltageLevel) :
    (d.addSwitch label level).ids = d.ids.advance 1 := rfl

@[simp] theorem ids_addTransformer (d : Draft) (label : String) (substation baseVoltage : Mrid) :
    (d.addTransformer label substation baseVoltage).ids = d.ids.advance 1 := rfl

@[simp] theorem ids_addWinding (d : Draft) (label : String) (winding : Winding) (pu : PerUnit) :
    (d.addWinding label winding pu).ids = d.ids.advance 1 := rfl

@[simp] theorem ids_addTerminal (d : Draft) (label : String) (node equipment : Mrid)
    (number : Int32) :
    (d.addTerminal label node equipment number).ids = d.ids.advance 2 := rfl

end Draft

end Switchyard
