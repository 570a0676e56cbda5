import Switchyard.Asset.Connection
import Switchyard.Asset.Equipment
import Switchyard.Write.Aggregate

/-!
# Topologies

A topology is what one run of synthesis creates: a reporting group, and lists of markers, nodes,
switches, transformers, terminals and windings.

What is done to every record of a topology is said once, for records of any type:
`Topology.mapRecords` changes each record, and `Topology.gather` collects something from each list.
Both keep the order of the tables, in which a record refers only to records of earlier tables.
-/

set_option autoImplicit false

namespace Switchyard

/-- The records that one run of synthesis creates. -/
structure Topology where
  /-- The group of everything that was created in the run. -/
  reportingGroup : ReportingGroup := {}
  /-- One marker for each terminal. -/
  busNameMarkers : List BusNameMarker := []
  connectivityNodes : List ConnectivityNode := []
  switches : List Switch := []
  powerTransformers : List PowerTransformer := []
  terminals : List Terminal := []
  powerTransformerEnds : List PowerTransformerEnd := []
deriving DecidableEq

namespace Topology

/-- Changes every record. -/
def mapRecords (f : (α : Type) → [Record α] → α → α) (t : Topology) : Topology :=
  { reportingGroup := f ReportingGroup t.reportingGroup
    busNameMarkers := t.busNameMarkers.map (f BusNameMarker)
    connectivityNodes := t.connectivityNodes.map (f ConnectivityNode)
    switches := t.switches.map (f Switch)
    powerTransformers := t.powerTransformers.map (f PowerTransformer)
    terminals := t.terminals.map (f Terminal)
    powerTransformerEnds := t.powerTransformerEnds.map (f PowerTransformerEnd) }

/-- Collects something from the records of each table. -/
def gather {β : Type} (f : (α : Type) → [Record α] → List α → List β) (t : Topology) : List β :=
  f ReportingGroup [t.reportingGroup] ++ f BusNameMarker t.busNameMarkers ++
    f ConnectivityNode t.connectivityNodes ++ f Switch t.switches ++
    f PowerTransformer t.powerTransformers ++ f Terminal t.terminals ++
    f PowerTransformerEnd t.powerTransformerEnds

/-- The identities of all records. -/
def mrids (t : Topology) : List Mrid := t.gather fun _ _ rs => rs.map Record.mrid

/-- How many records there are, the reporting group included. -/
def recordCount (t : Topology) : Nat :=
  1 + t.busNameMarkers.length + t.connectivityNodes.length + t.switches.length +
    t.powerTransformers.length + t.terminals.length + t.powerTransformerEnds.length

/-- Gives every record the commit that persists it. -/
def stamp (id : CommitId) (t : Topology) : Topology := t.mapRecords fun _ _ r => Record.stamp id r

/-- The identity rows of all records, under the number of a model. -/
def identities (modelId : Int32) (t : Topology) : List Entity :=
  t.gather fun _ _ rs => Entity.ofRecords modelId rs

/-- The rows of all records by table; a table without records has no batch. -/
def batches (t : Topology) : List Batch := t.gather fun _ _ rs => Batch.ofNonempty rs

instance : Aggregate Topology where
  stamp := stamp
  identities := identities
  batches t := .ok t.batches

end Topology

/-- What a run of synthesis creates, and how many pairs it left alone because they were connected
already. -/
structure Model where
  topology : Topology := {}
  alreadyConnected : Nat := 0
deriving DecidableEq

namespace Model

/-- Gives every record of a model the commit that persists it. -/
def stamp (id : CommitId) (m : Model) : Model := { m with topology := m.topology.stamp id }

instance : Aggregate Model where
  stamp := stamp
  identities modelId m := m.topology.identities modelId
  batches m := .ok m.topology.batches

end Model

end Switchyard
