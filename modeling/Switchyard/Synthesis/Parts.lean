import Switchyard.Asset.Connection
import Switchyard.Asset.Containment
import Switchyard.Asset.Equipment
import Switchyard.PerUnit

/-!
# The parts that synthesis creates

Constructors of the records that synthesis creates, each with the identity it is given.  Their
names are made from a label, so that every record can be traced back to the place it was created
for.
-/

set_option autoImplicit false

namespace Switchyard

/-- A reporting group. -/
def ReportingGroup.named (id : Mrid) (name shortName description : String) : ReportingGroup :=
  { mrid := id, name, shortName, description }

/-- A connectivity node in a container. -/
def ConnectivityNode.labelled (id : Mrid) (label : String) (container : Mrid) :
    ConnectivityNode :=
  { mrid := id
    name := "Connectivity Node " ++ label
    shortName := "CN " ++ label
    description := "Connectivity node for " ++ label
    connectivityNodeContainerMrid := container }

/-- A bus name marker in a reporting group. -/
def BusNameMarker.labelled (id : Mrid) (label : String) (group : Mrid) : BusNameMarker :=
  { mrid := id
    name := "Bus Name Marker for " ++ label
    shortName := "BNM " ++ label
    description := "Bus Name Marker for " ++ label
    priority := 0
    reportingGroupMrid := group }

/-- A three-phase terminal that joins a piece of equipment to a node, named after its marker. -/
def Terminal.marked (id : Mrid) (node equipment : Mrid) (marker : BusNameMarker)
    (number : Int32) : Terminal :=
  { mrid := id
    name := "Terminal " ++ marker.name
    shortName := "T " ++ marker.name
    description := "Terminal for " ++ marker.name
    sequenceNumber := number
    phases := "ABC"
    conductingEquipmentMrid := equipment
    connectivityNodeMrid := node
    busNameMarkerMrid := marker.mrid }

/-- A closed switch in a voltage level. -/
def Switch.labelled (id : Mrid) (label : String) (level : VoltageLevel) : Switch :=
  { mrid := id
    name := "Switch " ++ label
    shortName := "Sw " ++ label
    description := "Switch " ++ label
    baseVoltageMrid := level.baseVoltageMrid
    equipmentContainerMrid := level.mrid
    normalOpen := false
    retained := false
    ratedCurrent := 0.0 }

/-- A transformer in a substation. -/
def PowerTransformer.labelled (id : Mrid) (label : String) (substation baseVoltage : Mrid) :
    PowerTransformer :=
  { mrid := id
    name := "Transformer " ++ label
    shortName := "Trns " ++ label
    description := "Transformer " ++ label
    baseVoltageMrid := baseVoltage
    equipmentContainerMrid := substation }

/-- What a winding of a transformer is made for. -/
structure Winding where
  /-- The number of the winding, which is that of its terminal. -/
  number : Int32
  terminal : Mrid
  baseVoltage : Mrid
  transformer : Mrid
  connection : WindingConnection
  /-- The rated voltage in kV. -/
  ratedU : Float

/-- A winding rated for the base power.  Its resistance and its reactance are 0.002 and 0.1 of the
base impedance at the rated voltage, and its susceptance is 0.005 over that impedance. -/
def PowerTransformerEnd.labelled (id : Mrid) (label : String) (w : Winding) (pu : PerUnit) :
    PowerTransformerEnd :=
  { mrid := id
    name := "Winding " ++ label
    shortName := "Wnd " ++ label
    description := "Winding " ++ label
    endNumber := w.number
    terminalMrid := w.terminal
    baseVoltageMrid := w.baseVoltage
    powerTransformerMrid := w.transformer
    connectionKind := w.connection
    ratedS := pu.base
    ratedU := w.ratedU
    r := 0.002 * pu.baseImpedance w.ratedU
    x := 0.1 * pu.baseImpedance w.ratedU
    g := 0.0
    b := 0.005 / pu.baseImpedance w.ratedU }

end Switchyard
