import Switchyard.Asset.Connection
import Switchyard.Asset.Containment
import Switchyard.Asset.Entity
import Switchyard.Asset.Equipment

/-!
# The type of the records of a table

Every table but that of the commits holds the versions of one type of record.  `Table.recordType`
says which, and `Registered` that a type is the one of its table; the types of records of the asset
model all are.  So where tables are equal, their records are of the same type
(`Registered.eq_of_table_eq`), which is what makes it possible to read the rows of a table whoever
wrote them.
-/

set_option autoImplicit false

namespace Switchyard

/-- The type of the records of a table, and how it is one. -/
def Table.recordType : Table → Option ((α : Type) × Record α)
  | .commits => none
  | .entities => some ⟨Entity, inferInstance⟩
  | .reportingGroups => some ⟨ReportingGroup, inferInstance⟩
  | .busNameMarkers => some ⟨BusNameMarker, inferInstance⟩
  | .connectivityNodes => some ⟨ConnectivityNode, inferInstance⟩
  | .switches => some ⟨Switch, inferInstance⟩
  | .powerTransformers => some ⟨PowerTransformer, inferInstance⟩
  | .terminals => some ⟨Terminal, inferInstance⟩
  | .powerTransformerEnds => some ⟨PowerTransformerEnd, inferInstance⟩
  | .substations => some ⟨Substation, inferInstance⟩
  | .voltageLevels => some ⟨VoltageLevel, inferInstance⟩
  | .baseVoltages => some ⟨BaseVoltage, inferInstance⟩
  | .acLineSegments => some ⟨AcLineSegment, inferInstance⟩
  | .synchronousMachines => some ⟨SynchronousMachine, inferInstance⟩
  | .conformLoads => some ⟨ConformLoad, inferInstance⟩

/-- The type is that of the records of its table. -/
class Registered (α : Type) [inst : Record α] : Prop where
  recordType_table : (Record.table α).recordType = some ⟨α, inst⟩

namespace Registered

instance : Registered Entity := ⟨rfl⟩
instance : Registered ReportingGroup := ⟨rfl⟩
instance : Registered BusNameMarker := ⟨rfl⟩
instance : Registered ConnectivityNode := ⟨rfl⟩
instance : Registered Switch := ⟨rfl⟩
instance : Registered PowerTransformer := ⟨rfl⟩
instance : Registered Terminal := ⟨rfl⟩
instance : Registered PowerTransformerEnd := ⟨rfl⟩
instance : Registered Substation := ⟨rfl⟩
instance : Registered VoltageLevel := ⟨rfl⟩
instance : Registered BaseVoltage := ⟨rfl⟩
instance : Registered AcLineSegment := ⟨rfl⟩
instance : Registered SynchronousMachine := ⟨rfl⟩
instance : Registered ConformLoad := ⟨rfl⟩

/-- **Registered types with the same table are the same.** -/
theorem eq_of_table_eq {α β : Type} [inst : Record α] [Registered α] [inst' : Record β]
    [Registered β] (h : Record.table α = Record.table β) :
    (⟨α, inst⟩ : (γ : Type) × Record γ) = ⟨β, inst'⟩ := by
  have hα := recordType_table (α := α)
  rw [h, recordType_table (α := β)] at hα
  exact (Option.some.inj hα).symm

/-- Identity rows are the only rows that may be without names. -/
theorem isPositional_eq_false {α : Type} [inst : Record α] [Registered α]
    (h : Record.table α ≠ .entities) : Record.isPositional α = false := by
  have htype := recordType_table (α := α)
  cases htable : Record.table α with
  | entities => exact absurd htable h
  | commits => simp [htable, Table.recordType] at htype
  | _ =>
    rw [htable] at htype
    cases htype
    rfl

end Registered

end Switchyard
