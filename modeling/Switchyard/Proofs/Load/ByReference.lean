import Switchyard.Asset.Connection
import Switchyard.Asset.Containment
import Switchyard.Asset.Equipment
import Switchyard.Proofs.Load.Resolved
import Switchyard.Proofs.Record.Payload

/-!
# Loading by reference

Records are asked for by a column that names an asset: the record itself, its container, its owner.
`Record.RefersBy` says what such a column holds in each record of a type.  Loading by it is choosing
among the current records by what they refer to (`exists_load_by`), and loading one asset is finding
its current version (`loadOne_eq`).
-/

set_option autoImplicit false

namespace Switchyard

open Version

namespace Record

/-- A column of identities, and the identity that it holds in each record of a type. -/
def RefersBy (α : Type) [Record α] (column : String) (referred : α → Mrid) : Prop :=
  ∀ r : α, ⟨⟨column, .mrid⟩, referred r⟩ ∈ entries r

variable {α : Type} [Record α] {column : String} {referred : α → Mrid}

/-- The row of a record names the identities that the record holds. -/
theorem reference?_encode_of_mem {r : α} {id : Mrid} (h : ⟨⟨column, .mrid⟩, id⟩ ∈ entries r) :
    Predicate.reference? (encode r) column = some id := by
  rw [Predicate.reference?, get?_encode h]
  simp [ColumnKind.encode, ColumnKind.decode]

variable (α) in
theorem refersBy_mrid : RefersBy α "mrid" mrid := fun _ => List.mem_cons_self

namespace RefersBy

/-- The row of a record names what the record refers to. -/
theorem reference?_encode (h : RefersBy α column referred) (r : α) :
    Predicate.reference? (encode r) column = some (referred r) :=
  reference?_encode_of_mem (h r)

theorem reads (h : RefersBy α column referred) (values : List Mrid) :
    (Predicate.columnIn column values).Reads α :=
  ⟨_, Cells.mem_of_mem_entries (schema α) (h blank), rfl⟩

end RefersBy

end Record

/-! ## Columns that refer -/

theorem VoltageLevel.refersBy_substation :
    Record.RefersBy VoltageLevel "substation_mrid" (·.substationMrid) := fun _ =>
  List.mem_of_getElem? (i := 7) rfl

theorem ConnectivityNode.refersBy_container :
    Record.RefersBy ConnectivityNode "connectivity_node_container_mrid"
      (·.connectivityNodeContainerMrid) := fun _ =>
  List.mem_of_getElem? (i := 6) rfl

theorem AcLineSegment.refersBy_container :
    Record.RefersBy AcLineSegment "equipment_container_mrid" (·.equipmentContainerMrid) := fun _ =>
  List.mem_of_getElem? (i := 6) rfl

theorem SynchronousMachine.refersBy_container :
    Record.RefersBy SynchronousMachine "equipment_container_mrid" (·.equipmentContainerMrid) :=
  fun _ => List.mem_of_getElem? (i := 6) rfl

theorem ConformLoad.refersBy_container :
    Record.RefersBy ConformLoad "equipment_container_mrid" (·.equipmentContainerMrid) := fun _ =>
  List.mem_of_getElem? (i := 6) rfl

theorem Terminal.refersBy_equipment :
    Record.RefersBy Terminal "conducting_equipment_mrid" (·.conductingEquipmentMrid) := fun _ =>
  List.mem_of_getElem? (i := 8) rfl

theorem Terminal.refersBy_node :
    Record.RefersBy Terminal "connectivity_node_mrid" (·.connectivityNodeMrid) := fun _ =>
  List.mem_of_getElem? (i := 9) rfl

/-! ## Loading -/

namespace Backend

variable {α : Type} [Record α] {b : Backend} {history : List α} {column : String}
  {referred : α → Mrid} {id : Mrid} {r : α} {e : LoadError}

/-- What is loaded by a column is what is current and refers to one of the assets. -/
theorem loadActive_by (h : Record.RefersBy α column referred)
    (hnamed : Record.isPositional α = false) (hfetch : b.fetch α .all = .ok history)
    (values : List Mrid) :
    b.loadActive α (.columnIn column values) =
      .ok ((active history).filter fun r => referred r ∈ values) := by
  rw [loadActive_eq (h.reads values) hnamed hfetch]
  simp only [Predicate.holds, h.reference?_encode, List.contains_eq_mem]

/-- **Loading by a column finds exactly the current records that refer to the assets**, in ascending
order. -/
theorem exists_load_by (h : Record.RefersBy α column referred)
    (hnamed : Record.isPositional α = false) (hfetch : b.fetch α .all = .ok history)
    (values : List Mrid) :
    ∃ rs, b.load α (.columnIn column values) = .ok rs ∧ Ascending rs ∧
      ∀ r, r ∈ rs ↔ IsCurrent history r ∧ referred r ∈ values := by
  refine ⟨(active history).filter fun r => referred r ∈ values, ?_,
    (active_ascending history).filter _, fun r => ?_⟩
  · rw [load, loadActive_by h hnamed hfetch]
    rfl
  · rw [List.mem_filter, mem_active_iff_isCurrent, decide_eq_true_eq]

/-- One asset loads as its current version, or not at all. -/
theorem loadOne_eq (id : Mrid) (hnamed : Record.isPositional α = false)
    (hfetch : b.fetch α .all = .ok history) :
    (∃ r, IsCurrent history r ∧ Record.mrid r = id ∧ b.loadOne α id = .ok r) ∨
      (∀ r, IsCurrent history r → Record.mrid r ≠ id) ∧
        b.loadOne α id = .error (.notFound (Record.table α) id) := by
  obtain ⟨rs, hload, -, hmem⟩ := exists_load_by (Record.refersBy_mrid α) hnamed hfetch [id]
  simp only [List.mem_singleton] at hmem
  have hone : b.load α (.mridIn [id]) = .ok rs := hload
  cases rs with
  | nil =>
    refine .inr ⟨fun r hr heq => absurd ((hmem r).2 ⟨hr, heq⟩) List.not_mem_nil, ?_⟩
    rw [loadOne, hone]
  | cons r rest =>
    obtain ⟨hcurrent, heq⟩ := (hmem r).1 List.mem_cons_self
    refine .inl ⟨r, hcurrent, heq, ?_⟩
    rw [loadOne, hone]

end Backend

end Switchyard
