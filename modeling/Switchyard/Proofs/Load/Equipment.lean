import Switchyard.Load.Equipment
import Switchyard.Proofs.Load.LocalGraph
import Switchyard.Proofs.Load.Numbering
import Switchyard.Proofs.Store.Mentions

/-!
# What the loaded equipment of a voltage level consists of

The lines, generators and loads are loaded one kind after the other, and each line is given the
number of its other end if it owns a terminal (`loadEquipment_eq_ok_iff`).  No line that is loaded
owns two (`length_numbersOf_le_one`), so there is never a choice of the number that a line is told
(`override?_of_load`).
-/

set_option autoImplicit false

namespace Switchyard

/-- Only owners of more than one terminal are repeated owners. -/
theorem mem_repeatedOwners_iff {terminals : List Terminal} {id : Mrid} :
    id ∈ repeatedOwners terminals ↔
      1 < (terminals.map (·.conductingEquipmentMrid)).count id := by
  rw [repeatedOwners, List.mem_filter, Numbering.mem_ascending, decide_eq_true_eq]
  exact and_iff_right_of_imp fun h => List.count_pos_iff.1 (by omega)

namespace Backend

variable {b : Backend} {voltageLevel : Mrid} {e : VoltageLevelEquipment} {lines : List Mrid}
  {overrides : List (Mrid × Int32)} {history : List Terminal}

/-- The condition to be contained in a voltage level. -/
def equipmentIn (voltageLevel : Mrid) : Predicate :=
  .columnIn "equipment_container_mrid" [voltageLevel]

/-- What has to be loaded for the equipment of a voltage level to load. -/
theorem loadEquipment_eq_ok_iff :
    b.loadEquipment voltageLevel = .ok e ↔
      b.loadOne VoltageLevel voltageLevel = .ok e.voltageLevel ∧
        b.load AcLineSegment (equipmentIn voltageLevel) = .ok e.lines ∧
        b.load SynchronousMachine (equipmentIn voltageLevel) = .ok e.generators ∧
        b.load ConformLoad (equipmentIn voltageLevel) = .ok e.loads ∧
        b.loadNextNumbers e.lineMrids = .ok e.overrides := by
  simp only [loadEquipment, bind_eq_ok_iff, equipmentIn, VoltageLevelEquipment.lineMrids]
  constructor
  · rintro ⟨level, hlevel, lines, hlines, generators, hgenerators, loads, hloads, overrides,
      hoverrides, heq⟩
    rw [← Except.ok.inj heq]
    exact ⟨hlevel, hlines, hgenerators, hloads, hoverrides⟩
  · rintro ⟨hlevel, hlines, hgenerators, hloads, hoverrides⟩
    exact ⟨_, hlevel, _, hlines, _, hgenerators, _, hloads, _, hoverrides, rfl⟩

/-- What the equipment of a voltage level is put together from. -/
theorem loadEquipment_eq {level : VoltageLevel} {lines : List AcLineSegment}
    {generators : List SynchronousMachine} {loads : List ConformLoad}
    (hlevel : b.loadOne VoltageLevel voltageLevel = .ok level)
    (hlines : b.load AcLineSegment (equipmentIn voltageLevel) = .ok lines)
    (hgenerators : b.load SynchronousMachine (equipmentIn voltageLevel) = .ok generators)
    (hloads : b.load ConformLoad (equipmentIn voltageLevel) = .ok loads) :
    b.loadEquipment voltageLevel = (b.loadNextNumbers (lines.map (·.mrid))).map fun overrides =>
      { voltageLevel := level, lines, generators, loads, overrides } := by
  rw [equipmentIn] at hlines hgenerators hloads
  simp only [loadEquipment, hlevel, hlines, hgenerators, hloads, bind, Except.bind]
  cases b.loadNextNumbers (lines.map (·.mrid)) <;> rfl

/-- A store mentions the equipment that is loaded from it. -/
theorem mem_mentions_of_mem_members (h : b.loadEquipment voltageLevel = .ok e) {m : Mrid}
    (hm : m ∈ e.members) : m ∈ b.store.mentions := by
  obtain ⟨-, hlines, hgenerators, hloads, -⟩ := loadEquipment_eq_ok_iff.1 h
  simp only [VoltageLevelEquipment.members, VoltageLevelEquipment.lineMrids,
    VoltageLevelEquipment.otherMrids, List.mem_append, List.mem_map] at hm
  rcases hm with ⟨r, hr, rfl⟩ | ⟨r, hr, rfl⟩ | ⟨r, hr, rfl⟩
  · exact mrid_mem_mentions_of_load rfl hlines hr
  · exact mrid_mem_mentions_of_load rfl hgenerators hr
  · exact mrid_mem_mentions_of_load rfl hloads hr

/-! ## The numbers of the lines -/

/-- The terminals of some equipment are the active ones that it owns. -/
theorem loadTerminals_eq (hfetch : b.fetch Terminal .all = .ok history) (equipment : List Mrid) :
    b.loadTerminals equipment = .ok ((Version.active history).filter
      fun t => t.conductingEquipmentMrid ∈ equipment) :=
  loadActive_by Terminal.refersBy_equipment rfl hfetch equipment

/-- The numbers of some lines are those of the other ends of their terminals, unless one of them
owns several. -/
theorem loadNextNumbers_eq {terminals : List Terminal}
    (h : b.loadTerminals lines = .ok terminals) :
    b.loadNextNumbers lines =
      if repeatedOwners terminals = [] then
        .ok (terminals.map fun t => (t.conductingEquipmentMrid, otherEnd t.sequenceNumber))
      else .error (.multipleTerminals (repeatedOwners terminals)) := by
  simp only [loadNextNumbers, h]
  split
  · rename_i hnone
    rw [if_pos hnone]
  · rename_i hsome
    rw [if_neg hsome]

/-- The terminals of the lines can be read, whatever lines they are. -/
theorem exists_loadTerminals_of_loadNextNumbers (h : b.loadNextNumbers lines = .ok overrides) :
    ∃ terminals, b.loadTerminals lines = .ok terminals ∧ repeatedOwners terminals = [] ∧
      overrides =
        terminals.map fun t => (t.conductingEquipmentMrid, otherEnd t.sequenceNumber) := by
  cases hterminals : b.loadTerminals lines with
  | error e => simp [loadNextNumbers, hterminals] at h
  | ok terminals =>
    rw [loadNextNumbers_eq hterminals] at h
    split at h
    · rename_i hnone
      exact ⟨terminals, rfl, hnone, (Except.ok.inj h).symm⟩
    · simp at h

/-- No line that is loaded owns more than one active terminal. -/
theorem length_numbersOf_le_one (hfetch : b.fetch Terminal .all = .ok history)
    (h : b.loadEquipment voltageLevel = .ok e) {line : Mrid} (hline : line ∈ e.lineMrids) :
    (Numbering.numbersOf line (Version.active history)).length ≤ 1 := by
  obtain ⟨-, -, -, -, hnumbers⟩ := loadEquipment_eq_ok_iff.1 h
  obtain ⟨terminals, hterminals, hnone, -⟩ := exists_loadTerminals_of_loadNextNumbers hnumbers
  obtain rfl := Except.ok.inj ((loadTerminals_eq hfetch _).symm.trans hterminals)
  refine Nat.le_of_not_lt fun hlt => ?_
  have hrepeated : line ∈ repeatedOwners ((Version.active history).filter
      fun t => t.conductingEquipmentMrid ∈ e.lineMrids) := by
    rwa [mem_repeatedOwners_iff, ← Numbering.length_numbersOf, Numbering.numbersOf_filter,
      if_pos hline]
  rw [hnone] at hrepeated
  exact absurd hrepeated List.not_mem_nil

/-- A line takes the number of its other end if it owns a terminal.  No other equipment is told a
number. -/
theorem override?_of_load (hfetch : b.fetch Terminal .all = .ok history)
    (h : b.loadEquipment voltageLevel = .ok e) (m : Mrid) :
    e.override? m =
      if m ∈ e.lineMrids then
        (Numbering.numbersOf m (Version.active history)).head?.map otherEnd
      else none := by
  obtain ⟨-, -, -, -, hnumbers⟩ := loadEquipment_eq_ok_iff.1 h
  obtain ⟨terminals, hterminals, -, hoverrides⟩ :=
    exists_loadTerminals_of_loadNextNumbers hnumbers
  obtain rfl := Except.ok.inj ((loadTerminals_eq hfetch _).symm.trans hterminals)
  rw [VoltageLevelEquipment.override?, hoverrides, Numbering.lookup_map_numbers,
    Numbering.numbersOf_filter]
  split <;> rfl

end Backend

end Switchyard
