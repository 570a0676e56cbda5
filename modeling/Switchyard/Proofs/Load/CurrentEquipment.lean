import Mathlib.Data.Finset.Card
import Switchyard.Proofs.Load.ByReference
import Switchyard.Proofs.Load.Equipment
import Switchyard.Proofs.Load.NumberingCheck

/-!
# The current equipment of a voltage level

The equipment of a voltage level comes from five tables.  `EquipmentHistory` holds their histories,
and says without any loading what the level has, which terminals a line owns, and which lines are
in the way because they own several (`EquipmentHistory.Refuses`).

There are three outcomes (`EquipmentHistory.Outcome`).  Either the level is not there, or some of
its lines own several terminals, and all of these lines are named, or the equipment loads as it is
described, with a number for each line that owns a terminal (`current_equipment_loaded`).
-/

set_option autoImplicit false

namespace Switchyard

open Version

/-! ## Numbers -/

/-- The number of the other end is the remainder that truncates, plus one. -/
theorem otherEnd_toInt (number : Int32) :
    (otherEnd number).toInt = number.toInt.tmod 2 + 1 := by
  have htwo : (2 : Int32).toInt = 2 := by decide
  have hone : (1 : Int32).toInt = 1 := by decide
  rw [otherEnd, Int32.toInt_add, Int32.toInt_mod, htwo, hone]
  have hremainder : (number.toInt.tmod 2).natAbs < 2 :=
    Int.natAbs_tmod number.toInt 2 ▸ Nat.mod_lt _ (by decide)
  exact Int.bmod_eq_of_le (by omega) (by omega)

/-! ## Owners -/

section Owners

variable {terminals : List Terminal} {m : Mrid}

/-- The owner of two different terminals is a repeated owner. -/
theorem mem_repeatedOwners_iff_exists (h : terminals.Nodup) :
    m ∈ repeatedOwners terminals ↔
      ∃ t ∈ terminals, ∃ u ∈ terminals, t ≠ u ∧
        t.conductingEquipmentMrid = m ∧ u.conductingEquipmentMrid = m := by
  have hcount : (terminals.map (·.conductingEquipmentMrid)).count m =
      (Numbering.ofEquipment m terminals).toFinset.card := by
    rw [← Numbering.length_numbersOf, Numbering.numbersOf, List.length_map]
    exact (List.toFinset_card_of_nodup (h.filter _)).symm
  rw [mem_repeatedOwners_iff, hcount, Finset.one_lt_card]
  simp only [Numbering.ofEquipment, List.mem_toFinset, List.mem_filter, decide_eq_true_eq]
  constructor
  · rintro ⟨t, ⟨ht, htm⟩, u, ⟨hu, hum⟩, hne⟩
    exact ⟨t, ht, u, hu, hne, htm, hum⟩
  · rintro ⟨t, ht, u, hu, hne, htm, hum⟩
    exact ⟨t, ⟨ht, htm⟩, u, ⟨hu, hum⟩, hne⟩

theorem repeatedOwners_ascending (terminals : List Terminal) :
    (repeatedOwners terminals).Pairwise (· < ·) :=
  (Numbering.ascending_ascending _).filter _

/-- Without repeated owners, no owner occurs twice. -/
theorem nodup_owners (h : repeatedOwners terminals = []) :
    (terminals.map (·.conductingEquipmentMrid)).Nodup := by
  refine List.nodup_iff_count_le_one.2 fun m => Nat.le_of_not_lt fun hlt => ?_
  have hm := mem_repeatedOwners_iff.2 hlt
  rw [h] at hm
  exact absurd hm List.not_mem_nil

end Owners

/-! ## Histories -/

/-- Every version of the records that the equipment of a voltage level is loaded from. -/
structure EquipmentHistory where
  voltageLevels : List VoltageLevel
  lines : List AcLineSegment
  generators : List SynchronousMachine
  loads : List ConformLoad
  terminals : List Terminal

namespace EquipmentHistory

/-- Every row of the five tables can be read, and these are the versions that they hold. -/
structure IsRead (h : EquipmentHistory) (b : Backend) : Prop where
  voltageLevels : b.fetch VoltageLevel .all = .ok h.voltageLevels
  lines : b.fetch AcLineSegment .all = .ok h.lines
  generators : b.fetch SynchronousMachine .all = .ok h.generators
  loads : b.fetch ConformLoad .all = .ok h.loads
  terminals : b.fetch Terminal .all = .ok h.terminals

variable (h : EquipmentHistory) (id : Mrid)

/-- The voltage level is there. -/
def IsThere : Prop := ∃ v, IsCurrent h.voltageLevels v ∧ v.mrid = id

/-- The line is there and contained in the voltage level. -/
def HasLine (l : AcLineSegment) : Prop := IsCurrent h.lines l ∧ l.equipmentContainerMrid = id

/-- The piece of equipment is a line that is there and contained in the voltage level. -/
def IsLine (m : Mrid) : Prop := ∃ l, h.HasLine id l ∧ l.mrid = m

/-- The terminal is there and belongs to the piece of equipment. -/
def Owns (m : Mrid) (t : Terminal) : Prop :=
  IsCurrent h.terminals t ∧ t.conductingEquipmentMrid = m

/-- More than one terminal belongs to the piece of equipment. -/
def OwnsSeveral (m : Mrid) : Prop := ∃ t u, t ≠ u ∧ h.Owns m t ∧ h.Owns m u

/-- The terminal is the only one that belongs to the piece of equipment. -/
def OwnsOnly (m : Mrid) (t : Terminal) : Prop := h.Owns m t ∧ ∀ u, h.Owns m u → u = t

/-- The lines of the voltage level that own several terminals, of which there are some, each once
and in ascending order. -/
structure Refuses (lines : List Mrid) : Prop where
  mem_iff : ∀ m, m ∈ lines ↔ h.IsLine id m ∧ h.OwnsSeveral m
  ascending : lines.Pairwise (· < ·)
  ne_nil : lines ≠ []

/-- What the voltage level has: itself, its lines, generators and loads, each kind in ascending
order, and one number for each of its lines that owns one terminal, the remainder of the number of
that terminal plus one. -/
structure Describes (e : VoltageLevelEquipment) : Prop where
  voltageLevel : IsCurrent h.voltageLevels e.voltageLevel
  mrid_eq : e.voltageLevel.mrid = id
  mem_lines_iff : ∀ l, l ∈ e.lines ↔ h.HasLine id l
  lines_ascending : Ascending e.lines
  mem_generators_iff : ∀ g, g ∈ e.generators ↔
    IsCurrent h.generators g ∧ g.equipmentContainerMrid = id
  generators_ascending : Ascending e.generators
  mem_loads_iff : ∀ l, l ∈ e.loads ↔ IsCurrent h.loads l ∧ l.equipmentContainerMrid = id
  loads_ascending : Ascending e.loads
  mem_overrides_iff : ∀ m n, (m, n) ∈ e.overrides ↔
    h.IsLine id m ∧ ∃ t, h.OwnsOnly m t ∧ n.toInt = t.sequenceNumber.toInt.tmod 2 + 1
  overrides_nodup : (e.overrides.map Prod.fst).Nodup

/-- How loading the equipment ends. -/
inductive Outcome : Except LoadError VoltageLevelEquipment → Prop
  /-- The voltage level is not there. -/
  | notFound (hnone : ¬ h.IsThere id) : Outcome (.error (.notFound .voltageLevels id))
  /-- Some lines own several terminals. -/
  | multipleTerminals (hthere : h.IsThere id) {lines : List Mrid} (hlines : h.Refuses id lines) :
    Outcome (.error (.multipleTerminals lines))
  /-- Every line owns one terminal at most. -/
  | loaded {e : VoltageLevelEquipment} (hsingle : ∀ m, h.IsLine id m → ¬ h.OwnsSeveral m)
    (he : h.Describes id e) : Outcome (.ok e)

variable {h id} {b : Backend} {e : VoltageLevelEquipment} {lines lines' : List Mrid}

theorem Refuses.eq (hl : h.Refuses id lines) (hl' : h.Refuses id lines') : lines = lines' := by
  have : Std.Irrefl fun a b : Mrid => a < b := ⟨fun a => Mrid.lt_irrefl _⟩
  have : Std.Antisymm fun a b : Mrid => a < b :=
    ⟨fun a b hab hba => absurd (Mrid.lt_trans hab hba) (Mrid.lt_irrefl _)⟩
  exact List.Pairwise.eq_of_mem_iff hl.ascending hl'.ascending fun m =>
    (hl.mem_iff m).trans (hl'.mem_iff m).symm

theorem Refuses.exists (hl : h.Refuses id lines) : ∃ m, h.IsLine id m ∧ h.OwnsSeveral m := by
  obtain ⟨m, hm⟩ := List.exists_mem_of_ne_nil lines hl.ne_nil
  exact ⟨m, (hl.mem_iff m).1 hm⟩

theorem ownsOnly_of_not_ownsSeveral {m : Mrid} {t : Terminal} (ht : h.Owns m t)
    (hsingle : ¬ h.OwnsSeveral m) : h.OwnsOnly m t := by
  refine ⟨ht, fun u hu => ?_⟩
  by_contra hne
  exact hsingle ⟨u, t, hne, hu, ht⟩

theorem Describes.isThere (he : h.Describes id e) : h.IsThere id :=
  ⟨_, he.voltageLevel, he.mrid_eq⟩

namespace Outcome

variable {x : Except LoadError VoltageLevelEquipment}

theorem eq_notFound_iff (hx : h.Outcome id x) :
    x = .error (.notFound .voltageLevels id) ↔ ¬ h.IsThere id := by
  cases hx with
  | notFound hnone => exact ⟨fun _ => hnone, fun _ => rfl⟩
  | multipleTerminals hthere => exact ⟨fun heq => by simp at heq, fun hnone => absurd hthere hnone⟩
  | loaded _ he => exact ⟨fun heq => by simp at heq, fun hnone => absurd he.isThere hnone⟩

theorem eq_multipleTerminals_iff (hx : h.Outcome id x) :
    x = .error (.multipleTerminals lines) ↔ h.IsThere id ∧ h.Refuses id lines := by
  cases hx with
  | notFound hnone => exact ⟨fun heq => by simp at heq, fun hthere => absurd hthere.1 hnone⟩
  | multipleTerminals hthere hlines =>
    rw [Except.error.injEq, LoadError.multipleTerminals.injEq]
    exact ⟨fun heq => ⟨hthere, heq ▸ hlines⟩, fun hrefuses => hlines.eq hrefuses.2⟩
  | loaded hsingle =>
    refine ⟨fun heq => by simp at heq, fun hrefuses => ?_⟩
    obtain ⟨m, hline, hseveral⟩ := hrefuses.2.exists
    exact absurd hseveral (hsingle m hline)

theorem exists_eq_multipleTerminals_iff (hx : h.Outcome id x) :
    (∃ lines, x = .error (.multipleTerminals lines)) ↔
      h.IsThere id ∧ ∃ m, h.IsLine id m ∧ h.OwnsSeveral m := by
  constructor
  · rintro ⟨lines, heq⟩
    obtain ⟨hthere, hrefuses⟩ := hx.eq_multipleTerminals_iff.1 heq
    exact ⟨hthere, hrefuses.exists⟩
  · rintro ⟨hthere, m, hline, hseveral⟩
    cases hx with
    | notFound hnone => exact absurd hthere hnone
    | multipleTerminals => exact ⟨_, rfl⟩
    | loaded hsingle => exact absurd hseveral (hsingle m hline)

theorem exists_eq_ok_iff (hx : h.Outcome id x) :
    (∃ e, x = .ok e) ↔ h.IsThere id ∧ ∀ m, h.IsLine id m → ¬ h.OwnsSeveral m := by
  cases hx with
  | notFound hnone => exact ⟨fun hok => by simp at hok, fun hok => absurd hok.1 hnone⟩
  | multipleTerminals _ hlines =>
    refine ⟨fun hok => by simp at hok, fun hok => ?_⟩
    obtain ⟨m, hline, hseveral⟩ := hlines.exists
    exact absurd hseveral (hok.2 m hline)
  | loaded hsingle he => exact ⟨fun _ => ⟨he.isThere, hsingle⟩, fun _ => ⟨_, rfl⟩⟩

theorem describes (hx : h.Outcome id x) (heq : x = .ok e) : h.Describes id e := by
  cases hx with
  | notFound | multipleTerminals => simp at heq
  | loaded _ he => exact Except.ok.inj heq ▸ he

end Outcome

/-! ## Loading -/

/-- The terminals are those that are there and belong to the lines of the voltage level. -/
structure Terminals (h : EquipmentHistory) (id : Mrid) (terminals : List Terminal) : Prop where
  ascending : Ascending terminals
  mem_iff : ∀ t, t ∈ terminals ↔
    IsCurrent h.terminals t ∧ h.IsLine id t.conductingEquipmentMrid

namespace Terminals

variable {terminals : List Terminal} {m : Mrid} {n : Int32}

theorem owns_iff (ht : h.Terminals id terminals) (hm : h.IsLine id m) {t : Terminal} :
    h.Owns m t ↔ t ∈ terminals ∧ t.conductingEquipmentMrid = m := by
  rw [ht.mem_iff, and_assoc]
  refine and_congr_right fun _ => ⟨fun heq => ⟨?_, heq⟩, And.right⟩
  rwa [heq]

/-- The lines that own several terminals are the repeated owners. -/
theorem mem_repeatedOwners_iff (ht : h.Terminals id terminals) :
    m ∈ repeatedOwners terminals ↔ h.IsLine id m ∧ h.OwnsSeveral m := by
  rw [mem_repeatedOwners_iff_exists ht.ascending.nodup_mrids.of_map]
  constructor
  · rintro ⟨t, hmem, u, hmem', hne, rfl, heq⟩
    have hline := ((ht.mem_iff t).1 hmem).2
    exact ⟨hline, t, u, hne, (ht.owns_iff hline).2 ⟨hmem, rfl⟩, (ht.owns_iff hline).2 ⟨hmem', heq⟩⟩
  · rintro ⟨hline, t, u, hne, hmem, hmem'⟩
    obtain ⟨hmem, heq⟩ := (ht.owns_iff hline).1 hmem
    obtain ⟨hmem', heq'⟩ := (ht.owns_iff hline).1 hmem'
    exact ⟨t, hmem, u, hmem', hne, heq, heq'⟩

theorem not_ownsSeveral (ht : h.Terminals id terminals) (hsingle : repeatedOwners terminals = [])
    (hm : h.IsLine id m) : ¬ h.OwnsSeveral m := by
  intro hseveral
  have hrepeated := ht.mem_repeatedOwners_iff.2 ⟨hm, hseveral⟩
  rw [hsingle] at hrepeated
  exact absurd hrepeated List.not_mem_nil

/-- If no line owns several terminals, a number is made of the only terminal of a line. -/
theorem mem_numbers_iff (ht : h.Terminals id terminals) (hsingle : repeatedOwners terminals = []) :
    (m, n) ∈ terminals.map (fun t => (t.conductingEquipmentMrid, otherEnd t.sequenceNumber)) ↔
      h.IsLine id m ∧ ∃ t, h.OwnsOnly m t ∧ n.toInt = t.sequenceNumber.toInt.tmod 2 + 1 := by
  have hnumber (t : Terminal) :
      n.toInt = t.sequenceNumber.toInt.tmod 2 + 1 ↔ otherEnd t.sequenceNumber = n := by
    rw [← otherEnd_toInt, Int32.toInt_inj, eq_comm]
  simp only [List.mem_map, Prod.mk.injEq, hnumber]
  constructor
  · rintro ⟨t, hmem, rfl, heq⟩
    have hline := ((ht.mem_iff t).1 hmem).2
    have howns := (ht.owns_iff hline).2 ⟨hmem, rfl⟩
    exact ⟨hline, t, ownsOnly_of_not_ownsSeveral howns (ht.not_ownsSeveral hsingle hline), heq⟩
  · rintro ⟨hline, t, ⟨howns, -⟩, heq⟩
    obtain ⟨hmem, howner⟩ := (ht.owns_iff hline).1 howns
    exact ⟨t, hmem, howner, heq⟩

end Terminals

variable (id) in
/-- **Loading the equipment of a voltage level ends in one of three ways.** -/
theorem outcome (hread : h.IsRead b) : h.Outcome id (b.loadEquipment id) := by
  rcases Backend.loadOne_eq id rfl hread.voltageLevels with
    ⟨level, hlevel, hid, hone⟩ | ⟨hnone, hone⟩
  · obtain ⟨lines, hlines, hlinesAscending, hline⟩ :=
      Backend.exists_load_by AcLineSegment.refersBy_container rfl hread.lines [id]
    obtain ⟨generators, hgenerators, hgeneratorsAscending, hgenerator⟩ :=
      Backend.exists_load_by SynchronousMachine.refersBy_container rfl hread.generators [id]
    obtain ⟨loads, hloads, hloadsAscending, hload⟩ :=
      Backend.exists_load_by ConformLoad.refersBy_container rfl hread.loads [id]
    simp only [List.mem_singleton] at hline hgenerator hload
    have hisLine {m : Mrid} : m ∈ lines.map (·.mrid) ↔ h.IsLine id m := by
      simp only [List.mem_map, hline]
      rfl
    have hterminals := Backend.loadTerminals_eq hread.terminals (lines.map (·.mrid))
    have ht : h.Terminals id
        ((active h.terminals).filter fun t => t.conductingEquipmentMrid ∈ lines.map (·.mrid)) :=
      ⟨(active_ascending _).filter _, fun t => by
        rw [List.mem_filter, mem_active_iff_isCurrent, decide_eq_true_eq, hisLine]⟩
    rw [Backend.loadEquipment_eq hone hlines hgenerators hloads,
      Backend.loadNextNumbers_eq hterminals]
    split
    · rename_i hsingle
      refine .loaded (fun m => ht.not_ownsSeveral hsingle) ⟨hlevel, hid, hline, hlinesAscending,
        hgenerator, hgeneratorsAscending, hload, hloadsAscending,
        fun m n => ht.mem_numbers_iff hsingle, ?_⟩
      rw [List.map_map]
      exact nodup_owners hsingle
    · rename_i hsome
      exact .multipleTerminals ⟨level, hlevel, hid⟩
        ⟨fun m => ht.mem_repeatedOwners_iff, repeatedOwners_ascending _, hsome⟩
  · have hload : b.loadEquipment id = .error (.notFound .voltageLevels id) := by
      rw [Backend.loadEquipment, hone]
      rfl
    rw [hload]
    refine .notFound ?_
    rintro ⟨v, hv, hid⟩
    exact hnone v hv hid

variable (h id) in
/-- **Loading the equipment of a voltage level gives what is current of it**, if the rows of its
tables can be read.  It fails if the level is not there, and else if some line of it owns several
terminals, where it names all of these lines.  Else the equipment is loaded as it is described, with
a number for each line that owns a terminal. -/
theorem current_equipment_loaded (hread : h.IsRead b) :
    (b.loadEquipment id = .error (.notFound .voltageLevels id) ↔ ¬ h.IsThere id) ∧
      ((∃ lines, b.loadEquipment id = .error (.multipleTerminals lines)) ↔
        h.IsThere id ∧ ∃ m, h.IsLine id m ∧ h.OwnsSeveral m) ∧
      (∀ lines, b.loadEquipment id = .error (.multipleTerminals lines) ↔
        h.IsThere id ∧ h.Refuses id lines) ∧
      ((∃ e, b.loadEquipment id = .ok e) ↔
        h.IsThere id ∧ ∀ m, h.IsLine id m → ¬ h.OwnsSeveral m) ∧
      ∀ e, b.loadEquipment id = .ok e → h.Describes id e := by
  have hout := outcome id hread
  exact ⟨hout.eq_notFound_iff, hout.exists_eq_multipleTerminals_iff,
    fun lines => hout.eq_multipleTerminals_iff, hout.exists_eq_ok_iff, fun e => hout.describes⟩

/-! ## A store of histories -/

/-- A store that holds the versions. -/
def backend (h : EquipmentHistory) : Backend :=
  { store := ((((({} : Store).seed h.voltageLevels).seed h.lines).seed h.generators).seed
      h.loads).seed h.terminals }

/-- Any histories can be read from a store, if their numbers are finite. -/
theorem isRead_backend (hlevels : ∀ v ∈ h.voltageLevels, Record.Storable v)
    (hlines : ∀ l ∈ h.lines, Record.Storable l)
    (hgenerators : ∀ g ∈ h.generators, Record.Storable g)
    (hloads : ∀ l ∈ h.loads, Record.Storable l) : h.IsRead h.backend := by
  have hterminals : ∀ t ∈ h.terminals, Record.Storable t := fun t _ =>
    Record.storable_of_forall_ne_real (by simp [Record.columns]) t
  constructor
  · rw [backend, Backend.fetch_all_seed_other (by decide), Backend.fetch_all_seed_other (by decide),
      Backend.fetch_all_seed_other (by decide), Backend.fetch_all_seed_other (by decide)]
    exact Backend.fetch_all_seeded hlevels
  · rw [backend, Backend.fetch_all_seed_other (by decide), Backend.fetch_all_seed_other (by decide),
      Backend.fetch_all_seed_other (by decide)]
    exact Backend.fetch_all_seed [] rfl hlines
  · rw [backend, Backend.fetch_all_seed_other (by decide), Backend.fetch_all_seed_other (by decide)]
    exact Backend.fetch_all_seed [] rfl hgenerators
  · rw [backend, Backend.fetch_all_seed_other (by decide)]
    exact Backend.fetch_all_seed [] rfl hloads
  · exact Backend.fetch_all_seed [] rfl hterminals

/-- Histories of levels 1 and 2.  Line 11 was moved to level 1.  Of the terminals of line 10 one was
moved to line 12 and one is gone, and the terminal of line 11 has a negative number. -/
def movedEnds : EquipmentHistory where
  voltageLevels := [{ mrid := .ofNat 1, commitId := ⟨1⟩ }, { mrid := .ofNat 2, commitId := ⟨1⟩ }]
  lines :=
    [{ mrid := .ofNat 11, commitId := ⟨1⟩, equipmentContainerMrid := .ofNat 2 },
      { mrid := .ofNat 11, commitId := ⟨2⟩, equipmentContainerMrid := .ofNat 1 },
      { mrid := .ofNat 10, commitId := ⟨1⟩, equipmentContainerMrid := .ofNat 1 },
      { mrid := .ofNat 12, commitId := ⟨1⟩, equipmentContainerMrid := .ofNat 2 }]
  generators := []
  loads := [{ mrid := .ofNat 20, commitId := ⟨1⟩, equipmentContainerMrid := .ofNat 1 }]
  terminals :=
    [{ mrid := .ofNat 30, commitId := ⟨1⟩, conductingEquipmentMrid := .ofNat 10,
        sequenceNumber := 1 },
      { mrid := .ofNat 31, commitId := ⟨1⟩, conductingEquipmentMrid := .ofNat 11,
        sequenceNumber := -1 },
      { mrid := .ofNat 32, commitId := ⟨1⟩, conductingEquipmentMrid := .ofNat 10,
        sequenceNumber := 2 },
      { mrid := .ofNat 32, commitId := ⟨2⟩, conductingEquipmentMrid := .ofNat 12,
        sequenceNumber := 2 },
      { mrid := .ofNat 33, commitId := ⟨1⟩, conductingEquipmentMrid := .ofNat 12,
        sequenceNumber := 1 },
      { mrid := .ofNat 34, commitId := ⟨1⟩, conductingEquipmentMrid := .ofNat 10,
        sequenceNumber := 1 },
      { mrid := .ofNat 34, commitId := ⟨2⟩, deleted := true, conductingEquipmentMrid := .ofNat 10,
        sequenceNumber := 1 }]

theorem isRead_movedEnds : movedEnds.IsRead movedEnds.backend :=
  isRead_backend (by decide +kernel) (by decide +kernel) (by decide +kernel) (by decide +kernel)

theorem isThere_movedEnds : movedEnds.IsThere (.ofNat 1) ∧ movedEnds.IsThere (.ofNat 2) :=
  ⟨⟨movedEnds.voltageLevels[0], mem_active_iff_isCurrent.1 (by decide +kernel), rfl⟩,
    movedEnds.voltageLevels[1], mem_active_iff_isCurrent.1 (by decide +kernel), rfl⟩

/-- Each line of level 1 owns one terminal at most. -/
theorem not_ownsSeveral_movedEnds (m : Mrid) (hm : movedEnds.IsLine (.ofNat 1) m) :
    ¬ movedEnds.OwnsSeveral m := by
  have hsingle : ∀ l ∈ active movedEnds.lines, l.equipmentContainerMrid = .ofNat 1 →
      ∀ t ∈ active movedEnds.terminals, ∀ u ∈ active movedEnds.terminals,
        t.conductingEquipmentMrid = l.mrid → u.conductingEquipmentMrid = l.mrid → t = u := by
    decide +kernel
  obtain ⟨l, ⟨hl, hin⟩, rfl⟩ := hm
  rintro ⟨t, u, hne, ⟨ht, htl⟩, hu, hul⟩
  exact hne (hsingle l (mem_active_iff_isCurrent.2 hl) hin t (mem_active_iff_isCurrent.2 ht) u
    (mem_active_iff_isCurrent.2 hu) htl hul)

/-- Line 11, whose terminal has the number minus one, goes on with the number zero. -/
theorem Describes.mem_overrides_movedEnds {e : VoltageLevelEquipment}
    (he : movedEnds.Describes (.ofNat 1) e) : (.ofNat 11, 0) ∈ e.overrides := by
  have hline : movedEnds.IsLine (.ofNat 1) (.ofNat 11) :=
    ⟨movedEnds.lines[1], ⟨mem_active_iff_isCurrent.1 (by decide +kernel), rfl⟩, rfl⟩
  have howns : movedEnds.Owns (.ofNat 11) movedEnds.terminals[1] :=
    ⟨mem_active_iff_isCurrent.1 (by decide +kernel), rfl⟩
  exact (he.mem_overrides_iff _ _).2 ⟨hline, _,
    ownsOnly_of_not_ownsSeveral howns (not_ownsSeveral_movedEnds _ hline), by decide⟩

/-- Level 1 loads, and level 2 is refused, since line 12 owns two terminals. -/
theorem current_equipment_loaded_movedEnds :
    movedEnds.IsRead movedEnds.backend ∧
      (∃ e, movedEnds.backend.loadEquipment (.ofNat 1) = .ok e ∧
        movedEnds.Describes (.ofNat 1) e ∧ (.ofNat 11, 0) ∈ e.overrides) ∧
      ∃ lines, movedEnds.backend.loadEquipment (.ofNat 2) = .error (.multipleTerminals lines) := by
  obtain ⟨-, -, -, hok, hdescribes⟩ :=
    current_equipment_loaded movedEnds (.ofNat 1) isRead_movedEnds
  obtain ⟨-, hseveral, -⟩ := current_equipment_loaded movedEnds (.ofNat 2) isRead_movedEnds
  obtain ⟨e, he⟩ := hok.2 ⟨isThere_movedEnds.1, not_ownsSeveral_movedEnds⟩
  have hline : movedEnds.IsLine (.ofNat 2) (.ofNat 12) :=
    ⟨movedEnds.lines[3], ⟨mem_active_iff_isCurrent.1 (by decide +kernel), rfl⟩, rfl⟩
  refine ⟨isRead_movedEnds, ⟨e, he, hdescribes e he, (hdescribes e he).mem_overrides_movedEnds⟩,
    hseveral.2 ⟨isThere_movedEnds.2, .ofNat 12, hline, ?_⟩⟩
  exact ⟨movedEnds.terminals[3], movedEnds.terminals[4], by decide,
    ⟨mem_active_iff_isCurrent.1 (by decide +kernel), rfl⟩,
    mem_active_iff_isCurrent.1 (by decide +kernel), rfl⟩

end EquipmentHistory

end Switchyard
