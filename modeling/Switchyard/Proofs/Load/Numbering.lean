import Mathlib.Data.List.Nodup
import Mathlib.Data.List.Perm.Basic
import Switchyard.Numbering

/-!
# Exact numbering

The terminals of a piece of equipment are numbered exactly if their numbers are one, two and so on
up to their count (`IsExact`).  Which numbers a piece of equipment has is read off a list of
terminals by `numbersOf`; no order of the list matters to it.
-/

set_option autoImplicit false

namespace Switchyard.Numbering

variable {numbers numbers' : List Int32} {terminals terminals' : List Terminal} {equipment : Mrid}

/-! ## Exact numbers -/

/-- The numbers are one, two and so on up to their count, each of them once and in any order. -/
def IsExact (numbers : List Int32) : Prop :=
  (numbers.map Int32.toInt).Perm ((List.range numbers.length).map fun k : Nat => (k : Int) + 1)

instance : Decidable (IsExact numbers) := inferInstanceAs (Decidable (List.Perm _ _))

theorem isExact_nil : IsExact [] := .refl _

theorem isExact_iff_of_perm (h : numbers.Perm numbers') : IsExact numbers ↔ IsExact numbers' := by
  have hmap := h.map Int32.toInt
  rw [IsExact, IsExact, h.length_eq]
  exact ⟨hmap.symm.trans, hmap.trans⟩

theorem IsExact.nodup (h : IsExact numbers) : numbers.Nodup := by
  have hrange : ((List.range numbers.length).map fun k : Nat => (k : Int) + 1).Nodup :=
    List.nodup_range.map fun j k heq => by omega
  exact (h.nodup_iff.2 hrange).of_map

/-- A piece of equipment has a terminal of number one, if it has any. -/
theorem IsExact.one_mem (h : IsExact numbers) (hne : numbers ≠ []) : 1 ∈ numbers := by
  have hmem : (1 : Int) ∈ (List.range numbers.length).map fun k : Nat => (k : Int) + 1 :=
    List.mem_map.2 ⟨0, List.mem_range.2 (List.length_pos_iff.2 hne), rfl⟩
  obtain ⟨number, hnumber, hone⟩ := List.mem_map.1 (h.mem_iff.2 hmem)
  rwa [← Int32.toInt_inj.1 (hone.trans (by decide : (1 : Int) = (1 : Int32).toInt))]

/-- The number of a single terminal has to be one. -/
theorem IsExact.eq_one {number : Int32} (h : IsExact [number]) : number = 1 :=
  (List.mem_singleton.1 (h.one_mem (List.cons_ne_nil _ _))).symm

/-- A further terminal of number one is one too many. -/
theorem IsExact.not_isExact_append_one (h : IsExact numbers) (hne : numbers ≠ []) :
    ¬ IsExact (numbers ++ [1]) := by
  intro hmore
  exact List.disjoint_of_nodup_append hmore.nodup (h.one_mem hne) (List.mem_singleton_self 1)

/-! ## The numbers of a piece of equipment -/

/-- The numbers of the terminals of a piece of equipment. -/
def numbersOf (equipment : Mrid) (terminals : List Terminal) : List Int32 :=
  (ofEquipment equipment terminals).map (·.sequenceNumber)

theorem numbersOf_append :
    numbersOf equipment (terminals ++ terminals') =
      numbersOf equipment terminals ++ numbersOf equipment terminals' := by
  rw [numbersOf, ofEquipment, List.filter_append, List.map_append]
  rfl

theorem perm_numbersOf (h : terminals.Perm terminals') :
    (numbersOf equipment terminals).Perm (numbersOf equipment terminals') :=
  (h.filter _).map _

theorem numbersOf_stamp (id : CommitId) :
    numbersOf equipment (terminals.map (Record.stamp id)) = numbersOf equipment terminals := by
  rw [numbersOf, ofEquipment, List.filter_map, List.map_map]
  rfl

theorem numbersOf_eq_nil_iff :
    numbersOf equipment terminals = [] ↔
      ∀ t ∈ terminals, t.conductingEquipmentMrid ≠ equipment := by
  simp [numbersOf, ofEquipment, List.filter_eq_nil_iff]

/-- The first number of a piece of equipment is that of its first terminal. -/
theorem head?_numbersOf :
    (numbersOf equipment terminals).head? =
      (terminals.find? fun t => t.conductingEquipmentMrid = equipment).map (·.sequenceNumber) := by
  rw [numbersOf, ofEquipment, List.head?_map, List.head?_filter]

/-- Only owners of terminals can be numbered wrong. -/
theorem isExact_of_owners
    (h : ∀ t ∈ terminals, IsExact (numbersOf t.conductingEquipmentMrid terminals)) (m : Mrid) :
    IsExact (numbersOf m terminals) := by
  by_cases hnone : numbersOf m terminals = []
  · rw [hnone]
    exact isExact_nil
  · simp only [numbersOf_eq_nil_iff, not_forall, not_not] at hnone
    obtain ⟨t, ht, rfl⟩ := hnone
    exact h t ht

/-- A piece of equipment has as many numbers as there are terminals that it owns. -/
theorem length_numbersOf :
    (numbersOf equipment terminals).length =
      (terminals.map (·.conductingEquipmentMrid)).count equipment := by
  rw [numbersOf, List.length_map, ofEquipment, ← List.countP_eq_length_filter, List.count,
    List.countP_map]
  exact List.countP_congr fun t _ => by simp

/-- A piece of equipment keeps its numbers if the terminals of some equipment are left and it is
among that. -/
theorem numbersOf_filter (owners : List Mrid) :
    numbersOf equipment (terminals.filter fun t => t.conductingEquipmentMrid ∈ owners) =
      if equipment ∈ owners then numbersOf equipment terminals else [] := by
  rw [numbersOf, ofEquipment, List.filter_filter]
  split
  · rename_i hmem
    rw [numbersOf, ofEquipment]
    congr 1
    refine List.filter_congr fun t _ => ?_
    by_cases heq : t.conductingEquipmentMrid = equipment <;> simp [heq, hmem]
  · rename_i hmem
    rw [List.map_eq_nil_iff, List.filter_eq_nil_iff]
    rintro t - h
    simp only [Bool.and_eq_true, decide_eq_true_eq] at h
    exact hmem (h.1 ▸ h.2)

/-- What is looked up by equipment is what is made of its first number. -/
theorem lookup_map_numbers (f : Int32 → Int32) :
    (terminals.map fun t => (t.conductingEquipmentMrid, f t.sequenceNumber)).lookup equipment =
      (numbersOf equipment terminals).head?.map f := by
  induction terminals with
  | nil => rfl
  | cons t rest ih =>
    by_cases heq : t.conductingEquipmentMrid = equipment
    · simp [numbersOf, ofEquipment, heq]
    · have hbeq : (equipment == t.conductingEquipmentMrid) = false := beq_false_of_ne (Ne.symm heq)
      simpa [numbersOf, ofEquipment, heq, List.lookup_cons, hbeq] using ih

/-- A list of terminals tells the numbers of its equipment if it goes through the equipment one by
one. -/
theorem numbersOf_eq_of_flatMap {owners : List Mrid} {numbers : Mrid → List Int32}
    (hnodup : owners.Nodup)
    (h : terminals.map (fun t => (t.conductingEquipmentMrid, t.sequenceNumber)) =
      owners.flatMap fun owner => (numbers owner).map (owner, ·)) :
    numbersOf equipment terminals = if equipment ∈ owners then numbers equipment else [] := by
  have hpairs : numbersOf equipment terminals =
      ((terminals.map fun t => (t.conductingEquipmentMrid, t.sequenceNumber)).filter
        fun pair => pair.1 = equipment).map Prod.snd := by
    rw [numbersOf, ofEquipment, List.filter_map, List.map_map]
    rfl
  rw [hpairs, h]
  clear hpairs h
  induction owners with
  | nil => rfl
  | cons owner owners ih =>
    obtain ⟨hnew, hnodup⟩ := List.nodup_cons.1 hnodup
    rw [List.flatMap_cons, List.filter_append, List.map_append, ih hnodup]
    by_cases heq : owner = equipment
    · subst heq
      simp [hnew, List.filter_map, Function.comp_def]
    · simp [heq, Ne.symm heq, List.filter_map, Function.comp_def]

/-- Pieces of equipment that each come with a first and then with a second terminal. -/
theorem numbersOf_of_pairs {owners : List Mrid} (hnodup : owners.Nodup)
    (h : terminals.map (fun t => (t.conductingEquipmentMrid, t.sequenceNumber)) =
      owners.flatMap fun owner => [(owner, 1), (owner, 2)]) (hequipment : equipment ∈ owners) :
    numbersOf equipment terminals = [1, 2] := by
  have hnumbers (owner : Mrid) : ([1, 2] : List Int32).map (owner, ·) = [(owner, 1), (owner, 2)] :=
    rfl
  simp only [← hnumbers] at h
  rw [numbersOf_eq_of_flatMap hnodup h, if_pos hequipment]

/-! ## The owners of terminals -/

theorem mem_insertAscending {id other : Mrid} {ids : List Mrid} :
    other ∈ insertAscending id ids ↔ other = id ∨ other ∈ ids := by
  induction ids with
  | nil => simp [insertAscending]
  | cons head rest ih =>
    rw [insertAscending]
    split
    · simp
    · split
      · rename_i heq
        simp [heq]
      · simp [ih, or_left_comm]

/-- The distinct identities of a list are the identities of the list. -/
theorem mem_ascending {id : Mrid} {ids : List Mrid} : id ∈ ascending ids ↔ id ∈ ids := by
  have hall (acc : List Mrid) :
      id ∈ ids.foldl (fun acc id => insertAscending id acc) acc ↔ id ∈ acc ∨ id ∈ ids := by
    induction ids generalizing acc with
    | nil => simp
    | cons head rest ih =>
      rw [List.foldl_cons, ih, mem_insertAscending, List.mem_cons, or_assoc, or_left_comm]
  simpa [ascending] using hall []

end Switchyard.Numbering
