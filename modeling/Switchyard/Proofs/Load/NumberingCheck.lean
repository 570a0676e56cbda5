import Switchyard.Proofs.Load.Numbering

/-!
# What the numbering check reports

The check looks at the least number, the greatest number and the count of the terminals of a piece
of equipment (`IsBounded`).  Exact numbers have the right bounds, but numbers with the right bounds
need not be exact: one of them may occur twice and another one not at all.  Nothing else can go
wrong, since numbers that are all different are settled by their bounds (`isExact_iff`).

So what is reported is misnumbered and is listed in full, and what is missed has a number that
occurs twice (`reported_iff_bounds_show`, `repeated_number_missed`).
-/

set_option autoImplicit false

namespace Switchyard.Numbering

variable {numbers : List Int32} {m : Mrid}

/-! ## Bounds -/

/-- The least number is one, and the greatest is the count. -/
structure IsBounded (numbers : List Int32) : Prop where
  one_mem : 1 ∈ numbers
  count_mem : Int32.ofNat numbers.length ∈ numbers
  within : ∀ k ∈ numbers, 1 ≤ k ∧ k ≤ Int32.ofNat numbers.length

instance : Decidable (IsBounded numbers) :=
  decidable_of_iff (1 ∈ numbers ∧ Int32.ofNat numbers.length ∈ numbers ∧
      numbers.all (fun k => decide (1 ≤ k ∧ k ≤ Int32.ofNat numbers.length)) = true)
    ⟨fun h => ⟨h.1, h.2.1, by simpa using h.2.2⟩,
      fun h => ⟨h.one_mem, h.count_mem, by simpa using h.within⟩⟩

theorem mem_map_toInt_iff {n : Int32} : n.toInt ∈ numbers.map Int32.toInt ↔ n ∈ numbers := by
  rw [List.mem_map]
  exact ⟨fun ⟨k, hk, heq⟩ => Int32.toInt_inj.1 heq ▸ hk, fun h => ⟨n, h, rfl⟩⟩

/-- **The check asks for the right bounds and for nothing else.** -/
theorem isNumbered_iff : isNumbered numbers = true ↔ IsBounded numbers := by
  have hone : (1 : Int) = (1 : Int32).toInt := by decide
  have hmin : (numbers.map Int32.toInt).min? = some 1 ↔ 1 ∈ numbers ∧ ∀ k ∈ numbers, 1 ≤ k := by
    rw [List.min?_eq_some_iff, hone, mem_map_toInt_iff]
    simp [Int32.le_iff_toInt_le]
  have hmax : (numbers.map Int32.toInt).max? = some (Int32.ofNat numbers.length).toInt ↔
      Int32.ofNat numbers.length ∈ numbers ∧ ∀ k ∈ numbers, k ≤ Int32.ofNat numbers.length := by
    rw [List.max?_eq_some_iff, mem_map_toInt_iff]
    simp [Int32.le_iff_toInt_le]
  rw [isNumbered, decide_eq_true_iff, hmin, hmax]
  constructor
  · rintro ⟨⟨hone, hlow⟩, hcount, hhigh⟩
    exact ⟨hone, hcount, fun k hk => ⟨hlow k hk, hhigh k hk⟩⟩
  · rintro ⟨hone, hcount, hwithin⟩
    exact ⟨⟨hone, fun k hk => (hwithin k hk).1⟩, hcount, fun k hk => (hwithin k hk).2⟩

/-- Exact numbers are those from one to their count. -/
theorem IsExact.toInt_mem_iff (h : IsExact numbers) {n : Int} :
    n ∈ numbers.map Int32.toInt ↔ 1 ≤ n ∧ n ≤ numbers.length := by
  rw [h.mem_iff, List.mem_map]
  constructor
  · rintro ⟨k, hk, rfl⟩
    rw [List.mem_range] at hk
    omega
  · rintro ⟨hlow, hhigh⟩
    exact ⟨(n - 1).toNat, List.mem_range.2 (by omega), by omega⟩

/-- Exact numbers have the right bounds, unless there are none. -/
theorem IsExact.isBounded (h : IsExact numbers) (hne : numbers ≠ []) : IsBounded numbers := by
  have hpos : 0 < numbers.length := List.length_pos_iff.2 hne
  obtain ⟨greatest, hgreatest, heq⟩ := List.mem_map.1
    (h.toInt_mem_iff.2 ⟨by omega, Int.le_refl (numbers.length : Int)⟩)
  -- the count is one of the numbers, so it fits in 32 bits
  have hcount : Int32.ofNat numbers.length = greatest := by
    have hlt := greatest.toInt_lt
    rw [← Int32.toInt_inj, Int32.toInt_ofNat_of_lt (by omega), heq]
  refine ⟨h.one_mem hne, hcount ▸ hgreatest, fun k hk => ?_⟩
  have hk := h.toInt_mem_iff.1 (List.mem_map_of_mem hk)
  rw [hcount, Int32.le_iff_toInt_le, Int32.le_iff_toInt_le, heq]
  exact hk

/-- **Numbers that are all different and have the right bounds are exact.** -/
theorem IsBounded.isExact (h : IsBounded numbers) (hnodup : numbers.Nodup) : IsExact numbers := by
  have hgreatest := (h.within _ h.one_mem).2
  rw [Int32.le_iff_toInt_le] at hgreatest
  have hlt := (Int32.ofNat numbers.length).toInt_lt
  have hvalues : (numbers.map Int32.toInt).Nodup :=
    hnodup.map fun _ _ heq => Int32.toInt_inj.1 heq
  have hupTo (n : Nat) (hn : (Int32.ofNat numbers.length).toInt ≤ n) :
      (numbers.map Int32.toInt).Subperm ((List.range n).map fun k : Nat => (k : Int) + 1) := by
    refine List.subperm_of_subset hvalues fun i hi => ?_
    obtain ⟨k, hk, rfl⟩ := List.mem_map.1 hi
    obtain ⟨hlow, hhigh⟩ := h.within k hk
    rw [Int32.le_iff_toInt_le] at hlow hhigh
    have hone : (1 : Int32).toInt = 1 := by decide
    exact List.mem_map.2 ⟨(k.toInt - 1).toNat, List.mem_range.2 (by omega), by omega⟩
  -- there are no more numbers than values up to the greatest, so the count fits in 32 bits
  have hle := (hupTo (Int32.ofNat numbers.length).toInt.toNat (by omega)).length_le
  simp only [List.length_map, List.length_range] at hle
  have hcount := Int32.toInt_ofNat_of_lt (n := numbers.length) (by omega)
  exact (hupTo numbers.length (by omega)).perm_of_length_le (by simp)

/-- Besides the bounds only a repetition can be wrong. -/
theorem isExact_iff : IsExact numbers ↔ numbers = [] ∨ IsBounded numbers ∧ numbers.Nodup := by
  constructor
  · intro h
    by_cases hne : numbers = []
    · exact .inl hne
    · exact .inr ⟨h.isBounded hne, h.nodup⟩
  · rintro (rfl | ⟨h, hnodup⟩)
    · exact isExact_nil
    · exact h.isExact hnodup

/-! ## The report -/

/-- The pieces of equipment that a report lists. -/
def Report.equipment (r : Report) : List Mrid := r.terminals.map Prod.fst

/-- A report on active terminals lists just some equipment, and all terminals of it. -/
structure Report.Lists (r : Report) (active : List Terminal) (bad : Mrid → Prop) : Prop where
  mem_iff : ∀ m, m ∈ r.equipment ↔ bad m
  ascending : r.equipment.Pairwise (· < ·)
  /-- All active terminals of the equipment are listed, each of them once, and no others. -/
  perm : ∀ group ∈ r.terminals, group.2.Perm (ofEquipment group.1 active)
  sorted : ∀ group ∈ r.terminals,
    group.2.Pairwise fun a b => a.sequenceNumber ≤ b.sequenceNumber

theorem insertAscending_ascending (id : Mrid) {ids : List Mrid} (h : ids.Pairwise (· < ·)) :
    (insertAscending id ids).Pairwise (· < ·) := by
  induction ids with
  | nil => exact List.pairwise_singleton _ _
  | cons head rest ih =>
    obtain ⟨hhead, hrest⟩ := List.pairwise_cons.1 h
    rw [insertAscending]
    split
    · rename_i hlt
      refine List.pairwise_cons.2 ⟨fun other hother => ?_, h⟩
      rcases List.mem_cons.1 hother with rfl | hother
      · exact hlt
      · exact Mrid.lt_trans hlt (hhead other hother)
    · rename_i hnlt
      split
      · exact h
      · rename_i hne
        have hgt : head < id :=
          ((Mrid.lt_or_eq_or_gt id head).resolve_left hnlt).resolve_left hne
        refine List.pairwise_cons.2 ⟨fun other hother => ?_, ih hrest⟩
        rcases mem_insertAscending.1 hother with rfl | hother
        · exact hgt
        · exact hhead other hother

/-- The distinct identities of a list come in strictly ascending order. -/
theorem ascending_ascending (ids : List Mrid) : (ascending ids).Pairwise (· < ·) := by
  have hall (acc : List Mrid) (hacc : acc.Pairwise (· < ·)) :
      (ids.foldl (fun acc id => insertAscending id acc) acc).Pairwise (· < ·) := by
    induction ids generalizing acc with
    | nil => exact hacc
    | cons head rest ih => exact ih _ (insertAscending_ascending head hacc)
  exact hall [] .nil

theorem sortByNumber_perm (terminals : List Terminal) :
    (sortByNumber terminals).Perm terminals := List.mergeSort_perm _ _

theorem sortByNumber_sorted (terminals : List Terminal) :
    (sortByNumber terminals).Pairwise fun a b => a.sequenceNumber ≤ b.sequenceNumber := by
  have htrans (a b c : Terminal) (hab : decide (a.sequenceNumber ≤ b.sequenceNumber) = true)
      (hbc : decide (b.sequenceNumber ≤ c.sequenceNumber) = true) :
      decide (a.sequenceNumber ≤ c.sequenceNumber) = true := by
    simp only [decide_eq_true_eq, Int32.le_iff_toInt_le] at hab hbc ⊢
    omega
  have htotal (a b : Terminal) : (decide (a.sequenceNumber ≤ b.sequenceNumber) ||
      decide (b.sequenceNumber ≤ a.sequenceNumber)) = true := by
    simp only [Bool.or_eq_true, decide_eq_true_eq, Int32.le_iff_toInt_le]
    omega
  have hsorted := List.pairwise_mergeSort htrans htotal terminals
  exact hsorted.imp fun h => by simpa using h

/-- The equipment of a report, before its terminals are listed. -/
theorem equipment_check (history : List Terminal) :
    (check history).equipment =
      (ascending ((Version.active history).map (·.conductingEquipmentMrid))).filter fun m =>
        !isNumbered (numbersOf m (Version.active history)) := by
  simp only [Report.equipment, check, List.filter_map, List.map_map]
  exact List.map_id _

theorem mem_equipment_check_iff {history : List Terminal} :
    m ∈ (check history).equipment ↔
      numbersOf m (Version.active history) ≠ [] ∧
        ¬ IsBounded (numbersOf m (Version.active history)) := by
  have howner : m ∈ (Version.active history).map (·.conductingEquipmentMrid) ↔
      numbersOf m (Version.active history) ≠ [] := by
    rw [ne_eq, numbersOf_eq_nil_iff, List.mem_map]
    simp only [not_forall, not_not, exists_prop]
  rw [equipment_check, List.mem_filter, mem_ascending, howner, Bool.not_eq_true',
    ← Bool.not_eq_true, isNumbered_iff]

/-- A report lists the terminals of each piece of equipment by their numbers. -/
theorem eq_of_mem_check {history : List Terminal} {group : Mrid × List Terminal}
    (h : group ∈ (check history).terminals) :
    group.2 = sortByNumber (ofEquipment group.1 (Version.active history)) := by
  obtain ⟨g, hg, rfl⟩ := List.mem_map.1 h
  obtain ⟨m, -, rfl⟩ := List.mem_map.1 (List.mem_filter.1 hg).1
  rfl

/-- **The check reports the misnumbered equipment that can be told from the bounds of its numbers**:
the least one, the greatest one and their count.  Whatever is reported is listed with all its active
terminals, each once, in ascending order of number.  Numbers with the right bounds are exact unless
one of them occurs twice. -/
theorem reported_iff_bounds_show (history : List Terminal) :
    (check history).Lists (Version.active history) (fun m =>
        ¬ IsExact (numbersOf m (Version.active history)) ∧
          ¬ IsBounded (numbersOf m (Version.active history))) ∧
      ∀ m, IsExact (numbersOf m (Version.active history)) ↔
        numbersOf m (Version.active history) = [] ∨
          IsBounded (numbersOf m (Version.active history)) ∧
            (numbersOf m (Version.active history)).Nodup := by
  refine ⟨⟨fun m => ?_, ?_, fun group h => ?_, fun group h => ?_⟩, fun m => isExact_iff⟩
  · rw [mem_equipment_check_iff]
    refine and_congr_left fun hbounds => ⟨fun hne hexact => hbounds (hexact.isBounded hne), ?_⟩
    intro hwrong hnil
    rw [hnil] at hwrong
    exact hwrong isExact_nil
  · rw [equipment_check]
    exact (ascending_ascending _).filter _
  · rw [eq_of_mem_check h]
    exact sortByNumber_perm _
  · rw [eq_of_mem_check h]
    exact sortByNumber_sorted _

/-- Three terminals of one piece of equipment: two of number one, and one of number three. -/
def oneOneThree : List Terminal :=
  [{ mrid := .ofNat 1, conductingEquipmentMrid := .ofNat 100, sequenceNumber := 1 },
    { mrid := .ofNat 2, conductingEquipmentMrid := .ofNat 100, sequenceNumber := 1 },
    { mrid := .ofNat 3, conductingEquipmentMrid := .ofNat 100, sequenceNumber := 3 }]

/-- The numbers one, one and three have the right bounds, so they are not reported. -/
theorem repeated_number_missed :
    ¬ (check oneOneThree).Lists (Version.active oneOneThree) fun m =>
      ¬ IsExact (numbersOf m (Version.active oneOneThree)) := by
  intro h
  have hreported := (h.mem_iff (.ofNat 100)).2 (by decide +kernel)
  rw [mem_equipment_check_iff] at hreported
  exact hreported.2 (by decide +kernel)

end Switchyard.Numbering
