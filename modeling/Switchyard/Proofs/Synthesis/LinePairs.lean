import Mathlib.Data.Nat.Choose.Basic
import Switchyard.Proofs.Graph.Growth
import Switchyard.Synthesis.Input

/-!
# The pairs of a voltage level

The tap of a line is meant for every piece of equipment after the line, so each pair of a line and
a later piece is considered once.  `pairsAfter` lists such pairs in the order of the run, and
`length_linePairs` counts them.
-/

set_option autoImplicit false

namespace Switchyard

/-- The pairs of one of the first `n` items of a list and an item after it. -/
def pairsAfter {α : Type} : Nat → List α → List (α × α)
  | n + 1, a :: as => as.map (Prod.mk a) ++ pairsAfter n as
  | _, _ => []

section PairsAfter

variable {α β : Type} {n : Nat} {as : List α} {a b : α}

/-- In a list without repetitions an item stands at one place. -/
theorem eq_of_getElem?_eq (hnodup : as.Nodup) {i j : Nat} (hi : as[i]? = some a)
    (hj : as[j]? = some a) : i = j :=
  (List.getElem?_inj (List.getElem?_eq_some_iff.1 hi).1 hnodup).1 (hi.trans hj.symm)

/-- In a list without repetitions an item comes after a place if its own place does. -/
theorem mem_drop_iff_le (hnodup : as.Nodup) {j k : Nat} (hj : as[j]? = some a) :
    a ∈ as.drop k ↔ k ≤ j := by
  rw [List.mem_iff_getElem?]
  constructor
  · rintro ⟨m, hm⟩
    rw [List.getElem?_drop] at hm
    have := eq_of_getElem?_eq hnodup hm hj
    omega
  · intro hle
    refine ⟨j - k, ?_⟩
    rw [List.getElem?_drop, Nat.add_sub_cancel' hle, hj]

theorem pairsAfter_succ_cons (n : Nat) (a : α) (as : List α) :
    pairsAfter (n + 1) (a :: as) = as.map (Prod.mk a) ++ pairsAfter n as := rfl

/-- An item of a pair is among the first ones, and the other is after it. -/
theorem mem_pairsAfter_iff :
    (a, b) ∈ pairsAfter n as ↔
      ∃ i j : Nat, i < n ∧ i < j ∧ as[i]? = some a ∧ as[j]? = some b := by
  induction as generalizing n with
  | nil => cases n <;> simp [pairsAfter]
  | cons c as ih =>
    cases n with
    | zero => simp [pairsAfter]
    | succ n =>
      rw [pairsAfter_succ_cons, List.mem_append, ih]
      constructor
      · rintro (h | ⟨i, j, hi, hij, ha, hb⟩)
        · obtain ⟨x, hx, heq⟩ := List.mem_map.1 h
          obtain ⟨rfl, rfl⟩ := Prod.mk.inj heq
          obtain ⟨j, hj⟩ := List.mem_iff_getElem?.1 hx
          exact ⟨0, j + 1, Nat.succ_pos n, Nat.succ_pos j, rfl, hj⟩
        · exact ⟨i + 1, j + 1, by omega, by omega, ha, hb⟩
      · rintro ⟨i, j, hi, hij, ha, hb⟩
        obtain ⟨j, rfl⟩ : ∃ k, j = k + 1 := ⟨j - 1, by omega⟩
        rw [List.getElem?_cons_succ] at hb
        cases i with
        | zero =>
          obtain rfl : c = a := Option.some.inj ha
          exact .inl (List.mem_map_of_mem (List.mem_of_getElem? hb))
        | succ i => exact .inr ⟨i, j, by omega, by omega, ha, hb⟩

theorem pairsAfter_map (f : α → β) (n : Nat) (as : List α) :
    pairsAfter n (as.map f) = (pairsAfter n as).map (Prod.map f f) := by
  induction as generalizing n with
  | nil => cases n <;> rfl
  | cons a as ih =>
    cases n with
    | zero => rfl
    | succ n =>
      rw [List.map_cons, pairsAfter_succ_cons, pairsAfter_succ_cons, ih, List.map_append,
        List.map_map, List.map_map]
      rfl

/-- Every two of the first items make a pair, and so does each of them with each item after all of
them. -/
theorem length_pairsAfter_append (as bs : List α) :
    (pairsAfter as.length (as ++ bs)).length =
      as.length.choose 2 + as.length * bs.length := by
  induction as with
  | nil => simp [pairsAfter]
  | cons a as ih =>
    have hchoose : (as.length + 1).choose 2 = as.length + as.length.choose 2 := by
      rw [Nat.choose_succ_succ' as.length 1, Nat.choose_one_right]
    rw [List.cons_append, List.length_cons, pairsAfter_succ_cons, List.length_append, ih,
      List.length_map, List.length_append, hchoose, Nat.succ_mul]
    omega

end PairsAfter

namespace VoltageLevelEquipment

variable (e : VoltageLevelEquipment)

/-- The pairs of a line and a piece of equipment after it. -/
def linePairs : List (Mrid × Mrid) := pairsAfter e.lines.length e.members

/-- The pairs that are connected within a bound. -/
def connectedPairs (hopBound : Nat) (graph : Graph) : List (Mrid × Mrid) :=
  e.linePairs.filter fun p => graph.isConnected p.1 p.2 hopBound

theorem length_lineMrids : e.lineMrids.length = e.lines.length := List.length_map _

theorem length_otherMrids : e.otherMrids.length = e.generators.length + e.loads.length := by
  simp [otherMrids]

/-- **How many pairs there are**: the lines among themselves, and every line with every generator
and every load. -/
theorem length_linePairs :
    e.linePairs.length =
      e.lines.length * (e.lines.length - 1) / 2 +
        e.lines.length * (e.generators.length + e.loads.length) := by
  have hlen := length_pairsAfter_append e.lineMrids e.otherMrids
  rw [length_lineMrids, length_otherMrids, Nat.choose_two_right] at hlen
  exact hlen

/-- A voltage level with two lines and a generator. -/
def twoLinesOneGenerator : VoltageLevelEquipment :=
  { lines := [{ mrid := .ofNat 101 }, { mrid := .ofNat 102 }]
    generators := [{ mrid := .ofNat 103 }] }

/-- Two terminals of a node, which connect the first line to the generator. -/
def lineToGenerator : List Terminal :=
  [{ conductingEquipmentMrid := .ofNat 101, connectivityNodeMrid := .ofNat 201 },
    { conductingEquipmentMrid := .ofNat 103, connectivityNodeMrid := .ofNat 201 }]

example : twoLinesOneGenerator.linePairs.length = 3 := by decide

/-- How many pairs there are if every line is paired with itself too. -/
theorem length_lines_add_linePairs :
    e.lines.length + e.linePairs.length =
      e.lines.length * (e.lines.length + 1) / 2 +
        e.lines.length * (e.generators.length + e.loads.length) := by
  have hsucc := Nat.triangle_succ e.lines.length
  rw [Nat.add_sub_cancel, Nat.mul_comm] at hsucc
  rw [length_linePairs, hsucc]
  omega

variable {e} {i : Nat} {a b : Mrid}

/-- The lines come first. -/
theorem getElem?_members_of_line (ha : e.lineMrids[i]? = some a) : e.members[i]? = some a :=
  (List.getElem?_append_left (List.getElem?_eq_some_iff.1 ha).1).trans ha

theorem lt_length_lines (ha : e.lineMrids[i]? = some a) : i < e.lines.length := by
  rw [← length_lineMrids]
  exact (List.getElem?_eq_some_iff.1 ha).1

/-- Different pieces of equipment make a pair. -/
theorem of_mem_linePairs (hnodup : e.members.Nodup) (h : (a, b) ∈ e.linePairs) :
    a ∈ e.members ∧ b ∈ e.members ∧ a ≠ b := by
  obtain ⟨i, j, -, hij, ha, hb⟩ := mem_pairsAfter_iff.1 h
  refine ⟨List.mem_of_getElem? ha, List.mem_of_getElem? hb, ?_⟩
  rintro rfl
  exact Nat.ne_of_lt hij (eq_of_getElem?_eq hnodup ha hb)

/-- Without terminals no pair is connected. -/
theorem connectedPairs_ofTerminals_nil (hopBound : Nat) :
    e.connectedPairs hopBound (.ofTerminals []) = [] :=
  List.filter_eq_nil_iff.2 fun _ _ => by simp [Graph.isConnected_ofTerminals_nil]

end VoltageLevelEquipment

end Switchyard
