import Mathlib.Data.List.Nodup
import Switchyard.Mrid.Source

/-!
# Fresh identities

A run of synthesis takes some number of identities from its source.  `MridSource.Fresh ids n used`
says that the next `n` of them are pairwise different and not in use.  What a first part of a run
takes is in use for the rest of it (`Fresh.rest`), so freshness can be followed step by step.
-/

set_option autoImplicit false

namespace Switchyard.MridSource

variable {ids : MridSource} {m n : Nat} {id : Mrid} {used used' : Mrid → Prop}

/-! ## What is taken from a source -/

theorem mem_take_iff : id ∈ ids.take n ↔ ∃ k < n, ids.peek k = id := by
  simp [take]

theorem peek_mem_take {k : Nat} (hk : k < n) : ids.peek k ∈ ids.take n :=
  mem_take_iff.2 ⟨k, hk, rfl⟩

/-- Taking identities in two portions is taking them at once. -/
theorem take_add : ids.take (m + n) = ids.take m ++ (ids.advance m).take n := by
  rw [take, List.range_add, List.map_append, List.map_map, take, take]
  congr 1
  exact List.map_congr_left fun k _ => (peek_advance ids m k).symm

theorem singleton_sublist_take (hn : 0 < n) : [ids.peek 0].Sublist (ids.take n) :=
  List.singleton_sublist.2 (peek_mem_take hn)

theorem append_sublist_take {l l' : List Mrid} (h : l.Sublist (ids.take m))
    (h' : l'.Sublist ((ids.advance m).take n)) : (l ++ l').Sublist (ids.take (m + n)) := by
  rw [take_add]
  exact h.append h'

theorem sublist_take_of_advance {l : List Mrid} (h : l.Sublist ((ids.advance m).take n)) :
    l.Sublist (ids.take (m + n)) :=
  append_sublist_take (List.nil_sublist _) h

/-- Different places of a portion without repetitions hold different identities. -/
theorem peek_inj (h : (ids.take n).Nodup) {j k : Nat} (hj : j < n) (hk : k < n)
    (heq : ids.peek j = ids.peek k) : j = k :=
  List.inj_on_of_nodup_map h (List.mem_range.2 hj) (List.mem_range.2 hk) heq

/-! ## Freshness -/

/-- The next `n` identities are pairwise different, and none of them is in use. -/
structure Fresh (ids : MridSource) (n : Nat) (used : Mrid → Prop) : Prop where
  nodup : (ids.take n).Nodup
  not_used : ∀ id ∈ ids.take n, ¬ used id

instance [DecidablePred used] : Decidable (ids.Fresh n used) :=
  decidable_of_iff ((ids.take n).Nodup ∧ ∀ id ∈ ids.take n, ¬ used id)
    ⟨fun h => ⟨h.1, h.2⟩, fun h => ⟨h.nodup, h.not_used⟩⟩

namespace Fresh

theorem mono (h : ids.Fresh n used) (hused : ∀ id, used' id → used id) : ids.Fresh n used' :=
  ⟨h.nodup, fun id hid hin => h.not_used id hid (hused id hin)⟩

/-- The first identities of a fresh portion are fresh. -/
theorem first (h : ids.Fresh (m + n) used) : ids.Fresh m used := by
  have hnodup := h.nodup
  rw [take_add] at hnodup
  refine ⟨hnodup.of_append_left, fun id hid => h.not_used id ?_⟩
  rw [take_add]
  exact List.mem_append_left _ hid

/-- What comes after some identities is fresh, and differs from them. -/
theorem rest (h : ids.Fresh (m + n) used) :
    (ids.advance m).Fresh n fun id => used id ∨ id ∈ ids.take m := by
  have hnodup := h.nodup
  rw [take_add] at hnodup
  refine ⟨hnodup.of_append_right, fun id hid => ?_⟩
  rintro (hin | hin)
  · refine h.not_used id ?_ hin
    rw [take_add]
    exact List.mem_append_right _ hid
  · exact (List.disjoint_of_nodup_append hnodup) hin hid

end Fresh

end Switchyard.MridSource
