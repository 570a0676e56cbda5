import Switchyard.Proofs.Mrid.Fresh

/-!
# Exchanging one source for another

A run that takes its identities from another source comes across other ones.  Which of them stand
for which is told by their places: the first that is taken from the one source stands for the first
that is taken from the other, and so on (`MridSource.replacing`).  `Translates f` says that a
renaming does this for the first `n` places and leaves alone what is in use; a fresh source has such
a renaming to any other source (`Fresh.translates`).
-/

set_option autoImplicit false

namespace Switchyard.MridSource

variable {ids ids' : MridSource} {n : Nat} {used : Mrid → Prop}

/-- Replaces each of the next `n` identities of a source by that of another source at the same
place.  All other identities stay. -/
def replacing (ids ids' : MridSource) (n : Nat) (id : Mrid) : Mrid :=
  if id ∈ ids.take n then ids'.peek ((ids.take n).idxOf id) else id

/-- The renaming takes the next `n` identities of one source to those of another, place by place,
and leaves everything alone that is in use. -/
structure Translates (f : Mrid → Mrid) (ids ids' : MridSource) (n : Nat) (used : Mrid → Prop) :
    Prop where
  peek : ∀ k < n, f (ids.peek k) = ids'.peek k
  used : ∀ id, used id → f id = id

/-- An identity of a portion without repetitions stands at its place. -/
theorem idxOf_take (h : (ids.take n).Nodup) {k : Nat} (hk : k < n) :
    (ids.take n).idxOf (ids.peek k) = k := by
  have hlt : k < (ids.take n).length := by simpa [take] using hk
  have hget : (ids.take n)[k] = ids.peek k := by simp [take]
  rw [← hget]
  exact h.idxOf_getElem k hlt

theorem Fresh.translates (h : ids.Fresh n used) (ids' : MridSource) :
    Translates (ids.replacing ids' n) ids ids' n used where
  peek k hk := by rw [replacing, if_pos (peek_mem_take hk), idxOf_take h.nodup hk]
  used id hid := if_neg fun hmem => h.not_used id hmem hid

/-- Two renamings that translate two sources into each other. -/
structure Exchange (f g : Mrid → Mrid) (ids ids' : MridSource) (n : Nat) (used : Mrid → Prop) :
    Prop where
  forth : Translates f ids ids' n used
  back : Translates g ids' ids n used

/-- **Fresh sources can be exchanged for each other.** -/
theorem Fresh.exchange (h : ids.Fresh n used) (h' : ids'.Fresh n used) :
    Exchange (ids.replacing ids' n) (ids'.replacing ids n) ids ids' n used :=
  ⟨h.translates ids', h'.translates ids⟩

end Switchyard.MridSource
