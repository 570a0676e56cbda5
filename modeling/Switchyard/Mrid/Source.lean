import Switchyard.Mrid

/-!
# Sources of fresh identities

Synthesis gives every record it creates an identity of its own.  A `MridSource` is the endless
supply those are taken from: the whole stream is fixed from the start, and the source remembers
how many of its identities have been handed out.  So a run is a function of its source, and two
runs over different sources can be compared identity by identity.

* `MridSource.startingAt` counts upwards from a number; runs over it are reproducible.
* `MridSource.scattered` yields identifiers of version four, whose 122 free bits are filled from a
  seed.  Its first `2 ^ 122` identifiers are pairwise distinct.
-/

set_option autoImplicit false

namespace Switchyard

/-- A stream of identities together with the number of those already handed out. -/
structure MridSource where
  stream : Nat → Mrid
  drawn : Nat := 0

namespace MridSource

/-- The identity that will be handed out after `k` more. -/
def peek (ids : MridSource) (k : Nat) : Mrid := ids.stream (ids.drawn + k)

/-- The source after handing out `k` identities. -/
def advance (ids : MridSource) (k : Nat) : MridSource := { ids with drawn := ids.drawn + k }

/-- The next `k` identities, in the order in which they are handed out. -/
def take (ids : MridSource) (k : Nat) : List Mrid := (List.range k).map ids.peek

@[simp] theorem stream_advance (ids : MridSource) (k : Nat) :
    (ids.advance k).stream = ids.stream := rfl

@[simp] theorem drawn_advance (ids : MridSource) (k : Nat) :
    (ids.advance k).drawn = ids.drawn + k := rfl

@[simp] theorem peek_advance (ids : MridSource) (j k : Nat) :
    (ids.advance j).peek k = ids.peek (j + k) := by
  simp [peek, Nat.add_assoc]

@[simp] theorem advance_advance (ids : MridSource) (j k : Nat) :
    (ids.advance j).advance k = ids.advance (j + k) := by
  simp [advance, Nat.add_assoc]

/-! ## Counting upwards -/

/-- The identities `start`, `start + 1`, and so on. -/
def startingAt (start : Nat) : MridSource := ⟨fun k => Mrid.ofNat (start + k), 0⟩

/-- Identities counted from one. -/
def sequential : MridSource := startingAt 1

theorem startingAt_advance_peek (start j k : Nat) :
    ((startingAt start).advance j).peek k = Mrid.ofNat (start + (j + k)) := by
  simp [startingAt, peek]

/-! ## Version four -/

/-- The bits of an identifier of version four whose free bits hold `payload`: 48 free bits, the
version, 12 free bits, the variant, and 62 free bits. -/
def versionFourBits (payload : BitVec 122) : BitVec (48 + 4 + 12 + 2 + 62) :=
  payload.extractLsb' 74 48 ++ 4#4 ++ payload.extractLsb' 62 12 ++ 2#2 ++ payload.extractLsb' 0 62

/-- The identifier of version four whose free bits hold `payload`. -/
def versionFour (payload : BitVec 122) : Mrid := ⟨versionFourBits payload⟩

/-- Where a bit of the payload stands in the identifier. -/
def placeOfBit (i : Nat) : Nat := if i < 62 then i else if i < 74 then i + 2 else i + 6

theorem getLsbD_versionFourBits (payload : BitVec 122) {i : Nat} (h : i < 122) :
    (versionFourBits payload).getLsbD (placeOfBit i) = payload.getLsbD i := by
  simp only [versionFourBits, BitVec.getLsbD_append, BitVec.getLsbD_extractLsb', placeOfBit]
  by_cases hlow : i < 62
  · simp [hlow]
  · by_cases hmid : i < 74
    · have hplace : ¬ i + 2 < 62 := by omega
      have hrest : ¬ i + 2 - 62 < 2 := by omega
      have hin : i + 2 - 62 - 2 < 12 := by omega
      have heq : 62 + (i + 2 - 62 - 2) = i := by omega
      simp only [hlow, hmid, hplace, hrest, hin, heq, if_false, if_true, decide_true,
        Bool.true_and]
    · have hplace : ¬ i + 6 < 62 := by omega
      have hrest : ¬ i + 6 - 62 < 2 := by omega
      have hout : ¬ i + 6 - 62 - 2 < 12 := by omega
      have htop : ¬ i + 6 - 62 - 2 - 12 < 4 := by omega
      have hin : i + 6 - 62 - 2 - 12 - 4 < 48 := by omega
      have heq : 74 + (i + 6 - 62 - 2 - 12 - 4) = i := by omega
      simp only [hlow, hmid, hplace, hrest, hout, htop, hin, heq, if_false, decide_true,
        Bool.true_and]

/-- Fixing the version and the variant loses nothing of the free bits. -/
theorem versionFour_inj {p q : BitVec 122} (h : versionFour p = versionFour q) : p = q := by
  have hbits : versionFourBits p = versionFourBits q := congrArg Mrid.val h
  apply BitVec.eq_of_getLsbD_eq
  intro i hi
  rw [← getLsbD_versionFourBits p hi, hbits, getLsbD_versionFourBits q hi]

/-- The step between the payloads of successive identities, an odd number near `2 ^ 122` divided
by the golden ratio. -/
def scatterStep : Nat := 3286032320771919893214630779437692705

/-- Identifiers of version four: the payloads advance from `seed` by `scatterStep`, which visits
every payload once before any comes back. -/
def scattered (seed : Nat) : MridSource :=
  ⟨fun k => versionFour (BitVec.ofNat 122 (seed + k * scatterStep)), 0⟩

end MridSource

end Switchyard
