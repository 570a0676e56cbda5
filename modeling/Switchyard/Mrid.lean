/-!
# Master resource identifiers

An `Mrid` is the stable identity of an asset: it stays the same through every version of it.  It
is one of the `2 ^ 128` universally unique identifiers and is ordered by its value, which makes
every listing by identity deterministic.  `Switchyard.Mrid.Text` gives its written form and
`Switchyard.Mrid.Source` the supplies that fresh identities are drawn from.
-/

set_option autoImplicit false

namespace Switchyard

/-- The identity of an asset, one value of 128 bits. -/
structure Mrid where
  val : BitVec 128
deriving DecidableEq

namespace Mrid

/-- How many identifiers there are, which is `2 ^ 128`. -/
def count : Nat := Nat.pow 2 128

/-- The identifier as a number below `count`. -/
def toNat (id : Mrid) : Nat := id.val.toNat

/-- The identifier of a number; only its lowest 128 bits count. -/
def ofNat (n : Nat) : Mrid := ⟨BitVec.ofNat 128 n⟩

/-- The all-zero identifier, which stands for a reference that is not set. -/
def nil : Mrid := ofNat 0

/-- Whether this is the identifier of an unset reference. -/
def isNil (id : Mrid) : Bool := id = nil

instance : Inhabited Mrid := ⟨nil⟩

instance : LT Mrid := ⟨fun a b => a.toNat < b.toNat⟩

instance : LE Mrid := ⟨fun a b => a.toNat ≤ b.toNat⟩

instance (a b : Mrid) : Decidable (a < b) := inferInstanceAs (Decidable (a.toNat < b.toNat))

instance (a b : Mrid) : Decidable (a ≤ b) := inferInstanceAs (Decidable (a.toNat ≤ b.toNat))

theorem lt_def {a b : Mrid} : a < b ↔ a.toNat < b.toNat := Iff.rfl

theorem le_def {a b : Mrid} : a ≤ b ↔ a.toNat ≤ b.toNat := Iff.rfl

theorem toNat_lt (id : Mrid) : id.toNat < count := id.val.isLt

theorem toNat_inj {a b : Mrid} : a.toNat = b.toNat ↔ a = b := by
  constructor
  · intro h
    cases a
    cases b
    exact congrArg Mrid.mk (BitVec.eq_of_toNat_eq h)
  · exact congrArg toNat

@[simp] theorem toNat_ofNat (n : Nat) : (ofNat n).toNat = n % count := rfl

@[simp] theorem ofNat_toNat (id : Mrid) : ofNat id.toNat = id :=
  toNat_inj.1 (by rw [toNat_ofNat, Nat.mod_eq_of_lt id.toNat_lt])

theorem isNil_iff {id : Mrid} : id.isNil = true ↔ id = nil := by simp [isNil]

/-! ## Order -/

theorem lt_irrefl (a : Mrid) : ¬ a < a := Nat.lt_irrefl _

theorem lt_trans {a b c : Mrid} (hab : a < b) (hbc : b < c) : a < c := Nat.lt_trans hab hbc

/-- Any two identifiers are comparable. -/
theorem lt_or_eq_or_gt (a b : Mrid) : a < b ∨ a = b ∨ b < a :=
  (Nat.lt_trichotomy a.toNat b.toNat).imp id (Or.imp toNat_inj.1 id)

/-- The identifiers of a list in ascending order, repetitions kept. -/
def sort (ids : List Mrid) : List Mrid := ids.mergeSort fun a b => decide (a ≤ b)

end Mrid

end Switchyard
