import Switchyard.Graph.Basic

/-!
# Walks

What a path is, said without any search: `Joined` is being the two ends of a terminal, in either
order, and `Walk n a b` is a walk of `n` terminals from `a` to `b`.  Distances are judged by these.
-/

set_option autoImplicit false

namespace Switchyard.Graph

/-- The two identities are the ends of a terminal. -/
def Ends (t : Terminal) (a b : Mrid) : Prop :=
  (t.connectivityNodeMrid = a ∧ t.conductingEquipmentMrid = b) ∨
    (t.connectivityNodeMrid = b ∧ t.conductingEquipmentMrid = a)

/-- Some terminal of the list joins the two identities. -/
def Joined (ts : List Terminal) (a b : Mrid) : Prop := ∃ t ∈ ts, Ends t a b

/-- An identity is an end of some terminal of the list. -/
def Occurs (ts : List Terminal) (a : Mrid) : Prop := ∃ b, Joined ts a b

/-- A walk of `n` terminals of the list. -/
inductive Walk (ts : List Terminal) : Nat → Mrid → Mrid → Prop where
  | nil (a : Mrid) : Walk ts 0 a a
  | cons {n : Nat} {a b c : Mrid} : Joined ts a b → Walk ts n b c → Walk ts (n + 1) a c

theorem Joined.symm {ts : List Terminal} {a b : Mrid} (h : Joined ts a b) : Joined ts b a :=
  let ⟨t, ht, hends⟩ := h
  ⟨t, ht, hends.symm⟩

theorem Joined.mono {ts us : List Terminal} {a b : Mrid} (h : Joined ts a b)
    (hsub : ∀ t ∈ ts, t ∈ us) : Joined us a b :=
  let ⟨t, ht, hends⟩ := h
  ⟨t, hsub t ht, hends⟩

namespace Walk

variable {ts : List Terminal} {m n : Nat} {a b c : Mrid}

/-- Walks can be put end to end. -/
theorem append (hab : Walk ts m a b) (hbc : Walk ts n b c) : Walk ts (m + n) a c := by
  induction hab with
  | nil => simpa using hbc
  | cons hjoined _ ih =>
    rw [Nat.add_right_comm]
    exact .cons hjoined (ih hbc)

/-- A terminal is a walk of its own. -/
theorem single (h : Joined ts a b) : Walk ts 1 a b := .cons h (.nil b)

/-- A walk can be walked backwards. -/
theorem reverse (h : Walk ts n a b) : Walk ts n b a := by
  induction h with
  | nil => exact .nil _
  | cons hjoined _ ih => exact ih.append (single hjoined.symm)

/-- A walk stays one when terminals are added. -/
theorem mono {us : List Terminal} (h : Walk ts n a b) (hsub : ∀ t ∈ ts, t ∈ us) :
    Walk us n a b := by
  induction h with
  | nil => exact .nil _
  | cons hjoined _ ih => exact .cons (hjoined.mono hsub) ih

end Walk

end Switchyard.Graph
