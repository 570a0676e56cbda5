import Switchyard.Proofs.Graph.Link
import Switchyard.Proofs.Record.Renaming

/-!
# Maps between graphs

A map of identities is a homomorphism from some terminals to others if it takes whatever the former
join to what the latter join.  It takes walks to walks of the same length, so distances can only
shrink under it.  Two graphs with homomorphisms both ways agree on all points that stay where they
are (`isConnected_eq_of_homs`).

Renaming the identities of terminals is such a map (`hom_rename`).
-/

set_option autoImplicit false

namespace Switchyard.Graph

variable {f f' : Mrid → Mrid} {ts us : List Terminal} {a b : Mrid} {n bound : Nat}

/-- What some terminals join is taken to what others join. -/
def Hom (f : Mrid → Mrid) (ts us : List Terminal) : Prop :=
  ∀ a b, Joined ts a b → Joined us (f a) (f b)

namespace Hom

theorem occurs (h : Hom f ts us) (ha : Occurs ts a) : Occurs us (f a) :=
  let ⟨b, hjoined⟩ := ha
  ⟨f b, h a b hjoined⟩

/-- Walks are taken to walks of the same length. -/
theorem walk (h : Hom f ts us) (hwalk : Walk ts n a b) : Walk us n (f a) (f b) := by
  induction hwalk with
  | nil a => exact .nil (f a)
  | cons hjoined _ ih => exact .cons (h _ _ hjoined) ih

theorem append {ts' us' : List Terminal} (h : Hom f ts us) (h' : Hom f ts' us') :
    Hom f (ts ++ ts') (us ++ us') := by
  intro a b hjoined
  rw [joined_append] at hjoined ⊢
  exact hjoined.imp (h a b) (h' a b)

/-- What is connected is taken to what is connected. -/
theorem isConnected {g g' : Graph} (h : Hom f g.terminals g'.terminals) (hg : g.InStep)
    (hg' : g'.InStep) (hab : g.isConnected a b bound = true) :
    g'.isConnected (f a) (f b) bound = true := by
  obtain ⟨ha, hb, n, hn, hwalk⟩ := hg.isConnected_iff_walk.1 hab
  exact hg'.isConnected_iff_walk.2 ⟨h.occurs ha, h.occurs hb, n, hn, h.walk hwalk⟩

end Hom

/-- **Homomorphisms both ways leave connections alone**, between points that both of them fix. -/
theorem isConnected_eq_of_homs {g g' : Graph} (hg : g.InStep) (hg' : g'.InStep)
    (hto : Hom f g.terminals g'.terminals) (hfrom : Hom f' g'.terminals g.terminals)
    (ha : f a = a ∧ f' a = a) (hb : f b = b ∧ f' b = b) (bound : Nat) :
    g'.isConnected a b bound = g.isConnected a b bound := by
  rw [Bool.eq_iff_iff]
  constructor
  · intro h
    have h' := hfrom.isConnected hg' hg h
    rwa [ha.2, hb.2] at h'
  · intro h
    have h' := hto.isConnected hg hg' h
    rwa [ha.1, hb.1] at h'

/-! ## Renamed terminals -/

/-- A renaming takes terminals to those that it renames. -/
theorem hom_rename (f : Mrid → Mrid) (ts : List Terminal) :
    Hom f ts (ts.map (Record.rename f)) := by
  rintro a b ⟨t, ht, ⟨rfl, rfl⟩ | ⟨rfl, rfl⟩⟩
  · exact ⟨_, List.mem_map_of_mem ht, .inl ⟨rfl, rfl⟩⟩
  · exact ⟨_, List.mem_map_of_mem ht, .inr ⟨rfl, rfl⟩⟩

/-- A map that fixes all points leaves the terminals where they are. -/
theorem hom_of_fixed (h : ∀ x, Occurs ts x → f x = x) : Hom f ts ts := by
  intro a b hjoined
  rwa [h a ⟨b, hjoined⟩, h b ⟨a, hjoined.symm⟩]

end Switchyard.Graph
