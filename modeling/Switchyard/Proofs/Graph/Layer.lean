import Switchyard.Proofs.Graph.Shortest

/-!
# Walks over a switching layer

A switching layer stands on some pieces of equipment, its *outer* points.  Its *inner* points are
a node for every piece of equipment, taps, and switches, each of which joins a tap to a node:

    equipment ── node ── switch ── tap ── switch ── node ── equipment

The inner points are new, so a walk between outer points uses the layer only by climbing from a
piece of equipment to a tap and down to another piece, which takes six terminals.  Whatever is
joined by fewer is joined by the old terminals alone (`StandsOn.walk_of_lt_six`), and a hop bound of
at most six does not see the layer (`StandsOn.isConnected_eq`).

As for links the argument is an induction over the walk, and `Reach` says for every kind of point
what a walk from there amounts to.
-/

set_option autoImplicit false

namespace Switchyard.Graph

/-- What an inner point of a layer is. -/
inductive Part where
  /-- The node of a piece of equipment. -/
  | node (equipment : Mrid)
  /-- The tap of a line. -/
  | tap (line : Mrid)
  /-- A switch between the tap of a line and the node of a piece of equipment. -/
  | switch (line equipment : Mrid)
deriving DecidableEq

namespace Part

variable {part : Mrid → Option Part} {ts us : List Terminal} {k : Nat} {a b v y e l : Mrid}

/-! ## Terminals of a layer -/

/-- A terminal between a node and a piece of equipment belongs to a layer. -/
inductive Fits (part : Mrid → Option Part) (node equipment : Mrid) : Prop where
  | seat (hnode : part node = some (.node equipment)) (houter : part equipment = none)
  | tapSide {line target : Mrid} (hnode : part node = some (.tap line))
    (hswitch : part equipment = some (.switch line target))
  | nodeSide {line target : Mrid} (hnode : part node = some (.node target))
    (hswitch : part equipment = some (.switch line target))

/-- Some terminals are old ones and those of a layer, whose inner points do not occur among the old
ones. -/
structure StandsOn (part : Mrid → Option Part) (ts us : List Terminal) : Prop where
  old : ∀ t ∈ ts, t ∈ us
  fits : ∀ t ∈ us, t ∈ ts ∨ Fits part t.connectivityNodeMrid t.conductingEquipmentMrid
  outer : ∀ id, Occurs ts id → part id = none

theorem StandsOn.joined (h : StandsOn part ts us) (hjoined : Joined us a b) :
    Joined ts a b ∨ Fits part a b ∨ Fits part b a := by
  obtain ⟨t, ht, hends⟩ := hjoined
  rcases h.fits t ht with hold | hfits
  · exact .inl ⟨t, hold, hends⟩
  · rcases hends with ⟨rfl, rfl⟩ | ⟨rfl, rfl⟩
    · exact .inr (.inl hfits)
    · exact .inr (.inr hfits)

/-! ### The neighbours of each point -/

section Neighbours

variable (h : StandsOn part ts us) (hjoined : Joined us a b)

include h hjoined

theorem StandsOn.joined_outer (ha : part a = none) :
    (part b = none ∧ Joined ts a b) ∨ part b = some (.node a) := by
  rcases h.joined hjoined with hold | hfits | hfits
  · exact .inl ⟨h.outer b ⟨a, hold.symm⟩, hold⟩
  · cases hfits <;> simp_all
  · cases hfits <;> simp_all

theorem StandsOn.joined_node (ha : part a = some (.node e)) :
    (b = e ∧ part b = none) ∨ ∃ l, part b = some (.switch l e) := by
  rcases h.joined hjoined with hold | hfits | hfits
  · simp_all [h.outer a ⟨b, hold⟩]
  · cases hfits <;> simp_all
  · cases hfits <;> simp_all

theorem StandsOn.joined_switch (ha : part a = some (.switch l e)) :
    part b = some (.tap l) ∨ part b = some (.node e) := by
  rcases h.joined hjoined with hold | hfits | hfits
  · simp_all [h.outer a ⟨b, hold⟩]
  · cases hfits <;> simp_all
  · cases hfits <;> simp_all

theorem StandsOn.joined_tap (ha : part a = some (.tap l)) : ∃ e, part b = some (.switch l e) := by
  rcases h.joined hjoined with hold | hfits | hfits
  · simp_all [h.outer a ⟨b, hold⟩]
  · cases hfits <;> simp_all
  · cases hfits <;> simp_all

end Neighbours

/-! ## The induction -/

/-- What is left of a walk of `k` terminals from a point that is `p` terminals above a piece of
equipment: it comes down to that piece and goes on over old terminals, or it crosses a tap, for
which it needs `q` terminals. -/
def Leaves (ts : List Terminal) (k p q : Nat) (equipment y : Mrid) : Prop :=
  (∃ i, i + p ≤ k ∧ Walk ts i equipment y) ∨ q ≤ k

/-- One terminal up or down. -/
theorem Leaves.step {p q p' q' : Nat} (h : Leaves ts k p q e y) (hp : p' ≤ p + 1)
    (hq : q' ≤ q + 1) : Leaves ts (k + 1) p' q' e y := by
  rcases h with ⟨i, hi, hwalk⟩ | hq'
  · exact .inl ⟨i, by omega, hwalk⟩
  · exact .inr (by omega)

/-- What a walk of `k` terminals amounts to, by the point it starts from. -/
structure Reach (part : Mrid → Option Part) (ts us : List Terminal) (k : Nat) (y : Mrid) :
    Prop where
  outer : ∀ v, part v = none → Walk us k v y → Leaves ts k 0 6 v y
  node : ∀ v e, part v = some (.node e) → Walk us k v y → Leaves ts k 1 5 e y
  switch : ∀ v l e, part v = some (.switch l e) → Walk us k v y → Leaves ts k 2 4 e y
  tap : ∀ v l, part v = some (.tap l) → Walk us k v y → 3 ≤ k

theorem reach_zero (hy : part y = none) : Reach part ts us 0 y := by
  have hinner {v : Mrid} {p : Part} (hv : part v = some p) (hwalk : Walk us 0 v y) : False := by
    rw [hwalk.eq_of_zero, hy] at hv
    exact absurd hv (by simp)
  refine ⟨?_, ?_, ?_, ?_⟩
  · intro v _ hwalk
    rw [hwalk.eq_of_zero]
    exact .inl ⟨0, Nat.le_refl 0, .nil y⟩
  · intro v e hv hwalk
    exact (hinner hv hwalk).elim
  · intro v l e hv hwalk
    exact (hinner hv hwalk).elim
  · intro v l hv hwalk
    exact (hinner hv hwalk).elim

theorem reach_succ (h : StandsOn part ts us) (ih : Reach part ts us k y) :
    Reach part ts us (k + 1) y := by
  refine ⟨?_, ?_, ?_, ?_⟩
  · intro v hv hwalk
    cases hwalk with
    | cons hjoined hrest =>
      rcases h.joined_outer hjoined hv with ⟨hb, hold⟩ | hb
      · rcases ih.outer _ hb hrest with ⟨i, hi, hwalk⟩ | hsix
        · exact .inl ⟨i + 1, by omega, .cons hold hwalk⟩
        · exact .inr (by omega)
      · exact (ih.node _ _ hb hrest).step (by omega) (by omega)
  · intro v e hv hwalk
    cases hwalk with
    | cons hjoined hrest =>
      rcases h.joined_node hjoined hv with ⟨rfl, hb⟩ | ⟨l, hb⟩
      · exact (ih.outer _ hb hrest).step (by omega) (by omega)
      · exact (ih.switch _ _ _ hb hrest).step (by omega) (by omega)
  · intro v l e hv hwalk
    cases hwalk with
    | cons hjoined hrest =>
      rcases h.joined_switch hjoined hv with hb | hb
      · -- over the tap, which may lead to other equipment
        have hthree := ih.tap _ _ hb hrest
        exact .inr (by omega)
      · exact (ih.node _ _ hb hrest).step (by omega) (by omega)
  · intro v l hv hwalk
    cases hwalk with
    | cons hjoined hrest =>
      obtain ⟨e, hb⟩ := h.joined_tap hjoined hv
      rcases ih.switch _ _ _ hb hrest with ⟨i, hi, -⟩ | hfour
      · omega
      · omega

theorem reach (h : StandsOn part ts us) (hy : part y = none) (k : Nat) : Reach part ts us k y := by
  induction k with
  | zero => exact reach_zero hy
  | succ k ih => exact reach_succ h ih

namespace StandsOn

/-- **A walk of fewer than six terminals between outer points does not need the layer.** -/
theorem walk_of_lt_six (h : StandsOn part ts us) (ha : part a = none) (hb : part b = none)
    (hk : k < 6) (hwalk : Walk us k a b) : ∃ i ≤ k, Walk ts i a b := by
  rcases (reach h hb k).outer a ha hwalk with ⟨i, hi, hwalk⟩ | hsix
  · exact ⟨i, hi, hwalk⟩
  · omega

/-- **A hop bound of at most six does not see the layer.** -/
theorem isConnected_eq {g g' : Graph} (hg : g.InStep) (hg' : g'.InStep)
    (h : StandsOn part g.terminals g'.terminals) (ha : part a = none) (hb : part b = none)
    (hne : a ≠ b) {bound : Nat} (hbound : bound ≤ 6) :
    g'.isConnected a b bound = g.isConnected a b bound := by
  rw [Bool.eq_iff_iff, hg'.isConnected_iff_walk_of_ne hne, hg.isConnected_iff_walk_of_ne hne]
  constructor
  · rintro ⟨k, hk, hwalk⟩
    obtain ⟨i, hi, hold⟩ := h.walk_of_lt_six ha hb (by omega) hwalk
    exact ⟨i, by omega, hold⟩
  · rintro ⟨k, hk, hwalk⟩
    exact ⟨k, hk, hwalk.mono h.old⟩

end StandsOn

end Part

end Switchyard.Graph
