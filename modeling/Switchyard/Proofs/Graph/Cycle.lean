import Switchyard.Proofs.Graph.Link

/-!
# Cycles over a link

A link that was made between two points closes a loop only together with a walk of old terminals
from the one to the other.  So a cycle over a link is at least four terminals longer than the
shortest such walk (`Link.old_or_over_link`).

A cycle may use other links and cross the ends of this one in any order.  The argument is to cut it
open at some terminal of the link.  What is left of the link then hangs off the old graph at its two
ends like two dead ends, of three terminals together, and a walk between their tips has to walk
both of them down and get from the foot of one to the foot of the other over old terminals
(`Hangs.walk`).
-/

set_option autoImplicit false

namespace Switchyard.Graph

/-! ## Routes and cycles -/

/-- A walk that tells its way: each step leaves a point over the terminal at some place of the
list. -/
inductive Route (ts : List Terminal) : List (Mrid × Nat) → Mrid → Mrid → Prop where
  | nil (a : Mrid) : Route ts [] a a
  | cons {a b c : Mrid} {i : Nat} {t : Terminal} {steps : List (Mrid × Nat)} :
      ts[i]? = some t → Ends t a b → Route ts steps b c → Route ts ((a, i) :: steps) a c

/-- A simple cycle comes back to where it started and passes no point and no terminal twice.  A
terminal whose ends are the same point is a cycle of one step, and two terminals with the same ends
make one of two steps. -/
structure IsCycle (ts : List Terminal) (steps : List (Mrid × Nat)) : Prop where
  closed : ∃ a, Route ts steps a a
  ne_nil : steps ≠ []
  nodup_points : (steps.map Prod.fst).Nodup
  nodup_places : (steps.map Prod.snd).Nodup

namespace Route

variable {ts us : List Terminal} {steps steps' : List (Mrid × Nat)} {a b c : Mrid} {i : Nat}

theorem append (hab : Route ts steps a b) (hbc : Route ts steps' b c) :
    Route ts (steps ++ steps') a c := by
  induction hab with
  | nil => exact hbc
  | cons ht hends _ ih => exact .cons ht hends (ih hbc)

/-- A route can be parted anywhere. -/
theorem exists_of_append (h : Route ts (steps ++ steps') a c) :
    ∃ b, Route ts steps a b ∧ Route ts steps' b c := by
  induction steps generalizing a with
  | nil => exact ⟨a, .nil a, h⟩
  | cons step steps ih =>
    cases h with
    | cons ht hends hrest =>
      obtain ⟨b, hfirst, hlast⟩ := ih hrest
      exact ⟨b, .cons ht hends hfirst, hlast⟩

/-- A route leaves points of its terminals. -/
theorem occurs (h : Route ts steps a b) {x : Mrid} (hx : x ∈ steps.map Prod.fst) :
    Occurs ts x := by
  induction h with
  | nil => exact absurd hx List.not_mem_nil
  | cons ht hends _ ih =>
    rcases List.mem_cons.1 hx with rfl | hx
    · exact ⟨_, _, List.mem_of_getElem? ht, hends⟩
    · exact ih hx

/-- It is enough to know the node and the equipment of the terminal at a place. -/
theorem cons_of_ends
    (hends : (ts[i]?).map ends = some (a, b) ∨ (ts[i]?).map ends = some (b, a))
    (h : Route ts steps b c) : Route ts ((a, i) :: steps) a c := by
  rcases hends with hends | hends
  · obtain ⟨t, ht, heq⟩ := Option.map_eq_some_iff.1 hends
    exact .cons ht (.inl (Prod.mk.inj heq)) h
  · obtain ⟨t, ht, heq⟩ := Option.map_eq_some_iff.1 hends
    exact .cons ht (.inr (Prod.mk.inj heq)) h

/-- A route that avoids a terminal is a walk over the others. -/
theorem walk_eraseIdx (h : Route ts steps a b) (hi : i ∉ steps.map Prod.snd) :
    Walk (ts.eraseIdx i) steps.length a b := by
  induction h with
  | nil => exact .nil _
  | @cons a b c j t steps ht hends _ ih =>
    rw [List.map_cons, List.mem_cons, not_or] at hi
    have hmem : t ∈ ts.eraseIdx i := List.mem_eraseIdx_iff_getElem?.2 ⟨j, Ne.symm hi.1, ht⟩
    exact .cons ⟨t, hmem, hends⟩ (ih hi.2)

/-- A route that uses no terminal of a second list stays among those of the first. -/
theorem of_append (h : Route (ts ++ us) steps a b)
    (hlt : ∀ j ∈ steps.map Prod.snd, j < ts.length) : Route ts steps a b := by
  induction h with
  | nil => exact .nil _
  | cons ht hends _ ih =>
    rw [List.map_cons, List.forall_mem_cons] at hlt
    rw [List.getElem?_append_left hlt.1] at ht
    exact .cons ht hends (ih hlt.2)

end Route

/-- **A cycle can be cut open at any of its terminals**: the rest of it is a walk over the others
between the two ends. -/
theorem IsCycle.walk_eraseIdx {ts : List Terminal} {steps : List (Mrid × Nat)}
    (h : IsCycle ts steps) {i : Nat} (hi : i ∈ steps.map Prod.snd) :
    ∃ t a b m, ts[i]? = some t ∧ Ends t a b ∧ steps.length = m + 1 ∧
      Walk (ts.eraseIdx i) m b a := by
  obtain ⟨⟨a, j⟩, hstep, rfl⟩ := List.mem_map.1 hi
  obtain ⟨before, after, rfl⟩ := List.append_of_mem hstep
  obtain ⟨start, hroute⟩ := h.closed
  obtain ⟨b, hbefore, hrest⟩ := hroute.exists_of_append
  cases hrest with
  | cons ht hends hafter =>
    refine ⟨_, _, _, (after ++ before).length, ht, hends, by simp; omega, ?_⟩
    refine (hafter.append hbefore).walk_eraseIdx ?_
    have hnodup := h.nodup_places
    rw [List.map_append, List.map_cons] at hnodup
    have hnot := List.nodup_middle.1 hnodup
    rw [List.nodup_cons, List.mem_append] at hnot
    rw [List.map_append, List.mem_append]
    exact fun hmem => hnot.1 hmem.symm

/-! ## Dead ends -/

/-- Terminals that are old, or belong to dead ends that hang off the old points: a dead end leads
down to its `foot`, and `depth` terminals are on the way there.  The foot of an old point is the
point itself. -/
def Hangs (old ts : List Terminal) (foot : Mrid → Mrid) (depth : Mrid → Nat) : Prop :=
  ∀ a b, Joined ts a b →
    (Joined old a b ∧ (foot a = a ∧ depth a = 0) ∧ foot b = b ∧ depth b = 0) ∨
      (foot a = foot b ∧ depth a ≤ depth b + 1 ∧ depth b ≤ depth a + 1)

/-- **A walk from one dead end to another leads down the first, from foot to foot over old
terminals, and up the second.** -/
theorem Hangs.walk {old ts : List Terminal} {foot : Mrid → Mrid} {depth : Mrid → Nat}
    (h : Hangs old ts foot depth) {m : Nat} {a b : Mrid} (hwalk : Walk ts m a b)
    (hne : foot a ≠ foot b) :
    ∃ k, k + depth a + depth b ≤ m ∧ Walk old k (foot a) (foot b) := by
  -- a walk that has not left its dead end is as long at least as it has come up or down
  suffices hall : (∃ k, k + depth a + depth b ≤ m ∧ Walk old k (foot a) (foot b)) ∨
      foot a = foot b ∧ depth b ≤ depth a + m from hall.resolve_right fun h => hne h.1
  clear hne
  induction hwalk with
  | nil => exact .inr ⟨rfl, Nat.le_refl _⟩
  | @cons m a c b hjoined _ ih =>
    rcases h a c hjoined with ⟨hold, ⟨ha, hda⟩, hc, hdc⟩ | ⟨hfoot, hup, hdown⟩
    · rw [ha, hda]
      rw [hc, hdc] at ih
      rcases ih with ⟨k, hk, hrest⟩ | ⟨rfl, hle⟩
      · exact .inl ⟨k + 1, by omega, .cons hold hrest⟩
      · exact .inl ⟨1, by omega, .single hold⟩
    · rw [hfoot]
      rcases ih with ⟨k, hk, hrest⟩ | ⟨heq, hle⟩
      · exact .inl ⟨k, by omega, hrest⟩
      · exact .inr ⟨heq, by omega⟩

/-! ## A link that is cut -/

namespace Link

variable {l : Link} {ts us : List Terminal} {a b x : Mrid}

/-- The end of the link that a point hangs off once the link is cut behind so many inner points. -/
def foot (l : Link) (cut : Nat) (x : Mrid) : Mrid :=
  if x ∈ l.inner then if l.inner.idxOf x < cut then l.first else l.second else x

/-- How many terminals lead from a point to that end. -/
def depth (l : Link) (cut : Nat) (x : Mrid) : Nat :=
  if x ∈ l.inner then
    if l.inner.idxOf x < cut then l.inner.idxOf x + 1 else 3 - l.inner.idxOf x
  else 0

theorem foot_of_not_mem {cut : Nat} (h : x ∉ l.inner) : l.foot cut x = x := if_neg h

theorem depth_of_not_mem {cut : Nat} (h : x ∉ l.inner) : l.depth cut x = 0 := if_neg h

/-- How many inner points come before each of the four terminals, on the way from the first end to
the second. -/
def cutBehind : List Nat := [1, 0, 2, 3]

/-- Two neighbours on a link that is not cut between them hang off the same end. -/
theorem foot_eq_of_mem_wiring (hnew : l.IsNew ts) {j cut : Nat} (hj : cutBehind[j]? = some cut)
    (h : (a, b) ∈ l.wiring.eraseIdx j) :
    l.foot cut a = l.foot cut b ∧ l.depth cut a ≤ l.depth cut b + 1 ∧
      l.depth cut b ≤ l.depth cut a + 1 := by
  obtain ⟨⟨hsn, hst, hnt⟩, ⟨hfs, hfn, hft⟩, hss, hsn', hst'⟩ := hnew.distinct
  match j with
  | 0 | 1 | 2 | 3 =>
    obtain rfl := Option.some.inj hj
    simp only [wiring, List.eraseIdx_cons_succ, List.eraseIdx_zero, List.tail_cons, List.mem_cons,
      List.not_mem_nil, or_false, Prod.mk.injEq] at h
    rcases h with ⟨rfl, rfl⟩ | ⟨rfl, rfl⟩ | ⟨rfl, rfl⟩ <;>
      simp [foot, depth, inner, *]

/-- The two ends of the terminal where a link is cut hang off different ends, three terminals away
from them together. -/
theorem ends_of_cut (hnew : l.IsNew ts) {j cut : Nat} (hj : cutBehind[j]? = some cut)
    (h : l.wiring[j]? = some (a, b)) :
    l.depth cut a + l.depth cut b = 3 ∧
      (l.foot cut a = l.first ∧ l.foot cut b = l.second ∨
        l.foot cut a = l.second ∧ l.foot cut b = l.first) := by
  obtain ⟨⟨hsn, hst, hnt⟩, ⟨hfs, hfn, hft⟩, hss, hsn', hst'⟩ := hnew.distinct
  match j with
  | 0 | 1 | 2 | 3 =>
    obtain rfl := Option.some.inj hj
    obtain ⟨rfl, rfl⟩ := Prod.mk.inj (Option.some.inj h)
    simp [foot, depth, inner, *]

/-- A link that is cut hangs off the old graph. -/
theorem hangs_of_cut (hus : us.map ends = l.wiring) (hnew : l.IsNew ts) {j cut : Nat}
    (hj : cutBehind[j]? = some cut) :
    Hangs ts (ts ++ us.eraseIdx j) (l.foot cut) (l.depth cut) := by
  intro a b hjoined
  rcases joined_append.1 hjoined with hold | hlink
  · have hout {x : Mrid} (hx : Occurs ts x) : x ∉ l.inner := fun hin => hnew.not_occurs x hin hx
    have ha := hout ⟨b, hold⟩
    have hb := hout ⟨a, hold.symm⟩
    exact .inl ⟨hold, ⟨foot_of_not_mem ha, depth_of_not_mem ha⟩, foot_of_not_mem hb,
      depth_of_not_mem hb⟩
  · rw [joined_iff_mem_ends, ← List.eraseIdx_map, hus] at hlink
    rcases hlink with h | h
    · exact .inr (foot_eq_of_mem_wiring hnew hj h)
    · obtain ⟨hfoot, hup, hdown⟩ := foot_eq_of_mem_wiring hnew hj h
      exact .inr ⟨hfoot.symm, hdown, hup⟩

/-- **A walk around a cut link is three terminals longer than one between the ends of the link.** -/
theorem walk_of_cut (hus : us.map ends = l.wiring) (hnew : l.IsNew ts)
    (hne : l.first ≠ l.second) {j m : Nat} {t : Terminal} (ht : us[j]? = some t)
    (hends : Ends t a b) (hwalk : Walk (ts ++ us.eraseIdx j) m a b) :
    ∃ k, k + 3 ≤ m ∧ Walk ts k l.first l.second := by
  have hwiring : l.wiring[j]? = some (ends t) := by
    rw [← hus, List.getElem?_map, ht]
    rfl
  obtain ⟨cut, hj⟩ : ∃ cut, cutBehind[j]? = some cut := by
    have hlt : j < cutBehind.length := (List.getElem?_eq_some_iff.1 hwiring).1
    exact ⟨_, List.getElem?_eq_getElem hlt⟩
  -- which of the two is the node does not matter
  have hcut : l.depth cut a + l.depth cut b = 3 ∧
      (l.foot cut a = l.first ∧ l.foot cut b = l.second ∨
        l.foot cut a = l.second ∧ l.foot cut b = l.first) := by
    rcases hends with ⟨rfl, rfl⟩ | ⟨rfl, rfl⟩
    · exact ends_of_cut hnew hj hwiring
    · obtain ⟨hdepth, hfeet⟩ := ends_of_cut hnew hj hwiring
      exact ⟨by omega, hfeet.symm.imp And.symm And.symm⟩
  obtain ⟨hdepth, ⟨ha, hb⟩ | ⟨ha, hb⟩⟩ := hcut
  · obtain ⟨k, hk, hold⟩ := (hangs_of_cut hus hnew hj).walk hwalk (by rwa [ha, hb])
    rw [ha, hb] at hold
    exact ⟨k, by omega, hold⟩
  · obtain ⟨k, hk, hold⟩ := (hangs_of_cut hus hnew hj).walk hwalk (by rw [ha, hb]; exact hne.symm)
    rw [ha, hb] at hold
    exact ⟨k, by omega, hold.reverse⟩

/-- **A cycle is one of old terminals, or it is four terminals longer than some walk of old
terminals between the ends of the link.** -/
theorem old_or_over_link (hus : us.map ends = l.wiring) (hnew : l.IsNew ts)
    (hne : l.first ≠ l.second) {steps : List (Mrid × Nat)} (h : IsCycle (ts ++ us) steps) :
    IsCycle ts steps ∨ ∃ k, k + 4 ≤ steps.length ∧ Walk ts k l.first l.second := by
  by_cases hall : ∀ i ∈ steps.map Prod.snd, i < ts.length
  · obtain ⟨a, hroute⟩ := h.closed
    exact .inl ⟨⟨a, hroute.of_append hall⟩, h.ne_nil, h.nodup_points, h.nodup_places⟩
  · simp only [not_forall, Nat.not_lt, exists_prop] at hall
    obtain ⟨i, hi, hlink⟩ := hall
    obtain ⟨t, a, b, m, ht, hends, hlength, hwalk⟩ := h.walk_eraseIdx hi
    rw [List.getElem?_append_right hlink] at ht
    rw [List.eraseIdx_append_of_length_le hlink] at hwalk
    obtain ⟨k, hk, hold⟩ := walk_of_cut hus hnew hne ht hends.symm hwalk
    exact .inr ⟨k, by omega, hold⟩

end Link

end Switchyard.Graph
