import Mathlib.Data.List.Basic
import Switchyard.Graph.Walk

/-!
# Points and edges stay in step

A graph numbers its points and keeps its edges between numbers, so that a search need not look at
identities.  `InStep` is what ties the numbers to the terminals: no point has two numbers, the
points are the ends of the terminals, and the edge of a terminal joins the numbers of its node and
of its equipment.  Every graph that was built by adding terminals is in step
(`inStep_ofTerminals`).

The number of a point is its place in the list of points, `List.idxOf`.  The list only grows at its
end, so a number once given stays.
-/

set_option autoImplicit false

namespace Switchyard.Graph

/-- The numbers of the node and of the equipment of a terminal. -/
def edgeOf (points : List Mrid) (t : Terminal) : Nat × Nat :=
  (points.idxOf t.connectivityNodeMrid, points.idxOf t.conductingEquipmentMrid)

/-- The three lists of a graph belong together. -/
structure InStep (g : Graph) : Prop where
  /-- No point has two numbers. -/
  nodup : g.points.Nodup
  /-- The points are the ends of the terminals. -/
  mem_points_iff (id : Mrid) : id ∈ g.points ↔ Occurs g.terminals id
  /-- The edges are those of the terminals, in their order. -/
  edges_eq : g.edges = g.terminals.map (edgeOf g.points)

/-! ## The ends of terminals -/

/-- What occurs among some terminals is a node or a piece of equipment of one of them. -/
theorem occurs_iff {ts : List Terminal} {id : Mrid} :
    Occurs ts id ↔ ∃ t ∈ ts, t.connectivityNodeMrid = id ∨ t.conductingEquipmentMrid = id := by
  constructor
  · rintro ⟨b, t, ht, h | h⟩
    · exact ⟨t, ht, .inl h.1⟩
    · exact ⟨t, ht, .inr h.2⟩
  · rintro ⟨t, ht, h | h⟩
    · exact ⟨_, t, ht, .inl ⟨h, rfl⟩⟩
    · exact ⟨_, t, ht, .inr ⟨rfl, h⟩⟩

theorem not_occurs_nil (id : Mrid) : ¬ Occurs [] id := fun ⟨_, _, ht, _⟩ =>
  absurd ht List.not_mem_nil

theorem occurs_append {ts us : List Terminal} {id : Mrid} :
    Occurs (ts ++ us) id ↔ Occurs ts id ∨ Occurs us id := by
  simp only [occurs_iff, List.mem_append, or_and_right, exists_or]

theorem occurs_singleton {t : Terminal} {id : Mrid} :
    Occurs [t] id ↔ t.connectivityNodeMrid = id ∨ t.conductingEquipmentMrid = id := by
  simp [occurs_iff]

theorem Occurs.node {ts : List Terminal} {t : Terminal} (h : t ∈ ts) :
    Occurs ts t.connectivityNodeMrid := occurs_iff.2 ⟨t, h, .inl rfl⟩

theorem Occurs.equipment {ts : List Terminal} {t : Terminal} (h : t ∈ ts) :
    Occurs ts t.conductingEquipmentMrid := occurs_iff.2 ⟨t, h, .inr rfl⟩

/-! ## Numbering a point -/

theorem idxOf?_eq_some_iff {points : List Mrid} {id : Mrid} {i : Nat} :
    points.idxOf? id = some i ↔ id ∈ points ∧ points.idxOf id = i := by
  rw [List.idxOf_eq_getD_idxOf?]
  cases h : points.idxOf? id with
  | none => simp [List.idxOf?_eq_none_iff.1 h]
  | some j =>
    have hmem : id ∈ points := List.isSome_idxOf?.1 (by simp [h])
    simp [hmem]

/-- Numbering a point appends it to the points unless it is there. -/
theorem place_fst (points : List Mrid) (id : Mrid) :
    (place points id).1 = if id ∈ points then points else points ++ [id] := by
  rw [place]
  split
  · rename_i h
    rw [if_pos (idxOf?_eq_some_iff.1 h).1]
  · rename_i h
    rw [if_neg (List.idxOf?_eq_none_iff.1 h)]

/-- The number of a point is its place. -/
theorem place_snd (points : List Mrid) (id : Mrid) :
    (place points id).2 = (place points id).1.idxOf id := by
  rw [place]
  split
  · rename_i h
    exact (idxOf?_eq_some_iff.1 h).2.symm
  · rename_i h
    rw [List.idxOf_append_of_notMem (List.idxOf?_eq_none_iff.1 h), List.idxOf_cons_self,
      Nat.add_zero]

theorem mem_place {points : List Mrid} {id x : Mrid} :
    x ∈ (place points id).1 ↔ x ∈ points ∨ x = id := by
  rw [place_fst]
  split
  · rename_i h
    exact ⟨.inl, fun hx => hx.elim (fun hx => hx) fun hx => hx ▸ h⟩
  · simp

theorem nodup_place {points : List Mrid} (hnodup : points.Nodup) (id : Mrid) :
    (place points id).1.Nodup := by
  rw [place_fst]
  split
  · exact hnodup
  · rename_i h
    rw [List.nodup_append]
    refine ⟨hnodup, by simp, fun a ha b hb heq => h ?_⟩
    rw [← List.mem_singleton.1 hb, ← heq]
    exact ha

/-- Numbering a point leaves the numbers of the others alone. -/
theorem idxOf_place {points : List Mrid} {x : Mrid} (hx : x ∈ points) (id : Mrid) :
    (place points id).1.idxOf x = points.idxOf x := by
  rw [place_fst]
  split
  · rfl
  · exact List.idxOf_append_of_mem hx

/-! ## Adding terminals -/

theorem inStep_empty : InStep empty := ⟨List.nodup_nil, by simp [empty, occurs_iff], rfl⟩

/-- One more terminal leaves the numbers of the points alone. -/
theorem idxOf_add {g : Graph} {x : Mrid} (hx : x ∈ g.points) (t : Terminal) :
    (g.add t).points.idxOf x = g.points.idxOf x := by
  rw [add, idxOf_place (mem_place.2 (.inl hx)), idxOf_place hx]

/-- **One more terminal keeps a graph in step.** -/
theorem InStep.add {g : Graph} (h : g.InStep) (t : Terminal) : (g.add t).InStep := by
  refine ⟨nodup_place (nodup_place h.nodup _) _, fun id => ?_, ?_⟩
  · rw [terminals_add, occurs_append, occurs_singleton, ← h.mem_points_iff, Graph.add, mem_place,
      mem_place, or_assoc, eq_comm, eq_comm (a := id) (b := t.conductingEquipmentMrid)]
  · rw [terminals_add, List.map_append, List.map_singleton]
    have hold : g.terminals.map (edgeOf (g.add t).points) = g.edges := by
      rw [h.edges_eq]
      refine List.map_congr_left fun u hu => Prod.ext ?_ ?_
      · exact idxOf_add ((h.mem_points_iff _).2 (.node hu)) t
      · exact idxOf_add ((h.mem_points_iff _).2 (.equipment hu)) t
    have hnew : edgeOf (g.add t).points t = ((place g.points t.connectivityNodeMrid).2,
        (place (place g.points t.connectivityNodeMrid).1 t.conductingEquipmentMrid).2) := by
      rw [place_snd, place_snd]
      refine Prod.ext ?_ rfl
      exact idxOf_place (mem_place.2 (.inr rfl)) _
    rw [hold, hnew]
    rfl

theorem InStep.addAll {g : Graph} (h : g.InStep) (ts : List Terminal) : (g.addAll ts).InStep := by
  induction ts generalizing g with
  | nil => exact h
  | cons t ts ih => exact ih (h.add t)

/-- **Every graph of terminals is in step.** -/
theorem inStep_ofTerminals (ts : List Terminal) : (ofTerminals ts).InStep := inStep_empty.addAll ts

/-! ## Numbers and edges -/

namespace InStep

variable {g : Graph}

/-- A point has a number exactly if it occurs among the terminals. -/
theorem index?_eq_some_iff (h : g.InStep) {id : Mrid} {i : Nat} :
    g.index? id = some i ↔ Occurs g.terminals id ∧ g.points.idxOf id = i := by
  rw [index?, idxOf?_eq_some_iff, h.mem_points_iff]

theorem contains_iff (h : g.InStep) {id : Mrid} :
    g.contains id = true ↔ Occurs g.terminals id := by
  rw [contains, index?, List.isSome_idxOf?, h.mem_points_iff]

/-- Different points have different numbers. -/
theorem eq_of_idxOf_eq (h : g.InStep) {a b : Mrid} (ha : Occurs g.terminals a)
    (heq : g.points.idxOf a = g.points.idxOf b) : a = b :=
  (List.idxOf_inj ((h.mem_points_iff a).2 ha)).1 heq

/-- What lies across from some numbers are the numbers of the points joined to theirs. -/
theorem exists_mem_across_iff (h : g.InStep) {frontier : List Nat} {i : Nat} :
    (∃ edge ∈ g.edges, (edge.1 ∈ frontier ∧ i = edge.2) ∨ (edge.2 ∈ frontier ∧ i = edge.1)) ↔
      ∃ a b, Joined g.terminals a b ∧ g.points.idxOf a ∈ frontier ∧ i = g.points.idxOf b := by
  rw [h.edges_eq]
  constructor
  · rintro ⟨edge, hedge, hacross⟩
    obtain ⟨t, ht, rfl⟩ := List.mem_map.1 hedge
    rcases hacross with ⟨hmem, hi⟩ | ⟨hmem, hi⟩
    · exact ⟨_, _, ⟨t, ht, .inl ⟨rfl, rfl⟩⟩, hmem, hi⟩
    · exact ⟨_, _, ⟨t, ht, .inr ⟨rfl, rfl⟩⟩, hmem, hi⟩
  · rintro ⟨a, b, ⟨t, ht, ⟨rfl, rfl⟩ | ⟨rfl, rfl⟩⟩, hmem, hi⟩
    · exact ⟨_, List.mem_map_of_mem ht, .inl ⟨hmem, hi⟩⟩
    · exact ⟨_, List.mem_map_of_mem ht, .inr ⟨hmem, hi⟩⟩

end InStep

end Switchyard.Graph
