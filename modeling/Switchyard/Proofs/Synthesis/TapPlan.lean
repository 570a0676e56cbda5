import Switchyard.Proofs.Synthesis.LevelRun

/-!
# Planned tappings

A run judges every pair by the graph as it is when the pair is due.  If all the graphs that it goes
through give the same answers, the tappings can be planned from those answers beforehand
(`tappings_eq_planned`), and so can the number of switches (`targetCount_planned`).
-/

set_option autoImplicit false

namespace Switchyard

/-- What the first lines among some seats are switched to if it is known what is connected. -/
def planned (connected : Mrid → Mrid → Bool) : Nat → List Seat → List Tapping
  | n + 1, line :: after =>
    ⟨line, after.filter fun t => !connected line.equipment t.equipment⟩ ::
      planned connected n after
  | _, _ => []

section Planned

variable {connected : Mrid → Mrid → Bool} {n : Nat} {seats : List Seat}

theorem planned_succ_cons (n : Nat) (line : Seat) (after : List Seat) :
    planned connected (n + 1) (line :: after) =
      ⟨line, after.filter fun t => !connected line.equipment t.equipment⟩ ::
        planned connected n after := rfl

/-- Every planned line has its place among the seats, and is switched to what comes after it and is
not connected. -/
theorem getElem?_planned {i : Nat} {t : Tapping} (h : (planned connected n seats)[i]? = some t) :
    seats[i]? = some t.line ∧
      t.targets = (seats.drop (i + 1)).filter fun s => !connected t.line.equipment s.equipment := by
  induction seats generalizing n i with
  | nil => cases n <;> exact absurd h (by simp [planned])
  | cons line after ih =>
    cases n with
    | zero => exact absurd h (by simp [planned])
    | succ n =>
      rw [planned_succ_cons] at h
      cases i with
      | zero =>
        obtain rfl := Option.some.inj h
        exact ⟨rfl, rfl⟩
      | succ i => exact ih h

/-- **A planned line is switched to itself, and to what comes after it and is not connected.** -/
theorem mem_planned_iff (hnodup : seats.Nodup) {i j : Nat} {t : Tapping} {s : Seat}
    (ht : (planned connected n seats)[i]? = some t) (hs : seats[j]? = some s) :
    s ∈ t.line :: t.targets ↔
      i = j ∨ i < j ∧ ¬ connected t.line.equipment s.equipment = true := by
  obtain ⟨hline, htargets⟩ := getElem?_planned ht
  have hself : s = t.line ↔ i = j := by
    constructor
    · rintro rfl
      exact eq_of_getElem?_eq hnodup hline hs
    · rintro rfl
      exact Option.some.inj (hs.symm.trans hline)
  rw [htargets, List.mem_cons, List.mem_filter, mem_drop_iff_le hnodup hs, hself, Nat.succ_le_iff,
    Bool.not_eq_true, Bool.not_eq_true']

/-- Planned switches are for the pairs that are not connected. -/
theorem targetCount_planned :
    targetCount (planned connected n seats) =
      ((pairsAfter n seats).filter fun p => !connected p.1.equipment p.2.equipment).length := by
  induction seats generalizing n with
  | nil => cases n <;> rfl
  | cons line after ih =>
    cases n with
    | zero => rfl
    | succ n =>
      rw [planned_succ_cons, targetCount_cons, ih, pairsAfter_succ_cons, List.filter_append,
        List.length_append, List.filter_map, List.length_map]
      rfl

end Planned

namespace VoltageLevelEquipment

variable {e : VoltageLevelEquipment} {hopBound n : Nat} {seats : List Seat} {d : Draft}
  {connected : Mrid → Mrid → Bool} {last : Graph}

/-- **If all graphs of a run agree on what is connected, its tappings are the planned ones.** -/
theorem tappings_eq_planned
    (hsteady : ∀ g, d.graph.Grows g → g.Grows last → ∀ s t, (s, t) ∈ pairsAfter n seats →
      g.isConnected s.equipment t.equipment hopBound = connected s.equipment t.equipment)
    (hlast : (e.tapLines hopBound n seats d).graph.Grows last) :
    e.tappings hopBound n seats d = planned connected n seats := by
  induction seats generalizing n d with
  | nil => cases n <;> rfl
  | cons line after ih =>
    cases n with
    | zero => rfl
    | succ n =>
      have hline := e.grows_tapLine hopBound line after d
      have hrest := e.grows_tapLines hopBound n after (e.tapLine hopBound line after d)
      have htargets : e.targets hopBound line after d =
          after.filter fun t => !connected line.equipment t.equipment := by
        refine Draft.chosen_eq_filter (fun d t => e.grows_addWire line d _ t) ?_
          (hrest.trans hlast)
        intro d' hd' hd'' t ht
        exact hsteady d'.graph ((e.grows_addWire line (e.addTap d) _ line).trans hd') hd'' line t
          (List.mem_append_left _ (List.mem_map_of_mem ht))
      have hafter : e.tappings hopBound n after (e.tapLine hopBound line after d) =
          planned connected n after := by
        refine ih ?_ hlast
        intro g hg hg' s t hst
        exact hsteady g (hline.trans hg) hg' s t (List.mem_append_right _ hst)
      rw [tappings_succ_cons, planned_succ_cons, hafter, tapping, htargets]

variable {graph : Graph} {ids : MridSource}

/-- The tappings of a run are the planned ones if all its graphs agree on the pairs of a line and a
piece of equipment after it. -/
theorem tappingsOf_eq_planned
    (hsteady : ∀ g, graph.Grows g → g.Grows (e.synthesize hopBound graph ids).graph →
      ∀ p ∈ e.linePairs, g.isConnected p.1 p.2 hopBound = connected p.1 p.2) :
    e.tappingsOf hopBound graph ids = planned connected e.lines.length (e.seatsOf ids) := by
  have hlast : (e.tapLines hopBound e.lines.length (e.seatsOf ids) (e.seated graph ids)).graph.Grows
      (e.synthesize hopBound graph ids).graph := by
    rw [graph_synthesize]
    exact .refl _
  refine tappings_eq_planned ?_ hlast
  intro g hfrom hto s t hst
  refine hsteady g ((e.grows_seated graph ids).trans hfrom) hto (s.equipment, t.equipment) ?_
  rw [e.linePairs_eq ids]
  exact List.mem_map_of_mem (f := Prod.map Seat.equipment Seat.equipment) hst

/-- **The number of planned switches**: one for every line, and one for every pair that is not
connected. -/
theorem count_of_planned
    (hplan : e.tappingsOf hopBound graph ids = planned connected e.lines.length (e.seatsOf ids)) :
    (e.synthesize hopBound graph ids).model.topology.switches.length =
        e.lines.length + (e.linePairs.filter fun p => !connected p.1 p.2).length ∧
      (e.synthesize hopBound graph ids).model.alreadyConnected =
        (e.linePairs.filter fun p => connected p.1 p.2).length := by
  have hcount : targetCount (e.tappingsOf hopBound graph ids) =
      (e.linePairs.filter fun p => !connected p.1 p.2).length := by
    rw [hplan, targetCount_planned, e.linePairs_eq ids, List.filter_map, List.length_map]
    rfl
  have hsplit := List.length_eq_length_filter_add (l := e.linePairs) fun p => connected p.1 p.2
  rw [length_switches_synthesize, alreadyConnected_synthesize, hcount]
  exact ⟨rfl, by omega⟩

end VoltageLevelEquipment

end Switchyard
