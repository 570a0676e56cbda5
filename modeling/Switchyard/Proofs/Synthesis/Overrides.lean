import Switchyard.Proofs.Load.CurrentEquipment
import Switchyard.Proofs.Synthesis.TwoGraphs

/-!
# Two ways to number a line

The number of a new terminal of a line comes from the overrides, which are loaded with the
equipment, or else from the first terminal of the line that the graph has.  The overrides are made
of terminals that the store was asked for by their equipment, and the graph of terminals that it was
asked for altogether or round by round.  Both are the same terminal, so a run does not need the
overrides that it was given (`same_run_without_overrides`).
-/

set_option autoImplicit false

namespace Switchyard

open Switchyard.Graph EquipmentHistory

namespace VoltageLevelEquipment

variable {e : VoltageLevelEquipment} {overrides : List (Mrid × Int32)} {hopBound : Nat}
  {graph : Graph} {ids : MridSource} {line : Mrid}

/-- The equipment with other overrides. -/
def withOverrides (e : VoltageLevelEquipment) (overrides : List (Mrid × Int32)) :
    VoltageLevelEquipment :=
  { e with overrides }

/-- Seats are the same with other overrides, if the terminals get the same numbers. -/
theorem foldl_seat_withOverrides (isLine : Bool) {d : Draft} {ms : List Mrid}
    (h : ∀ m ∈ ms, (e.withOverrides overrides).terminalNumber d.graph isLine m =
      e.terminalNumber d.graph isLine m) :
    ms.foldl ((e.withOverrides overrides).seat isLine) d = ms.foldl (e.seat isLine) d := by
  have hlevel : (e.withOverrides overrides).voltageLevel = e.voltageLevel := rfl
  calc ms.foldl ((e.withOverrides overrides).seat isLine) d
      = (ms.foldl (e.seat isLine) d).withGraph d.graph :=
        foldl_seat_of_numbers hlevel isLine d.graph h
    _ = (ms.foldl (e.seat isLine) d).withGraph (ms.foldl (e.seat isLine) d).graph := by
        rw [graph_foldl_seat]
    _ = ms.foldl (e.seat isLine) d := rfl

/-- Once there are seats, the overrides are not asked for. -/
theorem tapLines_withOverrides (n : Nat) (seats : List Seat) (d : Draft) :
    (e.withOverrides overrides).tapLines hopBound n seats d = e.tapLines hopBound n seats d := by
  induction seats generalizing n d with
  | nil => cases n <;> rfl
  | cons line after ih =>
    cases n with
    | zero => rfl
    | succ n => exact ih n (e.tapLine hopBound line after d)

/-- **Overrides matter for the numbers of the seats and for nothing else.** -/
theorem synthesize_withOverrides
    (hlines : ∀ m ∈ e.lineMrids,
      (e.withOverrides overrides).terminalNumber graph true m = e.terminalNumber graph true m)
    (hothers : ∀ m ∈ e.otherMrids,
      (e.withOverrides overrides).terminalNumber graph false m = e.terminalNumber graph false m) :
    (e.withOverrides overrides).synthesize hopBound graph ids =
      e.synthesize hopBound graph ids := by
  have hseatLines : e.lineMrids.foldl ((e.withOverrides overrides).seat true)
      (e.emptyDraft graph ids) = e.lineMrids.foldl (e.seat true) (e.emptyDraft graph ids) :=
    foldl_seat_withOverrides true hlines
  have hseatOthers :
      e.otherMrids.foldl ((e.withOverrides overrides).seat false)
          (e.lineMrids.foldl (e.seat true) (e.emptyDraft graph ids)) =
        e.otherMrids.foldl (e.seat false)
          (e.lineMrids.foldl (e.seat true) (e.emptyDraft graph ids)) := by
    refine foldl_seat_withOverrides false ?_
    rw [graph_foldl_seat]
    exact hothers
  have hseated : (e.withOverrides overrides).seated graph ids = e.seated graph ids := by
    rw [seated, seated, seatAll, seatAll, ← hseatOthers, ← hseatLines]
    rfl
  rw [synthesize_eq, synthesize_eq, ← tapLines_seated, ← tapLines_seated, hseated,
    tapLines_withOverrides]
  rfl

/-- A run does not need an override that says what the graph says. -/
theorem terminalNumber_line_withOverrides_nil
    (h : e.override? line = (graph.terminalOf? line).map fun t => otherEnd t.sequenceNumber) :
    (e.withOverrides []).terminalNumber graph true line = e.terminalNumber graph true line := by
  have hnone : (e.withOverrides []).override? line = none := rfl
  rw [terminalNumber, terminalNumber, hnone, h]
  cases graph.terminalOf? line <;> rfl

end VoltageLevelEquipment

namespace Backend

variable {b : Backend} {voltageLevel : Mrid} {e : VoltageLevelEquipment} {history : List Terminal}
  {hopBound : Nat} {graph : Graph} {ids : MridSource}

/-- The override of a line is the number of the other end of its first terminal. -/
theorem override?_eq_map_terminalOf? (hfetch : b.fetch Terminal .all = .ok history)
    (h : b.loadEquipment voltageLevel = .ok e) {line : Mrid} (hline : line ∈ e.lineMrids) :
    e.override? line = ((ofTerminals (Version.active history)).terminalOf? line).map
      fun t => otherEnd t.sequenceNumber := by
  rw [override?_of_load hfetch h, if_pos hline, Numbering.head?_numbersOf, terminalOf?,
    terminals_ofTerminals, Option.map_map]
  rfl

/-- Loaded overrides are not needed over a graph that has the same first terminals of the lines as
the graph of all active terminals. -/
theorem synthesize_withOverrides_nil (hfetch : b.fetch Terminal .all = .ok history)
    (h : b.loadEquipment voltageLevel = .ok e) (hdistinct : ∀ m ∈ e.otherMrids, m ∉ e.lineMrids)
    (hfirst : ∀ line ∈ e.lineMrids,
      graph.terminalOf? line = (ofTerminals (Version.active history)).terminalOf? line) :
    (e.withOverrides []).synthesize hopBound graph ids = e.synthesize hopBound graph ids := by
  refine VoltageLevelEquipment.synthesize_withOverrides (fun line hline => ?_) fun m hm => ?_
  · refine VoltageLevelEquipment.terminalNumber_line_withOverrides_nil ?_
    rw [hfirst line hline, override?_eq_map_terminalOf? hfetch h hline]
  · have hnone : e.override? m = none := by
      rw [override?_of_load hfetch h, if_neg (hdistinct m hm)]
    rw [VoltageLevelEquipment.terminalNumber, VoltageLevelEquipment.terminalNumber, hnone]
    rfl

end Backend

/-- **A run over a loaded voltage level does not need its overrides**: without them it creates the
same model, over the graph of all active terminals as well as over the local graph around the
equipment, if no generator or load shares its identity with a line. -/
theorem same_run_without_overrides {b : Backend} {voltageLevel : Mrid} {e : VoltageLevelEquipment}
    {history : List Terminal} (hfetch : b.fetch Terminal .all = .ok history)
    (hload : b.loadEquipment voltageLevel = .ok e)
    (hdistinct : ∀ m ∈ e.otherMrids, m ∉ e.lineMrids) (hopBound : Nat) (ids : MridSource) :
    (∃ full, b.loadGraph = .ok full ∧
        (e.withOverrides []).synthesize hopBound full ids = e.synthesize hopBound full ids) ∧
      ∀ hops, 1 ≤ hops → ∃ localGraph, b.loadLocalGraph e.members hops = .ok localGraph ∧
        (e.withOverrides []).synthesize hopBound localGraph ids =
          e.synthesize hopBound localGraph ids := by
  refine ⟨⟨_, Backend.loadGraph_eq hfetch, Backend.synthesize_withOverrides_nil hfetch hload
    hdistinct fun _ _ => rfl⟩, fun hops hhops => ?_⟩
  obtain ⟨us, hlocal, hus⟩ := Backend.exists_loadLocalGraph hfetch e.members hhops
  refine ⟨_, hlocal, Backend.synthesize_withOverrides_nil hfetch hload hdistinct ?_⟩
  intro line hline
  exact hus.terminalOf?_eq (List.mem_append_left _ hline)

/-- Level 1 loads with a number for line 11, and a run comes to the same without it. -/
theorem same_run_without_overrides_movedEnds :
    ∃ e full, movedEnds.backend.loadEquipment (.ofNat 1) = .ok e ∧
      movedEnds.backend.loadGraph = .ok full ∧ (.ofNat 11, 0) ∈ e.overrides ∧
      (e.withOverrides []).synthesize defaultHopBound full (.startingAt 1000) =
        e.synthesize defaultHopBound full (.startingAt 1000) := by
  have hout := outcome (.ofNat 1) isRead_movedEnds
  obtain ⟨e, hload⟩ := hout.exists_eq_ok_iff.2 ⟨isThere_movedEnds.1, not_ownsSeveral_movedEnds⟩
  have he := hout.describes hload
  have hkinds : ∀ l ∈ Version.active movedEnds.lines,
      (∀ g ∈ Version.active movedEnds.generators, g.mrid ≠ l.mrid) ∧
        ∀ c ∈ Version.active movedEnds.loads, c.mrid ≠ l.mrid := by
    decide +kernel
  have hdistinct : ∀ m ∈ e.otherMrids, m ∉ e.lineMrids := by
    intro m hm hline
    obtain ⟨l, hl, rfl⟩ := List.mem_map.1 hline
    have hl := Version.mem_active_iff_isCurrent.2 ((he.mem_lines_iff l).1 hl).1
    rcases List.mem_append.1 hm with hm | hm
    · obtain ⟨g, hg, heq⟩ := List.mem_map.1 hm
      have hg := Version.mem_active_iff_isCurrent.2 ((he.mem_generators_iff g).1 hg).1
      exact (hkinds l hl).1 g hg heq
    · obtain ⟨c, hc, heq⟩ := List.mem_map.1 hm
      have hc := Version.mem_active_iff_isCurrent.2 ((he.mem_loads_iff c).1 hc).1
      exact (hkinds l hl).2 c hc heq
  obtain ⟨⟨full, hfull, hsame⟩, -⟩ := same_run_without_overrides isRead_movedEnds.terminals hload
    hdistinct defaultHopBound (.startingAt 1000)
  exact ⟨e, full, hload, hfull, he.mem_overrides_movedEnds, hsame⟩

end Switchyard
