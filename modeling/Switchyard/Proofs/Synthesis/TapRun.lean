import Switchyard.Proofs.Synthesis.LinePairs
import Switchyard.Proofs.Synthesis.Taps

/-!
# Tapping lines

Every piece of equipment gets its seat, and then every line its tap, which is switched to the line
itself and to what comes after it and is not connected yet.  `tappings` lists what becomes of the
lines, and to tap them is the same as laying those taps and leaving the other pairs alone
(`tapLines_eq`).
-/

set_option autoImplicit false

namespace Switchyard

/-- How many pieces of equipment the taps of some lines are switched to besides the lines. -/
def targetCount (ts : List Tapping) : Nat := (ts.flatMap (·.targets)).length

theorem targetCount_cons (t : Tapping) (ts : List Tapping) :
    targetCount (t :: ts) = t.targets.length + targetCount ts := List.length_append

/-- A wire for every line, and one for every piece of equipment that its tap is switched to. -/
theorem length_wires (ids : MridSource) (ts : List Tapping) :
    (wires ids ts).length = ts.length + targetCount ts := by
  induction ts generalizing ids with
  | nil => rfl
  | cons t ts ih =>
    have hline : (t.wires ids).length = t.targets.length + 1 := by
      rw [← List.length_map (·.target), Tapping.wires, map_target_wiresFrom, List.length_cons]
    rw [wires_cons, List.length_append, ih, hline, targetCount_cons, List.length_cons]
    omega

namespace VoltageLevelEquipment

variable (e : VoltageLevelEquipment)

/-! ## The seats of all equipment -/

section Seats

variable (d : Draft)

/-- The records of the seats of all equipment. -/
def allSeatsMade : Topology :=
  (e.seatsMade true d e.lineMrids).append
    (e.seatsMade false (e.lineMrids.foldl (e.seat true) d) e.otherMrids)

theorem topology_seatAll : (e.seatAll d).topology = d.topology.append (e.allSeatsMade d) := by
  rw [allSeatsMade, ← Topology.append_assoc, ← topology_foldl_seat, ← topology_foldl_seat]
  rfl

theorem ids_seatAll : (e.seatAll d).ids = d.ids.advance (seatDraws * e.members.length) := by
  show (e.otherMrids.foldl (e.seat false) (e.lineMrids.foldl (e.seat true) d)).ids = _
  rw [ids_foldl_seat, ids_foldl_seat, MridSource.advance_advance, ← Nat.mul_add,
    ← List.length_append, members]

/-- The terminals of the seats, and all others of the draft, enter the graph. -/
theorem graph_seatAll :
    (e.seatAll d).graph = d.graph.addAll (e.seatAll d).topology.terminals := by
  have hgraph : (e.otherMrids.foldl (e.seat false) (e.lineMrids.foldl (e.seat true) d)).graph =
      d.graph := by
    rw [graph_foldl_seat, graph_foldl_seat]
  exact congrArg (Graph.addAll · _) hgraph

theorem seatsFrom_members :
    seatsFrom d.ids e.members =
      seatsFrom d.ids e.lineMrids ++
        seatsFrom (e.lineMrids.foldl (e.seat true) d).ids e.otherMrids := by
  rw [members, seatsFrom_append, ids_foldl_seat]

theorem terminals_allSeatsMade :
    (e.allSeatsMade d).terminals.map (·.seat) = seatsFrom d.ids e.members := by
  rw [seatsFrom_members, ← e.terminals_seatsMade true, ← e.terminals_seatsMade false]
  exact List.map_append

theorem nodes_allSeatsMade :
    (e.allSeatsMade d).connectivityNodes.map (·.mrid) =
      (seatsFrom d.ids e.members).map (·.node) := by
  rw [seatsFrom_members, List.map_append, ← e.nodes_seatsMade true, ← e.nodes_seatsMade false]
  exact List.map_append

theorem switches_allSeatsMade : (e.allSeatsMade d).switches = [] := by
  rw [allSeatsMade, Topology.append, switches_seatsMade, switches_seatsMade]
  rfl

end Seats

/-! ## What each tap is switched to -/

section Tappings

variable (hopBound : Nat) (line : Seat) (after : List Seat) (n : Nat) (seats : List Seat)
  (d : Draft)

theorem switchUnlessConnected_eq_treat (tap : Mrid) :
    e.switchUnlessConnected hopBound line.equipment tap =
      Draft.treat (fun d t => d.graph.isConnected line.equipment t.equipment hopBound)
        (e.addWire line tap) := rfl

/-- The seats after a line that its tap is switched to. -/
def targets : List Seat :=
  Draft.chosen (fun d t => d.graph.isConnected line.equipment t.equipment hopBound)
    (e.addWire line (d.ids.peek 0)) (e.addWire line (d.ids.peek 0) (e.addTap d) line) after

/-- What becomes of a line. -/
def tapping : Tapping := ⟨line, e.targets hopBound line after d⟩

/-- What becomes of so many first lines among the seats. -/
def tappings : Nat → List Seat → Draft → List Tapping
  | n + 1, line :: after, d =>
    e.tapping hopBound line after d :: tappings n after (e.tapLine hopBound line after d)
  | _, _, _ => []

theorem tappings_succ_cons :
    e.tappings hopBound (n + 1) (line :: after) d =
      e.tapping hopBound line after d ::
        e.tappings hopBound n after (e.tapLine hopBound line after d) := rfl

/-- To tap a line is to lay its tap and to leave the other seats alone. -/
theorem tapLine_eq :
    e.tapLine hopBound line after d =
      (e.layTap d (e.tapping hopBound line after d)).skipMore
        (after.length - (e.targets hopBound line after d).length) :=
  Draft.foldl_treat (fun _ _ _ => rfl) (e.addWire line (d.ids.peek 0) (e.addTap d) line) after

theorem length_targets_le : (e.targets hopBound line after d).length ≤ after.length :=
  Draft.length_chosen_le _ _

theorem layTap_skipMore (t : Tapping) : e.layTap (d.skipMore n) t = (e.layTap d t).skipMore n :=
  Draft.foldl_skipMore (fun _ _ _ => rfl) (e.addTap d) n (t.line :: t.targets)

theorem targetCount_tappings_le :
    targetCount (e.tappings hopBound n seats d) ≤ (pairsAfter n seats).length := by
  induction seats generalizing n d with
  | nil => cases n <;> exact Nat.le_refl 0
  | cons line after ih =>
    cases n with
    | zero => exact Nat.le_refl 0
    | succ n =>
      have hline := e.length_targets_le hopBound line after d
      have hrest := ih n (e.tapLine hopBound line after d)
      rw [tappings_succ_cons, targetCount_cons, pairsAfter_succ_cons, List.length_append,
        List.length_map]
      exact Nat.add_le_add hline hrest

/-- **To tap lines is to lay their taps and to leave the other pairs alone.** -/
theorem tapLines_eq :
    e.tapLines hopBound n seats d =
      ((e.tappings hopBound n seats d).foldl e.layTap d).skipMore
        ((pairsAfter n seats).length - targetCount (e.tappings hopBound n seats d)) := by
  induction seats generalizing n d with
  | nil => cases n <;> rfl
  | cons line after ih =>
    cases n with
    | zero => rfl
    | succ n =>
      have hline := e.length_targets_le hopBound line after d
      have hrest := e.targetCount_tappings_le hopBound n after (e.tapLine hopBound line after d)
      have hcount : (pairsAfter (n + 1) (line :: after)).length -
          targetCount (e.tappings hopBound (n + 1) (line :: after) d) =
          (after.length - (e.targets hopBound line after d).length) +
            ((pairsAfter n after).length -
              targetCount (e.tappings hopBound n after (e.tapLine hopBound line after d))) := by
        rw [tappings_succ_cons, targetCount_cons, pairsAfter_succ_cons, List.length_append,
          List.length_map]
        show _ - ((e.targets hopBound line after d).length + _) = _
        omega
      rw [hcount, tappings_succ_cons, List.foldl_cons, tapLines, ih, ← Draft.skipMore_skipMore]
      congr 1
      rw [← Draft.foldl_skipMore fun d n t => e.layTap_skipMore n d t, ← tapLine_eq]

theorem grows_addWire (tap : Mrid) (t : Seat) : d.graph.Grows (e.addWire line tap d t).graph :=
  ⟨_, e.graph_addWire line tap d t⟩

theorem grows_layTap (t : Tapping) : d.graph.Grows (e.layTap d t).graph :=
  Draft.grows_foldl (fun d => e.grows_addWire t.line d _) (e.addTap d) (t.line :: t.targets)

theorem grows_tapLine : d.graph.Grows (e.tapLine hopBound line after d).graph := by
  rw [tapLine_eq]
  exact e.grows_layTap d _

/-- To tap lines only adds terminals to the graph. -/
theorem grows_tapLines : d.graph.Grows (e.tapLines hopBound n seats d).graph := by
  rw [tapLines_eq]
  exact Draft.grows_foldl e.grows_layTap d _

/-- A run taps the first lines among the seats, in order. -/
theorem map_line_tappings :
    (e.tappings hopBound n seats d).map (·.line) = seats.take n := by
  induction seats generalizing n d with
  | nil => cases n <;> rfl
  | cons line after ih =>
    cases n with
    | zero => rfl
    | succ n => exact congrArg (List.cons line) (ih n _)

/-- Taps are switched to seats. -/
theorem mem_seats_of_mem_tappings {t : Tapping} (ht : t ∈ e.tappings hopBound n seats d)
    {s : Seat} (hs : s ∈ t.line :: t.targets) : s ∈ seats := by
  induction seats generalizing n d with
  | nil => cases n <;> exact absurd ht (by simp [tappings])
  | cons line after ih =>
    cases n with
    | zero => exact absurd ht (by simp [tappings])
    | succ n =>
      rw [tappings_succ_cons] at ht
      rcases List.mem_cons.1 ht with rfl | ht
      · exact List.cons_subset_cons line (Draft.chosen_sublist _ _).subset hs
      · exact List.mem_cons_of_mem line (ih n _ ht)

end Tappings

end VoltageLevelEquipment

end Switchyard
