import Switchyard.Proofs.Synthesis.LevelRun
import Switchyard.Proofs.Synthesis.LinkRun

/-!
# Runs over two graphs

Synthesis consults its graph for two things only: whether two points are connected, and which
terminal of a line comes first.  So two runs over different graphs create the same records as long
as they get the same answers.

The runs go hand in hand: after each step the drafts differ in their graphs alone, and these have
got the same new terminals (`Draft.Alike`).  What has to be known about the graphs is said once, for
all stages of a run, by `Graph.AnswersAlike`.
-/

set_option autoImplicit false

namespace Switchyard

open Switchyard.Graph

/-- From some points, two graphs give the same answers under a bound, and go on to do so while the
same terminals are added to them, until the first one has become `last`. -/
def Graph.AnswersAlike (g g' last : Graph) (points : List Mrid) (bound : Nat) : Prop :=
  ∀ ts, (g.addAll ts).Grows last → ∀ a ∈ points, ∀ b,
    (g'.addAll ts).isConnected a b bound = (g.addAll ts).isConnected a b bound

theorem Graph.AnswersAlike.mono {g g' last : Graph} {points points' : List Mrid} {bound : Nat}
    (h : AnswersAlike g g' last points bound) (hsub : points' ⊆ points) :
    AnswersAlike g g' last points' bound := fun ts hts a ha => h ts hts a (hsub ha)

/-! ## Drafts that go hand in hand -/

namespace Draft

variable {α : Type} {g g' last : Graph} {d d' : Draft} {points : List Mrid} {bound : Nat}

/-- The draft over another graph. -/
def withGraph (d : Draft) (graph : Graph) : Draft := { d with graph }

/-- Two drafts started from two graphs and have done the same ever since: nothing but their graphs
is different, and the same terminals were added to these. -/
def Alike (g g' : Graph) (d d' : Draft) : Prop :=
  ∃ ts, d.graph = g.addAll ts ∧ d' = d.withGraph (g'.addAll ts)

namespace Alike

/-- The drafts have created the same and skipped as much. -/
theorem model_eq (h : Alike g g' d d') : d'.finish.model = d.finish.model := by
  obtain ⟨ts, -, rfl⟩ := h
  rfl

theorem isConnected_eq (h : Alike g g' d d') (hsame : AnswersAlike g g' last points bound)
    (hlast : d.graph.Grows last) {a : Mrid} (ha : a ∈ points) (b : Mrid) :
    d'.graph.isConnected a b bound = d.graph.isConnected a b bound := by
  obtain ⟨ts, hts, rfl⟩ := h
  rw [hts] at hlast ⊢
  exact hsame ts hlast a ha b

/-- A step that does not look at the graph, and adds the terminals it creates to it. -/
theorem step {make : Draft → Draft} (new : Draft → List Terminal)
    (hgraph : ∀ d, (make d).graph = d.graph.addAll (new d))
    (hnew : ∀ d graph, new (d.withGraph graph) = new d)
    (hrest : ∀ d graph,
      make (d.withGraph graph) = (make d).withGraph (make (d.withGraph graph)).graph)
    (h : Alike g g' d d') : Alike g g' (make d) (make d') := by
  obtain ⟨ts, hts, rfl⟩ := h
  refine ⟨ts ++ new d, ?_, ?_⟩
  · rw [hgraph, hts, addAll_append]
  · rw [hrest, hgraph, hnew, addAll_append]
    rfl

theorem skip (h : Alike g g' d d') : Alike g g' d.skip d'.skip :=
  h.step (fun _ => []) (fun _ => rfl) (fun _ _ => rfl) fun _ _ => rfl

/-- **Drafts stay alike as long as the same items are left alone.** -/
theorem foldl_treat (leave : Draft → α → Bool) (make : Draft → α → Draft) {as : List α}
    (hmake : ∀ (d d' : Draft) a, Alike g g' d d' → Alike g g' (make d a) (make d' a))
    (hgrows : ∀ (d : Draft) a, d.graph.Grows (make d a).graph)
    (hleave : ∀ d d' : Draft, Alike g g' d d' → d.graph.Grows last →
      ∀ a ∈ as, leave d' a = leave d a)
    (hlast : (as.foldl (treat leave make) d).graph.Grows last) (h : Alike g g' d d') :
    Alike g g' (as.foldl (treat leave make) d) (as.foldl (treat leave make) d') := by
  induction as generalizing d d' with
  | nil => exact h
  | cons a as ih =>
    have hstep := grows_treat leave hgrows d a
    have hrest := grows_foldl (grows_treat leave hgrows) (treat leave make d a) as
    have ha := hleave d d' h (hstep.trans (hrest.trans hlast)) a List.mem_cons_self
    have hnext : Alike g g' (treat leave make d a) (treat leave make d' a) := by
      rw [treat, treat, ha]
      split
      · exact h.skip
      · exact hmake d d' a h
    exact ih (fun d d' h hgrows b hb => hleave d d' h hgrows b (List.mem_cons_of_mem a hb)) hlast
      hnext

end Alike

end Draft

open Draft

/-! ## Links between voltage levels -/

section Links

variable {s : SubstationLevels} {hopBound : Nat} {pu : PerUnit} {graph graph' : Graph}
  {ids : MridSource} {d d' : Draft}

theorem CrossPair.alike_link (p : CrossPair) (substation : Mrid) (pu : PerUnit)
    (h : Alike graph graph' d d') :
    Alike graph graph' (p.link substation pu d) (p.link substation pu d') :=
  h.step p.linkTerminals (p.graph_link substation pu) (fun _ _ => rfl) fun _ _ => rfl

/-- **Graphs that answer alike about the nodes lead to the same links.** -/
theorem SubstationLevels.model_linkAll_eq
    (hsame : AnswersAlike graph graph' (s.linkAll hopBound pu graph ids).graph s.nodeMrids
      hopBound) :
    (s.linkAll hopBound pu graph' ids).model = (s.linkAll hopBound pu graph ids).model := by
  have hstart : Alike graph graph' (s.emptyDraft graph ids) (s.emptyDraft graph' ids) :=
    ⟨[], rfl, rfl⟩
  have hend : Alike graph graph'
      (s.crossPairs.foldl (CrossPair.linkUnlessConnected hopBound s.substation.mrid pu)
        (s.emptyDraft graph ids))
      (s.crossPairs.foldl (CrossPair.linkUnlessConnected hopBound s.substation.mrid pu)
        (s.emptyDraft graph' ids)) := by
    refine hstart.foldl_treat (fun d (p : CrossPair) => p.isConnected hopBound d.graph)
      (fun d p => p.link s.substation.mrid pu d) ?_ ?_ ?_ (.refl _)
    · intro d d' p h
      exact p.alike_link s.substation.mrid pu h
    · intro d p
      exact ⟨_, p.graph_link s.substation.mrid pu d⟩
    · intro d d' h hgrows p hp
      exact h.isConnected_eq hsame hgrows (ends_mem_nodeMrids hp).1 _
  exact hend.model_eq

end Links

/-! ## Switching layers -/

namespace VoltageLevelEquipment

variable {e : VoltageLevelEquipment} {hopBound n : Nat} {graph graph' last : Graph}
  {ids : MridSource} {points : List Mrid} {d d' : Draft} {line : Seat} {seats after : List Seat}

/-- Equipment gets the same seats over another graph, and with other overrides, if its terminals
get the same numbers. -/
theorem foldl_seat_of_numbers {e' : VoltageLevelEquipment}
    (hlevel : e'.voltageLevel = e.voltageLevel) (isLine : Bool) (g : Graph) {ms : List Mrid}
    (h : ∀ m ∈ ms, e'.terminalNumber g isLine m = e.terminalNumber d.graph isLine m) :
    ms.foldl (e'.seat isLine) (d.withGraph g) = (ms.foldl (e.seat isLine) d).withGraph g := by
  induction ms generalizing d with
  | nil => rfl
  | cons m ms ih =>
    obtain ⟨hm, hrest⟩ := List.forall_mem_cons.1 h
    have hseat : e'.seat isLine (d.withGraph g) m = (e.seat isLine d m).withGraph g := by
      simp only [seat, nextLabel, hlevel, withGraph, hm]
      rfl
    rw [List.foldl_cons, hseat, ih (d := e.seat isLine d m) hrest,
      List.foldl_cons]

/-- The seats are the same if the first terminals of the lines are. -/
theorem alike_seated
    (hfirst : ∀ line ∈ e.lineMrids, graph'.terminalOf? line = graph.terminalOf? line) :
    Alike graph graph' (e.seated graph ids) (e.seated graph' ids) := by
  have hlines : e.lineMrids.foldl (e.seat true) (e.emptyDraft graph' ids) =
      (e.lineMrids.foldl (e.seat true) (e.emptyDraft graph ids)).withGraph graph' := by
    refine foldl_seat_of_numbers (d := e.emptyDraft graph ids) rfl true graph' ?_
    intro line hline
    rw [terminalNumber, terminalNumber, hfirst line hline]
    rfl
  refine ⟨(e.seated graph ids).topology.terminals, e.graph_seatAll _, ?_⟩
  rw [seated, seatAll, hlines, foldl_seat_of_numbers rfl false graph' fun _ _ => rfl]
  rfl

theorem alike_addTap (h : Alike graph graph' d d') :
    Alike graph graph' (e.addTap d) (e.addTap d') :=
  h.step (fun _ => []) (fun _ => rfl) (fun _ _ => rfl) fun _ _ => rfl

theorem alike_addWire (tap : Mrid) (t : Seat) (h : Alike graph graph' d d') :
    Alike graph graph' (e.addWire line tap d t) (e.addWire line tap d' t) :=
  h.step (fun d => (e.wireMade tap d t).terminals) (fun d => e.graph_addWire line tap d t)
    (fun _ _ => rfl) fun _ _ => rfl

theorem alike_tapLine (hsame : AnswersAlike graph graph' last points hopBound)
    (hline : line.equipment ∈ points)
    (hlast : (e.tapLine hopBound line after d).graph.Grows last) (h : Alike graph graph' d d') :
    Alike graph graph' (e.tapLine hopBound line after d) (e.tapLine hopBound line after d') := by
  have hstart : Alike graph graph' (e.addWire line (d.ids.peek 0) (e.addTap d) line)
      (e.addWire line (d.ids.peek 0) (e.addTap d') line) := alike_addWire _ _ (alike_addTap h)
  have hend := hstart.foldl_treat
    (fun d (t : Seat) => d.graph.isConnected line.equipment t.equipment hopBound)
    (e.addWire line (d.ids.peek 0)) (fun _ _ t h => alike_addWire _ t h)
    (fun d t => e.grows_addWire line d _ t)
    (fun _ _ h hgrows t _ => h.isConnected_eq hsame hgrows hline t.equipment) hlast
  -- both runs take the tap from the same source
  obtain ⟨ts, -, rfl⟩ := h
  exact hend

theorem alike_tapLines (hsame : AnswersAlike graph graph' last points hopBound)
    (hseats : ∀ s ∈ seats, s.equipment ∈ points)
    (hlast : (e.tapLines hopBound n seats d).graph.Grows last) (h : Alike graph graph' d d') :
    Alike graph graph' (e.tapLines hopBound n seats d) (e.tapLines hopBound n seats d') := by
  induction seats generalizing n d d' with
  | nil => cases n <;> exact h
  | cons line after ih =>
    cases n with
    | zero => exact h
    | succ n =>
      obtain ⟨hline, hafter⟩ := List.forall_mem_cons.1 hseats
      have hrest := e.grows_tapLines hopBound n after (e.tapLine hopBound line after d)
      exact ih hafter hlast (alike_tapLine hsame hline (hrest.trans hlast) h)

/-- **Graphs that answer alike about the equipment lead to the same layer**, if the lines have the
same first terminals. -/
theorem model_synthesize_eq
    (hfirst : ∀ line ∈ e.lineMrids, graph'.terminalOf? line = graph.terminalOf? line)
    (hsame : AnswersAlike graph graph' (e.synthesize hopBound graph ids).graph e.members
      hopBound) :
    (e.synthesize hopBound graph' ids).model = (e.synthesize hopBound graph ids).model := by
  have hlast : (e.tapLines hopBound e.lines.length (e.seatsOf ids) (e.seated graph ids)).graph.Grows
      (e.synthesize hopBound graph ids).graph := by
    rw [graph_synthesize]
    exact .refl _
  have hend := alike_tapLines hsame (fun _ => equipment_mem_members) hlast (alike_seated hfirst)
  rw [synthesize_eq, synthesize_eq, ← tapLines_seated, ← tapLines_seated]
  exact hend.model_eq

end VoltageLevelEquipment

end Switchyard
