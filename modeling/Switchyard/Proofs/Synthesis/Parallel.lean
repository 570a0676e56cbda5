import Mathlib.Data.List.Forall2
import Switchyard.Proofs.Graph.Hom
import Switchyard.Proofs.Mrid.Exchange

/-!
# Drafts in parallel

Two runs over different sources go hand in hand: after each step the draft of the one is that of the
other under a renaming, and the other way round (`Draft.Parallel`).  The renamings are homomorphisms
between the graphs of the drafts, and they fix what the runs ask about, so both get the same answers
(`Draft.isConnected_eq_of_copies`).

The renamings know the sources only up to some place.  So drafts are said to be in parallel only as
long as no more identities were taken.  A draft never gives any back, so whoever knows how many a
run has taken in the end need not ask about the steps before.
-/

set_option autoImplicit false

namespace Switchyard

open Switchyard.Graph
open MridSource (Translates Exchange)

namespace Draft

/-! ## Steps -/

/-- What a step does to a draft: it appends some records, lets some terminals enter the graph, and
takes so many identities and labels. -/
structure Step (d next : Draft) (made : Topology) (entering : List Terminal) (draws labels : Nat) :
    Prop where
  topology : next.topology = d.topology.append made
  graph : next.graph = d.graph.addAll entering
  ids : next.ids = d.ids.advance draws
  labels : next.labels = d.labels + labels
  skipped : next.skipped = d.skipped

theorem Step.drawn_le {d next : Draft} {made : Topology} {entering : List Terminal}
    {draws labels : Nat} (h : Step d next made entering draws labels) :
    d.ids.drawn ≤ next.ids.drawn := by
  rw [h.ids]
  exact Nat.le_add_right _ _

/-- The terminals of a draft enter the graph. -/
theorem step_extendGraph (d : Draft) :
    Step d (d.extendGraph d.topology.terminals) { reportingGroup := d.topology.reportingGroup }
      d.topology.terminals 0 0 :=
  ⟨(Topology.append_empty _ _).symm, rfl, rfl, rfl, rfl⟩

/-! ## One draft under a renaming -/

/-- The draft of a run over one source, with its identities renamed, is that of a run over another.
Both started from the same graph. -/
structure Copies (f : Mrid → Mrid) (graph : Graph) (ids ids' : MridSource) (d d' : Draft) :
    Prop where
  topology : d'.topology = d.topology.rename f
  graph : ∃ ts, d.graph = graph.addAll ts ∧ d'.graph = graph.addAll (ts.map (Record.rename f))
  ids : ∃ k, d.ids = ids.advance k ∧ d'.ids = ids'.advance k
  labels : d'.labels = d.labels
  skipped : d'.skipped = d.skipped

variable {f g : Mrid → Mrid} {graph : Graph} {ids ids' : MridSource} {d d' next next' : Draft}
  {n : Nat} {used : Mrid → Prop} {made made' : Topology} {entering entering' : List Terminal}
  {draws labels : Nat}

namespace Copies

theorem reportingGroup_eq (h : Copies f graph ids ids' d d') :
    d'.topology.reportingGroup = Record.rename f d.topology.reportingGroup := by
  rw [h.topology]
  rfl

theorem group_eq (h : Copies f graph ids ids' d d') : f d.group = d'.group := by
  rw [group, group, h.reportingGroup_eq]
  exact (Record.mrid_rename f d.topology.reportingGroup).symm

/-- Both drafts have taken the same number of identities. -/
theorem drawn_add_le {k : Nat} (h : Copies f graph ids ids' d d')
    (hle : d.ids.drawn + k ≤ ids.drawn + n) : d'.ids.drawn + k ≤ ids'.drawn + n := by
  obtain ⟨m, hm, hm'⟩ := h.ids
  rw [hm, MridSource.drawn_advance] at hle
  rw [hm', MridSource.drawn_advance]
  omega

/-- The next identities of the two sources stand for each other. -/
theorem peek (h : Copies f graph ids ids' d d') (hf : Translates f ids ids' n used) {j k : Nat}
    (hle : d.ids.drawn + k ≤ ids.drawn + n) (hj : j < k) : f (d.ids.peek j) = d'.ids.peek j := by
  obtain ⟨m, hm, hm'⟩ := h.ids
  rw [hm, MridSource.drawn_advance] at hle
  rw [hm, hm', MridSource.peek_advance, MridSource.peek_advance]
  exact hf.peek (m + j) (by omega)

/-- A renaming takes what the terminals of one draft join to what those of the other join. -/
theorem hom (h : Copies f graph ids ids' d d')
    (hfixed : ∀ x, Occurs graph.terminals x → f x = x) :
    Hom f d.graph.terminals d'.graph.terminals := by
  obtain ⟨ts, hts, hts'⟩ := h.graph
  rw [hts, hts', terminals_addAll, terminals_addAll]
  exact (hom_of_fixed hfixed).append (hom_rename f ts)

theorem inStep (h : Copies f graph ids ids' d d') (hgraph : graph.InStep) : d.graph.InStep := by
  obtain ⟨ts, hts, -⟩ := h.graph
  exact hts ▸ hgraph.addAll ts

theorem start (hf : Translates f ids ids' n used) (hn : 0 < n)
    (name shortName description : String) :
    Copies f graph ids ids' (.start graph ids name shortName description)
      (.start graph ids' name shortName description) where
  topology := by simp [Draft.start, Topology.rename, Topology.mapRecords, hf.peek 0 hn]
  graph := ⟨[], rfl, rfl⟩
  ids := ⟨1, rfl, rfl⟩
  labels := rfl
  skipped := rfl

theorem skip (h : Copies f graph ids ids' d d') : Copies f graph ids ids' d.skip d'.skip :=
  ⟨h.topology, h.graph, h.ids, h.labels, congrArg (· + 1) h.skipped⟩

theorem step (h : Copies f graph ids ids' d d') (hs : Step d next made entering draws labels)
    (hs' : Step d' next' made' entering' draws labels) (hmade : made' = made.rename f)
    (hentering : entering' = entering.map (Record.rename f)) :
    Copies f graph ids ids' next next' := by
  obtain ⟨ts, hts, hts'⟩ := h.graph
  obtain ⟨k, hk, hk'⟩ := h.ids
  refine ⟨?_, ⟨ts ++ entering, ?_, ?_⟩, ⟨k + draws, ?_, ?_⟩, ?_, ?_⟩
  · rw [hs'.topology, hs.topology, h.topology, hmade, Topology.rename_append]
  · rw [hs.graph, hts, addAll_append]
  · rw [hs'.graph, hts', hentering, List.map_append, addAll_append]
  · rw [hs.ids, hk, MridSource.advance_advance]
  · rw [hs'.ids, hk', MridSource.advance_advance]
  · rw [hs'.labels, hs.labels, h.labels]
  · rw [hs'.skipped, hs.skipped, h.skipped]

end Copies

/-! ## Two drafts in parallel -/

/-- Each of two drafts is the other one under a renaming, as long as the first has taken no more
than `n` identities. -/
def Parallel (f g : Mrid → Mrid) (graph : Graph) (ids ids' : MridSource) (n : Nat)
    (d d' : Draft) : Prop :=
  d.ids.drawn ≤ ids.drawn + n → Copies f graph ids ids' d d' ∧ Copies g graph ids' ids d' d

namespace Parallel

theorem start (hex : Exchange f g ids ids' n used) (name shortName description : String) :
    Parallel f g graph ids ids' n (.start graph ids name shortName description)
      (.start graph ids' name shortName description) := by
  intro hle
  have hn : 0 < n := by
    rw [ids_start, MridSource.drawn_advance] at hle
    omega
  exact ⟨.start hex.forth hn name shortName description,
    .start hex.back hn name shortName description⟩

/-- **Steps that make the same under both renamings keep drafts in parallel.** -/
theorem step (h : Parallel f g graph ids ids' n d d') (hex : Exchange f g ids ids' n used)
    (hs : Step d next made entering draws labels)
    (hs' : Step d' next' made' entering' draws labels)
    (hto : Copies f graph ids ids' d d' → (∀ j < draws, f (d.ids.peek j) = d'.ids.peek j) →
      made' = made.rename f ∧ entering' = entering.map (Record.rename f))
    (hfrom : Copies g graph ids' ids d' d → (∀ j < draws, g (d'.ids.peek j) = d.ids.peek j) →
      made = made'.rename g ∧ entering = entering'.map (Record.rename g)) :
    Parallel f g graph ids ids' n next next' := by
  intro hle
  rw [hs.ids, MridSource.drawn_advance] at hle
  obtain ⟨hcopy, hcopy'⟩ := h (by omega)
  have hle' := hcopy.drawn_add_le hle
  obtain ⟨hmade, hentering⟩ := hto hcopy fun j hj => hcopy.peek hex.forth hle hj
  obtain ⟨hmade', hentering'⟩ := hfrom hcopy' fun j hj => hcopy'.peek hex.back hle' hj
  exact ⟨hcopy.step hs hs' hmade hentering, hcopy'.step hs' hs hmade' hentering'⟩

/-- If just the new terminals enter the graph, it is enough to look at the records. -/
theorem step_of_made (h : Parallel f g graph ids ids' n d d') (hex : Exchange f g ids ids' n used)
    (hs : Step d next made made.terminals draws labels)
    (hs' : Step d' next' made' made'.terminals draws labels)
    (hto : Copies f graph ids ids' d d' → (∀ j < draws, f (d.ids.peek j) = d'.ids.peek j) →
      made' = made.rename f)
    (hfrom : Copies g graph ids' ids d' d → (∀ j < draws, g (d'.ids.peek j) = d.ids.peek j) →
      made = made'.rename g) :
    Parallel f g graph ids ids' n next next' := by
  refine h.step hex hs hs' (fun hcopy hpeek => ?_) fun hcopy hpeek => ?_
  · have hmade := hto hcopy hpeek
    exact ⟨hmade, congrArg Topology.terminals hmade⟩
  · have hmade := hfrom hcopy hpeek
    exact ⟨hmade, congrArg Topology.terminals hmade⟩

theorem extendGraph (h : Parallel f g graph ids ids' n d d') (hex : Exchange f g ids ids' n used) :
    Parallel f g graph ids ids' n (d.extendGraph d.topology.terminals)
      (d'.extendGraph d'.topology.terminals) := by
  refine h.step hex d.step_extendGraph d'.step_extendGraph ?_ ?_
  · intro hcopy _
    rw [hcopy.topology]
    exact ⟨rfl, rfl⟩
  · intro hcopy _
    rw [hcopy.topology]
    exact ⟨rfl, rfl⟩

/-- If the same pair is left alone, it is enough that what is made of it otherwise is in
parallel. -/
theorem skip_or {leave leave' : Bool} (h : Parallel f g graph ids ids' n d d')
    (hdrawn : d.ids.drawn ≤ next.ids.drawn)
    (hleave : Copies f graph ids ids' d d' → Copies g graph ids' ids d' d → leave' = leave)
    (hnext : Parallel f g graph ids ids' n next next') :
    Parallel f g graph ids ids' n (if leave then d.skip else next)
      (if leave' then d'.skip else next') := by
  intro hle
  have hstep : d.ids.drawn ≤ (if leave then d.skip else next).ids.drawn := by
    split
    · exact Nat.le_refl _
    · exact hdrawn
  obtain ⟨hcopy, hcopy'⟩ := h (Nat.le_trans hstep hle)
  obtain rfl := hleave hcopy hcopy'
  cases leave' with
  | true => exact ⟨hcopy.skip, hcopy'.skip⟩
  | false => exact hnext hle

end Parallel

/-- What a run comes across: the points of the graph it starts from, and some identities of its
input. -/
def Known (graph : Graph) (input : List Mrid) (id : Mrid) : Prop :=
  graph.contains id = true ∨ id ∈ input

instance (graph : Graph) (input : List Mrid) : DecidablePred (Known graph input) := fun id =>
  inferInstanceAs (Decidable (graph.contains id = true ∨ id ∈ input))

/-- **Copies answer alike** about what is known from the start. -/
theorem isConnected_eq_of_copies {input : List Mrid} (hgraph : graph.InStep)
    (hex : Exchange f g ids ids' n (Known graph input)) (hto : Copies f graph ids ids' d d')
    (hfrom : Copies g graph ids' ids d' d) {a b : Mrid} (ha : a ∈ input) (hb : b ∈ input)
    (bound : Nat) : d'.graph.isConnected a b bound = d.graph.isConnected a b bound := by
  have hpoint {x : Mrid} (hx : Occurs graph.terminals x) : Known graph input x :=
    .inl (hgraph.contains_iff.2 hx)
  refine isConnected_eq_of_homs (hto.inStep hgraph) (hfrom.inStep hgraph)
    (hto.hom fun x hx => hex.forth.used x (hpoint hx))
    (hfrom.hom fun x hx => hex.back.used x (hpoint hx)) ⟨?_, ?_⟩ ⟨?_, ?_⟩ bound
  · exact hex.forth.used a (.inr ha)
  · exact hex.back.used a (.inr ha)
  · exact hex.forth.used b (.inr hb)
  · exact hex.back.used b (.inr hb)

end Draft

end Switchyard
