import Switchyard.Proofs.Graph.Link
import Switchyard.Proofs.Mrid.Fresh
import Switchyard.Proofs.Synthesis.Drafts
import Switchyard.Synthesis.Substation

/-!
# What one link does

A link takes thirteen identities from the source and appends a portion of records to the topology
(`topology_link`), among them four terminals, which enter the graph.  Their wiring is a
`Graph.Link`, so a link with fresh identities brings two points closer only if they are its own
ends: for a pair with other ends, being connected within the default bound does not change
(`isConnected_link`).
-/

set_option autoImplicit false

namespace Switchyard

open Switchyard.Graph

/-- How many identities a link takes. -/
def linkDraws : Nat := 13

namespace CrossPair

variable (p q : CrossPair) (substation : Mrid) (pu : PerUnit) (d : Draft)

/-- The nodes that a link joins. -/
def ends : Mrid × Mrid := (p.firstNode.mrid, p.secondNode.mrid)

/-- Two pairs join the same nodes, in the one order or the other. -/
def SameEnds : Prop := p.ends = q.ends ∨ p.ends = q.ends.swap

variable {p q} in
theorem sameEnds_iff :
    p.SameEnds q ↔
      (p.firstNode.mrid = q.firstNode.mrid ∧ p.secondNode.mrid = q.secondNode.mrid) ∨
        (p.firstNode.mrid = q.secondNode.mrid ∧ p.secondNode.mrid = q.firstNode.mrid) := by
  simp [SameEnds, ends]

/-- The points of the link that is made from a draft. -/
def wired : Link :=
  { first := p.firstNode.mrid
    switch := d.ids.peek 1
    node := d.ids.peek 2
    transformer := d.ids.peek 0
    second := p.secondNode.mrid }

/-- The marker of a terminal of the link. -/
def linkMarker (k : Nat) : BusNameMarker := .labelled (d.ids.peek k) p.label d.group

/-- The terminals of the link that is made from a draft. -/
def linkTerminals : List Terminal :=
  [.marked (d.ids.peek 4) (d.ids.peek 2) (d.ids.peek 1) (p.linkMarker d 3) 1,
    .marked (d.ids.peek 6) p.firstNode.mrid (d.ids.peek 1) (p.linkMarker d 5) 2,
    .marked (d.ids.peek 8) (d.ids.peek 2) (d.ids.peek 0) (p.linkMarker d 7) 1,
    .marked (d.ids.peek 10) p.secondNode.mrid (d.ids.peek 0) (p.linkMarker d 9) 2]

/-- The windings of the link that is made from a draft. -/
def linkWindings : List PowerTransformerEnd :=
  [.labelled (d.ids.peek 11) p.label
      { number := 1
        terminal := d.ids.peek 8
        baseVoltage := p.first.voltageLevel.baseVoltageMrid
        transformer := d.ids.peek 0
        connection := .y
        ratedU := p.first.nominalVoltage } pu,
    .labelled (d.ids.peek 12) p.label
      { number := 2
        terminal := d.ids.peek 10
        baseVoltage := p.second.voltageLevel.baseVoltageMrid
        transformer := d.ids.peek 0
        connection := .yn
        ratedU := p.second.nominalVoltage } pu]

/-- The records of the link that is made from a draft. -/
def made : Topology :=
  { reportingGroup := d.topology.reportingGroup
    busNameMarkers := [p.linkMarker d 3, p.linkMarker d 5, p.linkMarker d 7, p.linkMarker d 9]
    connectivityNodes := [.labelled (d.ids.peek 2) p.label p.first.voltageLevel.mrid]
    switches := [.labelled (d.ids.peek 1) p.label p.first.voltageLevel]
    powerTransformers :=
      [.labelled (d.ids.peek 0) p.label substation p.first.voltageLevel.baseVoltageMrid]
    terminals := p.linkTerminals d
    powerTransformerEnds := p.linkWindings pu d }

/-! ## The parts of the draft -/

@[simp] theorem ids_link : (p.link substation pu d).ids = d.ids.advance linkDraws := rfl

@[simp] theorem skipped_link : (p.link substation pu d).skipped = d.skipped := rfl

/-- **A link appends its records, and changes nothing that was there.** -/
theorem topology_link :
    (p.link substation pu d).topology = d.topology.append (p.made substation pu d) := by
  simp [link, made, linkTerminals, linkMarker, linkWindings, Topology.append, Draft.extendGraph,
    Draft.report, Draft.addWinding, Draft.addTerminal, Draft.addNode, Draft.addSwitch,
    Draft.addTransformer, Draft.nextMarker, Draft.group]

/-- The terminals of a link enter the graph. -/
theorem graph_link :
    (p.link substation pu d).graph = d.graph.addAll (p.linkTerminals d) := by
  have hdrop : (p.link substation pu d).graph = d.graph.addAll
      ((p.link substation pu d).topology.terminals.drop d.topology.terminals.length) := rfl
  rw [hdrop, topology_link]
  exact congrArg d.graph.addAll List.drop_left

theorem graph_terminals_link :
    (p.link substation pu d).graph.terminals = d.graph.terminals ++ p.linkTerminals d := by
  rw [graph_link, terminals_addAll]

/-! ## The wiring of a link -/

theorem map_ends_linkTerminals : (p.linkTerminals d).map Graph.ends = (p.wired d).wiring := rfl

/-- The identities of the switch, the node and the transformer are the first that a link takes. -/
theorem mem_take_of_mem_inner {id : Mrid} (h : id ∈ (p.wired d).inner) :
    id ∈ d.ids.take linkDraws := by
  simp only [Link.inner, wired, List.mem_cons, List.not_mem_nil, or_false] at h
  rcases h with rfl | rfl | rfl
  · exact MridSource.peek_mem_take (by decide)
  · exact MridSource.peek_mem_take (by decide)
  · exact MridSource.peek_mem_take (by decide)

/-- What occurs among the terminals of a link are its ends and its inner points. -/
theorem occurs_linkTerminals {id : Mrid} (h : Occurs (p.linkTerminals d) id) :
    id = p.firstNode.mrid ∨ id = p.secondNode.mrid ∨ id ∈ (p.wired d).inner := by
  obtain ⟨b, hb⟩ := h
  have := (Link.joined_iff_wiring (p.map_ends_linkTerminals d)).1 hb
  simp only [Link.wiring, Link.inner, wired, List.mem_cons, List.not_mem_nil, or_false,
    Prod.mk.injEq] at this ⊢
  grind

/-- What is in use when pairs of some nodes are linked: the points of the graph and the nodes. -/
def InUse (d : Draft) (nodes : List Mrid) (id : Mrid) : Prop :=
  Occurs d.graph.terminals id ∨ id ∈ nodes

variable {p q substation pu d} {nodes : List Mrid} {m n bound : Nat}

/-- With different identities the inner points of a link are different. -/
theorem nodup_inner_wired (h : (d.ids.take linkDraws).Nodup) : (p.wired d).inner.Nodup := by
  have hne {j k : Nat} (hj : j < linkDraws) (hk : k < linkDraws) (hjk : j ≠ k) :
      d.ids.peek j ≠ d.ids.peek k := fun heq => hjk (MridSource.peek_inj h hj hk heq)
  have h₁₂ : d.ids.peek 1 ≠ d.ids.peek 2 := hne (by decide) (by decide) (by decide)
  have h₁₀ : d.ids.peek 1 ≠ d.ids.peek 0 := hne (by decide) (by decide) (by decide)
  have h₂₀ : d.ids.peek 2 ≠ d.ids.peek 0 := hne (by decide) (by decide) (by decide)
  simp [Link.inner, wired, h₁₂, h₁₀, h₂₀]

/-- A link with fresh identities is new to the graph. -/
theorem isNew_wired (hfresh : d.ids.Fresh linkDraws (InUse d nodes))
    (hfirst : p.firstNode.mrid ∈ nodes) (hsecond : p.secondNode.mrid ∈ nodes) :
    (p.wired d).IsNew d.graph.terminals := by
  have hunused {id : Mrid} (h : id ∈ (p.wired d).inner) : ¬ InUse d nodes id :=
    hfresh.not_used id (p.mem_take_of_mem_inner d h)
  exact ⟨nodup_inner_wired hfresh.nodup, fun id hid h => hunused hid (.inl h),
    fun h => hunused h (.inr hfirst), fun h => hunused h (.inr hsecond)⟩

theorem inStep_link (h : d.graph.InStep) : (p.link substation pu d).graph.InStep := by
  rw [graph_link]
  exact h.addAll _

/-- What is fresh after a link stays fresh for what comes next. -/
theorem fresh_link (hfresh : d.ids.Fresh (linkDraws + n) (InUse d nodes))
    (hfirst : p.firstNode.mrid ∈ nodes) (hsecond : p.secondNode.mrid ∈ nodes) :
    (p.link substation pu d).ids.Fresh n (InUse (p.link substation pu d) nodes) := by
  refine hfresh.rest.mono fun id hin => ?_
  rcases hin with hoccurs | hnode
  · rw [graph_terminals_link, occurs_append] at hoccurs
    rcases hoccurs with hold | hnew
    · exact .inl (.inl hold)
    · rcases p.occurs_linkTerminals d hnew with rfl | rfl | hinner
      · exact .inl (.inr hfirst)
      · exact .inl (.inr hsecond)
      · exact .inr (p.mem_take_of_mem_inner d hinner)
  · exact .inl (.inr hnode)

/-! ## Who is connected after a link -/

/-- The nodes of a pair are points of a graph, at most `n` terminals apart. -/
structure Reached (p : CrossPair) (n : Nat) (graph : Graph) : Prop where
  first : Occurs graph.terminals p.firstNode.mrid
  second : Occurs graph.terminals p.secondNode.mrid
  walk : ∃ m ≤ n, Walk graph.terminals m p.firstNode.mrid p.secondNode.mrid

namespace Reached

variable {g g' : Graph}

theorem weaken (h : p.Reached m g) (hle : m ≤ n) : p.Reached n g := by
  obtain ⟨k, hk, hwalk⟩ := h.walk
  exact ⟨h.first, h.second, k, Nat.le_trans hk hle, hwalk⟩

/-- A graph that joins what another one joins keeps nodes as close. -/
theorem mono (h : p.Reached n g)
    (hjoined : ∀ a b, Joined g.terminals a b → Joined g'.terminals a b) : p.Reached n g' := by
  obtain ⟨k, hk, hwalk⟩ := h.walk
  obtain ⟨a, ha⟩ := h.first
  obtain ⟨b, hb⟩ := h.second
  exact ⟨⟨a, hjoined _ _ ha⟩, ⟨b, hjoined _ _ hb⟩, k, hk, hwalk.of_joined hjoined⟩

/-- More terminals bring nodes closer only. -/
theorem append {us : List Terminal} (h : p.Reached n g)
    (hus : g'.terminals = g.terminals ++ us) : p.Reached n g' :=
  h.mono fun _ _ hjoined => hus ▸ hjoined.mono fun _ ht => List.mem_append_left us ht

/-- A reached pair is connected within any larger bound. -/
theorem isConnected (h : p.Reached n g) (hg : g.InStep) (hlt : n < bound) :
    p.isConnected bound g = true := by
  obtain ⟨k, hk, hwalk⟩ := h.walk
  exact hg.isConnected_iff_walk.2 ⟨h.first, h.second, k, by omega, hwalk⟩

theorem of_isConnected (hg : g.InStep) (h : p.isConnected bound g = true) :
    ∃ m < bound, p.Reached m g := by
  obtain ⟨hfirst, hsecond, k, hk, hwalk⟩ := hg.isConnected_iff_walk.1 h
  exact ⟨k, hk, hfirst, hsecond, k, Nat.le_refl k, hwalk⟩

end Reached

/-- A pair that is connected stays so when terminals are added. -/
theorem isConnected_append {g g' : Graph} {us : List Terminal} (hg : g.InStep) (hg' : g'.InStep)
    (hus : g'.terminals = g.terminals ++ us) (h : p.isConnected bound g = true) :
    p.isConnected bound g' = true := by
  obtain ⟨k, hk, hreached⟩ := Reached.of_isConnected hg h
  exact (hreached.append hus).isConnected hg' hk

/-- **A link joins its nodes by four terminals.** -/
theorem reached_link : p.Reached 4 (p.link substation pu d).graph := by
  have hwalk : Walk (p.linkTerminals d) 4 p.firstNode.mrid p.secondNode.mrid :=
    Link.walk_four (p.map_ends_linkTerminals d)
  have hfirst : Occurs (p.linkTerminals d) p.firstNode.mrid := by
    cases hwalk with
    | cons hjoined _ => exact ⟨_, hjoined⟩
  refine ⟨?_, ?_, 4, Nat.le_refl 4, ?_⟩
  · rw [graph_terminals_link]
    exact occurs_append.2 (.inr hfirst)
  · rw [graph_terminals_link]
    exact occurs_append.2 (.inr (hwalk.occurs_right hfirst))
  · rw [graph_terminals_link]
    exact hwalk.mono fun t ht => List.mem_append_right _ ht

/-- **A link connects no pair but its own within the default bound.** -/
theorem isConnected_link (hg : d.graph.InStep) (hfresh : d.ids.Fresh linkDraws (InUse d nodes))
    (hp : p.firstNode.mrid ∈ nodes ∧ p.secondNode.mrid ∈ nodes)
    (hq : q.firstNode.mrid ∈ nodes ∧ q.secondNode.mrid ∈ nodes)
    (hne : q.firstNode.mrid ≠ q.secondNode.mrid) (hbound : bound ≤ 5)
    (hends : bound ≤ 4 ∨ ¬ q.SameEnds p) :
    q.isConnected bound (p.link substation pu d).graph = q.isConnected bound d.graph := by
  rw [Bool.eq_iff_iff, isConnected, isConnected, (inStep_link hg).isConnected_iff_walk_of_ne hne,
    hg.isConnected_iff_walk_of_ne hne, graph_terminals_link]
  constructor
  · rintro ⟨k, hk, hwalk⟩
    have hout {id : Mrid} (hid : id ∈ nodes) : id ∉ (p.wired d).inner :=
      fun h => hfresh.not_used id (p.mem_take_of_mem_inner d h) (.inr hid)
    rcases Link.walk_or_ends_of_walk (p.map_ends_linkTerminals d) (isNew_wired hfresh hp.1 hp.2)
      (hout hq.1) (hout hq.2) (by omega) hwalk with ⟨i, hi, hold⟩ | ⟨rfl, hsame⟩
    · exact ⟨i, by omega, hold⟩
    · exact absurd (sameEnds_iff.2 hsame) (hends.resolve_left (by omega))
  · rintro ⟨k, hk, hwalk⟩
    exact ⟨k, hk, hwalk.mono fun t ht => List.mem_append_left _ ht⟩

end CrossPair

end Switchyard
