import Switchyard.Proofs.Synthesis.Links

/-!
# Linking pairs one after the other

Synthesis judges every pair with the links that were made before it.  `linked` lists the pairs that
come to be linked, and a run is the same as linking just those and skipping the rest
(`foldl_linkUnlessConnected`).

* Whatever the bound, treated pairs end up within it or four terminals apart
  (`reached_of_mem`), so a run in which all of them are connected changes nothing but the
  number of skipped pairs.
* Under fresh identities and up to the default bound, a link is nothing to any other pair, so the
  linked pairs are those that were not connected to begin with (`linked_eq_filter`).
-/

set_option autoImplicit false

namespace Switchyard

open Switchyard.Graph

namespace CrossPair

/-! ## Links and nothing else -/

section Links

variable (substation : Mrid) (pu : PerUnit)

/-- Links pairs without asking whether they are connected. -/
def linkEach (d : Draft) (ps : List CrossPair) : Draft :=
  ps.foldl (fun d p => p.link substation pu d) d

variable (d : Draft) (p : CrossPair) (ps : List CrossPair)

@[simp] theorem linkEach_nil : linkEach substation pu d [] = d := rfl

theorem linkEach_cons :
    linkEach substation pu d (p :: ps) = linkEach substation pu (p.link substation pu d) ps := rfl

@[simp] theorem ids_linkEach :
    (linkEach substation pu d ps).ids = d.ids.advance (linkDraws * ps.length) :=
  Draft.ids_foldl (fun d p => p.ids_link substation pu d) d ps

@[simp] theorem skipped_linkEach : (linkEach substation pu d ps).skipped = d.skipped :=
  Draft.foldl_keeps (·.skipped) (fun d p => p.skipped_link substation pu d) d ps

variable {d} in
/-- What is created does not depend on the graph. -/
theorem topology_linkEach_congr {d' : Draft} (htopology : d.topology = d'.topology)
    (hids : d.ids = d'.ids) :
    (linkEach substation pu d ps).topology = (linkEach substation pu d' ps).topology := by
  induction ps generalizing d d' with
  | nil => exact htopology
  | cons p ps ih =>
    refine ih ?_ (by rw [ids_link, ids_link, hids])
    obtain ⟨topology, graph, ids, labels, skipped, events⟩ := d
    obtain ⟨topology', graph', ids', labels', skipped', events'⟩ := d'
    obtain rfl : topology = topology' := htopology
    obtain rfl : ids = ids' := hids
    rfl

/-- The records of links, in the order of the links. -/
def madeEach : Draft → List CrossPair → Topology
  | d, [] => { reportingGroup := d.topology.reportingGroup }
  | d, p :: ps => (p.made substation pu d).append (madeEach (p.link substation pu d) ps)

theorem madeEach_eq_portions :
    madeEach substation pu d ps =
      Draft.portions (fun d p => p.link substation pu d) (fun d p => p.made substation pu d) d
        ps := by
  induction ps generalizing d with
  | nil => rfl
  | cons p ps ih => rw [madeEach, Draft.portions, ih]

/-- **Links append their records, and change nothing that was there.** -/
theorem topology_linkEach :
    (linkEach substation pu d ps).topology = d.topology.append (madeEach substation pu d ps) := by
  rw [madeEach_eq_portions]
  exact Draft.topology_foldl (fun d p => p.topology_link substation pu d) d ps

/-- The terminals of links enter the graph. -/
theorem graph_terminals_linkEach :
    (linkEach substation pu d ps).graph.terminals =
      d.graph.terminals ++ (madeEach substation pu d ps).terminals := by
  rw [madeEach_eq_portions]
  exact Draft.graph_terminals_foldl (fun d p => p.graph_terminals_link substation pu d) d ps

variable {substation pu} in
/-- What is true of the records of every link and can be put together is true of those of all
links. -/
theorem madeEach_induction {P : Topology → Prop} (hnil : ∀ group, P { reportingGroup := group })
    (happend : ∀ t u, P t → P u → P (t.append u))
    (hmade : ∀ (d : Draft) (p : CrossPair), P (p.made substation pu d)) :
    P (madeEach substation pu d ps) := by
  rw [madeEach_eq_portions]
  exact Draft.portions_induction hnil happend hmade d ps

theorem reportingGroup_madeEach :
    (madeEach substation pu d ps).reportingGroup = d.topology.reportingGroup := by
  cases ps <;> rfl

variable {substation pu} in
/-- What every link has so many of, all links have so many times of. -/
theorem count_madeEach (count : Topology → Nat) {k : Nat}
    (hnil : ∀ group, count { reportingGroup := group } = 0)
    (happend : ∀ t u, count (t.append u) = count t + count u)
    (hmade : ∀ (d : Draft) (p : CrossPair), count (p.made substation pu d) = k) :
    count (madeEach substation pu d ps) = k * ps.length := by
  induction ps generalizing d with
  | nil => exact hnil _
  | cons p ps ih =>
    rw [madeEach, happend, hmade, ih, List.length_cons, Nat.mul_succ, Nat.add_comm]

variable {substation pu} in
/-- If the identities of some records of a link are among those that it takes, and in their order,
the same goes for all links. -/
theorem sublist_take_madeEach {mrids : Topology → List Mrid}
    (hnil : ∀ group, mrids { reportingGroup := group } = [])
    (happend : ∀ t u, mrids (t.append u) = mrids t ++ mrids u)
    (hmade : ∀ (d : Draft) (p : CrossPair),
      (mrids (p.made substation pu d)).Sublist (d.ids.take linkDraws)) :
    (mrids (madeEach substation pu d ps)).Sublist (d.ids.take (linkDraws * ps.length)) := by
  induction ps generalizing d with
  | nil =>
    rw [madeEach, hnil]
    exact List.nil_sublist _
  | cons p ps ih =>
    rw [madeEach, happend, List.length_cons, Nat.mul_succ, Nat.add_comm, MridSource.take_add]
    exact (hmade d p).append (ih (p.link substation pu d))

variable {substation pu d ps} in
/-- What occurs among the terminals of links are nodes of their pairs and taken identities. -/
theorem occurs_madeEach {id : Mrid} (h : Occurs (madeEach substation pu d ps).terminals id) :
    (∃ p ∈ ps, id = p.firstNode.mrid ∨ id = p.secondNode.mrid) ∨
      id ∈ d.ids.take (linkDraws * ps.length) := by
  induction ps generalizing d with
  | nil => exact absurd h (not_occurs_nil id)
  | cons p ps ih =>
    rw [List.length_cons, Nat.mul_succ, Nat.add_comm, MridSource.take_add, List.mem_append]
    rcases occurs_append.1 h with hfirst | hrest
    · rcases p.occurs_linkTerminals d hfirst with heq | heq | hinner
      · exact .inl ⟨p, List.mem_cons_self, .inl heq⟩
      · exact .inl ⟨p, List.mem_cons_self, .inr heq⟩
      · exact .inr (.inl (p.mem_take_of_mem_inner d hinner))
    · rcases ih hrest with ⟨q, hq, hends⟩ | htaken
      · exact .inl ⟨q, List.mem_cons_of_mem p hq, hends⟩
      · exact .inr (.inr htaken)

theorem inStep_linkEach {d : Draft} (h : d.graph.InStep) :
    (linkEach substation pu d ps).graph.InStep := by
  induction ps generalizing d with
  | nil => exact h
  | cons p ps ih => exact ih (inStep_link h)

end Links

/-! ## The pairs that are linked -/

section Linked

variable (hopBound : Nat) (substation : Mrid) (pu : PerUnit)

/-- The pairs that are linked when pairs are treated in order. -/
def linked : Draft → List CrossPair → List CrossPair
  | _, [] => []
  | d, p :: ps =>
    if p.isConnected hopBound d.graph then linked d.skip ps
    else p :: linked (p.link substation pu d) ps

variable (d : Draft) (p : CrossPair) (ps : List CrossPair)

variable {hopBound d p} in
theorem linked_cons_of_connected (h : p.isConnected hopBound d.graph = true) :
    linked hopBound substation pu d (p :: ps) = linked hopBound substation pu d.skip ps :=
  if_pos h

variable {hopBound d p} in
theorem linked_cons_of_not_connected (h : ¬ p.isConnected hopBound d.graph = true) :
    linked hopBound substation pu d (p :: ps) =
      p :: linked hopBound substation pu (p.link substation pu d) ps :=
  if_neg h

theorem linked_eq_chosen :
    linked hopBound substation pu d ps =
      Draft.chosen (fun d p => p.isConnected hopBound d.graph)
        (fun d p => p.link substation pu d) d ps := by
  induction ps generalizing d with
  | nil => rfl
  | cons p ps ih => rw [linked, Draft.chosen, ih, ih]

theorem linked_sublist : (linked hopBound substation pu d ps).Sublist ps := by
  rw [linked_eq_chosen]
  exact Draft.chosen_sublist d ps

/-- **To treat pairs is to link those that get linked and to leave the others alone.** -/
theorem foldl_linkUnlessConnected :
    ps.foldl (linkUnlessConnected hopBound substation pu) d =
      (linkEach substation pu d (linked hopBound substation pu d ps)).skipMore
        (ps.length - (linked hopBound substation pu d ps).length) := by
  rw [linked_eq_chosen]
  exact Draft.foldl_treat (fun _ _ _ => rfl) d ps

variable {hopBound d ps} in
/-- If all pairs are connected, none is linked. -/
theorem linked_eq_nil (h : ∀ p ∈ ps, p.isConnected hopBound d.graph = true) :
    linked hopBound substation pu d ps = [] := by
  induction ps generalizing d with
  | nil => rfl
  | cons p ps ih =>
    rw [linked_cons_of_connected _ _ _ (h p List.mem_cons_self)]
    exact ih fun q hq => h q (List.mem_cons_of_mem p hq)

variable {hopBound substation pu d ps} in
theorem isConnected_of_linked_eq_nil (h : linked hopBound substation pu d ps = []) :
    ∀ p ∈ ps, p.isConnected hopBound d.graph = true := by
  induction ps generalizing d with
  | nil => simp
  | cons p ps ih =>
    by_cases hp : p.isConnected hopBound d.graph = true
    · rw [linked_cons_of_connected _ _ _ hp] at h
      exact List.forall_mem_cons.2 ⟨hp, ih (d := d.skip) h⟩
    · rw [linked_cons_of_not_connected _ _ _ hp] at h
      simp at h

variable {hopBound substation pu d ps p} in
/-- Whatever is linked was not connected before the run. -/
theorem not_isConnected_of_mem_linked (hg : d.graph.InStep)
    (h : p ∈ linked hopBound substation pu d ps) : ¬ p.isConnected hopBound d.graph = true := by
  induction ps generalizing d with
  | nil => simp [linked] at h
  | cons q ps ih =>
    by_cases hq : q.isConnected hopBound d.graph = true
    · rw [linked_cons_of_connected _ _ _ hq] at h
      exact ih (d := d.skip) hg h
    · rw [linked_cons_of_not_connected _ _ _ hq] at h
      rcases List.mem_cons.1 h with rfl | h
      · exact hq
      · have hlink : (q.link substation pu d).graph.InStep := inStep_link hg
        exact fun hp => ih hlink h
          (isConnected_append hg hlink (q.graph_terminals_link substation pu d) hp)

end Linked

/-! ## How far apart the nodes of a treated pair are -/

section Reached

variable {hopBound : Nat} {substation : Mrid} {pu : PerUnit} {d : Draft} {p : CrossPair}
  {ps : List CrossPair}

/-- A treated pair is connected, or linked by four terminals. -/
theorem reached_step (hg : d.graph.InStep) :
    p.Reached (max 4 (hopBound - 1)) (p.linkUnlessConnected hopBound substation pu d).graph := by
  rw [linkUnlessConnected]
  by_cases h : p.isConnected hopBound d.graph = true
  · rw [if_pos h]
    obtain ⟨n, hn, hreached⟩ := Reached.of_isConnected hg h
    exact hreached.weaken (by omega)
  · rw [if_neg h]
    exact reached_link.weaken (Nat.le_max_left _ _)

theorem inStep_foldl (hg : d.graph.InStep) :
    (ps.foldl (linkUnlessConnected hopBound substation pu) d).graph.InStep := by
  rw [foldl_linkUnlessConnected, Draft.graph_skipMore]
  exact inStep_linkEach substation pu _ hg

/-- **Every treated pair is within the bound, or four terminals apart.** -/
theorem reached_of_mem (hg : d.graph.InStep) (hp : p ∈ ps) :
    p.Reached (max 4 (hopBound - 1))
      (ps.foldl (linkUnlessConnected hopBound substation pu) d).graph := by
  induction ps generalizing d with
  | nil => exact absurd hp (by simp)
  | cons q ps ih =>
    rw [List.foldl_cons]
    rcases List.mem_cons.1 hp with rfl | hp
    · -- later pairs only add terminals
      rw [foldl_linkUnlessConnected, Draft.graph_skipMore]
      exact (reached_step hg).append (graph_terminals_linkEach substation pu _ _)
    · have hstep : ([q].foldl (linkUnlessConnected hopBound substation pu) d).graph.InStep :=
        inStep_foldl hg
      exact ih hstep hp

end Reached

/-! ## Which pairs are linked, up to the default bound -/

section Fresh

variable {hopBound : Nat} {substation : Mrid} {pu : PerUnit} {d : Draft} {q : CrossPair}
  {ps : List CrossPair} {nodes : List Mrid}

/-- The pair joins two different nodes of a list. -/
structure Within (p : CrossPair) (nodes : List Mrid) : Prop where
  first : p.firstNode.mrid ∈ nodes
  second : p.secondNode.mrid ∈ nodes
  ne : p.firstNode.mrid ≠ p.secondNode.mrid

/-- Links connect no pair within a bound below the default one. -/
theorem isConnected_linkEach (hg : d.graph.InStep) (hbound : hopBound ≤ 4)
    (hfresh : d.ids.Fresh (linkDraws * ps.length) (InUse d nodes))
    (hps : ∀ p ∈ ps, p.Within nodes) (hq : q.Within nodes) :
    q.isConnected hopBound (linkEach substation pu d ps).graph =
      q.isConnected hopBound d.graph := by
  induction ps generalizing d with
  | nil => rfl
  | cons p ps ih =>
    have hp := hps p List.mem_cons_self
    rw [List.length_cons, Nat.mul_succ, Nat.add_comm] at hfresh
    rw [linkEach_cons, ih (inStep_link hg) (fresh_link hfresh hp.first hp.second)
      fun r hr => hps r (List.mem_cons_of_mem p hr)]
    exact isConnected_link hg hfresh.first ⟨hp.first, hp.second⟩ ⟨hq.first, hq.second⟩ hq.ne
      (by omega) (.inl hbound)

/-- **Up to the default bound, the linked pairs are those that were not connected before the
run**: no link made on the way suppresses a later one. -/
theorem linked_eq_filter (hg : d.graph.InStep) (hbound : hopBound ≤ 5)
    (hfresh : d.ids.Fresh (linkDraws * (linked hopBound substation pu d ps).length)
      (InUse d nodes))
    (hps : ∀ p ∈ ps, p.Within nodes) (hdiff : ps.Pairwise fun p q => ¬ q.SameEnds p) :
    linked hopBound substation pu d ps =
      ps.filter fun p => ¬ p.isConnected hopBound d.graph = true := by
  induction ps generalizing d with
  | nil => rfl
  | cons p ps ih =>
    obtain ⟨hhead, htail⟩ := List.pairwise_cons.1 hdiff
    have hrest : ∀ q ∈ ps, q.Within nodes := fun q hq => hps q (List.mem_cons_of_mem p hq)
    by_cases h : p.isConnected hopBound d.graph = true
    · rw [linked_cons_of_connected _ _ _ h] at hfresh ⊢
      rw [List.filter_cons_of_neg (by simpa using h)]
      exact ih (d := d.skip) hg hfresh hrest htail
    · have hp := hps p List.mem_cons_self
      rw [linked_cons_of_not_connected _ _ _ h] at hfresh ⊢
      rw [List.length_cons, Nat.mul_succ, Nat.add_comm] at hfresh
      rw [List.filter_cons_of_pos (by simpa using h),
        ih (inStep_link hg) (fresh_link hfresh hp.first hp.second) hrest htail]
      congr 1
      refine List.filter_congr fun q hq => ?_
      have hq' := hrest q hq
      rw [isConnected_link hg hfresh.first ⟨hp.first, hp.second⟩ ⟨hq'.first, hq'.second⟩ hq'.ne
        hbound (.inr (hhead q hq))]

end Fresh

end CrossPair

end Switchyard
