import Switchyard.Proofs.Graph.Cycle
import Switchyard.Proofs.Synthesis.LinkedPairs

/-!
# No short loops

Transformers in parallel are wanted only where the way around is long.  A run over a substation
therefore links two nodes only if they are at least as far apart as the hop bound says, and since a
link is four terminals long, no cycle that it closes has fewer terminals than the bound and four
(`no_short_loop`).

A cycle may well pass through several links of a run.  It is enough to look at the last of them when
it is made: the rest of the cycle is there by then.  So the statement is kept by every step, and
what it says of the end of a run is said of every stage.
-/

set_option autoImplicit false

namespace Switchyard

open Switchyard.Graph

/-- Every simple cycle of a graph that passes through a transformer of a topology has at least so
many terminals. -/
def Topology.LoopsAtLeast (t : Topology) (graph : Graph) (n : Nat) : Prop :=
  ∀ steps, IsCycle graph.terminals steps →
    (∃ w ∈ t.powerTransformers, w.mrid ∈ steps.map Prod.fst) → n ≤ steps.length

namespace CrossPair

variable {hopBound : Nat} {substation : Mrid} {pu : PerUnit} {d : Draft} {p : CrossPair}
  {ps : List CrossPair} {nodes : List Mrid}

/-- **A link between nodes that are not connected closes no short loop.** -/
theorem loopsAtLeast_link (hg : d.graph.InStep) (hfresh : d.ids.Fresh linkDraws (InUse d nodes))
    (hp : p.Within nodes) (hnot : ¬ p.isConnected hopBound d.graph = true)
    (h : d.topology.LoopsAtLeast d.graph (hopBound + 4)) :
    (p.link substation pu d).topology.LoopsAtLeast (p.link substation pu d).graph
      (hopBound + 4) := by
  have hnew := isNew_wired hfresh hp.first hp.second
  intro steps hcycle hthrough
  rw [graph_terminals_link] at hcycle
  rcases Link.old_or_over_link (p.map_ends_linkTerminals d) hnew hp.ne hcycle with
    hold | ⟨k, hk, hwalk⟩
  · -- the new transformer is no point of the old graph
    refine h steps hold ?_
    obtain ⟨w, hw, hmem⟩ := hthrough
    rw [topology_link] at hw
    rcases List.mem_append.1 hw with hw | hw
    · exact ⟨w, hw, hmem⟩
    · obtain rfl := List.mem_singleton.1 hw
      obtain ⟨a, hroute⟩ := hold.closed
      have hinner : d.ids.peek 0 ∈ (p.wired d).inner := by simp [Link.inner, wired]
      exact absurd (hroute.occurs hmem) (hnew.not_occurs _ hinner)
  · have hfar : hopBound ≤ k := by
      rw [isConnected, hg.isConnected_iff_walk_of_ne hp.ne] at hnot
      exact Nat.le_of_not_lt fun hlt => hnot ⟨k, hlt, hwalk⟩
    omega

/-- Treating pairs closes no short loop. -/
theorem loopsAtLeast_foldl (hg : d.graph.InStep)
    (hfresh : d.ids.Fresh (linkDraws * (linked hopBound substation pu d ps).length)
      (InUse d nodes))
    (hps : ∀ p ∈ ps, p.Within nodes) (h : d.topology.LoopsAtLeast d.graph (hopBound + 4)) :
    (ps.foldl (linkUnlessConnected hopBound substation pu) d).topology.LoopsAtLeast
      (ps.foldl (linkUnlessConnected hopBound substation pu) d).graph (hopBound + 4) := by
  induction ps generalizing d with
  | nil => exact h
  | cons p ps ih =>
    obtain ⟨hp, hrest⟩ := List.forall_mem_cons.1 hps
    rw [List.foldl_cons, linkUnlessConnected]
    by_cases hconnected : p.isConnected hopBound d.graph = true
    · rw [linked_cons_of_connected _ _ _ hconnected] at hfresh
      rw [if_pos hconnected]
      exact ih (d := d.skip) hg hfresh hrest h
    · rw [linked_cons_of_not_connected _ _ _ hconnected] at hfresh
      rw [if_neg hconnected]
      rw [List.length_cons, Nat.mul_succ, Nat.add_comm] at hfresh
      exact ih (inStep_link hg) (fresh_link hfresh hp.first hp.second) hrest
        (loopsAtLeast_link hg hfresh.first hp hconnected h)

end CrossPair

namespace SubstationLevels

/-- **A run closes no short loop**: once it is over, every simple cycle that passes through a
transformer of the run has at least four terminals more than the hop bound. -/
theorem no_short_loop (s : SubstationLevels) (hs : s.IsConsistent) (hnodup : s.nodeMrids.Nodup)
    (ts : List Terminal) (hopBound : Nat) (pu : PerUnit) (ids : MridSource) :
    ∃ run, s.synthesize hopBound pu (.ofTerminals ts) ids = .ok run ∧
      (s.DrawsFresh (.ofTerminals ts) ids run →
        ∀ steps, IsCycle run.graph.terminals steps →
          (∃ w ∈ run.model.topology.powerTransformers, w.mrid ∈ steps.map Prod.fst) →
            hopBound + 4 ≤ steps.length) := by
  have hg := inStep_ofTerminals ts
  refine ⟨_, (s.synthesize_isOk_iff hopBound pu _ ids).2 hs, fun hfresh => ?_⟩
  have hstart : (s.emptyDraft (.ofTerminals ts) ids).topology.LoopsAtLeast
      (s.emptyDraft (.ofTerminals ts) ids).graph (hopBound + 4) := by
    rintro steps - ⟨w, hw, -⟩
    exact absurd hw List.not_mem_nil
  exact CrossPair.loopsAtLeast_foldl hg (hfresh.links hg)
    (fun _ => within_of_mem_crossPairsOf hnodup) hstart

/-- A cycle over two old terminals and a link, which a bound of two lets the run make. -/
def loopOverLink : List (Mrid × Nat) :=
  [(.ofNat 101, 0), (.ofNat 201, 1), (.ofNat 103, 5), (.ofNat 2, 4), (.ofNat 4, 2), (.ofNat 3, 3)]

/-- The bound is sharp: nodes that are two terminals apart are linked under a bound of two, which
closes a loop of six. -/
theorem no_short_loop_threeNodeLevels :
    ∃ run, (threeNodeLevels false).synthesize 2 {} (.ofTerminals joiningTerminals) .sequential =
        .ok run ∧
      IsCycle run.graph.terminals loopOverLink ∧
      (∃ w ∈ run.model.topology.powerTransformers, w.mrid ∈ loopOverLink.map Prod.fst) ∧
      2 + 4 ≤ loopOverLink.length ∧ loopOverLink.length = 6 := by
  obtain ⟨run, hrun, h⟩ := no_short_loop (threeNodeLevels false) (by decide) (by decide)
    joiningTerminals 2 {} .sequential
  have hok := ((threeNodeLevels false).synthesize_isOk_iff 2 {} (.ofTerminals joiningTerminals)
    .sequential).2 (by decide)
  obtain rfl := Except.ok.inj (hok.symm.trans hrun)
  have hcycle : IsCycle ((threeNodeLevels false).linkAll 2 {} (.ofTerminals joiningTerminals)
      .sequential).graph.terminals loopOverLink := by
    refine ⟨⟨.ofNat 101, ?_⟩, by decide, by decide, by decide⟩
    exact .cons_of_ends (b := .ofNat 201) (by decide +kernel) <|
      .cons_of_ends (b := .ofNat 103) (by decide +kernel) <|
      .cons_of_ends (b := .ofNat 2) (by decide +kernel) <|
      .cons_of_ends (b := .ofNat 4) (by decide +kernel) <|
      .cons_of_ends (b := .ofNat 3) (by decide +kernel) <|
      .cons_of_ends (b := .ofNat 101) (by decide +kernel) <| .nil _
  have hthrough : ∃ w ∈ ((threeNodeLevels false).linkAll 2 {} (.ofTerminals joiningTerminals)
      .sequential).model.topology.powerTransformers, w.mrid ∈ loopOverLink.map Prod.fst := by
    decide +kernel
  exact ⟨_, hok, hcycle, hthrough, h ⟨by decide +kernel, by decide +kernel⟩ _ hcycle hthrough, rfl⟩

end SubstationLevels

end Switchyard
