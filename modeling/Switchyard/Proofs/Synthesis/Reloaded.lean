import Switchyard.Proofs.Graph.Metric
import Switchyard.Proofs.Synthesis.LinkedPairs
import Switchyard.Proofs.Synthesis.LocalGraph
import Switchyard.Proofs.Synthesis.Rerun
import Switchyard.Proofs.Synthesis.Taken

/-!
# The graph, the model and the store

A run extends the graph that it was given while it goes along, portion by portion.  In the end the
graph has exactly the terminals of the model besides its old ones, and so the caller need not load
it again: once the model is written, the graph that loads from the store has the same points and the
same distances as the one that the run has left behind (`reloaded_graph_same_distances`).

The two are not the same graph.  The store lists its terminals in ascending order, and those of the
run carry a stamp there.  Neither matters to the wiring.
-/

set_option autoImplicit false

namespace Switchyard

open Switchyard.Graph

/-! ## Runs -/

/-- What either kind of synthesis does to a graph under a bound, whenever it is not refused. -/
inductive Synthesis.RunsOver (hopBound : Nat) (graph : Graph) (ids : MridSource) :
    Synthesis → Prop where
  | voltageLevel (e : VoltageLevelEquipment) :
      RunsOver hopBound graph ids (e.synthesize hopBound graph ids)
  | substation {s : SubstationLevels} {pu : PerUnit} {run : Synthesis}
      (h : s.synthesize hopBound pu graph ids = .ok run) : RunsOver hopBound graph ids run

namespace SubstationLevels

variable {s : SubstationLevels} {hopBound : Nat} {pu : PerUnit} {graph : Graph} {ids : MridSource}

theorem grows_linkAll : graph.Grows (s.linkAll hopBound pu graph ids).graph := by
  rw [graph_linkAll]
  exact Draft.grows_foldl (fun d p => ⟨_, CrossPair.graph_link p s.substation.mrid pu d⟩)
    (s.emptyDraft graph ids) _

end SubstationLevels

/-! ## No tombstones -/

namespace VoltageLevelEquipment

variable (e : VoltageLevelEquipment)

theorem live_seatMade (isLine : Bool) (d : Draft) (m : Mrid) : (e.seatMade isLine d m).Live := by
  refine ⟨fun n hn => ?_, fun x hx => ?_⟩
  · rw [List.mem_singleton.1 hn]
    rfl
  · rw [List.mem_singleton.1 hx]
    rfl

theorem live_wireMade (tap : Mrid) (d : Draft) (t : Seat) : (e.wireMade tap d t).Live := by
  refine ⟨fun n hn => absurd hn List.not_mem_nil, fun x hx => ?_⟩
  simp only [wireMade, List.mem_cons, List.not_mem_nil, or_false] at hx
  rcases hx with rfl | rfl <;> rfl

theorem live_lineMade (d : Draft) (t : Tapping) : (e.lineMade d t).Live := by
  have htap : (e.tapMade d).Live := by
    refine ⟨fun n hn => ?_, fun x hx => absurd hx List.not_mem_nil⟩
    rw [List.mem_singleton.1 hn]
    rfl
  exact htap.append (Draft.portions_induction (fun _ => ⟨by simp, by simp⟩)
    (fun _ _ => Topology.Live.append) (e.live_wireMade (d.ids.peek 0)) _ _)

/-- A run creates no tombstones. -/
theorem live_synthesize (hopBound : Nat) (graph : Graph) (ids : MridSource) :
    (e.synthesize hopBound graph ids).model.topology.Live := by
  have hseats (isLine : Bool) (d : Draft) (ms : List Mrid) : (e.seatsMade isLine d ms).Live :=
    Draft.portions_induction (fun _ => ⟨by simp, by simp⟩) (fun _ _ => Topology.Live.append)
      (e.live_seatMade isLine) d ms
  have hlines : (e.linesMade (e.seated graph ids) (e.tappingsOf hopBound graph ids)).Live :=
    Draft.portions_induction (fun _ => ⟨by simp, by simp⟩) (fun _ _ => Topology.Live.append)
      e.live_lineMade _ _
  have hstart : (e.emptyDraft graph ids).topology.Live := ⟨by simp [emptyDraft, Draft.start],
    by simp [emptyDraft, Draft.start]⟩
  rw [topology_synthesize]
  exact hstart.append (((hseats true _ _).append (hseats false _ _)).append hlines)

end VoltageLevelEquipment

/-! ## What every run does -/

/-- A graph that grew to have some more terminals is the old one with these added. -/
theorem Graph.Grows.eq_addAll {g g' : Graph} {ts : List Terminal} (h : g.Grows g')
    (hterminals : g'.terminals = g.terminals ++ ts) : g' = g.addAll ts := by
  obtain ⟨us, rfl⟩ := h
  rw [terminals_addAll, List.append_cancel_left_eq] at hterminals
  rw [hterminals]

namespace Synthesis.RunsOver

variable {hopBound : Nat} {graph : Graph} {ids : MridSource} {run : Synthesis}

/-- **A run adds the terminals of its model to the graph, and no others.** -/
theorem graph_eq (h : RunsOver hopBound graph ids run) :
    run.graph = graph.addAll run.model.topology.terminals := by
  cases h with
  | voltageLevel e =>
    exact (e.grows_synthesize hopBound graph ids).eq_addAll (e.terminals_synthesize ..)
  | substation h =>
    obtain rfl := SubstationLevels.eq_linkAll_of_synthesize h
    exact SubstationLevels.grows_linkAll.eq_addAll (SubstationLevels.terminals_linkAll ..)

/-- The records of a run have the identities that it took. -/
theorem mrids_perm (h : RunsOver hopBound graph ids run) :
    run.model.topology.mrids.Perm (ids.take (run.ids.drawn - ids.drawn)) := by
  cases h with
  | voltageLevel e => exact e.mrids_synthesize hopBound graph ids
  | substation h =>
    obtain rfl := SubstationLevels.eq_linkAll_of_synthesize h
    exact SubstationLevels.mrids_linkAll ..

theorem live (h : RunsOver hopBound graph ids run) : run.model.topology.Live := by
  cases h with
  | voltageLevel e => exact e.live_synthesize hopBound graph ids
  | substation h =>
    obtain rfl := SubstationLevels.eq_linkAll_of_synthesize h
    exact SubstationLevels.live_linkAll

/-- The terminals of a run over fresh identities are new. -/
theorem newTo_terminals (h : RunsOver hopBound graph ids run) {store : Store}
    (hfresh : ids.Fresh (run.ids.drawn - ids.drawn) (· ∈ store.mentions)) :
    NewTo run.model.topology.terminals store := by
  have hsub : (run.model.topology.terminals.map Record.mrid).Sublist run.model.topology.mrids :=
    (List.sublist_append_right _ _).trans (List.sublist_append_left _ _)
  have hperm := h.mrids_perm
  refine ⟨(hperm.nodup_iff.2 hfresh.nodup).sublist hsub, fun t ht => ?_, h.live.terminals⟩
  exact hfresh.not_used _ (hperm.subset (hsub.subset (List.mem_map_of_mem ht)))

end Synthesis.RunsOver

/-! ## The graph of the store after a run was written -/

/-- Two graphs have the same points, and the same distance between any two of them. -/
structure Graph.SameDistances (g g' : Graph) : Prop where
  contains_eq (id : Mrid) : g.contains id = g'.contains id
  distance_eq (a b : Mrid) : g.distance a b = g'.distance a b

theorem Graph.sameDistances_of_sameWiring {g g' : Graph} (hg : g.InStep) (hg' : g'.InStep)
    (h : SameWiring g.terminals g'.terminals) : g.SameDistances g' where
  contains_eq id := by
    rw [Bool.eq_iff_iff, hg.contains_iff, hg'.contains_iff]
    exact ⟨h.occurs, h.symm.occurs⟩
  distance_eq := distance_eq_of_sameWiring hg hg' h

/-- A stamp and another order are nothing to the wiring. -/
theorem Graph.sameWiring_of_stamp {ts old new : List Terminal} {c : CommitId}
    (hmem : ∀ x, x ∈ ts ↔ x ∈ old ∨ x ∈ new.map (Record.stamp c)) :
    SameWiring ts (old ++ new) := by
  have hends (t : Terminal) : Graph.ends (Record.stamp c t) = Graph.ends t := rfl
  intro edge
  simp only [List.mem_map, List.map_append, List.mem_append, hmem, or_and_right, exists_or]
  refine or_congr_right ⟨?_, ?_⟩
  · rintro ⟨_, ⟨t, ht, rfl⟩, rfl⟩
    exact ⟨t, ht, (hends t).symm⟩
  · rintro ⟨t, ht, rfl⟩
    exact ⟨_, ⟨t, ht, rfl⟩, hends t⟩

/-- A graph loads only if all terminals can be read. -/
theorem Backend.fetch_of_loadGraph {b : Backend} {graph : Graph} (h : b.loadGraph = .ok graph) :
    ∃ history, b.fetch Terminal .all = .ok history := by
  cases hfetch : b.fetch Terminal .all with
  | error e => simp [loadGraph, loadActive, hfetch, Except.map] at h
  | ok history => exact ⟨history, rfl⟩

/-- Writing the model of a run persists the stamped records of its topology. -/
theorem persisted_of_write_model {b : Backend} {modelId : Int32} {note : CommitNote}
    {limit : Option Nat} {m : Model} {id : CommitId}
    (h : (b.write modelId note limit m).result = .ok id) :
    Persisted b (b.write modelId note limit m).backend { note with id }
      (Aggregate.identities modelId (Aggregate.stamp id m)) (m.topology.stamp id).batches :=
  persisted_of_write h rfl

/-- **The caller's graph, the model and the store stay in step.**  A run of either kind of
synthesis leaves the graph with its old terminals and then those of the model, in their order and
each once.  If the graph had been loaded from a store, the identities that the run took are pairwise
different and mentioned nowhere in the store, and the model is written to it, then the graph that
loads from the store has the same points and the same distances as the one that the run left. -/
theorem reloaded_graph_same_distances {hopBound : Nat} {graph : Graph} {ids : MridSource}
    {run : Synthesis} (h : run.RunsOver hopBound graph ids) :
    run.graph.terminals = graph.terminals ++ run.model.topology.terminals ∧
      run.graph = graph.addAll run.model.topology.terminals ∧
      ∀ (b : Backend) (modelId : Int32) (note : CommitNote) (limit : Option Nat) (id : CommitId),
        b.loadGraph = .ok graph →
        ids.Fresh (run.ids.drawn - ids.drawn) (· ∈ b.store.mentions) →
        (b.write modelId note limit run.model).result = .ok id →
        ∃ reloaded,
          (b.write modelId note limit run.model).backend.loadGraph = .ok reloaded ∧
            reloaded.SameDistances run.graph := by
  have hterminals : run.graph.terminals = graph.terminals ++ run.model.topology.terminals := by
    rw [h.graph_eq, terminals_addAll]
  refine ⟨hterminals, h.graph_eq, fun b modelId note limit id hgraph hfresh hwrite => ?_⟩
  obtain ⟨history, hfetch⟩ := Backend.fetch_of_loadGraph hgraph
  have hg : graph.InStep := by
    obtain rfl := Except.ok.inj ((Backend.loadGraph_eq hfetch).symm.trans hgraph)
    exact inStep_ofTerminals _
  obtain ⟨reloaded, hreload, hg', hmem⟩ := loadGraph_after (persisted_of_write_model hwrite) hgraph
    hfetch ((h.newTo_terminals hfresh).stamp id)
  refine ⟨reloaded, hreload, sameDistances_of_sameWiring hg' ?_ ?_⟩
  · rw [h.graph_eq]
    exact hg.addAll _
  · rw [hterminals]
    exact sameWiring_of_stamp hmem

/-- Once a run is written, the graph loads with the distances that the run left: six terminals from
a line to a generator over a tap, and four from a node to a node of another level over a link. -/
theorem reloaded_graph_same_distances_chain :
    ∃ graph run, Backend.chainStore.loadGraph = .ok graph ∧
      chainLevels.synthesize defaultHopBound {} graph (.startingAt 1000) = .ok run ∧
      (∃ reloaded, (Backend.chainStore.afterWriting
          (chainLevel.synthesize defaultHopBound graph (.startingAt 1000))).backend.loadGraph =
            .ok reloaded ∧
        reloaded.distance (.ofNat 101) (.ofNat 103) = some 6) ∧
      ∃ reloaded, (Backend.chainStore.afterWriting run).backend.loadGraph = .ok reloaded ∧
        reloaded.distance (.ofNat 200) (.ofNat 202) = some 4 := by
  have hgraph := Backend.loadGraph_eq Backend.fetch_chainStore
  have hlevels := (chainLevels.synthesize_isOk_iff defaultHopBound {}
    (.ofTerminals (Version.active Backend.chain)) (.startingAt 1000)).2 (by decide)
  have hlevel : Synthesis.RunsOver defaultHopBound (.ofTerminals (Version.active Backend.chain))
      (.startingAt 1000) _ := .voltageLevel chainLevel
  have hlevelRun := reloaded_graph_same_distances hlevel
  have hlevelsRun := reloaded_graph_same_distances (.substation hlevels)
  obtain ⟨reloaded, hreload, hsame⟩ := hlevelRun.2.2 Backend.chainStore 0
    { message := "links", author := "engineer" } none ⟨1⟩ hgraph (by decide +kernel)
    (toOption_eq_some_iff.1 (by decide +kernel))
  obtain ⟨reloaded', hreload', hsame'⟩ := hlevelsRun.2.2 Backend.chainStore 0
    { message := "links", author := "engineer" } none ⟨1⟩ hgraph (by decide +kernel)
    (toOption_eq_some_iff.1 (by decide +kernel))
  refine ⟨_, _, hgraph, hlevels, ⟨reloaded, hreload, ?_⟩, reloaded', hreload', ?_⟩
  · rw [hsame.distance_eq]
    decide +kernel
  · rw [hsame'.distance_eq]
    decide +kernel

end Switchyard
