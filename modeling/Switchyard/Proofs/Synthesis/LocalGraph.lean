import Switchyard.Proofs.Load.LocalGraph
import Switchyard.Proofs.Store.Mentions
import Switchyard.Proofs.Synthesis.TapLayer
import Switchyard.Proofs.Synthesis.TwoGraphs

/-!
# Synthesis over the local graph

A run only asks about its own equipment, or about the nodes of its own levels.  So the graph around
these serves it as well as the graph of all active terminals: the model is the same
(`same_model_on_localGraph`).

That the local graph is exact to begin with is not enough for this, since the run extends it.  What
the run adds is fastened to old points only at the seeds, though, as long as the store mentions none
of the identities it takes.
-/

set_option autoImplicit false

namespace Switchyard

open Switchyard.Graph

variable {ts us news history : List Terminal} {seeds : List Mrid} {hops bound : Nat}

/-! ## The same answers -/

/-- **A local graph answers like the full one** while terminals are added that are fastened to old
points at the seeds only. -/
theorem Graph.Covers.answersAlike {last : Graph} (h : Covers us ts seeds hops)
    (hlast : last.terminals = ts ++ news) (hnews : ∀ x, Occurs news x → Occurs ts x → x ∈ seeds)
    (hhops : 1 ≤ hops) (hbound : bound ≤ hops + 1) :
    AnswersAlike (.ofTerminals ts) (.ofTerminals us) last seeds bound := by
  rintro added ⟨more, rfl⟩ a ha b
  rw [terminals_addAll, terminals_addAll, terminals_ofTerminals, List.append_assoc,
    List.append_cancel_left_eq] at hlast
  have hterminals (ts : List Terminal) :
      ((ofTerminals ts).addAll added).terminals = ts ++ added := by
    rw [terminals_addAll, terminals_ofTerminals]
  refine h.isConnected_eq ((inStep_ofTerminals ts).addAll added)
    ((inStep_ofTerminals us).addAll added) (hterminals ts) (hterminals us) ?_ (fun _ => ha) hhops
    hbound
  intro x hx
  rw [← hlast] at hnews
  exact hnews x (occurs_append.2 (.inl hx))

namespace Backend

/-- A store mentions the ends of its terminals. -/
theorem mem_mentions_of_occurs {b : Backend} (hfetch : b.fetch Terminal .all = .ok history)
    {id : Mrid} (h : Occurs (Version.active history) id) : id ∈ b.store.mentions := by
  obtain ⟨t, ht, hend⟩ := occurs_iff.1 h
  have hmem := Version.mem_of_mem_latest (Version.mem_active_iff.1 ht).1
  rcases hend with rfl | rfl
  · exact mem_mentions_of_fetch Terminal.refersBy_node rfl hfetch hmem
  · exact mem_mentions_of_fetch Terminal.refersBy_equipment rfl hfetch hmem

end Backend

/-! ## The main statement -/

/-- A store mentions none of the identities that a run took. -/
def Synthesis.IsNewTo (run : Synthesis) (ids : MridSource) (store : Store) : Prop :=
  ∀ id ∈ ids.take (run.ids.drawn - ids.drawn), id ∉ store.mentions

instance (run : Synthesis) (ids : MridSource) (store : Store) :
    Decidable (run.IsNewTo ids store) :=
  inferInstanceAs (Decidable (∀ id ∈ ids.take (run.ids.drawn - ids.drawn), id ∉ store.mentions))

/-- What is taken by a run is no old point, so what occurs among its terminals is one only if it is
a seed. -/
theorem Synthesis.IsNewTo.mem_seeds {run : Synthesis} {ids : MridSource} {b : Backend}
    (hfresh : run.IsNewTo ids b.store) (hfetch : b.fetch Terminal .all = .ok history)
    (hoccurs : ∀ x, Occurs run.model.topology.terminals x →
      x ∈ seeds ∨ x ∈ ids.take (run.ids.drawn - ids.drawn)) :
    ∀ x, Occurs run.model.topology.terminals x → Occurs (Version.active history) x →
      x ∈ seeds := by
  intro x hx hold
  refine (hoccurs x hx).resolve_right ?_
  intro htaken
  exact hfresh x htaken (Backend.mem_mentions_of_occurs hfetch hold)

/-- **Synthesis over the local graph gives the same model as over the graph of all active
terminals**, record by record, if the hops are enough for the bound and the store mentions none of
the identities that the run takes: for a voltage level over the graph around its equipment, and for
a substation over the graph around all nodes of its levels. -/
theorem same_model_on_localGraph {b : Backend} {history : List Terminal}
    (hfetch : b.fetch Terminal .all = .ok history) {hopBound hops : Nat} (hhops : 1 ≤ hops)
    (hbound : hopBound ≤ hops + 1) (ids : MridSource) :
    ∃ full, b.loadGraph = .ok full ∧
      (∀ e : VoltageLevelEquipment, (e.synthesize hopBound full ids).IsNewTo ids b.store →
        ∃ localGraph, b.loadLocalGraph e.members hops = .ok localGraph ∧
          (e.synthesize hopBound localGraph ids).model =
            (e.synthesize hopBound full ids).model) ∧
      ∀ (s : SubstationLevels) (pu : PerUnit) (seeds : List Mrid),
        (∀ l ∈ s.levels, ∀ n ∈ l.nodes, n.mrid ∈ seeds) →
        (∀ run, s.synthesize hopBound pu full ids = .ok run → run.IsNewTo ids b.store) →
        ∃ localGraph, b.loadLocalGraph seeds hops = .ok localGraph ∧
          (s.synthesize hopBound pu localGraph ids).map (·.model) =
            (s.synthesize hopBound pu full ids).map (·.model) := by
  refine ⟨_, Backend.loadGraph_eq hfetch, ?_, ?_⟩
  · intro e hfresh
    obtain ⟨us, hload, hus⟩ := Backend.exists_loadLocalGraph hfetch e.members hhops
    have hlast := e.terminals_synthesize hopBound (ofTerminals (Version.active history)) ids
    rw [terminals_ofTerminals] at hlast
    refine ⟨_, hload, VoltageLevelEquipment.model_synthesize_eq ?_ ?_⟩
    · intro line hline
      exact hus.terminalOf?_eq (List.mem_append_left _ hline)
    · refine hus.covers.answersAlike hlast ?_ hhops hbound
      exact hfresh.mem_seeds hfetch fun _ => VoltageLevelEquipment.mem_members_or_take_of_occurs
  · intro s pu seeds hseeds hfresh
    obtain ⟨us, hload, hus⟩ := Backend.exists_loadLocalGraph hfetch seeds hhops
    refine ⟨_, hload, ?_⟩
    cases hfind : s.levels.find? fun l => ¬ l.IsConsistent with
    | some l =>
      -- both runs are refused
      rw [SubstationLevels.synthesize, SubstationLevels.synthesize, hfind]
    | none =>
      have hok (g : Graph) :
          s.synthesize hopBound pu g ids = .ok (s.linkAll hopBound pu g ids) := by
        rw [SubstationLevels.synthesize, hfind]
      have hnodes : s.nodeMrids ⊆ seeds := by
        intro id hid
        obtain ⟨l, hl, hid⟩ := List.mem_flatMap.1 hid
        obtain ⟨n, hn, rfl⟩ := List.mem_map.1 hid
        exact hseeds l hl n hn
      have hlast := s.terminals_linkAll hopBound pu (ofTerminals (Version.active history)) ids
      rw [terminals_ofTerminals] at hlast
      have hnews := (hfresh _ (hok _)).mem_seeds hfetch fun _ hx =>
        (SubstationLevels.occurs_linkAll hx).imp_left fun hid => hnodes hid
      have hsame := hus.covers.answersAlike hlast hnews hhops hbound
      rw [hok, hok]
      exact congrArg Except.ok (SubstationLevels.model_linkAll_eq (hsame.mono hnodes))

/-- A voltage level with two lines of the chain and a generator beside it. -/
def chainLevel : VoltageLevelEquipment :=
  { lines := [{ mrid := .ofNat 100 }, { mrid := .ofNat 101 }]
    generators := [{ mrid := .ofNat 103 }] }

/-- Three voltage levels, of which two have a node of the chain each. -/
def chainLevels : SubstationLevels :=
  { levels := [{ nodes := [{ mrid := .ofNat 200 }] }, { nodes := [{ mrid := .ofNat 201 }] },
      { nodes := [{ mrid := .ofNat 202 }] }] }

/-- Four hops are enough for the default bound: over the local graph as well, the two lines are
connected already, and so are the two nodes. -/
theorem same_model_on_localGraph_chain :
    (∃ localGraph, Backend.chainStore.loadLocalGraph chainLevel.members 4 = .ok localGraph ∧
      (chainLevel.synthesize defaultHopBound localGraph
        (.startingAt 1000)).model.alreadyConnected = 1) ∧
    ∃ localGraph run, Backend.chainStore.loadLocalGraph chainLevels.nodeMrids 4 = .ok localGraph ∧
      chainLevels.synthesize defaultHopBound {} localGraph (.startingAt 1000) = .ok run ∧
      run.model.alreadyConnected = 1 := by
  obtain ⟨full, hfull, hlevel, hlevels⟩ :=
    same_model_on_localGraph Backend.fetch_chainStore (show 1 ≤ 4 by decide)
      (show defaultHopBound ≤ 4 + 1 by decide) (.startingAt 1000)
  obtain rfl := Except.ok.inj ((Backend.loadGraph_eq Backend.fetch_chainStore).symm.trans hfull)
  have hok (g : Graph) : chainLevels.synthesize defaultHopBound {} g (.startingAt 1000) =
      .ok (chainLevels.linkAll defaultHopBound {} g (.startingAt 1000)) :=
    (chainLevels.synthesize_isOk_iff _ _ _ _).2 (by decide)
  obtain ⟨nearLines, hload, hmodel⟩ := hlevel chainLevel (by decide +kernel)
  obtain ⟨nearNodes, hload', hmodel'⟩ :=
    hlevels chainLevels {} chainLevels.nodeMrids (by decide) <| by
      intro run hrun
      obtain rfl := Except.ok.inj ((hok _).symm.trans hrun)
      decide +kernel
  refine ⟨⟨nearLines, hload, ?_⟩, nearNodes, _, hload', hok nearNodes, ?_⟩
  · rw [hmodel]
    decide +kernel
  · rw [hok, hok] at hmodel'
    exact (congrArg Model.alreadyConnected (Except.ok.inj hmodel')).trans (by decide +kernel)

end Switchyard
