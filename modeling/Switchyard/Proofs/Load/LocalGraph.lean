import Switchyard.Proofs.Load.ByReference
import Switchyard.Proofs.Load.Survey

/-!
# The graph around some seeds

`Backend.loadLocalGraph` asks the store for a few terminals at a time, and yet it ends up with
exactly the active terminals that have an end fewer than `hops` terminals away from a seed
(`exists_loadLocalGraph`).  So the local graph is as good as the graph of all active terminals for
whoever asks from a seed and not too far: `localGraph_exact`.
-/

set_option autoImplicit false

namespace Switchyard

open Switchyard.Graph

variable {b : Backend} {history ts us : List Terminal} {points seeds : List Mrid}
  {rounds hops : Nat} {s : Survey} {t : Terminal}

/-! ## The terminals that touch some points -/

namespace Survey

/-- The terminals that touch some points, those found by their equipment first. -/
def touching (points : List Mrid) (ts : List Terminal) : List Terminal :=
  (ts.filter fun t => t.conductingEquipmentMrid ∈ points) ++
    ts.filter fun t => t.connectivityNodeMrid ∈ points

theorem mem_touching : t ∈ touching points ts ↔ t ∈ ts ∧ Touches points t := by
  simp [touching, Touches, ← and_or_left]

end Survey

namespace Backend

/-- The graph loads if the terminals can be read. -/
theorem loadGraph_eq (hfetch : b.fetch Terminal .all = .ok history) :
    b.loadGraph = .ok (.ofTerminals (Version.active history)) := by
  have hall : (Version.active history).filter (fun r => Predicate.all.holds (Record.encode r)) =
      Version.active history := List.filter_eq_self.2 fun _ _ => rfl
  rw [loadGraph, loadActive_eq (p := .all) trivial rfl hfetch, hall]
  rfl

/-- Both questions are answered with the active terminals that touch the points. -/
theorem loadTouching_eq (hfetch : b.fetch Terminal .all = .ok history) (points : List Mrid) :
    b.loadTouching points = .ok (Survey.touching points (Version.active history)) := by
  rw [loadTouching, loadActive_by Terminal.refersBy_equipment rfl hfetch,
    loadActive_by Terminal.refersBy_node rfl hfetch]
  rfl

/-! ## Surveys of a store -/

/-- **A survey of a store goes as far as it has rounds.** -/
theorem exists_survey (hfetch : b.fetch Terminal .all = .ok history)
    (h : s.Surveyed (Version.active history) seeds rounds) (more : Nat) :
    ∃ s', b.survey more s = .ok s' ∧
      s'.Surveyed (Version.active history) seeds (rounds + more) ∧
      s.terminals <+: s'.terminals := by
  have hnodup := (Version.active_ascending history).nodup_mrids
  induction more generalizing rounds s with
  | zero => exact ⟨s, rfl, h, List.prefix_refl _⟩
  | succ more ih =>
    rw [survey]
    by_cases hnil : s.frontier = []
    · rw [if_pos (List.isEmpty_iff.2 hnil)]
      exact ⟨s, rfl, h.of_frontier_nil hnodup hnil _, List.prefix_refl _⟩
    · rw [if_neg (mt List.isEmpty_iff.1 hnil), loadTouching_eq hfetch]
      obtain ⟨s', hsurvey, hs', hprefix⟩ :=
        ih (h.advance hnodup fun _ => Survey.mem_touching)
      rw [Nat.add_right_comm] at hs'
      exact ⟨s', hsurvey, hs', Survey.terminals_prefix_advance.trans hprefix⟩

/-- The terminals of the seeds are the first that a survey meets. -/
theorem first_of_survey {s' : Survey} (hfetch : b.fetch Terminal .all = .ok history)
    (hhops : 1 ≤ hops) (h : b.survey hops (.around seeds) = .ok s') :
    ((Version.active history).filter fun t => t.conductingEquipmentMrid ∈ seeds) <+:
      s'.terminals := by
  obtain ⟨more, rfl⟩ := Nat.exists_eq_add_of_le' hhops
  have hnodup := (Version.active_ascending history).nodup_mrids
  rw [survey] at h
  by_cases hnil : seeds = []
  · simp [hnil]
  · have hne : (Survey.around seeds).frontier.isEmpty ≠ true := mt List.isEmpty_iff.1 hnil
    rw [if_neg hne, loadTouching_eq hfetch] at h
    have hfirst := (Survey.surveyed_around (Version.active history) seeds).advance hnodup
      fun _ => Survey.mem_touching
    obtain ⟨s'', hsurvey, -, hprefix⟩ := exists_survey hfetch hfirst more
    obtain rfl := Except.ok.inj (hsurvey.symm.trans h)
    refine List.IsPrefix.trans ?_ hprefix
    -- the terminals that are met by their equipment are all new
    rw [Survey.advance, Survey.touching, List.foldl_append]
    refine List.IsPrefix.trans ?_ Survey.terminals_prefix_foldl_meet
    rw [Survey.terminals_foldl_meet_of_nodup]
    · exact List.prefix_refl _
    · exact hnodup.sublist (List.filter_sublist.map _)

/-- **The local graph has the terminals around the seeds.** -/
theorem exists_loadLocalGraph (hfetch : b.fetch Terminal .all = .ok history)
    (seeds : List Mrid) (hhops : 1 ≤ hops) :
    ∃ us, b.loadLocalGraph seeds hops = .ok (.ofTerminals us) ∧
      Surrounds us (Version.active history) seeds hops := by
  obtain ⟨s, hsurvey, hs, -⟩ :=
    exists_survey hfetch (Survey.surveyed_around (Version.active history) seeds) hops
  rw [Nat.zero_add] at hs
  refine ⟨s.terminals, ?_, hs.orderly.nodup, hs.mem_terminals_iff,
    first_of_survey hfetch hhops hsurvey⟩
  rw [loadLocalGraph, hsurvey]
  rfl

/-! ## The main statement -/

/-- **The local graph is exact around its seeds.**  It holds, each of them once, the active
terminals of which an end is at most `hops - 1` terminals away from a seed in the graph of all
active terminals.  So from a seed, both graphs give the same answer under every bound up to
`hops + 1`, and the same distance wherever it is at most `hops`. -/
theorem localGraph_exact {b : Backend} {history : List Terminal}
    (hfetch : b.fetch Terminal .all = .ok history) (seeds : List Mrid) {hops : Nat}
    (hhops : 1 ≤ hops) :
    ∃ full localGraph, b.loadGraph = .ok full ∧ b.loadLocalGraph seeds hops = .ok localGraph ∧
      full = .ofTerminals (Version.active history) ∧
      localGraph = .ofTerminals localGraph.terminals ∧
      (localGraph.terminals.map (·.mrid)).Nodup ∧
      (∀ t, t ∈ localGraph.terminals ↔ t ∈ full.terminals ∧
        ∃ id, (id = t.connectivityNodeMrid ∨ id = t.conductingEquipmentMrid) ∧
          ∃ seed ∈ seeds, ∃ d ≤ hops - 1, full.distance seed id = some d) ∧
      (∀ seed ∈ seeds, ∀ id bound, bound ≤ hops + 1 →
        localGraph.isConnected seed id bound = full.isConnected seed id bound) ∧
      ∀ seed ∈ seeds, ∀ id d, full.distance seed id = some d → d ≤ hops →
        localGraph.distance seed id = some d := by
  obtain ⟨us, hload, hus⟩ := exists_loadLocalGraph hfetch seeds hhops
  have hfull := inStep_ofTerminals (Version.active history)
  have hlocal := inStep_ofTerminals us
  replace hus : Surrounds (ofTerminals us).terminals
      (ofTerminals (Version.active history)).terminals seeds hops := by
    rwa [terminals_ofTerminals, terminals_ofTerminals]
  refine ⟨_, _, loadGraph_eq hfetch, hload, rfl, ?_, hus.nodup, ?_, ?_, ?_⟩
  · rw [terminals_ofTerminals]
  · intro t
    rw [hus.mem_iff, exists_endNear_iff hhops]
    exact and_congr_right fun ht => hfull.endNear_iff ht
  · intro seed hseed id bound hbound
    exact hus.covers.isConnected_eq hfull hlocal (List.append_nil _).symm (List.append_nil _).symm
      (fun x hx => absurd hx (not_occurs_nil x)) (fun _ => hseed) hhops hbound
  · intro seed hseed id d hdistance hd
    exact hus.covers.distance_eq hfull hlocal hseed hhops hd hdistance

/-- A terminal of a chain of equipment. -/
def chainTerminal (n equipment node : Nat) : Terminal :=
  { mrid := .ofNat n
    conductingEquipmentMrid := .ofNat equipment
    connectivityNodeMrid := .ofNat node }

/-- Three pieces of equipment in a row, with a node between one and the next. -/
def chain : List Terminal :=
  [chainTerminal 1 100 200, chainTerminal 2 101 200, chainTerminal 3 101 201,
    chainTerminal 4 102 201]

/-- A store that holds these terminals. -/
def chainStore : Backend := { store := ({} : Store).seed chain }

theorem fetch_chainStore : chainStore.fetch Terminal .all = .ok chain :=
  fetch_all_seeded fun t _ =>
    Record.storable_of_forall_ne_real (by simp [Record.columns]) t

/-- Two hops from the first piece of equipment lead to the second one in the local graph as well,
which has a terminal of it but not the other. -/
theorem localGraph_exact_chain :
    chainStore.fetch Terminal .all = .ok chain ∧
      ∃ localGraph, chainStore.loadLocalGraph [.ofNat 100] 2 = .ok localGraph ∧
        localGraph.distance (.ofNat 100) (.ofNat 101) = some 2 ∧
        chainTerminal 2 101 200 ∈ localGraph.terminals ∧
        chainTerminal 3 101 201 ∉ localGraph.terminals := by
  obtain ⟨full, localGraph, -, hload, rfl, -, -, hmem, -, hdistance⟩ :=
    localGraph_exact fetch_chainStore [.ofNat 100] (show 1 ≤ 2 by decide)
  refine ⟨fetch_chainStore, localGraph, hload, ?_, ?_, ?_⟩
  · exact hdistance _ List.mem_cons_self _ 2 (by decide +kernel) (by decide)
  · exact (hmem _).2 ⟨by decide +kernel, .ofNat 200, .inl rfl, _, List.mem_cons_self, 1, by decide,
      by decide +kernel⟩
  · rw [hmem]
    rintro ⟨-, id, hid, seed, hseed, d, hd, hnear⟩
    obtain rfl := List.mem_singleton.1 hseed
    have htwo : (ofTerminals (Version.active chain)).distance (.ofNat 100) (.ofNat 101) =
        some 2 := by
      decide +kernel
    have hthree : (ofTerminals (Version.active chain)).distance (.ofNat 100) (.ofNat 201) =
        some 3 := by
      decide +kernel
    rcases hid with rfl | rfl
    · obtain rfl := Option.some.inj (hthree.symm.trans hnear)
      omega
    · obtain rfl := Option.some.inj (htwo.symm.trans hnear)
      omega

end Backend

end Switchyard
