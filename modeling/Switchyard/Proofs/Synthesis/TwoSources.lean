import Switchyard.Proofs.Synthesis.LevelRun
import Switchyard.Proofs.Synthesis.LinkedPairs
import Switchyard.Proofs.Synthesis.Parallel

/-!
# Runs over two sources

The source of a run gives the created records their identities, and decides nothing else: runs over
different sources stay in parallel (`SubstationLevels.parallel_links`,
`VoltageLevelEquipment.parallel_layer`), and so their models are the same once the identities of the
one source are replaced by those of the other (`same_model_over_any_source`).
-/

set_option autoImplicit false

namespace Switchyard

open Switchyard.Graph
open MridSource (Exchange)
open Draft

/-! ## Links between voltage levels -/

section Links

variable {f g : Mrid → Mrid} {graph : Graph} {ids ids' : MridSource} {n : Nat} {input : List Mrid}
  {d d' : Draft} {p : CrossPair} {substation : Mrid}

namespace CrossPair

/-- The identities that the records of a link have from its pair. -/
def mrids (p : CrossPair) : List Mrid :=
  [p.first.voltageLevel.mrid, p.first.voltageLevel.baseVoltageMrid,
    p.second.voltageLevel.baseVoltageMrid, p.firstNode.mrid, p.secondNode.mrid]

theorem step_link (p : CrossPair) (substation : Mrid) (pu : PerUnit) (d : Draft) :
    Step d (p.link substation pu d) (p.made substation pu d) (p.linkTerminals d) linkDraws 0 :=
  ⟨p.topology_link substation pu d, p.graph_link substation pu d, rfl, rfl, rfl⟩

/-- A link is the same under a renaming that fixes what its records have from elsewhere. -/
theorem made_rename (pu : PerUnit) (h : Copies f graph ids ids' d d')
    (hpeek : ∀ j < linkDraws, f (d.ids.peek j) = d'.ids.peek j)
    (hsubstation : f substation = substation) (hp : ∀ id ∈ p.mrids, f id = id) :
    p.made substation pu d' = (p.made substation pu d).rename f := by
  simp only [mrids, List.forall_mem_cons] at hp
  obtain ⟨hlevel, hbase, hbase', hfirst, hsecond, -⟩ := hp
  simp (disch := decide) only [made, Topology.rename, Topology.mapRecords, linkTerminals,
    linkMarker, linkWindings, List.map_cons, List.map_nil, rename_busNameMarker,
    rename_connectivityNode, rename_switch _ _ hlevel hbase, rename_powerTransformer,
    rename_terminal, rename_powerTransformerEnd, hpeek, hlevel, hbase, hbase', hfirst, hsecond,
    hsubstation, h.reportingGroup_eq, h.group_eq]

theorem parallel_link (hex : Exchange f g ids ids' n (Known graph input)) (pu : PerUnit)
    (hsubstation : substation ∈ input) (hp : p.mrids ⊆ input)
    (h : Parallel f g graph ids ids' n d d') :
    Parallel f g graph ids ids' n (p.link substation pu d) (p.link substation pu d') := by
  refine h.step_of_made hex (p.step_link substation pu d) (p.step_link substation pu d') ?_ ?_
  · intro hcopy hpeek
    exact made_rename pu hcopy hpeek (hex.forth.used _ (.inr hsubstation)) fun id hid =>
      hex.forth.used id (.inr (hp hid))
  · intro hcopy hpeek
    exact made_rename pu hcopy hpeek (hex.back.used _ (.inr hsubstation)) fun id hid =>
      hex.back.used id (.inr (hp hid))

end CrossPair

namespace SubstationLevels

variable {s : SubstationLevels}

/-- The identities of the input that a run comes across. -/
def inputMrids (s : SubstationLevels) : List Mrid :=
  s.substation.mrid :: s.levels.flatMap fun l =>
    l.voltageLevel.mrid :: l.voltageLevel.baseVoltageMrid :: l.nodeMrids

theorem mrids_subset_inputMrids (hp : p ∈ s.crossPairs) : p.mrids ⊆ s.inputMrids := by
  obtain ⟨i, j, -, a, b, ha, hb, hp⟩ := mem_crossPairsOf_iff.1 hp
  obtain ⟨rfl, rfl, -, -⟩ := mem_pairsWith_iff.1 hp
  have hfirst := firstNode_mrid_mem hp
  have hsecond := secondNode_mrid_mem hp
  have hlevel {l : ConnectableLevel} {i : Nat} (hl : s.levels[i]? = some l) {x : Mrid}
      (hx : x ∈ l.voltageLevel.mrid :: l.voltageLevel.baseVoltageMrid :: l.nodeMrids) :
      x ∈ s.inputMrids :=
    List.mem_cons_of_mem _ (List.mem_flatMap.2 ⟨l, List.mem_of_getElem? hl, hx⟩)
  simp only [CrossPair.mrids, List.cons_subset, List.nil_subset, and_true]
  exact ⟨hlevel ha (by simp), hlevel ha (by simp), hlevel hb (by simp),
    hlevel ha (by simp [hfirst]), hlevel hb (by simp [hsecond])⟩

/-- **Runs over a substation stay in parallel.** -/
theorem parallel_links (hgraph : graph.InStep)
    (hex : Exchange f g ids ids' n (Known graph s.inputMrids)) (hopBound : Nat) (pu : PerUnit) :
    Parallel f g graph ids ids' n (s.finalDraft hopBound pu graph ids)
      (s.finalDraft hopBound pu graph ids') := by
  rw [finalDraft, finalDraft, linkedPairs, linkedPairs, ← CrossPair.foldl_linkUnlessConnected,
    ← CrossPair.foldl_linkUnlessConnected]
  have hpairs : List.Forall₂ (fun p p' => p = p' ∧ p ∈ s.crossPairs) s.crossPairs s.crossPairs :=
    List.forall₂_same.2 fun p hp => ⟨rfl, hp⟩
  refine List.rel_foldl ?_ (Parallel.start hex _ _ _) hpairs
  rintro d d' h p _ ⟨rfl, hp⟩
  have hmrids := mrids_subset_inputMrids hp
  rw [CrossPair.linkUnlessConnected, CrossPair.linkUnlessConnected]
  refine h.skip_or (p.step_link _ pu d).drawn_le ?_ ?_
  · intro hto hfrom
    exact isConnected_eq_of_copies hgraph hex hto hfrom (hmrids (by simp [CrossPair.mrids]))
      (hmrids (by simp [CrossPair.mrids])) hopBound
  · exact CrossPair.parallel_link hex pu List.mem_cons_self hmrids h

end SubstationLevels

end Links

/-! ## Switching layers -/

/-- Two seats of the same piece of equipment whose nodes stand for each other. -/
structure Seat.Matches (f g : Mrid → Mrid) (input : List Mrid) (s s' : Seat) : Prop where
  equipment_eq : s'.equipment = s.equipment
  mem : s.equipment ∈ input
  node : f s.node = s'.node
  node_back : g s'.node = s.node

namespace VoltageLevelEquipment

variable {e : VoltageLevelEquipment} {f g : Mrid → Mrid} {graph : Graph} {ids ids' : MridSource}
  {n hopBound : Nat} {d d' : Draft} {isLine : Bool} {m tap tap' : Mrid} {line line' t t' : Seat}

/-- The identities of the input that a run comes across. -/
def inputMrids (e : VoltageLevelEquipment) : List Mrid :=
  e.voltageLevel.mrid :: e.voltageLevel.baseVoltageMrid :: e.members

theorem mem_inputMrids_of_mem_members (hm : m ∈ e.members) : m ∈ e.inputMrids :=
  List.mem_cons_of_mem _ (List.mem_cons_of_mem _ hm)

theorem nextLabel_eq (h : Copies f graph ids ids' d d') : e.nextLabel d' = e.nextLabel d := by
  rw [nextLabel, nextLabel, h.labels]

/-! ### The steps -/

theorem step_seat (e : VoltageLevelEquipment) (isLine : Bool) (d : Draft) (m : Mrid) :
    Step d (e.seat isLine d m) (e.seatMade isLine d m) [] seatDraws 1 :=
  ⟨e.topology_seat isLine d m, rfl, rfl, rfl, rfl⟩

theorem step_addTap (e : VoltageLevelEquipment) (d : Draft) :
    Step d (e.addTap d) (e.tapMade d) [] 1 1 := ⟨e.topology_addTap d, rfl, rfl, rfl, rfl⟩

theorem step_addWire (e : VoltageLevelEquipment) (line : Seat) (tap : Mrid) (d : Draft) (t : Seat) :
    Step d (e.addWire line tap d t) (e.wireMade tap d t) (e.wireMade tap d t).terminals
      switchDraws 1 :=
  ⟨e.topology_addWire line tap d t, e.graph_addWire line tap d t, rfl, rfl, rfl⟩

theorem seatMade_rename (h : Copies f graph ids ids' d d')
    (hpeek : ∀ j < seatDraws, f (d.ids.peek j) = d'.ids.peek j)
    (hgraph : d'.graph = d.graph) (hlevel : f e.voltageLevel.mrid = e.voltageLevel.mrid)
    (hm : f m = m) : e.seatMade isLine d' m = (e.seatMade isLine d m).rename f := by
  simp (disch := decide) only [seatMade, Topology.rename, Topology.mapRecords, List.map_cons,
    List.map_nil, rename_busNameMarker, rename_connectivityNode, rename_terminal, hpeek, hlevel,
    hm, hgraph, nextLabel_eq h, h.reportingGroup_eq, h.group_eq]

theorem tapMade_rename (h : Copies f graph ids ids' d d')
    (hpeek : ∀ j < 1, f (d.ids.peek j) = d'.ids.peek j)
    (hlevel : f e.voltageLevel.mrid = e.voltageLevel.mrid) :
    e.tapMade d' = (e.tapMade d).rename f := by
  simp (disch := decide) only [tapMade, Topology.rename, Topology.mapRecords, List.map_cons,
    List.map_nil, rename_connectivityNode, hpeek, hlevel, nextLabel_eq h, h.reportingGroup_eq]

theorem wireMade_rename (h : Copies f graph ids ids' d d')
    (hpeek : ∀ j < switchDraws, f (d.ids.peek j) = d'.ids.peek j)
    (hlevel : f e.voltageLevel.mrid = e.voltageLevel.mrid)
    (hbase : f e.voltageLevel.baseVoltageMrid = e.voltageLevel.baseVoltageMrid)
    (htap : f tap = tap') (ht : f t.node = t'.node) :
    e.wireMade tap' d' t' = (e.wireMade tap d t).rename f := by
  simp (disch := decide) only [wireMade, Topology.rename, Topology.mapRecords, List.map_cons,
    List.map_nil, rename_busNameMarker, rename_switch _ _ hlevel hbase, rename_terminal, hpeek,
    htap, ht, nextLabel_eq h, h.reportingGroup_eq, h.group_eq]

section Parallel

variable (hex : Exchange f g ids ids' n (Known graph e.inputMrids))

include hex

theorem parallel_seat (isLine : Bool) (hm : m ∈ e.members) (hsame : d'.graph = d.graph)
    (h : Parallel f g graph ids ids' n d d') :
    Parallel f g graph ids ids' n (e.seat isLine d m) (e.seat isLine d' m) := by
  have hlevel : Known graph e.inputMrids e.voltageLevel.mrid := .inr List.mem_cons_self
  have hm : Known graph e.inputMrids m := .inr (mem_inputMrids_of_mem_members hm)
  refine h.step hex (e.step_seat isLine d m) (e.step_seat isLine d' m) ?_ ?_
  · intro hcopy hpeek
    exact ⟨seatMade_rename hcopy hpeek hsame (hex.forth.used _ hlevel) (hex.forth.used _ hm), rfl⟩
  · intro hcopy hpeek
    exact ⟨seatMade_rename hcopy hpeek hsame.symm (hex.back.used _ hlevel) (hex.back.used _ hm),
      rfl⟩

theorem parallel_foldl_seat (isLine : Bool) {ms : List Mrid} (hms : ms ⊆ e.members)
    (hsame : d'.graph = d.graph) (h : Parallel f g graph ids ids' n d d') :
    Parallel f g graph ids ids' n (ms.foldl (e.seat isLine) d) (ms.foldl (e.seat isLine) d') := by
  induction ms generalizing d d' with
  | nil => exact h
  | cons m ms ih =>
    obtain ⟨hm, hrest⟩ := List.cons_subset.1 hms
    exact ih hrest hsame (parallel_seat hex isLine hm hsame h)

/-- All equipment gets the same seats. -/
theorem parallel_seated :
    Parallel f g graph ids ids' n (e.seated graph ids) (e.seated graph ids') := by
  have hstart : Parallel f g graph ids ids' n (e.emptyDraft graph ids) (e.emptyDraft graph ids') :=
    .start hex _ _ _
  have hsame : (e.emptyDraft graph ids').graph = (e.emptyDraft graph ids).graph := rfl
  have hlines := parallel_foldl_seat hex true (List.subset_append_left _ e.otherMrids) hsame hstart
  have hothers := parallel_foldl_seat hex false (List.subset_append_right e.lineMrids _)
    (by rw [graph_foldl_seat, graph_foldl_seat, hsame]) hlines
  exact hothers.extendGraph hex

theorem parallel_addTap (h : Parallel f g graph ids ids' n d d') :
    Parallel f g graph ids ids' n (e.addTap d) (e.addTap d') := by
  have hlevel : Known graph e.inputMrids e.voltageLevel.mrid := .inr List.mem_cons_self
  refine h.step_of_made hex (e.step_addTap d) (e.step_addTap d') ?_ ?_
  · intro hcopy hpeek
    exact tapMade_rename hcopy hpeek (hex.forth.used _ hlevel)
  · intro hcopy hpeek
    exact tapMade_rename hcopy hpeek (hex.back.used _ hlevel)

theorem parallel_addWire (line line' : Seat) (htap : f tap = tap') (htap' : g tap' = tap)
    (ht : t.Matches f g e.inputMrids t') (h : Parallel f g graph ids ids' n d d') :
    Parallel f g graph ids ids' n (e.addWire line tap d t) (e.addWire line' tap' d' t') := by
  have hlevel : Known graph e.inputMrids e.voltageLevel.mrid := .inr List.mem_cons_self
  have hbase : Known graph e.inputMrids e.voltageLevel.baseVoltageMrid :=
    .inr (List.mem_cons_of_mem _ List.mem_cons_self)
  refine h.step_of_made hex (e.step_addWire line tap d t) (e.step_addWire line' tap' d' t') ?_ ?_
  · intro hcopy hpeek
    exact wireMade_rename hcopy hpeek (hex.forth.used _ hlevel) (hex.forth.used _ hbase) htap
      ht.node
  · intro hcopy hpeek
    exact wireMade_rename hcopy hpeek (hex.back.used _ hlevel) (hex.back.used _ hbase) htap'
      ht.node_back

theorem parallel_tapLine (hgraph : graph.InStep) (hopBound : Nat) {after after' : List Seat}
    (hline : line.Matches f g e.inputMrids line')
    (hafter : List.Forall₂ (Seat.Matches f g e.inputMrids) after after')
    (h : Parallel f g graph ids ids' n d d') :
    Parallel f g graph ids ids' n (e.tapLine hopBound line after d)
      (e.tapLine hopBound line' after' d') := by
  intro hle
  have htaken : d.ids.drawn + 1 ≤ ids.drawn + n := by
    rw [tapLine_eq, Draft.ids_skipMore, ids_layTap, MridSource.drawn_advance, Tapping.draws] at hle
    omega
  obtain ⟨hcopy, hcopy'⟩ := h (by omega)
  have htap := hcopy.peek hex.forth htaken Nat.zero_lt_one
  have htap' := hcopy'.peek hex.back (hcopy.drawn_add_le htaken) Nat.zero_lt_one
  have hown := parallel_addWire hex line line' htap htap' hline (parallel_addTap hex h)
  refine List.rel_foldl ?_ hown hafter hle
  intro d d' h t t' ht
  rw [switchUnlessConnected, switchUnlessConnected]
  refine h.skip_or (e.step_addWire line _ d t).drawn_le ?_ ?_
  · intro hto hfrom
    rw [hline.equipment_eq, ht.equipment_eq]
    exact isConnected_eq_of_copies hgraph hex hto hfrom hline.mem ht.mem hopBound
  · exact parallel_addWire hex line line' htap htap' ht h

theorem parallel_tapLines (hgraph : graph.InStep) (hopBound lines : Nat) {seats seats' : List Seat}
    (hseats : List.Forall₂ (Seat.Matches f g e.inputMrids) seats seats')
    (h : Parallel f g graph ids ids' n d d') :
    Parallel f g graph ids ids' n (e.tapLines hopBound lines seats d)
      (e.tapLines hopBound lines seats' d') := by
  induction hseats generalizing lines d d' with
  | nil => cases lines <;> exact h
  | cons hline hafter ih =>
    cases lines with
    | zero => exact h
    | succ lines => exact ih lines (parallel_tapLine hex hgraph hopBound hline hafter h)

end Parallel

/-- The seats of two sources that stand for each other match. -/
theorem matches_seatsFrom {input ms : List Mrid} (hms : ms ⊆ input)
    (hforth : ∀ j < seatDraws * ms.length, f (ids.peek j) = ids'.peek j)
    (hback : ∀ j < seatDraws * ms.length, g (ids'.peek j) = ids.peek j) :
    List.Forall₂ (Seat.Matches f g input) (seatsFrom ids ms) (seatsFrom ids' ms) := by
  induction ms generalizing ids ids' with
  | nil => exact .nil
  | cons m ms ih =>
    obtain ⟨hm, hrest⟩ := List.cons_subset.1 hms
    rw [List.length_cons, Nat.mul_succ] at hforth hback
    have hpos : 0 < seatDraws * ms.length + seatDraws := Nat.lt_add_left _ (by decide)
    refine .cons ⟨rfl, hm, hforth 0 hpos, hback 0 hpos⟩ (ih hrest ?_ ?_)
    · intro j hj
      rw [MridSource.peek_advance, MridSource.peek_advance]
      exact hforth _ (by omega)
    · intro j hj
      rw [MridSource.peek_advance, MridSource.peek_advance]
      exact hback _ (by omega)

/-- **Runs over a voltage level stay in parallel.** -/
theorem parallel_layer (hgraph : graph.InStep)
    (hex : Exchange f g ids ids' n (Known graph e.inputMrids)) (hopBound : Nat) :
    Parallel f g graph ids ids' n (e.finalDraft hopBound graph ids)
      (e.finalDraft hopBound graph ids') := by
  intro hle
  have htaken : 1 + seatDraws * e.members.length ≤ n := by
    rw [finalDraft, Draft.ids_skipMore, ids_foldl_layTap, ids_seated, seatedIds] at hle
    simp only [MridSource.drawn_advance] at hle
    omega
  have hseats : List.Forall₂ (Seat.Matches f g e.inputMrids) (e.seatsOf ids) (e.seatsOf ids') := by
    refine matches_seatsFrom (fun m => mem_inputMrids_of_mem_members) ?_ ?_
    · intro j hj
      rw [MridSource.peek_advance, MridSource.peek_advance]
      exact hex.forth.peek _ (by omega)
    · intro j hj
      rw [MridSource.peek_advance, MridSource.peek_advance]
      exact hex.back.peek _ (by omega)
  rw [← tapLines_seated] at hle
  rw [← tapLines_seated, ← tapLines_seated]
  exact parallel_tapLines hex hgraph hopBound e.lines.length hseats (parallel_seated hex) hle

end VoltageLevelEquipment

/-! ## The models -/

namespace Synthesis

/-- The identities that a run took from its source are pairwise different, and none of them was
known before. -/
def TakesUnknown (run : Synthesis) (graph : Graph) (input : List Mrid) (ids : MridSource) : Prop :=
  ids.Fresh (run.ids.drawn - ids.drawn) (Known graph input)

/-- Two runs took the same number of identities from their sources, and their models are the same
once those of the one source are replaced by those of the other. -/
structure SameUpTo (ids ids' : MridSource) (run run' : Synthesis) : Prop where
  drawn_eq : run'.ids.drawn - ids'.drawn = run.ids.drawn - ids.drawn
  model_eq : run'.model = run.model.rename (ids.replacing ids' (run.ids.drawn - ids.drawn))
  alreadyConnected_eq : run'.model.alreadyConnected = run.model.alreadyConnected

variable {graph : Graph} {input : List Mrid} {ids ids' : MridSource} {run run' : Synthesis}
  {d d' : Draft}

/-- If two runs are in parallel as far as the first of them goes, they are the same. -/
theorem sameUpTo_of_parallel (hd : d.finish.model = run.model ∧ d.ids = run.ids)
    (hd' : d'.finish.model = run'.model ∧ d'.ids = run'.ids)
    (hpar : Parallel (ids.replacing ids' (run.ids.drawn - ids.drawn))
      (ids'.replacing ids (run.ids.drawn - ids.drawn)) graph ids ids'
      (run.ids.drawn - ids.drawn) d d') : SameUpTo ids ids' run run' := by
  have hle : d.ids.drawn ≤ ids.drawn + (run.ids.drawn - ids.drawn) := by
    rw [hd.2]
    omega
  obtain ⟨hcopy, -⟩ := hpar hle
  obtain ⟨k, hk, hk'⟩ := hcopy.ids
  refine ⟨?_, ?_, ?_⟩
  · rw [← hd.2, ← hd'.2, hk, hk', MridSource.drawn_advance, MridSource.drawn_advance,
      Nat.add_sub_cancel_left, Nat.add_sub_cancel_left]
  · rw [← hd.1, ← hd'.1]
    exact congrArg₂ Model.mk hcopy.topology hcopy.skipped
  · rw [← hd.1, ← hd'.1]
    exact hcopy.skipped

/-- Runs that would be in parallel over any two sources are the same over fresh ones. -/
theorem sameUpTo_of_fresh (run : MridSource → Synthesis) (final : MridSource → Draft)
    (hfinal : ∀ ids, (final ids).finish.model = (run ids).model ∧ (final ids).ids = (run ids).ids)
    (hpar : ∀ {f g : Mrid → Mrid} {ids ids' : MridSource} {n : Nat},
      Exchange f g ids ids' n (Known graph input) →
        Parallel f g graph ids ids' n (final ids) (final ids'))
    (h : (run ids).TakesUnknown graph input ids) (h' : (run ids').TakesUnknown graph input ids') :
    SameUpTo ids ids' (run ids) (run ids') := by
  have hof {ids ids' : MridSource} (h : (run ids).TakesUnknown graph input ids)
      (h' : (run ids').TakesUnknown graph input ids')
      (hle : (run ids).ids.drawn - ids.drawn ≤ (run ids').ids.drawn - ids'.drawn) :
      SameUpTo ids ids' (run ids) (run ids') := by
    obtain ⟨k, hk⟩ := Nat.exists_eq_add_of_le hle
    rw [TakesUnknown, hk] at h'
    exact sameUpTo_of_parallel (hfinal ids) (hfinal ids') (hpar (h.exchange h'.first))
  -- whichever run takes fewer identities tells that the other one takes as many
  rcases Nat.le_total ((run ids).ids.drawn - ids.drawn) ((run ids').ids.drawn - ids'.drawn) with
    hle | hle
  · exact hof h h' hle
  · exact hof h h' (hof h' h hle).drawn_eq.le

end Synthesis

/-- **The source of identities does not influence what is synthesized.**  For any terminals and any
hop bound, take two sources that give out identities that are pairwise different and new to what a
run comes across in the graph and the input.  Then the two runs over the same input take the same
number of identities, skip the same number of pairs, and create the same model, once the `k`-th
identity of the one source is replaced by the `k`-th of the other, for every `k`.  A substation that
is refused over one source is refused over the other. -/
theorem same_model_over_any_source (ts : List Terminal) (hopBound : Nat) (ids ids' : MridSource) :
    (∀ e : VoltageLevelEquipment,
      (e.synthesize hopBound (.ofTerminals ts) ids).TakesUnknown (.ofTerminals ts) e.inputMrids
          ids →
        (e.synthesize hopBound (.ofTerminals ts) ids').TakesUnknown (.ofTerminals ts) e.inputMrids
          ids' →
        Synthesis.SameUpTo ids ids' (e.synthesize hopBound (.ofTerminals ts) ids)
          (e.synthesize hopBound (.ofTerminals ts) ids')) ∧
      ∀ (s : SubstationLevels) (pu : PerUnit),
        (∃ refusal, s.synthesize hopBound pu (.ofTerminals ts) ids = .error refusal ∧
          s.synthesize hopBound pu (.ofTerminals ts) ids' = .error refusal) ∨
        ∃ run run', s.synthesize hopBound pu (.ofTerminals ts) ids = .ok run ∧
          s.synthesize hopBound pu (.ofTerminals ts) ids' = .ok run' ∧
          (run.TakesUnknown (.ofTerminals ts) s.inputMrids ids →
            run'.TakesUnknown (.ofTerminals ts) s.inputMrids ids' →
            Synthesis.SameUpTo ids ids' run run') := by
  have hgraph := inStep_ofTerminals ts
  refine ⟨fun e h h' => ?_, fun s pu => ?_⟩
  · refine Synthesis.sameUpTo_of_fresh (e.synthesize hopBound (.ofTerminals ts))
      (e.finalDraft hopBound (.ofTerminals ts)) (fun ids => ?_)
      (fun hex => VoltageLevelEquipment.parallel_layer hgraph hex hopBound) h h'
    rw [e.synthesize_eq]
    exact ⟨rfl, rfl⟩
  · rw [SubstationLevels.synthesize, SubstationLevels.synthesize]
    split
    · exact .inl ⟨_, rfl, rfl⟩
    · refine .inr ⟨_, _, rfl, rfl, fun h h' => ?_⟩
      refine Synthesis.sameUpTo_of_fresh (s.linkAll hopBound pu (.ofTerminals ts))
        (s.finalDraft hopBound pu (.ofTerminals ts)) (fun ids => ?_)
        (fun hex => SubstationLevels.parallel_links hgraph hex hopBound pu) h h'
      rw [s.linkAll_eq]
      exact ⟨rfl, rfl⟩

open VoltageLevelEquipment (twoLinesOneGenerator lineToGenerator)
open SubstationLevels (threeNodeLevels joiningTerminals)

/-- Counted identities stand for scattered ones, and also for others that partly are the same: the
second identity of the one run is the first of the other. -/
theorem same_model_over_any_source_scattered :
    (twoLinesOneGenerator.synthesize 5 (.ofTerminals lineToGenerator) .sequential).SameUpTo
        .sequential (.scattered 7)
        (twoLinesOneGenerator.synthesize 5 (.ofTerminals lineToGenerator) (.scattered 7)) ∧
      ∃ run run',
        (threeNodeLevels false).synthesize 5 {} (.ofTerminals joiningTerminals) .sequential =
          .ok run ∧
        (threeNodeLevels false).synthesize 5 {} (.ofTerminals joiningTerminals) (.startingAt 2) =
          .ok run' ∧
        run.SameUpTo .sequential (.startingAt 2) run' ∧
        MridSource.sequential.peek 1 = (MridSource.startingAt 2).peek 0 ∧
        run'.model.alreadyConnected = 1 := by
  have hlevel := (same_model_over_any_source lineToGenerator 5 .sequential (.scattered 7)).1
    twoLinesOneGenerator ⟨by decide +kernel, by decide +kernel⟩
    ⟨by decide +kernel, by decide +kernel⟩
  refine ⟨hlevel, ?_⟩
  have hok {ids : MridSource} := ((threeNodeLevels false).synthesize_isOk_iff 5 {}
    (.ofTerminals joiningTerminals) ids).2 (by decide)
  rcases (same_model_over_any_source joiningTerminals 5 .sequential (.startingAt 2)).2
    (threeNodeLevels false) {} with ⟨refusal, hrefused, -⟩ | ⟨run, run', hrun, hrun', hsame⟩
  · exact absurd (hok.symm.trans hrefused) (by simp)
  · obtain rfl := Except.ok.inj (hok.symm.trans hrun)
    obtain rfl := Except.ok.inj (hok.symm.trans hrun')
    refine ⟨_, _, hok, hok, hsame ⟨?_, ?_⟩ ⟨?_, ?_⟩, rfl, ?_⟩
    all_goals decide +kernel

end Switchyard
