import Switchyard.Proofs.Load.AfterWrite
import Switchyard.Proofs.Load.LocalGraph
import Switchyard.Proofs.Load.Substation
import Switchyard.Proofs.Mrid.Fresh
import Switchyard.Proofs.Store.Mentions

/-!
# Loading new records

Records whose identities a store does not mention come to be active beside what was active before,
and hide nothing (`NewTo.mem_active_append`).  So once a topology of new records was written, the
substation loads with the new nodes in their levels (`loadSubstation_after`), and the graph with the
new terminals besides the old ones (`loadGraph_after`).
-/

set_option autoImplicit false

namespace Switchyard

open Switchyard.Graph

/-! ## New records -/

/-- Records of one type are new to a store: they are no tombstones, they differ, and the store
mentions none of them. -/
structure NewTo {α : Type} [Record α] (rs : List α) (store : Store) : Prop where
  nodup : (rs.map Record.mrid).Nodup
  not_mentioned : ∀ r ∈ rs, Record.mrid r ∉ store.mentions
  active : ∀ r ∈ rs, Record.isDeleted r = false

/-- New records are active beside those that were there. -/
theorem NewTo.mem_active_append {α : Type} [Record α] {rs news : List α} {b : Backend}
    (h : NewTo news b.store) (hnamed : Record.isPositional α = false)
    (hfetch : b.fetch α .all = .ok rs) {r : α} :
    r ∈ Version.active (rs ++ news) ↔ r ∈ Version.active rs ∨ r ∈ news := by
  refine Version.mem_active_append h.nodup (fun r hr s hs heq => ?_) h.active
  refine h.not_mentioned r hr ?_
  have hmentioned := Backend.mrid_mem_mentions_of_fetch hnamed hfetch hs
  rwa [← heq] at hmentioned

/-- New records are listed once each beside those that were there. -/
theorem NewTo.perm_active_append {α : Type} [Record α] {rs news : List α} {b : Backend}
    (h : NewTo news b.store) (hnamed : Record.isPositional α = false)
    (hfetch : b.fetch α .all = .ok rs) :
    (Version.active (rs ++ news)).Perm (Version.active rs ++ news) := by
  have hnodup (history : List α) : (Version.active history).Nodup :=
    (Version.active_ascending history).nodup_mrids.of_map
  refine (List.perm_ext_iff_of_nodup (hnodup _) (List.nodup_append'.2 ⟨hnodup _, h.nodup.of_map,
    fun r hold hnew => ?_⟩)).2 fun r => ?_
  · have hmem := Version.mem_of_mem_latest (Version.mem_active_iff.1 hold).1
    exact h.not_mentioned r hnew (Backend.mrid_mem_mentions_of_fetch hnamed hfetch hmem)
  · rw [h.mem_active_append hnamed hfetch, List.mem_append]

/-- Stamped records are as new as they were. -/
theorem NewTo.stamp {α : Type} [Record α] {rs : List α} {store : Store} (h : NewTo rs store)
    (c : CommitId) : NewTo (rs.map (Record.stamp c)) store where
  nodup := by
    have hmrid : Record.mrid ∘ Record.stamp c = (Record.mrid : α → Mrid) :=
      funext (Record.mrid_stamp c)
    rw [List.map_map, hmrid]
    exact h.nodup
  not_mentioned r hr := by
    obtain ⟨r', hr', rfl⟩ := List.mem_map.1 hr
    rw [Record.mrid_stamp]
    exact h.not_mentioned r' hr'
  active r hr := by
    obtain ⟨r', hr', rfl⟩ := List.mem_map.1 hr
    rw [Record.isDeleted_stamp]
    exact h.active r' hr'

/-- Records with fresh identities are new. -/
theorem newTo_of_sublist_take {α : Type} [Record α] {rs : List α} {store : Store}
    {ids : MridSource} {n : Nat} (hfresh : ids.Fresh n (· ∈ store.mentions))
    (hsub : (rs.map Record.mrid).Sublist (ids.take n))
    (hactive : ∀ r ∈ rs, Record.isDeleted r = false) : NewTo rs store where
  nodup := hfresh.nodup.sublist hsub
  not_mentioned _ hr := hfresh.not_used _ (hsub.subset (List.mem_map_of_mem hr))
  active := hactive

/-! ## Substations with more nodes -/

/-- A level with some created nodes besides its own, those that it contains. -/
structure ConnectableLevel.Extends (created : List ConnectivityNode) (l l' : ConnectableLevel) :
    Prop where
  voltageLevel_eq : l'.voltageLevel = l.voltageLevel
  baseVoltage_eq : l'.baseVoltage = l.baseVoltage
  mem_nodes_iff (n : ConnectivityNode) : n ∈ l'.nodes ↔
    n ∈ l.nodes ∨ (n ∈ created ∧ n.connectivityNodeContainerMrid = l.voltageLevel.mrid)

/-- A substation whose levels have some created nodes besides their own. -/
structure SubstationLevels.Extends (created : List ConnectivityNode) (s s' : SubstationLevels) :
    Prop where
  substation_eq : s'.substation = s.substation
  levels : List.Forall₂ (ConnectableLevel.Extends created) s.levels s'.levels

/-! ## Loading again -/

section AfterWrite

variable {before after : Backend} {commit : Commit} {identities : List Entity} {t : Topology}

/-- A substation loads again with the nodes that were written. -/
theorem loadSubstation_after (h : Persisted before after commit identities t.batches)
    {substation : Mrid} {s : SubstationLevels} {nodes : List ConnectivityNode}
    (hload : before.loadSubstation substation = .ok s)
    (hnodes : before.fetch ConnectivityNode .all = .ok nodes)
    (hnew : NewTo t.connectivityNodes before.store) :
    ∃ s', after.loadSubstation substation = .ok s' ∧ s.Extends t.connectivityNodes s' := by
  have hreads := Backend.reads_containedIn (s.levels.map (·.voltageLevel))
  have hstorable : ∀ n ∈ t.connectivityNodes, Record.Storable n :=
    fun n _ => Record.storable_of_forall_ne_real (by simp [Record.columns]) n
  have hafter := h.fetch_all_eq (by decide) t.rowsOf_connectivityNodes hstorable hnodes
  obtain ⟨hsame, hload'⟩ := Backend.loadSubstation_withNodes hload
    (h.loadActive_eq (by decide) (by rw [Topology.rowsOf_batches]; rfl))
    (h.loadActive_eq (by decide) (by rw [Topology.rowsOf_batches]; rfl))
    (h.loadActive_eq (by decide) (by rw [Topology.rowsOf_batches]; rfl))
    (Backend.loadActive_eq hreads rfl hnodes) (Backend.loadActive_eq hreads rfl hafter)
  refine ⟨_, hload', rfl, List.forall₂_map_right_iff.2 (List.forall₂_same.2 fun l hl => ?_)⟩
  refine ⟨rfl, rfl, fun n => ?_⟩
  have hholds (hlevel : n.connectivityNodeContainerMrid = l.voltageLevel.mrid) :
      (Backend.containedIn (s.levels.map (·.voltageLevel))).holds (Record.encode n) = true :=
    Backend.holds_containedIn_encode.2 ⟨_, List.mem_map_of_mem hl, hlevel.symm⟩
  nth_rewrite 2 [← hsame l hl]
  rw [ConnectableLevel.mem_nodes_withNodes, ConnectableLevel.mem_nodes_withNodes, List.mem_filter,
    List.mem_filter, hnew.mem_active_append rfl hnodes]
  constructor
  · rintro ⟨⟨hold | hcreated, hmatch⟩, hlevel⟩
    · exact .inl ⟨⟨hold, hmatch⟩, hlevel⟩
    · exact .inr ⟨hcreated, hlevel⟩
  · rintro (⟨⟨hold, hmatch⟩, hlevel⟩ | ⟨hcreated, hlevel⟩)
    · exact ⟨⟨.inl hold, hmatch⟩, hlevel⟩
    · exact ⟨⟨.inr hcreated, hholds hlevel⟩, hlevel⟩

/-- The active terminals are the old ones and those that were written. -/
theorem loadActive_terminals_after (h : Persisted before after commit identities t.batches)
    {terminals : List Terminal} (hterminals : before.fetch Terminal .all = .ok terminals)
    (hnew : NewTo t.terminals before.store) :
    ∃ ts, after.loadActive Terminal .all = .ok ts ∧
      ts.Perm (Version.active terminals ++ t.terminals) := by
  have hstorable : ∀ x ∈ t.terminals, Record.Storable x :=
    fun x _ => Record.storable_of_forall_ne_real (by simp [Record.columns]) x
  have hafter := h.fetch_all_eq (by decide) t.rowsOf_terminals hstorable hterminals
  refine ⟨_, ?_, hnew.perm_active_append rfl hterminals⟩
  rw [Backend.loadActive, hafter]
  rfl

/-- The graph loads again with the terminals that were written. -/
theorem loadGraph_after (h : Persisted before after commit identities t.batches)
    {graph : Graph} {terminals : List Terminal} (hgraph : before.loadGraph = .ok graph)
    (hterminals : before.fetch Terminal .all = .ok terminals)
    (hnew : NewTo t.terminals before.store) :
    ∃ graph', after.loadGraph = .ok graph' ∧ graph'.InStep ∧
      ∀ x, x ∈ graph'.terminals ↔ x ∈ graph.terminals ∨ x ∈ t.terminals := by
  obtain ⟨ts, hts, hperm⟩ := loadActive_terminals_after h hterminals hnew
  obtain rfl := Except.ok.inj ((Backend.loadGraph_eq hterminals).symm.trans hgraph)
  refine ⟨.ofTerminals ts, by rw [Backend.loadGraph, hts]; rfl, inStep_ofTerminals _, fun x => ?_⟩
  rw [terminals_ofTerminals, terminals_ofTerminals, hperm.mem_iff, List.mem_append]

end AfterWrite

end Switchyard
