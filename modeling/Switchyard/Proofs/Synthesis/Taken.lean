import Mathlib.Data.List.Perm.Basic
import Switchyard.Proofs.Synthesis.LevelRun
import Switchyard.Proofs.Synthesis.LinkRun

/-!
# What a run takes

Every identity that a run takes from its source goes to one record, and every record that it creates
has an identity that it took.  So the identities of the created records are those that were taken
(`mrids_synthesize`, `mrids_linkAll`), in another order: records are listed by their table, and
within one step a terminal follows its marker.

It is enough to look at one step of each kind.  `Topology.Takes` says it of a portion of records and
of the source before and after it, and portions can be put together.
-/

set_option autoImplicit false

namespace Switchyard

/-! ## Portions of records -/

namespace Topology

variable {t u : Topology} {ids ids' ids'' : MridSource}

/-- The identities of all records but the reporting group. -/
def partMrids (t : Topology) : List Mrid :=
  t.busNameMarkers.map Record.mrid ++ t.connectivityNodes.map Record.mrid ++
    t.switches.map Record.mrid ++ t.powerTransformers.map Record.mrid ++
    t.terminals.map Record.mrid ++ t.powerTransformerEnds.map Record.mrid

theorem mrids_eq_cons (t : Topology) : t.mrids = t.reportingGroup.mrid :: t.partMrids := by
  simp only [mrids, gather, partMrids, List.append_assoc]
  rfl

theorem partMrids_append (t u : Topology) :
    (t.append u).partMrids.Perm (t.partMrids ++ u.partMrids) := by
  rw [List.perm_iff_count]
  intro id
  simp only [partMrids, append, List.map_append, List.count_append]
  omega

/-- The records, without the reporting group, have the identities that are handed out until one
source has become another. -/
def Takes (t : Topology) (ids ids' : MridSource) : Prop :=
  ∃ n, ids' = ids.advance n ∧ t.partMrids.Perm (ids.take n)

namespace Takes

theorem empty (group : ReportingGroup) (ids : MridSource) :
    ({ reportingGroup := group } : Topology).Takes ids ids := ⟨0, rfl, .refl _⟩

theorem append (ht : t.Takes ids ids') (hu : u.Takes ids' ids'') :
    (t.append u).Takes ids ids'' := by
  obtain ⟨m, rfl, hm⟩ := ht
  obtain ⟨n, rfl, hn⟩ := hu
  refine ⟨m + n, MridSource.advance_advance ids m n, ?_⟩
  rw [MridSource.take_add]
  exact (partMrids_append t u).trans (hm.append hn)

/-- The records of a step have so many identities in some order. -/
theorem of_places (places : List Nat) (hplaces : places.Perm (List.range places.length))
    (h : t.partMrids = places.map ids.peek) : t.Takes ids (ids.advance places.length) :=
  ⟨places.length, rfl, h ▸ hplaces.map ids.peek⟩

/-- With the reporting group the identities are one more. -/
theorem mrids (h : t.Takes (ids.advance 1) ids') (hgroup : t.reportingGroup.mrid = ids.peek 0) :
    t.mrids.Perm (ids.take (ids'.drawn - ids.drawn)) := by
  obtain ⟨n, rfl, hn⟩ := h
  have hdrawn : ((ids.advance 1).advance n).drawn - ids.drawn = 1 + n := by simp
  rw [hdrawn, MridSource.take_add, mrids_eq_cons, hgroup]
  exact hn.cons (ids.peek 0)

end Takes

end Topology

/-- Steps of which each takes what its portion has take what all portions have. -/
theorem Draft.takes_portions {α : Type} {make : Draft → α → Draft} {part : Draft → α → Topology}
    (h : ∀ d a, (part d a).Takes d.ids (make d a).ids) (d : Draft) (as : List α) :
    (portions make part d as).Takes d.ids (as.foldl make d).ids := by
  induction as generalizing d with
  | nil => exact .empty _ _
  | cons a as ih => exact (h d a).append (ih (make d a))

/-! ## Links between voltage levels -/

/-- A link takes thirteen identities, and has thirteen records. -/
theorem CrossPair.takes_made (p : CrossPair) (substation : Mrid) (pu : PerUnit) (d : Draft) :
    (p.made substation pu d).Takes d.ids (p.link substation pu d).ids :=
  .of_places [3, 5, 7, 9, 2, 1, 0, 4, 6, 8, 10, 11, 12] (by decide) rfl

/-- **The records of a run over a substation have the identities that it took.** -/
theorem SubstationLevels.mrids_linkAll (s : SubstationLevels) (hopBound : Nat) (pu : PerUnit)
    (graph : Graph) (ids : MridSource) :
    (s.linkAll hopBound pu graph ids).model.topology.mrids.Perm
      (ids.take ((s.linkAll hopBound pu graph ids).ids.drawn - ids.drawn)) := by
  have hlinks := Draft.takes_portions (fun d (p : CrossPair) => p.takes_made s.substation.mrid pu d)
    (s.emptyDraft graph ids) (s.linkedPairs hopBound pu graph ids)
  rw [linkAll_eq]
  show (CrossPair.linkEach s.substation.mrid pu (s.emptyDraft graph ids)
    (s.linkedPairs hopBound pu graph ids)).topology.mrids.Perm _
  rw [CrossPair.topology_linkEach, CrossPair.madeEach_eq_portions]
  exact ((Topology.Takes.empty _ _).append hlinks).mrids rfl

/-! ## Switching layers -/

namespace VoltageLevelEquipment

variable (e : VoltageLevelEquipment)

theorem takes_seatMade (isLine : Bool) (d : Draft) (m : Mrid) :
    (e.seatMade isLine d m).Takes d.ids (e.seat isLine d m).ids :=
  .of_places [1, 0, 2] (by decide) rfl

theorem takes_wireMade (line : Seat) (tap : Mrid) (d : Draft) (t : Seat) :
    (e.wireMade tap d t).Takes d.ids (e.addWire line tap d t).ids :=
  .of_places [1, 3, 0, 2, 4] (by decide) rfl

theorem takes_tapMade (d : Draft) : (e.tapMade d).Takes d.ids (e.addTap d).ids :=
  .of_places [0] (by decide) rfl

theorem takes_allSeatsMade (d : Draft) : (e.allSeatsMade d).Takes d.ids (e.seatAll d).ids :=
  (Draft.takes_portions (e.takes_seatMade true) d e.lineMrids).append
    (Draft.takes_portions (e.takes_seatMade false) _ e.otherMrids)

theorem takes_lineMade (d : Draft) (t : Tapping) :
    (e.lineMade d t).Takes d.ids (e.layTap d t).ids :=
  (e.takes_tapMade d).append
    (Draft.takes_portions (e.takes_wireMade t.line (d.ids.peek 0)) (e.addTap d)
      (t.line :: t.targets))

/-- **The records of a run over a voltage level have the identities that it took.** -/
theorem mrids_synthesize (hopBound : Nat) (graph : Graph) (ids : MridSource) :
    (e.synthesize hopBound graph ids).model.topology.mrids.Perm
      (ids.take ((e.synthesize hopBound graph ids).ids.drawn - ids.drawn)) := by
  have hlines := Draft.takes_portions e.takes_lineMade (e.seated graph ids)
    (e.tappingsOf hopBound graph ids)
  have hlayer : (e.layerMade hopBound graph ids).Takes (ids.advance 1)
      (e.synthesize hopBound graph ids).ids := by
    rw [synthesize_eq]
    exact (e.takes_allSeatsMade (e.emptyDraft graph ids)).append hlines
  rw [topology_synthesize]
  exact ((Topology.Takes.empty _ _).append hlayer).mrids rfl

end VoltageLevelEquipment

end Switchyard
