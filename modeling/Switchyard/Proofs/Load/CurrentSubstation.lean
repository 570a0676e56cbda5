import Switchyard.Proofs.Load.ByReference
import Switchyard.Proofs.Load.Substation
import Switchyard.Proofs.Synthesis.CrossPairs

/-!
# The current substation

A substation is put together from four tables, whose histories have nothing to do with each other:
a voltage level may have been moved to another substation, a node to another level, a base voltage
may be gone.  `SubstationHistory` holds the four histories, and `SubstationHistory.Describes` says
without any loading what the substation consists of now.

There are three outcomes (`SubstationHistory.Outcome`).  Either the substation is not there, or one
of its levels refers to a base voltage that is not there, and the first such level is named, or the
substation loads just as it is described (`current_substation_loaded`).
-/

set_option autoImplicit false

namespace Switchyard

open Version

/-! ## Histories -/

/-- Every version of the records that a substation is loaded from. -/
structure SubstationHistory where
  substations : List Substation
  voltageLevels : List VoltageLevel
  baseVoltages : List BaseVoltage
  nodes : List ConnectivityNode

namespace SubstationHistory

/-- Every row of the four tables can be read, and these are the versions that they hold. -/
structure IsRead (h : SubstationHistory) (b : Backend) : Prop where
  substations : b.fetch Substation .all = .ok h.substations
  voltageLevels : b.fetch VoltageLevel .all = .ok h.voltageLevels
  baseVoltages : b.fetch BaseVoltage .all = .ok h.baseVoltages
  nodes : b.fetch ConnectivityNode .all = .ok h.nodes

variable (h : SubstationHistory) (id : Mrid)

/-- The substation is there. -/
def IsThere : Prop := ∃ r, IsCurrent h.substations r ∧ r.mrid = id

/-- The voltage level is there and belongs to the substation. -/
def HasLevel (v : VoltageLevel) : Prop := IsCurrent h.voltageLevels v ∧ v.substationMrid = id

/-- The base voltage that a voltage level refers to is there. -/
def HasBase (v : VoltageLevel) : Prop :=
  ∃ bv, IsCurrent h.baseVoltages bv ∧ bv.mrid = v.baseVoltageMrid

/-- The voltage level is the first of the substation that refers to a missing base voltage. -/
structure FirstWithoutBase (v : VoltageLevel) : Prop where
  level : h.HasLevel id v
  missing : ¬ h.HasBase v
  first : ∀ w, h.HasLevel id w → w.mrid < v.mrid → h.HasBase w

/-- What the substation consists of: itself, its voltage levels in ascending order, the base voltage
of each of them, and the nodes that each of them contains, in ascending order too. -/
structure Describes (s : SubstationLevels) : Prop where
  substation : IsCurrent h.substations s.substation
  mrid_eq : s.substation.mrid = id
  mem_levels_iff : ∀ v, v ∈ s.levels.map (·.voltageLevel) ↔ h.HasLevel id v
  levels_ascending : Ascending (s.levels.map (·.voltageLevel))
  baseVoltage : ∀ l ∈ s.levels, IsCurrent h.baseVoltages l.baseVoltage ∧ l.IsConsistent
  mem_nodes_iff : ∀ l ∈ s.levels, ∀ n, n ∈ l.nodes ↔
    IsCurrent h.nodes n ∧ n.connectivityNodeContainerMrid = l.voltageLevel.mrid
  nodes_ascending : ∀ l ∈ s.levels, Ascending l.nodes

/-- How loading the substation ends. -/
inductive Outcome : Except LoadError SubstationLevels → Prop
  /-- The substation is not there. -/
  | notFound (hnone : ¬ h.IsThere id) : Outcome (.error (.notFound .substations id))
  /-- A base voltage is not there. -/
  | missingBaseVoltage (hthere : h.IsThere id) {v : VoltageLevel}
    (hfirst : h.FirstWithoutBase id v) :
    Outcome (.error (.missingBaseVoltage v.mrid v.baseVoltageMrid))
  /-- Everything is there. -/
  | loaded {s : SubstationLevels} (hs : h.Describes id s) : Outcome (.ok s)

variable {h id} {b : Backend} {s s' : SubstationLevels} {v w : VoltageLevel}

/-! ## What a description settles -/

theorem FirstWithoutBase.eq (hv : h.FirstWithoutBase id v) (hw : h.FirstWithoutBase id w) :
    v = w := by
  rcases Mrid.lt_or_eq_or_gt v.mrid w.mrid with hlt | heq | hgt
  · exact absurd (hw.first v hv.level hlt) hv.missing
  · exact hv.level.1.eq_of_mrid_eq hw.level.1 heq
  · exact absurd (hv.first w hw.level hgt) hw.missing

namespace Describes

theorem isThere (hs : h.Describes id s) : h.IsThere id := ⟨_, hs.substation, hs.mrid_eq⟩

theorem hasBase (hs : h.Describes id s) (hv : h.HasLevel id v) : h.HasBase v := by
  obtain ⟨l, hl, rfl⟩ := List.mem_map.1 ((hs.mem_levels_iff v).2 hv)
  obtain ⟨hcurrent, hconsistent⟩ := hs.baseVoltage l hl
  exact ⟨_, hcurrent, hconsistent⟩

/-- A level is settled by its voltage level. -/
theorem level_eq (hs : h.Describes id s) (hs' : h.Describes id s') {l l' : ConnectableLevel}
    (hl : l ∈ s.levels) (hl' : l' ∈ s'.levels) (heq : l.voltageLevel = l'.voltageLevel) :
    l = l' := by
  have hnodes : l.nodes = l'.nodes :=
    (hs.nodes_ascending l hl).ext (hs'.nodes_ascending l' hl') fun n => by
      rw [hs.mem_nodes_iff l hl, hs'.mem_nodes_iff l' hl', heq]
  obtain ⟨hcurrent, hconsistent⟩ := hs.baseVoltage l hl
  obtain ⟨hcurrent', hconsistent'⟩ := hs'.baseVoltage l' hl'
  have hbase : l.baseVoltage = l'.baseVoltage := by
    refine hcurrent.eq_of_mrid_eq hcurrent' ?_
    exact hconsistent.trans ((congrArg _ heq).trans hconsistent'.symm)
  obtain ⟨level, nodes, base⟩ := l
  obtain ⟨level', nodes', base'⟩ := l'
  obtain rfl : level = level' := heq
  obtain rfl : nodes = nodes' := hnodes
  obtain rfl : base = base' := hbase
  rfl

/-- **A substation has one description.** -/
theorem eq (hs : h.Describes id s) (hs' : h.Describes id s') : s = s' := by
  have hrecord : s.substation = s'.substation :=
    hs.substation.eq_of_mrid_eq hs'.substation (hs.mrid_eq.trans hs'.mrid_eq.symm)
  have hmap : s.levels.map (·.voltageLevel) = s'.levels.map (·.voltageLevel) :=
    hs.levels_ascending.ext hs'.levels_ascending fun v =>
      (hs.mem_levels_iff v).trans (hs'.mem_levels_iff v).symm
  have hlevels : s.levels = s'.levels := by
    have hlength : s.levels.length = s'.levels.length := by
      simpa using congrArg List.length hmap
    refine List.ext_getElem hlength fun k hk hk' => ?_
    refine hs.level_eq hs' (List.getElem_mem hk) (List.getElem_mem hk') ?_
    simpa [hk, hk'] using congrArg (·[k]?) hmap
  obtain ⟨record, levels⟩ := s
  obtain ⟨record', levels'⟩ := s'
  obtain rfl : record = record' := hrecord
  obtain rfl : levels = levels' := hlevels
  rfl

/-- **No node is in two levels.** -/
theorem nodup_nodeMrids (hs : h.Describes id s) : s.nodeMrids.Nodup := by
  refine List.nodup_flatMap.2 ⟨fun l hl => (hs.nodes_ascending l hl).nodup_mrids, ?_⟩
  refine (List.pairwise_map.1 hs.levels_ascending).imp_of_mem fun {l m} hl hm hlt => ?_
  intro id hid hid'
  obtain ⟨n, hn, rfl⟩ := List.mem_map.1 hid
  obtain ⟨n', hn', heq⟩ := List.mem_map.1 hid'
  obtain ⟨hcurrent, hcontainer⟩ := (hs.mem_nodes_iff l hl n).1 hn
  obtain ⟨hcurrent', hcontainer'⟩ := (hs.mem_nodes_iff m hm n').1 hn'
  obtain rfl : n = n' := hcurrent.eq_of_mrid_eq hcurrent' heq.symm
  have hne : l.voltageLevel.mrid < m.voltageLevel.mrid := hlt
  rw [← hcontainer, ← hcontainer'] at hne
  exact Mrid.lt_irrefl _ hne

end Describes

namespace Outcome

variable {x : Except LoadError SubstationLevels}

theorem eq_notFound_iff (hx : h.Outcome id x) :
    x = .error (.notFound .substations id) ↔ ¬ h.IsThere id := by
  cases hx with
  | notFound hnone => exact ⟨fun _ => hnone, fun _ => rfl⟩
  | missingBaseVoltage hthere => exact ⟨fun heq => by simp at heq, fun hnone => absurd hthere hnone⟩
  | loaded hs => exact ⟨fun heq => by simp at heq, fun hnone => absurd hs.isThere hnone⟩

theorem eq_missingBaseVoltage_iff (hx : h.Outcome id x) {level baseVoltage : Mrid} :
    x = .error (.missingBaseVoltage level baseVoltage) ↔
      h.IsThere id ∧
        ∃ v, h.FirstWithoutBase id v ∧ v.mrid = level ∧ v.baseVoltageMrid = baseVoltage := by
  cases hx with
  | notFound hnone => exact ⟨fun heq => by simp at heq, fun hthere => absurd hthere.1 hnone⟩
  | @missingBaseVoltage hthere v hfirst =>
    rw [Except.error.injEq, LoadError.missingBaseVoltage.injEq]
    constructor
    · exact fun heq => ⟨hthere, v, hfirst, heq⟩
    · rintro ⟨-, w, hw, heq⟩
      rwa [hfirst.eq hw]
  | loaded hs =>
    refine ⟨fun heq => by simp at heq, ?_⟩
    rintro ⟨-, v, hfirst, -⟩
    exact absurd (hs.hasBase hfirst.level) hfirst.missing

theorem eq_ok_iff (hx : h.Outcome id x) : x = .ok s ↔ h.Describes id s := by
  cases hx with
  | notFound hnone => exact ⟨fun heq => by simp at heq, fun hs => absurd hs.isThere hnone⟩
  | missingBaseVoltage _ hfirst =>
    exact ⟨fun heq => by simp at heq,
      fun hs => absurd (hs.hasBase hfirst.level) hfirst.missing⟩
  | loaded hs' =>
    rw [Except.ok.injEq]
    exact ⟨fun heq => heq ▸ hs', hs'.eq⟩

theorem exists_eq_missingBaseVoltage_iff (hx : h.Outcome id x) :
    (∃ level baseVoltage, x = .error (.missingBaseVoltage level baseVoltage)) ↔
      h.IsThere id ∧ ∃ v, h.HasLevel id v ∧ ¬ h.HasBase v := by
  constructor
  · rintro ⟨level, baseVoltage, heq⟩
    obtain ⟨hthere, v, hfirst, -⟩ := hx.eq_missingBaseVoltage_iff.1 heq
    exact ⟨hthere, v, hfirst.level, hfirst.missing⟩
  · rintro ⟨hthere, v, hlevel, hmissing⟩
    cases hx with
    | notFound hnone => exact absurd hthere hnone
    | missingBaseVoltage => exact ⟨_, _, rfl⟩
    | loaded hs => exact absurd (hs.hasBase hlevel) hmissing

theorem exists_eq_ok_iff (hx : h.Outcome id x) :
    (∃ s, x = .ok s) ↔ h.IsThere id ∧ ∀ v, h.HasLevel id v → h.HasBase v := by
  constructor
  · rintro ⟨s, heq⟩
    have hs := hx.eq_ok_iff.1 heq
    exact ⟨hs.isThere, fun v hv => hs.hasBase hv⟩
  · rintro ⟨hthere, hall⟩
    cases hx with
    | notFound hnone => exact absurd hthere hnone
    | missingBaseVoltage _ hfirst => exact absurd (hall _ hfirst.level) hfirst.missing
    | loaded => exact ⟨_, rfl⟩

end Outcome

/-! ## Loading -/

variable (id) in
/-- **Loading a substation ends in one of three ways.** -/
theorem outcome (hread : h.IsRead b) : h.Outcome id (b.loadSubstation id) := by
  rcases Backend.loadOne_eq id rfl hread.substations with
    ⟨record, hrecord, hid, hone⟩ | ⟨hnone, hone⟩
  · obtain ⟨levels, hlevels, hascending, hlevel⟩ :=
      Backend.exists_load_by VoltageLevel.refersBy_substation rfl hread.voltageLevels [id]
    obtain ⟨bases, hbases, -, hbase⟩ := Backend.exists_load_by (Record.refersBy_mrid BaseVoltage)
      rfl hread.baseVoltages (levels.map (·.baseVoltageMrid))
    obtain ⟨nodes, hnodes, hnodesAscending, hnode⟩ := Backend.exists_load_by
      ConnectivityNode.refersBy_container rfl hread.nodes (levels.map (·.mrid))
    simp only [List.mem_singleton] at hlevel
    rw [Backend.loadSubstation_eq hone hlevels hbases hnodes]
    have hlacks {v : VoltageLevel} (hv : h.HasLevel id v) :
        ConnectableLevel.lacksBase bases v = true ↔ ¬ h.HasBase v := by
      have hneeded : v.baseVoltageMrid ∈ levels.map (·.baseVoltageMrid) :=
        List.mem_map_of_mem ((hlevel v).2 hv)
      simp only [ConnectableLevel.lacksBase, List.all_eq_true, decide_eq_true_eq, HasBase, hbase,
        not_exists, not_and]
      refine ⟨fun hall bv hbv heq => hall bv ⟨hbv, ?_⟩ heq, fun hall bv hbv => hall bv hbv.1⟩
      exact (congrArg (· ∈ levels.map (·.baseVoltageMrid)) heq).mpr hneeded
    cases hassemble : ConnectableLevel.assembleAll bases nodes levels with
    | error e =>
      obtain ⟨v, hfind, rfl⟩ := ConnectableLevel.assembleAll_eq_error_iff.1 hassemble
      obtain ⟨hv, hmissing, hfirst⟩ := hascending.find?_eq_some_iff.1 hfind
      have hv := (hlevel v).1 hv
      refine .missingBaseVoltage ⟨record, hrecord, hid⟩ ⟨hv, (hlacks hv).1 hmissing, ?_⟩
      intro w hw hlt
      have hhas := hfirst w ((hlevel w).2 hw) hlt
      by_contra hnone
      rw [(hlacks hw).2 hnone] at hhas
      exact absurd hhas (by simp)
    | ok ls =>
      obtain ⟨hmap, hall, -⟩ := ConnectableLevel.assembleAll_eq_ok hassemble
      refine .loaded ⟨hrecord, hid, fun v => ?_, ?_, fun l hl => ?_, fun l hl n => ?_,
        fun l hl => ?_⟩
      · rw [hmap]
        exact hlevel v
      · rw [hmap]
        exact hascending
      · exact ⟨((hbase _).1 (hall l hl).1).1, (hall l hl).2.1⟩
      · have hcontained : l.voltageLevel.mrid ∈ levels.map (·.mrid) := by
          rw [← hmap, List.map_map]
          exact List.mem_map_of_mem hl
        rw [← (hall l hl).2.2, ConnectableLevel.mem_nodes_withNodes, hnode, and_assoc]
        refine and_congr_right fun _ => ⟨And.right, fun heq => ⟨?_, heq⟩⟩
        exact (congrArg (· ∈ levels.map (·.mrid)) heq).mpr hcontained
      · rw [← (hall l hl).2.2]
        exact hnodesAscending.filter _
  · have hload : b.loadSubstation id = .error (.notFound .substations id) := by
      rw [Backend.loadSubstation, hone]
      rfl
    rw [hload]
    refine .notFound ?_
    rintro ⟨r, hr, hid⟩
    exact hnone r hr hid

variable (h id) in
/-- **Loading a substation gives what is current of it**, if the rows of its tables can be read.
It fails if the substation is not there, and else if some level of it refers to a base voltage that
is not there, where it names the first of these levels.  Else the substation is loaded just as it is
described: no node is in two levels, and linking the levels is never refused. -/
theorem current_substation_loaded (hread : h.IsRead b) :
    (b.loadSubstation id = .error (.notFound .substations id) ↔ ¬ h.IsThere id) ∧
      ((∃ level baseVoltage,
          b.loadSubstation id = .error (.missingBaseVoltage level baseVoltage)) ↔
        h.IsThere id ∧ ∃ v, h.HasLevel id v ∧ ¬ h.HasBase v) ∧
      (∀ level baseVoltage,
        b.loadSubstation id = .error (.missingBaseVoltage level baseVoltage) ↔
          h.IsThere id ∧
            ∃ v, h.FirstWithoutBase id v ∧ v.mrid = level ∧ v.baseVoltageMrid = baseVoltage) ∧
      ((∃ s, b.loadSubstation id = .ok s) ↔ h.IsThere id ∧ ∀ v, h.HasLevel id v → h.HasBase v) ∧
      (∀ s, b.loadSubstation id = .ok s ↔ h.Describes id s) ∧
      ∀ s, h.Describes id s → s.nodeMrids.Nodup ∧
        ∀ hopBound pu graph ids, ∃ run, s.synthesize hopBound pu graph ids = .ok run := by
  have hout := outcome id hread
  refine ⟨hout.eq_notFound_iff, hout.exists_eq_missingBaseVoltage_iff,
    fun level baseVoltage => hout.eq_missingBaseVoltage_iff, hout.exists_eq_ok_iff,
    fun s => hout.eq_ok_iff, fun s hs => ⟨hs.nodup_nodeMrids, fun hopBound pu graph ids => ?_⟩⟩
  have hconsistent : s.IsConsistent := fun l hl => (hs.baseVoltage l hl).2
  exact ⟨_, (s.synthesize_isOk_iff hopBound pu graph ids).2 hconsistent⟩

/-! ## A store of histories -/

/-- A store that holds the versions. -/
def backend (h : SubstationHistory) : Backend :=
  { store := (((({} : Store).seed h.substations).seed h.voltageLevels).seed h.baseVoltages).seed
      h.nodes }

/-- Any histories can be read from a store, if their numbers are finite. -/
theorem isRead_backend (hlevels : ∀ v ∈ h.voltageLevels, Record.Storable v)
    (hbases : ∀ bv ∈ h.baseVoltages, Record.Storable bv) : h.IsRead h.backend := by
  have hsubstations : ∀ r ∈ h.substations, Record.Storable r := fun r _ =>
    Record.storable_of_forall_ne_real (by simp [Record.columns]) r
  have hnodes : ∀ n ∈ h.nodes, Record.Storable n := fun n _ =>
    Record.storable_of_forall_ne_real (by simp [Record.columns]) n
  constructor
  · rw [backend, Backend.fetch_all_seed_other (by decide), Backend.fetch_all_seed_other (by decide),
      Backend.fetch_all_seed_other (by decide)]
    exact Backend.fetch_all_seeded hsubstations
  · rw [backend, Backend.fetch_all_seed_other (by decide), Backend.fetch_all_seed_other (by decide)]
    exact Backend.fetch_all_seed [] rfl hlevels
  · rw [backend, Backend.fetch_all_seed_other (by decide)]
    exact Backend.fetch_all_seed [] rfl hbases
  · exact Backend.fetch_all_seed [] rfl hnodes

/-- Histories in which level 11 was moved to substation 1 and level 12 is gone from it, and in which
node 30 was moved from level 10 to level 11. -/
def movedParts : SubstationHistory where
  substations := [{ mrid := .ofNat 1, commitId := ⟨1⟩ }]
  voltageLevels :=
    [{ mrid := .ofNat 11, commitId := ⟨1⟩, substationMrid := .ofNat 2,
        baseVoltageMrid := .ofNat 20 },
      { mrid := .ofNat 11, commitId := ⟨2⟩, substationMrid := .ofNat 1,
        baseVoltageMrid := .ofNat 20 },
      { mrid := .ofNat 10, commitId := ⟨1⟩, substationMrid := .ofNat 1,
        baseVoltageMrid := .ofNat 20 },
      { mrid := .ofNat 12, commitId := ⟨1⟩, substationMrid := .ofNat 1,
        baseVoltageMrid := .ofNat 21 },
      { mrid := .ofNat 12, commitId := ⟨2⟩, deleted := true, substationMrid := .ofNat 1,
        baseVoltageMrid := .ofNat 21 }]
  baseVoltages := [{ mrid := .ofNat 20, commitId := ⟨1⟩ }]
  nodes :=
    [{ mrid := .ofNat 30, commitId := ⟨1⟩, connectivityNodeContainerMrid := .ofNat 10 },
      { mrid := .ofNat 30, commitId := ⟨2⟩, connectivityNodeContainerMrid := .ofNat 11 },
      { mrid := .ofNat 31, commitId := ⟨1⟩, connectivityNodeContainerMrid := .ofNat 10 }]

/-- Substation 1 loads, since the level with a missing base voltage is gone. -/
theorem current_substation_loaded_movedParts :
    movedParts.IsRead movedParts.backend ∧
      ∃ s, movedParts.backend.loadSubstation (.ofNat 1) = .ok s ∧
        movedParts.Describes (.ofNat 1) s ∧ s.nodeMrids.Nodup := by
  have hread : movedParts.IsRead movedParts.backend :=
    isRead_backend (by decide +kernel) (by decide +kernel)
  obtain ⟨-, -, -, hok, hdescribes, hsound⟩ :=
    current_substation_loaded movedParts (.ofNat 1) hread
  have hbase : ∀ v ∈ active movedParts.voltageLevels, ∃ bv ∈ active movedParts.baseVoltages,
      bv.mrid = v.baseVoltageMrid := by
    decide +kernel
  obtain ⟨s, hs⟩ := hok.2 ⟨⟨{ mrid := .ofNat 1, commitId := ⟨1⟩ },
    mem_active_iff_isCurrent.1 (by decide +kernel), rfl⟩, fun v hv => by
      obtain ⟨bv, hbv, heq⟩ := hbase v (mem_active_iff_isCurrent.2 hv.1)
      exact ⟨bv, mem_active_iff_isCurrent.1 hbv, heq⟩⟩
  exact ⟨hread, s, hs, (hdescribes s).1 hs, (hsound s ((hdescribes s).1 hs)).1⟩

end SubstationHistory

end Switchyard
