import Switchyard.Load.Substation
import Switchyard.Proofs.Load.ByReference

/-!
# What a loaded substation consists of

A substation that can be loaded is consistent, since every level is given the base voltage it
refers to (`isConsistent_of_loadSubstation`), and the first level for which there is none is
reported (`assembleAll_eq_error_iff`).  Its levels hold the nodes that are contained in them,
so if the store has other nodes later and nothing else is new, the substation still loads, with the
same levels and their new nodes (`loadSubstation_withNodes`).
-/

set_option autoImplicit false

namespace Switchyard

namespace ConnectableLevel

variable {baseVoltages : List BaseVoltage} {nodes nodes' : List ConnectivityNode}

/-- The level with those of some nodes that it contains. -/
def withNodes (nodes : List ConnectivityNode) (l : ConnectableLevel) : ConnectableLevel :=
  { l with
    nodes := nodes.filter fun n => n.connectivityNodeContainerMrid = l.voltageLevel.mrid }

theorem mem_nodes_withNodes {l : ConnectableLevel} {n : ConnectivityNode} :
    n ∈ (l.withNodes nodes).nodes ↔
      n ∈ nodes ∧ n.connectivityNodeContainerMrid = l.voltageLevel.mrid := by
  simp [withNodes]

/-- A level is assembled from its base voltage and the nodes it contains. -/
theorem assemble_eq_ok {level : VoltageLevel} {l : ConnectableLevel}
    (h : assemble baseVoltages nodes level = .ok l) :
    l.voltageLevel = level ∧ l.baseVoltage ∈ baseVoltages ∧ l.IsConsistent ∧
      l.withNodes nodes = l ∧
      ∀ nodes', assemble baseVoltages nodes' level = .ok (l.withNodes nodes') := by
  simp only [assemble] at h
  split at h
  · rename_i baseVoltage hfind
    have hbase : baseVoltage.mrid = level.baseVoltageMrid := by
      simpa using List.find?_some hfind
    rw [← Except.ok.inj h]
    refine ⟨rfl, List.mem_of_find?_eq_some hfind, hbase, rfl, fun nodes' => ?_⟩
    rw [assemble, hfind]
    rfl
  · simp at h

theorem assembleAll_eq_ok {levels : List VoltageLevel} {ls : List ConnectableLevel}
    (h : assembleAll baseVoltages nodes levels = .ok ls) :
    ls.map (·.voltageLevel) = levels ∧
      (∀ l ∈ ls, l.baseVoltage ∈ baseVoltages ∧ l.IsConsistent ∧ l.withNodes nodes = l) ∧
      ∀ nodes', assembleAll baseVoltages nodes' levels = .ok (ls.map (withNodes nodes')) := by
  induction levels generalizing ls with
  | nil =>
    rw [← Except.ok.inj h]
    exact ⟨rfl, by simp, fun _ => rfl⟩
  | cons level rest ih =>
    simp only [assembleAll] at h
    split at h
    · simp at h
    · rename_i l hl
      obtain ⟨hlevel, hbase, hconsistent, hnodes, hassemble⟩ := assemble_eq_ok hl
      cases hrest : assembleAll baseVoltages nodes rest with
      | error e => simp [hrest, Except.map] at h
      | ok ls' =>
        rw [hrest] at h
        rw [← Except.ok.inj h]
        obtain ⟨hlevels, hall, hassembleAll⟩ := ih hrest
        refine ⟨by rw [List.map_cons, hlevel, hlevels], fun m hm => ?_, fun nodes' => ?_⟩
        · rcases List.mem_cons.1 hm with rfl | hm
          · exact ⟨hbase, hconsistent, hnodes⟩
          · exact hall m hm
        · rw [assembleAll, hassemble nodes', hassembleAll nodes']
          rfl

/-- None of the base voltages is the one that the level refers to. -/
def lacksBase (baseVoltages : List BaseVoltage) (level : VoltageLevel) : Bool :=
  baseVoltages.all fun bv => bv.mrid ≠ level.baseVoltageMrid

/-- The first level without base voltage is the one that is reported. -/
theorem assembleAll_eq_error_iff {levels : List VoltageLevel} {e : LoadError} :
    assembleAll baseVoltages nodes levels = .error e ↔
      ∃ v, levels.find? (lacksBase baseVoltages) = some v ∧
        e = .missingBaseVoltage v.mrid v.baseVoltageMrid := by
  induction levels with
  | nil => simp [assembleAll]
  | cons level rest ih =>
    rw [assembleAll, assemble, List.find?_cons]
    cases hfind : baseVoltages.find? fun bv => bv.mrid = level.baseVoltageMrid with
    | none =>
      have hlacks : lacksBase baseVoltages level = true := by
        simpa [lacksBase] using hfind
      simp [hlacks, eq_comm]
    | some bv =>
      have hbv : bv.mrid = level.baseVoltageMrid := by simpa using List.find?_some hfind
      have hhas : lacksBase baseVoltages level = false := by
        simpa [lacksBase] using ⟨bv, List.mem_of_find?_eq_some hfind, hbv⟩
      rw [hhas, ← ih]
      cases assembleAll baseVoltages nodes rest <;> simp [Except.map]

end ConnectableLevel

namespace Backend

variable {b b' : Backend} {substation : Mrid} {s : SubstationLevels}

/-- The nodes that some voltage levels contain. -/
def containedIn (levels : List VoltageLevel) : Predicate :=
  .columnIn "connectivity_node_container_mrid" (levels.map (·.mrid))

theorem reads_containedIn (levels : List VoltageLevel) :
    (containedIn levels).Reads ConnectivityNode :=
  ConnectivityNode.refersBy_container.reads _

/-- A node is asked for by its container. -/
theorem holds_containedIn_encode {levels : List VoltageLevel} {n : ConnectivityNode} :
    (containedIn levels).holds (Record.encode n) = true ↔
      ∃ level ∈ levels, level.mrid = n.connectivityNodeContainerMrid := by
  rw [containedIn, Predicate.holds_columnIn_iff,
    ConnectivityNode.refersBy_container.reference?_encode]
  simp

/-- What a substation is put together from. -/
theorem loadSubstation_eq {record : Substation} {levels : List VoltageLevel}
    {baseVoltages : List BaseVoltage} {nodes : List ConnectivityNode}
    (hrecord : b.loadOne Substation substation = .ok record)
    (hlevels : b.load VoltageLevel (.columnIn "substation_mrid" [substation]) = .ok levels)
    (hbaseVoltages : b.load BaseVoltage (.mridIn (levels.map (·.baseVoltageMrid))) =
      .ok baseVoltages)
    (hnodes : b.load ConnectivityNode (containedIn levels) = .ok nodes) :
    b.loadSubstation substation =
      (ConnectableLevel.assembleAll baseVoltages nodes levels).map fun ls =>
        { substation := record, levels := ls } := by
  rw [containedIn] at hnodes
  simp only [loadSubstation, hrecord, hlevels, hbaseVoltages, hnodes, bind, Except.bind]
  cases ConnectableLevel.assembleAll baseVoltages nodes levels <;> rfl

/-- What has to be loaded for a substation to load. -/
theorem loadSubstation_eq_ok_iff :
    b.loadSubstation substation = .ok s ↔
      ∃ levels baseVoltages nodes,
        b.loadOne Substation substation = .ok s.substation ∧
        b.load VoltageLevel (.columnIn "substation_mrid" [substation]) = .ok levels ∧
        b.load BaseVoltage (.mridIn (levels.map (·.baseVoltageMrid))) = .ok baseVoltages ∧
        b.load ConnectivityNode (containedIn levels) = .ok nodes ∧
        ConnectableLevel.assembleAll baseVoltages nodes levels = .ok s.levels := by
  simp only [loadSubstation, bind_eq_ok_iff, containedIn]
  constructor
  · rintro ⟨record, hrecord, levels, hlevels, baseVoltages, hbase, nodes, hnodes, ls, hls, heq⟩
    rw [← Except.ok.inj heq]
    exact ⟨levels, baseVoltages, nodes, hrecord, hlevels, hbase, hnodes, hls⟩
  · rintro ⟨levels, baseVoltages, nodes, hrecord, hlevels, hbase, hnodes, hls⟩
    exact ⟨_, hrecord, levels, hlevels, baseVoltages, hbase, nodes, hnodes, _, hls, rfl⟩

/-- **A substation that loads is consistent.** -/
theorem isConsistent_of_loadSubstation (h : b.loadSubstation substation = .ok s) :
    s.IsConsistent := by
  obtain ⟨levels, baseVoltages, nodes, -, -, -, -, hassemble⟩ := loadSubstation_eq_ok_iff.1 h
  exact fun l hl => ((ConnectableLevel.assembleAll_eq_ok hassemble).2.1 l hl).2.1

/-- **Other nodes in the store change the nodes of the levels and nothing else.** -/
theorem loadSubstation_withNodes {nodes nodes' : List ConnectivityNode}
    (h : b.loadSubstation substation = .ok s)
    (hsubstation : ∀ p, b'.loadActive Substation p = b.loadActive Substation p)
    (hlevel : ∀ p, b'.loadActive VoltageLevel p = b.loadActive VoltageLevel p)
    (hbase : ∀ p, b'.loadActive BaseVoltage p = b.loadActive BaseVoltage p)
    (hnodes : b.loadActive ConnectivityNode (containedIn (s.levels.map (·.voltageLevel))) =
      .ok nodes)
    (hnodes' : b'.loadActive ConnectivityNode (containedIn (s.levels.map (·.voltageLevel))) =
      .ok nodes') :
    (∀ l ∈ s.levels, l.withNodes nodes = l) ∧
      b'.loadSubstation substation =
        .ok { s with levels := s.levels.map (ConnectableLevel.withNodes nodes') } := by
  obtain ⟨levels, baseVoltages, loaded, hrecord, hlevels, hbases, hloaded, hassemble⟩ :=
    loadSubstation_eq_ok_iff.1 h
  obtain ⟨rfl, hall, hassemble'⟩ := ConnectableLevel.assembleAll_eq_ok hassemble
  rw [load, hnodes] at hloaded
  obtain rfl : nodes = loaded := Except.ok.inj hloaded
  refine ⟨fun l hl => (hall l hl).2.2, loadSubstation_eq_ok_iff.2
    ⟨_, baseVoltages, nodes', ?_, ?_, ?_, ?_, hassemble' nodes'⟩⟩
  · rw [loadOne, load, hsubstation]
    exact hrecord
  · rw [load, hlevel]
    exact hlevels
  · rw [load, hbase]
    exact hbases
  · rw [load, hnodes']
    rfl

end Backend

end Switchyard
