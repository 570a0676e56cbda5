import Switchyard.Proofs.Synthesis.LevelInterconnection
import Switchyard.Proofs.Synthesis.Switching

/-!
# A second run over a voltage level

After a run the lines are within six terminals of all equipment, or within the bound.  So under a
bound of seven or more a second run finds every pair connected, and switches each new tap to its own
line only.  A bound of six or less, which the default one is, does not see what the first run added:
the second run then leaves the same pairs alone, and makes as many switches.

The main statement is `second_layer`.
-/

set_option autoImplicit false

namespace Switchyard.VoltageLevelEquipment

open Switchyard.Graph

variable {e : VoltageLevelEquipment} {hopBound : Nat} {graph : Graph} {ids : MridSource}

/-! ## A bound that sees the first run -/

/-- From a bound of seven on a second run leaves every pair alone. -/
theorem tappingsOf_again_eq (hg : graph.InStep) (hbound : 7 ≤ hopBound) (ids ids' : MridSource) :
    e.tappingsOf hopBound (e.synthesize hopBound graph ids).graph ids' =
      planned (fun _ _ => true) e.lines.length (e.seatsOf ids') := by
  apply tappingsOf_eq_planned
  intro g hfrom _ p hp
  have hconnected : (e.synthesize hopBound graph ids).graph.isConnected p.1 p.2
      (max 7 hopBound) = true := isConnected_synthesize hg hp
  rw [Nat.max_eq_right hbound] at hconnected
  exact hfrom.isConnected ((e.grows_synthesize hopBound graph ids).inStep hg) hconnected

/-- From a bound of seven on a second run makes one switch for every line. -/
theorem count_again (hg : graph.InStep) (hbound : 7 ≤ hopBound) (ids ids' : MridSource) :
    (e.synthesize hopBound (e.synthesize hopBound graph ids).graph
          ids').model.topology.switches.length = e.lines.length ∧
      (e.synthesize hopBound (e.synthesize hopBound graph ids).graph
          ids').model.alreadyConnected =
        e.lines.length * (e.lines.length - 1) / 2 +
          e.lines.length * (e.generators.length + e.loads.length) := by
  obtain ⟨hswitches, hskipped⟩ := count_of_planned (tappingsOf_again_eq hg hbound ids ids')
  rw [hswitches, hskipped, ← length_linePairs]
  simp

/-! ## A bound that does not see it -/

/-- Up to a bound of six the pairs that are connected after a run were connected before it. -/
theorem isConnected_synthesize_eq (hg : graph.InStep) (hbound : hopBound ≤ 6)
    (hnodup : e.members.Nodup) (hfresh : e.DrawsFresh graph ids (e.synthesize hopBound graph ids))
    {a b : Mrid} (h : (a, b) ∈ e.linePairs) :
    (e.synthesize hopBound graph ids).graph.isConnected a b hopBound =
      graph.isConnected a b hopBound := by
  obtain ⟨ha, hb, hne⟩ := of_mem_linePairs hnodup h
  exact isConnected_of_grows hg hbound hfresh ha hb hne (e.grows_synthesize hopBound graph ids)
    (.refl _)

theorem connectedPairs_synthesize (hg : graph.InStep) (hbound : hopBound ≤ 6)
    (hnodup : e.members.Nodup)
    (hfresh : e.DrawsFresh graph ids (e.synthesize hopBound graph ids)) :
    e.connectedPairs hopBound (e.synthesize hopBound graph ids).graph =
      e.connectedPairs hopBound graph :=
  List.filter_congr fun _ hp => isConnected_synthesize_eq hg hbound hnodup hfresh hp

/-! ## The second run -/

/-- **From a bound of seven on, a second run over the same equipment leaves every pair alone and
makes one switch for every line, between its new tap and its own new node.  Up to a bound of six it
leaves alone the pairs that the first run left alone, and makes as many switches.** -/
theorem second_layer (e : VoltageLevelEquipment) (hnodup : e.members.Nodup) (ts : List Terminal)
    (hopBound : Nat) (ids ids' : MridSource) {first second : Synthesis}
    (hfirst : e.synthesize hopBound (.ofTerminals ts) ids = first)
    (hsecond : e.synthesize hopBound first.graph ids' = second)
    (hfresh : e.DrawsFresh (.ofTerminals ts) ids first)
    (hfresh' : e.DrawsFresh first.graph ids' second) :
    second.model.topology.connectivityNodes.length = e.members.length + e.lines.length ∧
      e.SeatsInOrder second.model.topology ∧ second.model.topology.WellSwitched ∧
      (7 ≤ hopBound →
        second.model.alreadyConnected =
            e.lines.length * (e.lines.length - 1) / 2 +
              e.lines.length * (e.generators.length + e.loads.length) ∧
          second.model.topology.switches.length = e.lines.length ∧
          ∀ (i j : Nat) (a b : Mrid), e.lineMrids[i]? = some a → e.members[j]? = some b →
            (e.SwitchesTap second.model.topology i j ↔ i = j)) ∧
      (hopBound ≤ 6 →
        (∀ (i j : Nat) (a b : Mrid), e.lineMrids[i]? = some a → e.members[j]? = some b →
          (e.SwitchesTap second.model.topology i j ↔ e.SwitchesTap first.model.topology i j)) ∧
        second.model.alreadyConnected = first.model.alreadyConnected ∧
        second.model.topology.switches.length = first.model.topology.switches.length) := by
  subst hfirst hsecond
  have hg := inStep_ofTerminals ts
  have hg' := (e.grows_synthesize hopBound _ ids).inStep hg
  refine ⟨length_nodes, seatsInOrder_synthesize hfresh' hnodup, wellSwitched_synthesize hfresh', ?_,
    ?_⟩
  · intro hbound
    obtain ⟨hswitches, hskipped⟩ := count_again (e := e) hg hbound ids ids'
    refine ⟨hskipped, hswitches, ?_⟩
    intro i j a b ha hb
    rw [switchesTap_iff_of_planned hfresh' hnodup (tappingsOf_again_eq hg hbound ids ids') ha hb]
    simp
  · intro hbound
    have hplan := tappingsOf_eq_of_fresh hg hbound hnodup hfresh
    have hplan' := tappingsOf_eq_of_fresh hg' hbound hnodup hfresh'
    obtain ⟨hswitches, hskipped⟩ := count_of_fresh hg hbound hnodup hfresh
    obtain ⟨hswitches', hskipped'⟩ := count_of_fresh hg' hbound hnodup hfresh'
    rw [connectedPairs_synthesize hg hbound hnodup hfresh] at hswitches' hskipped'
    refine ⟨?_, hskipped'.trans hskipped.symm, by omega⟩
    intro i j a b ha hb
    rw [switchesTap_iff_of_planned hfresh' hnodup hplan' ha hb,
      switchesTap_iff_of_planned hfresh hnodup hplan ha hb]
    apply or_congr_right
    apply and_congr_right
    intro hij
    -- the bound sees the same connections in both graphs
    have hpair : (a, b) ∈ e.linePairs := mem_pairsAfter_iff.2
      ⟨i, j, lt_length_lines ha, hij, getElem?_members_of_line ha, hb⟩
    rw [isConnected_synthesize_eq hg hbound hnodup hfresh hpair]

/-- A bound of seven has nothing left to switch in the second run but the lines themselves; a bound
of six makes every switch once more. -/
theorem second_layer_twoLines :
    (∃ first second,
      twoLinesOneGenerator.synthesize 7 (.ofTerminals lineToGenerator) .sequential = first ∧
        twoLinesOneGenerator.synthesize 7 first.graph (.startingAt 1000) = second ∧
        second.model.alreadyConnected = 3 ∧ second.model.topology.switches.length = 2 ∧
        twoLinesOneGenerator.SwitchesTap second.model.topology 1 1 ∧
        ¬ twoLinesOneGenerator.SwitchesTap second.model.topology 1 2) ∧
      ∃ first second,
        twoLinesOneGenerator.synthesize 6 (.ofTerminals lineToGenerator) .sequential = first ∧
          twoLinesOneGenerator.synthesize 6 first.graph (.startingAt 1000) = second ∧
          second.model.alreadyConnected = first.model.alreadyConnected ∧
          second.model.topology.switches.length = first.model.topology.switches.length := by
  obtain ⟨-, -, -, hseven, -⟩ := second_layer twoLinesOneGenerator (by decide) lineToGenerator 7
    .sequential (.startingAt 1000) rfl rfl ⟨by decide +kernel, by decide +kernel⟩
    ⟨by decide +kernel, by decide +kernel⟩
  obtain ⟨-, -, -, -, hsix⟩ := second_layer twoLinesOneGenerator (by decide) lineToGenerator 6
    .sequential (.startingAt 1000) rfl rfl ⟨by decide +kernel, by decide +kernel⟩
    ⟨by decide +kernel, by decide +kernel⟩
  obtain ⟨hskipped, hswitches, hiff⟩ := hseven (Nat.le_refl 7)
  obtain ⟨-, hskipped', hswitches'⟩ := hsix (Nat.le_refl 6)
  refine ⟨⟨_, _, rfl, rfl, hskipped, hswitches, (hiff 1 1 _ _ rfl rfl).2 rfl, ?_⟩,
    _, _, rfl, rfl, hskipped', hswitches'⟩
  intro h
  exact absurd ((hiff 1 2 _ _ rfl rfl).1 h) (by decide)

end Switchyard.VoltageLevelEquipment
