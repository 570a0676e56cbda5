import Mathlib.Data.List.Nodup
import Switchyard.Load.LocalGraph
import Switchyard.Proofs.Graph.Around

/-!
# What a survey finds

A survey goes on from its seeds round by round.  What it knows after some rounds is said without any
order of work by `Surveyed`: the points that near the seeds, those of them that are no nearer, and
the terminals with an end that is nearer than the rounds are many.

One round takes in the terminals that touch the frontier (`Surveyed.advance`).  Since a terminal is
known by its identity and is left out if it is met again, the argument needs that its ends were
visited when it was met first (`Orderly`).
-/

set_option autoImplicit false

namespace Switchyard.Survey

open Switchyard.Graph

variable {ts found found' touching : List Terminal} {seeds : List Mrid} {rounds : Nat}
  {s s' s'' : Survey} {t : Terminal} {id x : Mrid}

/-! ## Taking in points -/

theorem mem_visited_visit : x ∈ (s.visit id).visited ↔ x ∈ s.visited ∨ x = id := by
  rw [visit]
  split
  · rename_i h
    exact ⟨.inl, fun hx => hx.elim (fun hx => hx) fun hx => hx ▸ h⟩
  · rw [List.mem_cons, or_comm]

theorem mem_frontier_visit :
    x ∈ (s.visit id).frontier ↔ x ∈ s.frontier ∨ (x ∉ s.visited ∧ x = id) := by
  rw [visit]
  split
  · rename_i h
    refine ⟨.inl, fun hx => hx.resolve_right ?_⟩
    rintro ⟨hnew, rfl⟩
    exact hnew h
  · rename_i h
    rw [List.mem_append, List.mem_singleton]
    refine or_congr_right ⟨?_, And.right⟩
    rintro rfl
    exact ⟨h, rfl⟩

theorem terminals_visit : (s.visit id).terminals = s.terminals := by
  rw [visit]
  split <;> rfl

/-! ## Taking in terminals -/

/-- A survey of some terminals knows none of them twice, and has visited the ends of those it
knows. -/
structure Orderly (ts : List Terminal) (s : Survey) : Prop where
  subset : s.terminals ⊆ ts
  nodup : (s.terminals.map (·.mrid)).Nodup
  visited : ∀ x, Occurs s.terminals x → x ∈ s.visited

/-- A survey becomes another one by taking in some terminals. -/
structure TakesIn (s : Survey) (found : List Terminal) (s' : Survey) : Prop where
  mem_visited_iff (x : Mrid) : x ∈ s'.visited ↔ x ∈ s.visited ∨ Occurs found x
  mem_frontier_iff (x : Mrid) :
    x ∈ s'.frontier ↔ x ∈ s.frontier ∨ (x ∉ s.visited ∧ Occurs found x)
  mem_terminals_iff (t : Terminal) : t ∈ s'.terminals ↔ t ∈ s.terminals ∨ t ∈ found

theorem TakesIn.nil (s : Survey) : s.TakesIn [] s := by
  refine ⟨?_, ?_, ?_⟩
  · intro x
    rw [or_iff_left (not_occurs_nil x)]
  · intro x
    rw [or_iff_left fun h => not_occurs_nil x h.2]
  · intro t
    rw [or_iff_left List.not_mem_nil]

theorem TakesIn.trans (h : s.TakesIn found s') (h' : s'.TakesIn found' s'') :
    s.TakesIn (found ++ found') s'' := by
  refine ⟨?_, ?_, ?_⟩
  · intro x
    rw [h'.mem_visited_iff, h.mem_visited_iff, occurs_append, or_assoc]
  · intro x
    rw [h'.mem_frontier_iff, h.mem_frontier_iff, h.mem_visited_iff, occurs_append]
    tauto
  · intro t
    rw [h'.mem_terminals_iff, h.mem_terminals_iff, List.mem_append, or_assoc]

theorem meet_eq_of_known (h : t.mrid ∈ s.terminals.map (·.mrid)) : s.meet t = s :=
  if_pos (by simpa using h)

theorem meet_eq_of_new (h : t.mrid ∉ s.terminals.map (·.mrid)) :
    s.meet t = { (s.visit t.conductingEquipmentMrid).visit t.connectivityNodeMrid with
      terminals := s.terminals ++ [t] } := by
  have hterminals : ((s.visit t.conductingEquipmentMrid).visit t.connectivityNodeMrid).terminals =
      s.terminals := by
    rw [terminals_visit, terminals_visit]
  rw [meet, if_neg (by simpa using h), ← hterminals]

/-- A known terminal adds nothing, since its ends were visited before. -/
theorem Orderly.takesIn_known (hs : s.Orderly ts) (ht : t ∈ s.terminals) : s.TakesIn [t] s := by
  have hends {x : Mrid} (hx : Occurs [t] x) : x ∈ s.visited :=
    hs.visited x (occurs_iff.2 ⟨t, ht, occurs_singleton.1 hx⟩)
  refine ⟨?_, ?_, ?_⟩
  · intro x
    rw [or_iff_left_of_imp hends]
  · intro x
    rw [or_iff_left fun h => h.1 (hends h.2)]
  · intro u
    rw [or_iff_left_of_imp fun hu => List.mem_singleton.1 hu ▸ ht]

theorem takesIn_meet_of_new (hnew : t.mrid ∉ s.terminals.map (·.mrid)) :
    s.TakesIn [t] (s.meet t) := by
  rw [meet_eq_of_new hnew]
  refine ⟨?_, ?_, ?_⟩
  · intro x
    rw [occurs_singleton]
    show x ∈ ((s.visit _).visit _).visited ↔ _
    rw [mem_visited_visit, mem_visited_visit]
    tauto
  · intro x
    rw [occurs_singleton]
    show x ∈ ((s.visit _).visit _).frontier ↔ _
    rw [mem_frontier_visit, mem_frontier_visit, mem_visited_visit]
    tauto
  · intro u
    exact List.mem_append

theorem nodup_meet (h : (s.terminals.map (·.mrid)).Nodup) :
    ((s.meet t).terminals.map (·.mrid)).Nodup := by
  by_cases hknown : t.mrid ∈ s.terminals.map (·.mrid)
  · rwa [meet_eq_of_known hknown]
  · rw [meet_eq_of_new hknown]
    show ((s.terminals ++ [t]).map (·.mrid)).Nodup
    rw [List.map_append]
    exact h.append (List.nodup_singleton _) (by simpa using hknown)

/-- **A survey takes in a terminal that it meets.** -/
theorem meet_spec (hts : (ts.map (·.mrid)).Nodup) (hs : s.Orderly ts) (ht : t ∈ ts) :
    (s.meet t).Orderly ts ∧ s.TakesIn [t] (s.meet t) := by
  have htakes : s.TakesIn [t] (s.meet t) := by
    by_cases hknown : t.mrid ∈ s.terminals.map (·.mrid)
    · obtain ⟨u, hu, heq⟩ := List.mem_map.1 hknown
      obtain rfl : u = t := List.inj_on_of_nodup_map hts (hs.subset hu) ht heq
      rw [meet_eq_of_known hknown]
      exact hs.takesIn_known hu
    · exact takesIn_meet_of_new hknown
  refine ⟨⟨?_, nodup_meet hs.nodup, ?_⟩, htakes⟩
  · intro u hu
    rcases (htakes.mem_terminals_iff u).1 hu with hold | hnew
    · exact hs.subset hold
    · rwa [List.mem_singleton.1 hnew]
  · intro x hx
    obtain ⟨u, hu, hend⟩ := occurs_iff.1 hx
    rw [htakes.mem_visited_iff]
    rcases (htakes.mem_terminals_iff u).1 hu with hold | hnew
    · exact .inl (hs.visited x (occurs_iff.2 ⟨u, hold, hend⟩))
    · exact .inr (occurs_iff.2 ⟨u, hnew, hend⟩)

/-- **A survey takes in the terminals that it meets, one after the other.** -/
theorem foldl_meet_spec (hts : (ts.map (·.mrid)).Nodup) (hs : s.Orderly ts) (hfound : found ⊆ ts) :
    (found.foldl meet s).Orderly ts ∧ s.TakesIn found (found.foldl meet s) := by
  induction found generalizing s with
  | nil => exact ⟨hs, .nil s⟩
  | cons t found ih =>
    obtain ⟨ht, hrest⟩ := List.cons_subset.1 hfound
    obtain ⟨hmet, htakes⟩ := meet_spec hts hs ht
    obtain ⟨horderly, htakes'⟩ := ih hmet hrest
    exact ⟨horderly, htakes.trans htakes'⟩

/-! ### The order of the terminals -/

theorem terminals_prefix_meet : s.terminals <+: (s.meet t).terminals := by
  by_cases hknown : t.mrid ∈ s.terminals.map (·.mrid)
  · simp [meet_eq_of_known hknown]
  · rw [meet_eq_of_new hknown]
    exact List.prefix_append _ _

theorem terminals_prefix_foldl_meet : s.terminals <+: (found.foldl meet s).terminals := by
  induction found generalizing s with
  | nil => exact List.prefix_refl _
  | cons t found ih => exact terminals_prefix_meet.trans ih

theorem terminals_prefix_advance : s.terminals <+: (s.advance touching).terminals :=
  terminals_prefix_foldl_meet (s := { s with frontier := [] })

/-- A survey keeps new terminals in the order in which it meets them. -/
theorem terminals_foldl_meet_of_nodup (h : ((s.terminals ++ found).map (·.mrid)).Nodup) :
    (found.foldl meet s).terminals = s.terminals ++ found := by
  induction found generalizing s with
  | nil => exact (List.append_nil _).symm
  | cons t found ih =>
    have hnew : t.mrid ∉ s.terminals.map (·.mrid) := by
      rw [List.map_append] at h
      exact fun hold => List.disjoint_of_nodup_append h hold List.mem_cons_self
    have hmet : (s.meet t).terminals = s.terminals ++ [t] := by
      rw [meet_eq_of_new hnew]
    rw [List.foldl_cons, ih (by simpa [hmet] using h), hmet, List.append_assoc,
      List.singleton_append]

/-! ## Rounds -/

/-- What a survey knows after some rounds: the points near the seeds, those of them that are no
nearer, and the terminals with an end that is nearer. -/
structure Surveyed (ts : List Terminal) (seeds : List Mrid) (rounds : Nat) (s : Survey) : Prop where
  orderly : s.Orderly ts
  mem_visited_iff (x : Mrid) : x ∈ s.visited ↔ Near ts seeds rounds x
  mem_frontier_iff (x : Mrid) :
    x ∈ s.frontier ↔ Near ts seeds rounds x ∧ ∀ n < rounds, ¬ Near ts seeds n x
  mem_terminals_iff (t : Terminal) :
    t ∈ s.terminals ↔ t ∈ ts ∧ ∃ n < rounds, EndNear ts seeds n t

/-- A terminal touches some points if one of its ends is among them. -/
def Touches (points : List Mrid) (t : Terminal) : Prop :=
  t.conductingEquipmentMrid ∈ points ∨ t.connectivityNodeMrid ∈ points

theorem surveyed_around (ts : List Terminal) (seeds : List Mrid) :
    Surveyed ts seeds 0 (.around seeds) where
  orderly := ⟨List.nil_subset _, List.nodup_nil, fun x hx => absurd hx (not_occurs_nil x)⟩
  mem_visited_iff _ := near_zero_iff.symm
  mem_frontier_iff _ := by
    rw [near_zero_iff]
    exact (and_iff_left fun n hn => absurd hn (Nat.not_lt_zero n)).symm
  mem_terminals_iff t := ⟨fun ht => absurd ht List.not_mem_nil, fun ⟨_, n, hn, _⟩ => by omega⟩

namespace Surveyed

/-- What is near has just come into sight, or was near before. -/
theorem mem_frontier_of_near (h : Surveyed ts seeds rounds s) (hx : Near ts seeds rounds x) :
    x ∈ s.frontier ∨ ∃ n < rounds, Near ts seeds n x := by
  rw [h.mem_frontier_iff]
  by_cases hnearer : ∃ n < rounds, Near ts seeds n x
  · exact .inr hnearer
  · exact .inl ⟨hx, fun n hn hnear => hnearer ⟨n, hn, hnear⟩⟩

/-- What occurs among the terminals that touch the frontier is near in one more round, and
whatever is only then near does. -/
theorem near_succ_iff_occurs (h : Surveyed ts seeds rounds s)
    (htouching : ∀ t, t ∈ touching ↔ t ∈ ts ∧ Touches s.frontier t) :
    Near ts seeds (rounds + 1) x ↔ Near ts seeds rounds x ∨ Occurs touching x := by
  constructor
  · intro hx
    rcases near_succ_iff.1 hx with hx | ⟨y, hy, hjoined⟩
    · exact .inl hx
    · rcases h.mem_frontier_of_near hy with hfrontier | ⟨n, hn, hnearer⟩
      · obtain ⟨t, ht, hends⟩ := hjoined
        refine .inr ⟨y, t, (htouching t).2 ⟨ht, ?_⟩, hends.symm⟩
        rcases hends with ⟨rfl, -⟩ | ⟨-, rfl⟩
        · exact .inr hfrontier
        · exact .inl hfrontier
      · exact .inl ((hnearer.step hjoined).mono hn)
  · rintro (hx | hx)
    · exact hx.mono (Nat.le_succ rounds)
    · obtain ⟨t, ht, hend⟩ := occurs_iff.1 hx
      obtain ⟨hold, htouches⟩ := (htouching t).1 ht
      have hnear {y : Mrid} (hy : y ∈ s.frontier) : Near ts seeds rounds y :=
        ((h.mem_frontier_iff y).1 hy).1
      rcases htouches with hequipment | hnode
      · rcases hend with rfl | rfl
        · exact (hnear hequipment).step ⟨t, hold, .inr ⟨rfl, rfl⟩⟩
        · exact (hnear hequipment).mono (Nat.le_succ rounds)
      · rcases hend with rfl | rfl
        · exact (hnear hnode).mono (Nat.le_succ rounds)
        · exact (hnear hnode).step ⟨t, hold, .inl ⟨rfl, rfl⟩⟩

/-- A terminal with a near end touches the frontier or had a nearer end before. -/
theorem endNear_iff_touches (h : Surveyed ts seeds rounds s) :
    (∃ n < rounds + 1, EndNear ts seeds n t) ↔
      (∃ n < rounds, EndNear ts seeds n t) ∨ Touches s.frontier t := by
  constructor
  · rintro ⟨n, hn, hnear⟩
    rcases hnear.mono (Nat.le_of_lt_succ hn) with hnode | hequipment
    · rcases h.mem_frontier_of_near hnode with hfrontier | ⟨m, hm, hnearer⟩
      · exact .inr (.inr hfrontier)
      · exact .inl ⟨m, hm, .inl hnearer⟩
    · rcases h.mem_frontier_of_near hequipment with hfrontier | ⟨m, hm, hnearer⟩
      · exact .inr (.inl hfrontier)
      · exact .inl ⟨m, hm, .inr hnearer⟩
  · rintro (⟨n, hn, hnear⟩ | hequipment | hnode)
    · exact ⟨n, by omega, hnear⟩
    · exact ⟨rounds, Nat.lt_succ_self rounds, .inr ((h.mem_frontier_iff _).1 hequipment).1⟩
    · exact ⟨rounds, Nat.lt_succ_self rounds, .inl ((h.mem_frontier_iff _).1 hnode).1⟩

/-- **A round takes a survey one terminal further.** -/
theorem advance (h : Surveyed ts seeds rounds s) (hts : (ts.map (·.mrid)).Nodup)
    (htouching : ∀ t, t ∈ touching ↔ t ∈ ts ∧ Touches s.frontier t) :
    Surveyed ts seeds (rounds + 1) (s.advance touching) := by
  have hstart : Orderly ts { s with frontier := [] } :=
    ⟨h.orderly.subset, h.orderly.nodup, h.orderly.visited⟩
  obtain ⟨horderly, htakes⟩ :=
    foldl_meet_spec hts hstart fun t ht => ((htouching t).1 ht).1
  refine ⟨horderly, ?_, ?_, ?_⟩
  · intro x
    rw [h.near_succ_iff_occurs htouching, ← h.mem_visited_iff]
    exact htakes.mem_visited_iff x
  · intro x
    have hnever : (∀ n < rounds + 1, ¬ Near ts seeds n x) ↔ x ∉ s.visited := by
      rw [h.mem_visited_iff]
      refine ⟨fun hnone => hnone rounds (Nat.lt_succ_self rounds), ?_⟩
      intro hnot n hn hnear
      exact hnot (hnear.mono (Nat.le_of_lt_succ hn))
    rw [hnever, h.near_succ_iff_occurs htouching, ← h.mem_visited_iff]
    refine (htakes.mem_frontier_iff x).trans ?_
    simp only [List.not_mem_nil, false_or]
    tauto
  · intro t
    rw [h.endNear_iff_touches, and_or_left, ← h.mem_terminals_iff, ← htouching]
    exact htakes.mem_terminals_iff t

/-- **Once a round has found nothing, further rounds would not either.** -/
theorem of_frontier_nil (h : Surveyed ts seeds rounds s) (hts : (ts.map (·.mrid)).Nodup)
    (hnil : s.frontier = []) (more : Nat) : Surveyed ts seeds (rounds + more) s := by
  induction more with
  | zero => exact h
  | succ more ih =>
    have hnone : ∀ t, t ∈ [] ↔ t ∈ ts ∧ Touches s.frontier t := by
      intro t
      simp [Touches, hnil]
    have hnext := ih.advance hts hnone
    rwa [Survey.advance, List.foldl_nil, ← hnil] at hnext

end Surveyed

end Switchyard.Survey
