import Mathlib.Data.List.Nodup
import Mathlib.Data.List.Perm.Subperm
import Switchyard.Graph.Distance
import Switchyard.Proofs.Graph.Points

/-!
# The search finds shortest walks

`Graph.distance` searches level by level; what it is meant to find is said without any search by
`Shortest`, the least number of terminals of a walk.  The two agree on every graph that is in step
(`InStep.distance_eq_some_iff`).

The invariant of the search is `Level`: the frontier holds the numbers of the points at the current
depth, and `seen` those of all points up to it.  That the fuel suffices is a counting argument:
every depth up to that of the goal has a point of its own, so there are no more depths than points.
-/

set_option autoImplicit false

namespace Switchyard.Graph

/-- The least number of terminals of a walk between two points is `n`. -/
def Shortest (ts : List Terminal) (n : Nat) (a b : Mrid) : Prop :=
  Walk ts n a b ∧ ∀ m < n, ¬ Walk ts m a b

/-! ## Walks -/

namespace Walk

variable {ts : List Terminal} {n : Nat} {a b c : Mrid}

theorem eq_of_zero (h : Walk ts 0 a b) : a = b := by
  cases h
  rfl

/-- A walk stays one among terminals that join the same points. -/
theorem of_joined {us : List Terminal} (h : Walk ts n a b)
    (hjoined : ∀ x y, Joined ts x y → Joined us x y) : Walk us n a b := by
  induction h with
  | nil => exact .nil _
  | cons hstep _ ih => exact .cons (hjoined _ _ hstep) ih

/-- A walk that is not empty ends with a terminal. -/
theorem exists_last (h : Walk ts (n + 1) a c) : ∃ b, Walk ts n a b ∧ Joined ts b c := by
  cases h.reverse with
  | cons hjoined hrest => exact ⟨_, hrest.reverse, hjoined.symm⟩

/-- A walk that is not empty starts at a point. -/
theorem occurs_left (h : Walk ts (n + 1) a b) : Occurs ts a := by
  cases h with
  | cons hjoined _ => exact ⟨_, hjoined⟩

/-- A walk from a point leads to a point. -/
theorem occurs_right (h : Walk ts n a b) (ha : Occurs ts a) : Occurs ts b := by
  induction h with
  | nil => exact ha
  | cons hjoined _ ih => exact ih ⟨_, hjoined.symm⟩

theorem occurs_left_of_ne (h : Walk ts n a b) (hne : a ≠ b) : Occurs ts a := by
  cases h with
  | nil => exact absurd rfl hne
  | cons hjoined _ => exact ⟨_, hjoined⟩

end Walk

/-! ## Shortest walks -/

namespace Shortest

variable {ts : List Terminal} {m n : Nat} {a b c : Mrid}

theorem unique (hm : Shortest ts m a b) (hn : Shortest ts n a b) : m = n := by
  rcases Nat.lt_trichotomy m n with hlt | heq | hlt
  · exact absurd hm.1 (hn.2 m hlt)
  · exact heq
  · exact absurd hn.1 (hm.2 n hlt)

theorem symm (h : Shortest ts n a b) : Shortest ts n b a :=
  ⟨h.1.reverse, fun m hm hwalk => h.2 m hm hwalk.reverse⟩

theorem zero_iff : Shortest ts 0 a b ↔ a = b := by
  constructor
  · exact fun h => h.1.eq_of_zero
  · rintro rfl
    exact ⟨.nil a, fun m hm => absurd hm (Nat.not_lt_zero m)⟩

/-- A shortest walk has a shortest walk to the point before its last. -/
theorem exists_pred (h : Shortest ts (n + 1) a c) : ∃ b, Shortest ts n a b ∧ Joined ts b c := by
  obtain ⟨b, hwalk, hjoined⟩ := h.1.exists_last
  refine ⟨b, ⟨hwalk, fun m hm hshort => ?_⟩, hjoined⟩
  exact h.2 (m + 1) (by omega) (hshort.append (.single hjoined))

/-- Every depth up to that of a point has a point. -/
theorem exists_of_le (h : Shortest ts n a b) (hle : m ≤ n) : ∃ c, Shortest ts m a c := by
  induction n generalizing b with
  | zero => exact ⟨b, (Nat.le_zero.1 hle) ▸ h⟩
  | succ n ih =>
    rcases Nat.eq_or_lt_of_le hle with rfl | hlt
    · exact ⟨b, h⟩
    · obtain ⟨c, hc, -⟩ := h.exists_pred
      exact ih hc (by omega)

end Shortest

/-- Where there is a walk there is a shortest one. -/
theorem Walk.exists_shortest {ts : List Terminal} {n : Nat} {a b : Mrid} (h : Walk ts n a b) :
    ∃ m ≤ n, Shortest ts m a b := by
  induction n using Nat.strongRecOn with
  | ind n ih =>
    by_cases hshort : ∃ m < n, Walk ts m a b
    · obtain ⟨m, hm, hwalk⟩ := hshort
      obtain ⟨k, hk, hshortest⟩ := ih m hm hwalk
      exact ⟨k, by omega, hshortest⟩
    · exact ⟨n, Nat.le_refl n, h, fun m hm hwalk => hshort ⟨m, hm, hwalk⟩⟩

/-- There are fewer depths than points. -/
theorem InStep.lt_length_of_shortest {g : Graph} (h : g.InStep) {n : Nat} {a b : Mrid}
    (ha : Occurs g.terminals a) (hshort : Shortest g.terminals n a b) : n < g.points.length := by
  -- a point for every depth, all of them different
  choose! pointAt hpoint using fun m (hm : m ≤ n) => hshort.exists_of_le hm
  have hinj : ((List.range (n + 1)).map pointAt).Nodup := by
    refine List.Nodup.map_on (fun i hi j hj heq => ?_) List.nodup_range
    have hi' := hpoint i (by simpa [Nat.lt_succ_iff] using hi)
    have hj' := hpoint j (by simpa [Nat.lt_succ_iff] using hj)
    exact hi'.unique (heq ▸ hj')
  have hsub : (List.range (n + 1)).map pointAt ⊆ g.points := by
    intro x hx
    obtain ⟨m, hm, rfl⟩ := List.mem_map.1 hx
    have hwalk := (hpoint m (by simpa [Nat.lt_succ_iff] using hm)).1
    exact (h.mem_points_iff _).2 (hwalk.occurs_right ha)
  have hlen := (List.subperm_of_subset hinj hsub).length_le
  rwa [List.length_map, List.length_range] at hlen

/-! ## The search, level by level -/

/-- What the search knows at a depth: the numbers of the points at that depth, and of all points up
to it. -/
structure Level (g : Graph) (a : Mrid) (depth : Nat) (seen frontier : List Nat) : Prop where
  mem_frontier_iff (i : Nat) :
    i ∈ frontier ↔ ∃ b, Shortest g.terminals depth a b ∧ i = g.points.idxOf b
  mem_seen_iff (i : Nat) :
    i ∈ seen ↔ ∃ b, (∃ m ≤ depth, Walk g.terminals m a b) ∧ i = g.points.idxOf b

theorem level_zero (g : Graph) (a : Mrid) :
    Level g a 0 [g.points.idxOf a] [g.points.idxOf a] := by
  refine ⟨fun i => ?_, fun i => ?_⟩
  · simp [Shortest.zero_iff]
  · constructor
    · intro hi
      exact ⟨a, ⟨0, Nat.le_refl 0, .nil a⟩, List.mem_singleton.1 hi⟩
    · rintro ⟨b, ⟨m, hm, hwalk⟩, rfl⟩
      obtain rfl := Nat.le_zero.1 hm
      rw [hwalk.eq_of_zero, List.mem_singleton]

namespace Level

variable {g : Graph} {a b : Mrid} {depth : Nat} {seen frontier : List Nat}

theorem mem_frontier_of_shortest (h : Level g a depth seen frontier)
    (hb : Shortest g.terminals depth a b) : g.points.idxOf b ∈ frontier :=
  (h.mem_frontier_iff _).2 ⟨b, hb, rfl⟩

theorem shortest_of_mem_frontier (h : Level g a depth seen frontier) (hg : g.InStep)
    (hb : Occurs g.terminals b) (hmem : g.points.idxOf b ∈ frontier) :
    Shortest g.terminals depth a b := by
  obtain ⟨c, hc, heq⟩ := (h.mem_frontier_iff _).1 hmem
  rwa [hg.eq_of_idxOf_eq hb heq]

theorem mem_seen_iff_walk (h : Level g a depth seen frontier) (hg : g.InStep)
    (hb : Occurs g.terminals b) :
    g.points.idxOf b ∈ seen ↔ ∃ m ≤ depth, Walk g.terminals m a b := by
  refine ⟨fun hmem => ?_, fun hwalk => (h.mem_seen_iff _).2 ⟨b, hwalk, rfl⟩⟩
  obtain ⟨c, hc, heq⟩ := (h.mem_seen_iff _).1 hmem
  rwa [hg.eq_of_idxOf_eq hb heq]

/-- The fringe holds the numbers of the points at the next depth. -/
theorem mem_fringe_iff (h : Level g a depth seen frontier) (hg : g.InStep) {i : Nat} :
    i ∈ fringe g.edges seen frontier ↔
      ∃ b, Shortest g.terminals (depth + 1) a b ∧ i = g.points.idxOf b := by
  simp only [mem_fringe, mem_across]
  rw [hg.exists_mem_across_iff]
  constructor
  · rintro ⟨hseen, b, c, hjoined, hb, rfl⟩
    have hshort := h.shortest_of_mem_frontier hg ⟨_, hjoined⟩ hb
    refine ⟨c, ⟨hshort.1.append (.single hjoined), fun m hm hwalk => hseen ?_⟩, rfl⟩
    exact (h.mem_seen_iff _).2 ⟨c, ⟨m, by omega, hwalk⟩, rfl⟩
  · rintro ⟨c, hc, rfl⟩
    obtain ⟨b, hb, hjoined⟩ := hc.exists_pred
    refine ⟨fun hseen => ?_, b, c, hjoined, h.mem_frontier_of_shortest hb, rfl⟩
    obtain ⟨m, hm, hwalk⟩ := (h.mem_seen_iff_walk hg ⟨_, hjoined.symm⟩).1 hseen
    exact hc.2 m (by omega) hwalk

/-- **The search goes from one depth to the next.** -/
theorem succ (h : Level g a depth seen frontier) (hg : g.InStep) :
    Level g a (depth + 1) (fringe g.edges seen frontier ++ seen)
      (fringe g.edges seen frontier) := by
  refine ⟨fun i => h.mem_fringe_iff hg, fun i => ?_⟩
  rw [List.mem_append, h.mem_fringe_iff hg, h.mem_seen_iff]
  constructor
  · rintro (⟨b, hb, rfl⟩ | ⟨b, ⟨m, hm, hwalk⟩, rfl⟩)
    · exact ⟨b, ⟨depth + 1, Nat.le_refl _, hb.1⟩, rfl⟩
    · exact ⟨b, ⟨m, by omega, hwalk⟩, rfl⟩
  · rintro ⟨b, ⟨m, hm, hwalk⟩, rfl⟩
    obtain ⟨k, hk, hshort⟩ := hwalk.exists_shortest
    rcases Nat.eq_or_lt_of_le (Nat.le_trans hk hm) with rfl | hlt
    · exact .inl ⟨b, hshort, rfl⟩
    · exact .inr ⟨b, ⟨k, by omega, hshort.1⟩, rfl⟩

/-- Whatever depth the search reports is that of a shortest walk. -/
theorem shortest_of_search (h : Level g a depth seen frontier) (hg : g.InStep)
    (hb : Occurs g.terminals b) {fuel n : Nat}
    (hsearch : search g.edges (g.points.idxOf b) fuel depth seen frontier = some n) :
    Shortest g.terminals n a b := by
  induction fuel generalizing depth seen frontier with
  | zero => simp [search] at hsearch
  | succ fuel ih =>
    rw [search] at hsearch
    split at hsearch
    · rename_i hmem
      rw [← Option.some.inj hsearch]
      exact h.shortest_of_mem_frontier hg hb hmem
    · split at hsearch
      · simp at hsearch
      · exact ih (h.succ hg) hsearch

/-- The search reports the depth of a point that it has the fuel to reach. -/
theorem search_eq_some (h : Level g a depth seen frontier) (hg : g.InStep)
    (hb : Occurs g.terminals b) {fuel n : Nat} (hshort : Shortest g.terminals n a b)
    (hdepth : depth ≤ n) (hfuel : n < depth + fuel) :
    search g.edges (g.points.idxOf b) fuel depth seen frontier = some n := by
  induction fuel generalizing depth seen frontier with
  | zero => omega
  | succ fuel ih =>
    rw [search]
    split
    · rename_i hmem
      rw [(h.shortest_of_mem_frontier hg hb hmem).unique hshort]
    · rename_i hmem
      have hne : depth ≠ n := fun heq => hmem (h.mem_frontier_of_shortest (heq ▸ hshort))
      split
      · -- the next depth is not beyond the goal, so it has a point
        rename_i hnil
        obtain ⟨c, hc⟩ := hshort.exists_of_le (m := depth + 1) (by omega)
        have hmem : g.points.idxOf c ∈ fringe g.edges seen frontier :=
          (h.mem_fringe_iff hg).2 ⟨c, hc, rfl⟩
        rw [hnil] at hmem
        exact absurd hmem (by simp)
      · exact ih (h.succ hg) (by omega) (by omega)

end Level

/-! ## Distances -/

namespace InStep

variable {g : Graph}

/-- **The distance is the length of a shortest walk between two points of the graph.** -/
theorem distance_eq_some_iff (h : g.InStep) {a b : Mrid} {n : Nat} :
    g.distance a b = some n ↔
      Occurs g.terminals a ∧ Occurs g.terminals b ∧ Shortest g.terminals n a b := by
  rw [distance]
  split
  · rename_i i j hi hj
    obtain ⟨ha, rfl⟩ := h.index?_eq_some_iff.1 hi
    obtain ⟨hb, rfl⟩ := h.index?_eq_some_iff.1 hj
    have hlevel := level_zero g a
    refine ⟨fun hsearch => ⟨ha, hb, hlevel.shortest_of_search h hb hsearch⟩, ?_⟩
    rintro ⟨-, -, hshort⟩
    have hlt := h.lt_length_of_shortest ha hshort
    exact hlevel.search_eq_some h hb hshort (Nat.zero_le n) (by omega)
  · rename_i hnone
    refine ⟨fun hsome => by simp at hsome, fun ⟨ha, hb, _⟩ => ?_⟩
    exact absurd (h.index?_eq_some_iff.2 ⟨hb, rfl⟩)
      (hnone _ _ (h.index?_eq_some_iff.2 ⟨ha, rfl⟩))

/-- Two points are connected within a bound if there is a walk of fewer terminals. -/
theorem isConnected_iff_walk (h : g.InStep) {a b : Mrid} {bound : Nat} :
    g.isConnected a b bound = true ↔
      Occurs g.terminals a ∧ Occurs g.terminals b ∧ ∃ n < bound, Walk g.terminals n a b := by
  rw [isConnected_iff]
  constructor
  · rintro ⟨d, hd, hlt⟩
    obtain ⟨ha, hb, hshort⟩ := h.distance_eq_some_iff.1 hd
    exact ⟨ha, hb, d, hlt, hshort.1⟩
  · rintro ⟨ha, hb, n, hlt, hwalk⟩
    obtain ⟨m, hm, hshort⟩ := hwalk.exists_shortest
    exact ⟨m, h.distance_eq_some_iff.2 ⟨ha, hb, hshort⟩, by omega⟩

/-- Different points are connected as soon as there is a walk: its ends are points of the graph. -/
theorem isConnected_iff_walk_of_ne (h : g.InStep) {a b : Mrid} {bound : Nat} (hne : a ≠ b) :
    g.isConnected a b bound = true ↔ ∃ n < bound, Walk g.terminals n a b := by
  rw [h.isConnected_iff_walk]
  refine ⟨fun h => h.2.2, fun ⟨n, hlt, hwalk⟩ => ?_⟩
  exact ⟨hwalk.occurs_left_of_ne hne, hwalk.reverse.occurs_left_of_ne hne.symm, n, hlt, hwalk⟩

/-- The distance does not depend on the direction. -/
theorem distance_comm (h : g.InStep) (a b : Mrid) : g.distance a b = g.distance b a := by
  apply Option.ext
  intro n
  rw [h.distance_eq_some_iff, h.distance_eq_some_iff]
  exact ⟨fun ⟨ha, hb, hs⟩ => ⟨hb, ha, hs.symm⟩, fun ⟨hb, ha, hs⟩ => ⟨ha, hb, hs.symm⟩⟩

end InStep

end Switchyard.Graph
