import Switchyard.Proofs.Graph.Growth

/-!
# What lies around some seeds

To judge how close a seed is to other points, the terminals around the seeds are enough.  `Near`
says that a point is at most so many terminals away from a seed, and `Covers` that a part of some
terminals has every one with an end fewer than `hops` terminals away.  A walk of at most `hops`
terminals that starts from a seed is then a walk over that part.  `Surrounds` is for a part that has
those terminals and no others.

This stays so while new terminals are added to the part and to the whole, as long as they are
fastened to old points at seeds only (`Covers.walk_append`).  Such a walk may leave the old
terminals and come back to them, but it comes back at a seed, so it never gets farther away from the
seeds over old terminals than it is long.
-/

set_option autoImplicit false

namespace Switchyard.Graph

variable {ts us news : List Terminal} {seeds : List Mrid} {hops m n bound : Nat} {a b x y : Mrid}
  {t : Terminal}

/-! ## Near the seeds -/

/-- A point is at most so many terminals away from a seed. -/
def Near (ts : List Terminal) (seeds : List Mrid) (n : Nat) (x : Mrid) : Prop :=
  ∃ seed ∈ seeds, ∃ m ≤ n, Walk ts m seed x

/-- One of the ends of a terminal is at most so many terminals away from a seed. -/
def EndNear (ts : List Terminal) (seeds : List Mrid) (n : Nat) (t : Terminal) : Prop :=
  Near ts seeds n t.connectivityNodeMrid ∨ Near ts seeds n t.conductingEquipmentMrid

theorem Near.mono (h : Near ts seeds m x) (hle : m ≤ n) : Near ts seeds n x := by
  obtain ⟨seed, hseed, k, hk, hwalk⟩ := h
  exact ⟨seed, hseed, k, by omega, hwalk⟩

theorem EndNear.mono (h : EndNear ts seeds m t) (hle : m ≤ n) : EndNear ts seeds n t :=
  h.imp (·.mono hle) (·.mono hle)

theorem near_of_mem (hx : x ∈ seeds) : Near ts seeds n x := ⟨x, hx, 0, Nat.zero_le n, .nil x⟩

theorem near_zero_iff : Near ts seeds 0 x ↔ x ∈ seeds := by
  constructor
  · rintro ⟨seed, hseed, m, hm, hwalk⟩
    obtain rfl := Nat.le_zero.1 hm
    rwa [← hwalk.eq_of_zero]
  · exact near_of_mem

theorem Near.step (h : Near ts seeds n x) (hjoined : Joined ts x y) : Near ts seeds (n + 1) y := by
  obtain ⟨seed, hseed, m, hm, hwalk⟩ := h
  exact ⟨seed, hseed, m + 1, by omega, hwalk.append (.single hjoined)⟩

/-- What is near is nearer, or joined to something nearer. -/
theorem near_succ_iff :
    Near ts seeds (n + 1) x ↔ Near ts seeds n x ∨ ∃ y, Near ts seeds n y ∧ Joined ts y x := by
  constructor
  · rintro ⟨seed, hseed, m, hm, hwalk⟩
    cases m with
    | zero => exact .inl ⟨seed, hseed, 0, Nat.zero_le n, hwalk⟩
    | succ m =>
      obtain ⟨y, hy, hjoined⟩ := hwalk.exists_last
      exact .inr ⟨y, ⟨seed, hseed, m, by omega, hy⟩, hjoined⟩
  · rintro (h | ⟨y, hy, hjoined⟩)
    · exact h.mono (Nat.le_succ n)
    · exact hy.step hjoined

theorem endNear_iff : EndNear ts seeds n t ↔ ∃ x y, Ends t x y ∧ Near ts seeds n x := by
  constructor
  · rintro (h | h)
    · exact ⟨_, _, .inl ⟨rfl, rfl⟩, h⟩
    · exact ⟨_, _, .inr ⟨rfl, rfl⟩, h⟩
  · rintro ⟨x, y, ⟨rfl, rfl⟩ | ⟨rfl, rfl⟩, h⟩
    · exact .inl h
    · exact .inr h

/-- A point of a graph is near a seed if its distance to the seed is small. -/
theorem InStep.near_iff {g : Graph} (hg : g.InStep) (hx : Occurs g.terminals x) :
    Near g.terminals seeds n x ↔ ∃ seed ∈ seeds, ∃ d ≤ n, g.distance seed x = some d := by
  constructor
  · rintro ⟨seed, hseed, m, hm, hwalk⟩
    obtain ⟨d, hd, hshort⟩ := hwalk.exists_shortest
    have hstart := hwalk.reverse.occurs_right hx
    exact ⟨seed, hseed, d, by omega, hg.distance_eq_some_iff.2 ⟨hstart, hx, hshort⟩⟩
  · rintro ⟨seed, hseed, d, hd, hdistance⟩
    exact ⟨seed, hseed, d, hd, (hg.distance_eq_some_iff.1 hdistance).2.2.1⟩

/-- An end of a terminal is near a seed if its distance to the seed is small. -/
theorem InStep.endNear_iff {g : Graph} (hg : g.InStep) (ht : t ∈ g.terminals) :
    EndNear g.terminals seeds n t ↔
      ∃ id, (id = t.connectivityNodeMrid ∨ id = t.conductingEquipmentMrid) ∧
        ∃ seed ∈ seeds, ∃ d ≤ n, g.distance seed id = some d := by
  rw [EndNear, hg.near_iff (.node ht), hg.near_iff (.equipment ht)]
  simp only [or_and_right, exists_or, exists_eq_left]

theorem exists_endNear_iff (hhops : 1 ≤ hops) :
    (∃ n < hops, EndNear ts seeds n t) ↔ EndNear ts seeds (hops - 1) t := by
  constructor
  · rintro ⟨n, hn, hnear⟩
    exact hnear.mono (by omega)
  · intro hnear
    exact ⟨hops - 1, by omega, hnear⟩

/-! ## Enough terminals -/

/-- A part of some terminals has every one with an end fewer than `hops` terminals away from a
seed. -/
structure Covers (us ts : List Terminal) (seeds : List Mrid) (hops : Nat) : Prop where
  subset : us ⊆ ts
  complete : ∀ t ∈ ts, ∀ n < hops, EndNear ts seeds n t → t ∈ us

namespace Covers

theorem joined (h : Covers us ts seeds hops) (hn : n < hops) (hx : Near ts seeds n x)
    (hjoined : Joined ts x y) : Joined us x y := by
  obtain ⟨t, ht, hends⟩ := hjoined
  exact ⟨t, h.complete t ht n hn (endNear_iff.2 ⟨x, y, hends, hx⟩), hends⟩

theorem occurs (h : Covers us ts seeds hops) (hhops : 1 ≤ hops) (ha : a ∈ seeds)
    (hoccurs : Occurs ts a) : Occurs us a :=
  let ⟨b, hjoined⟩ := hoccurs
  ⟨b, h.joined hhops (near_of_mem ha) hjoined⟩

/-- **A walk from a seed stays a walk**, with new terminals or without, and where it comes to an old
point it is near the seeds. -/
theorem walk_append (h : Covers us ts seeds hops)
    (hnews : ∀ x, Occurs news x → Occurs ts x → x ∈ seeds) (ha : Occurs ts a → a ∈ seeds)
    (hn : n ≤ hops) (hwalk : Walk (ts ++ news) n a b) :
    Walk (us ++ news) n a b ∧ (Occurs ts b → Near ts seeds n b) := by
  induction n generalizing b with
  | zero =>
    obtain rfl := hwalk.eq_of_zero
    exact ⟨.nil a, fun hoccurs => near_of_mem (ha hoccurs)⟩
  | succ n ih =>
    obtain ⟨c, hc, t, ht, hends⟩ := hwalk.exists_last
    obtain ⟨hwalk', hnear⟩ := ih (by omega) hc
    rcases List.mem_append.1 ht with hold | hnew
    · have hjoined : Joined ts c b := ⟨t, hold, hends⟩
      have hc' := hnear ⟨b, hjoined⟩
      have hlast := (h.joined hn hc' hjoined).mono fun _ ht => List.mem_append_left news ht
      exact ⟨hwalk'.append (.single hlast), fun _ => hc'.step hjoined⟩
    · -- over a new terminal, to a seed or to no old point at all
      refine ⟨hwalk'.append (.single ⟨t, List.mem_append_right us hnew, hends⟩), ?_⟩
      intro hoccurs
      exact near_of_mem (hnews b ⟨c, t, hnew, hends.symm⟩ hoccurs)

/-- **Up to one more than the hops, a bound sees the same from a seed or from a new point.** -/
theorem isConnected_eq {g g' : Graph} (h : Covers us ts seeds hops) (hg : g.InStep)
    (hg' : g'.InStep) (hterminals : g.terminals = ts ++ news)
    (hterminals' : g'.terminals = us ++ news)
    (hnews : ∀ x, Occurs news x → Occurs ts x → x ∈ seeds) (ha : Occurs ts a → a ∈ seeds)
    (hhops : 1 ≤ hops) (hbound : bound ≤ hops + 1) :
    g'.isConnected a b bound = g.isConnected a b bound := by
  have hsub : us ++ news ⊆ ts ++ news :=
    List.append_subset.2 ⟨List.Subset.trans h.subset (List.subset_append_left _ _),
      List.subset_append_right _ _⟩
  rw [Bool.eq_iff_iff, hg'.isConnected_iff_walk, hg.isConnected_iff_walk, hterminals, hterminals']
  constructor
  · rintro ⟨⟨c, hc⟩, ⟨d, hd⟩, n, hn, hwalk⟩
    exact ⟨⟨c, hc.mono hsub⟩, ⟨d, hd.mono hsub⟩, n, hn, hwalk.mono hsub⟩
  · rintro ⟨hoccurs, -, n, hn, hwalk⟩
    have hstart : Occurs (us ++ news) a := by
      rcases occurs_append.1 hoccurs with hold | hnew
      · exact occurs_append.2 (.inl (h.occurs hhops (ha hold) hold))
      · exact occurs_append.2 (.inr hnew)
    have hwalk' := (h.walk_append hnews ha (by omega) hwalk).1
    exact ⟨hstart, hwalk'.occurs_right hstart, n, hn, hwalk'⟩

/-- Distances from a seed are the same up to the hops. -/
theorem distance_eq {g g' : Graph} {d : Nat} (h : Covers g'.terminals g.terminals seeds hops)
    (hg : g.InStep) (hg' : g'.InStep) (ha : a ∈ seeds) (hhops : 1 ≤ hops) (hd : d ≤ hops)
    (hdistance : g.distance a b = some d) : g'.distance a b = some d := by
  obtain ⟨hoccurs, -, hwalk, hleast⟩ := hg.distance_eq_some_iff.1 hdistance
  have hwalk' : Walk g'.terminals d a b := by
    rw [← List.append_nil g.terminals] at hwalk
    rw [← List.append_nil g'.terminals]
    exact (h.walk_append (fun x hx => absurd hx (not_occurs_nil x)) (fun _ => ha) hd hwalk).1
  have hstart := h.occurs hhops ha hoccurs
  refine hg'.distance_eq_some_iff.2 ⟨hstart, hwalk'.occurs_right hstart, hwalk', ?_⟩
  intro m hm hshorter
  exact hleast m hm (hshorter.mono h.subset)

end Covers

/-! ## The terminals around some seeds -/

/-- Some of the terminals are those around some seeds, each of them once, and those of the seeds
themselves come first. -/
structure Surrounds (us ts : List Terminal) (seeds : List Mrid) (hops : Nat) : Prop where
  nodup : (us.map (·.mrid)).Nodup
  mem_iff (t : Terminal) : t ∈ us ↔ t ∈ ts ∧ ∃ n < hops, EndNear ts seeds n t
  first : (ts.filter fun t => t.conductingEquipmentMrid ∈ seeds) <+: us

theorem Surrounds.covers (h : Surrounds us ts seeds hops) : Covers us ts seeds hops where
  subset t ht := ((h.mem_iff t).1 ht).1
  complete t ht n hn hnear := (h.mem_iff t).2 ⟨ht, n, hn, hnear⟩

/-- The first terminal of a seed is the same in both graphs, though they have their terminals in
different orders. -/
theorem Surrounds.terminalOf?_eq (h : Surrounds us ts seeds hops) {equipment : Mrid}
    (hseed : equipment ∈ seeds) :
    (ofTerminals us).terminalOf? equipment = (ofTerminals ts).terminalOf? equipment := by
  have hchosen : (ts.filter fun t => t.conductingEquipmentMrid ∈ seeds).find?
      (fun t => t.conductingEquipmentMrid = equipment) =
        ts.find? fun t => t.conductingEquipmentMrid = equipment := by
    rw [List.find?_filter]
    congr 1
    funext t
    simp only [decide_eq_true_eq, decide_eq_decide, and_iff_right_iff_imp]
    rintro rfl
    exact hseed
  obtain ⟨rest, hrest⟩ := h.first
  rw [terminalOf?, terminalOf?, terminals_ofTerminals, terminals_ofTerminals, ← hrest,
    List.find?_append, hchosen]
  cases hfind : ts.find? fun t => decide (t.conductingEquipmentMrid = equipment) with
  | some t => rfl
  | none =>
    -- the local graph has no terminals besides those of the full one
    rw [Option.none_or, List.find?_eq_none]
    intro t ht
    refine List.find?_eq_none.1 hfind t (h.covers.subset ?_)
    rw [← hrest]
    exact List.mem_append_right _ ht

end Switchyard.Graph
