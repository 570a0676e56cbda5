import Switchyard.Proofs.Graph.Shortest

/-!
# Walks over a link

A link joins two points by a path of four terminals: from the first over a switch to a new node,
and from there over a transformer to the second.  Its three inner points are new, so a walk between
other points uses a link only by crossing it whole, and crossing it twice is never needed.  This is
`Link.detour_of_walk`: whatever was joined by fewer than four terminals is joined by the old
terminals alone, and exactly the two ends of the link come to be joined by four.

The argument is an induction over the walk from its far end.  `Reach` says for every point,
the inner ones included, what a walk from there amounts to.
-/

set_option autoImplicit false

namespace Switchyard.Graph

/-! ## What terminals join -/

/-- The node and the equipment of a terminal. -/
def ends (t : Terminal) : Mrid × Mrid := (t.connectivityNodeMrid, t.conductingEquipmentMrid)

/-- What some terminals join is seen from their ends. -/
theorem joined_iff_mem_ends {ts : List Terminal} {a b : Mrid} :
    Joined ts a b ↔ (a, b) ∈ ts.map ends ∨ (b, a) ∈ ts.map ends := by
  constructor
  · rintro ⟨t, ht, ⟨rfl, rfl⟩ | ⟨rfl, rfl⟩⟩
    · exact .inl (List.mem_map_of_mem ht)
    · exact .inr (List.mem_map_of_mem ht)
  · rintro (h | h)
    · obtain ⟨t, ht, heq⟩ := List.mem_map.1 h
      exact ⟨t, ht, .inl ⟨congrArg Prod.fst heq, congrArg Prod.snd heq⟩⟩
    · obtain ⟨t, ht, heq⟩ := List.mem_map.1 h
      exact ⟨t, ht, .inr ⟨congrArg Prod.fst heq, congrArg Prod.snd heq⟩⟩

theorem joined_append {ts us : List Terminal} {a b : Mrid} :
    Joined (ts ++ us) a b ↔ Joined ts a b ∨ Joined us a b := by
  simp only [Joined, List.mem_append, or_and_right, exists_or]

/-! ## Links -/

/-- The points of a link: those it joins, and the inner ones between them. -/
structure Link where
  first : Mrid
  switch : Mrid
  node : Mrid
  transformer : Mrid
  second : Mrid

namespace Link

/-- The inner points. -/
def inner (l : Link) : List Mrid := [l.switch, l.node, l.transformer]

/-- The nodes and the pieces of equipment that the four terminals of the link join. -/
def wiring (l : Link) : List (Mrid × Mrid) :=
  [(l.node, l.switch), (l.first, l.switch), (l.node, l.transformer), (l.second, l.transformer)]

/-- The inner points are different from each other, from the ends of the link, and from every point
of some terminals. -/
structure IsNew (l : Link) (ts : List Terminal) : Prop where
  nodup_inner : l.inner.Nodup
  not_occurs : ∀ p ∈ l.inner, ¬ Occurs ts p
  first_not_mem : l.first ∉ l.inner
  second_not_mem : l.second ∉ l.inner

variable {l : Link} {ts us : List Terminal} {k : Nat} {a b y : Mrid}

/-- The inner points differ from each other and from the ends. -/
theorem IsNew.distinct (h : l.IsNew ts) :
    (l.switch ≠ l.node ∧ l.switch ≠ l.transformer ∧ l.node ≠ l.transformer) ∧
      (l.first ≠ l.switch ∧ l.first ≠ l.node ∧ l.first ≠ l.transformer) ∧
      (l.second ≠ l.switch ∧ l.second ≠ l.node ∧ l.second ≠ l.transformer) := by
  have hnodup := h.nodup_inner
  have hfirst := h.first_not_mem
  have hsecond := h.second_not_mem
  simp only [inner, List.nodup_cons, List.mem_cons, List.not_mem_nil, or_false, not_or,
    List.nodup_nil, not_false_eq_true, and_true] at hnodup hfirst hsecond
  exact ⟨⟨hnodup.1.1, hnodup.1.2, hnodup.2⟩, hfirst, hsecond⟩

/-! ### Ways around and across -/

/-- There is a walk of at most `k` old terminals, or one that crosses the link once, in one
direction or the other. -/
inductive Detour (l : Link) (ts : List Terminal) (k : Nat) (a b : Mrid) : Prop where
  | around {i : Nat} (h : Walk ts i a b) (hle : i ≤ k)
  | forwards {i j : Nat} (h₁ : Walk ts i a l.first) (h₂ : Walk ts j l.second b)
    (hle : i + 4 + j ≤ k)
  | backwards {i j : Nat} (h₁ : Walk ts i a l.second) (h₂ : Walk ts j l.first b)
    (hle : i + 4 + j ≤ k)

namespace Detour

theorem mono {m : Nat} (h : Detour l ts k a b) (hle : k ≤ m) : Detour l ts m a b := by
  cases h with
  | around h hk => exact .around h (by omega)
  | forwards h₁ h₂ hk => exact .forwards h₁ h₂ (by omega)
  | backwards h₁ h₂ hk => exact .backwards h₁ h₂ (by omega)

/-- An old terminal in front makes a detour longer by one. -/
theorem cons {c : Mrid} (hjoined : Joined ts a b) (h : Detour l ts k b c) :
    Detour l ts (k + 1) a c := by
  cases h with
  | around h hk => exact .around (.cons hjoined h) (by omega)
  | forwards h₁ h₂ hk => exact .forwards (.cons hjoined h₁) h₂ (by omega)
  | backwards h₁ h₂ hk => exact .backwards (.cons hjoined h₁) h₂ (by omega)

/-- Crossing the link forwards costs four, and a second crossing is not needed. -/
theorem cross_forwards (h : Detour l ts k l.second b) : Detour l ts (k + 4) l.first b := by
  cases h with
  | around h hk => exact .forwards (.nil _) h (by omega)
  | forwards _ h₂ hk => exact .forwards (.nil _) h₂ (by omega)
  | backwards _ h₂ hk => exact .around h₂ (by omega)

/-- Crossing the link backwards costs four, and a second crossing is not needed. -/
theorem cross_backwards (h : Detour l ts k l.first b) : Detour l ts (k + 4) l.second b := by
  cases h with
  | around h hk => exact .backwards (.nil _) h (by omega)
  | forwards _ h₂ hk => exact .around h₂ (by omega)
  | backwards _ h₂ hk => exact .backwards (.nil _) h₂ (by omega)

end Detour

/-- What is left of a walk of `k` terminals from an inner point, `p` terminals away from the first
end and `q` from the second: it leaves the link at one of them. -/
def Leaves (l : Link) (ts : List Terminal) (k p q : Nat) (y : Mrid) : Prop :=
  (∃ i, i + p ≤ k ∧ Detour l ts i l.first y) ∨ ∃ i, i + q ≤ k ∧ Detour l ts i l.second y

/-- One terminal along the link. -/
theorem Leaves.step {p q p' q' : Nat} (h : Leaves l ts k p q y) (hp : p' ≤ p + 1)
    (hq : q' ≤ q + 1) : Leaves l ts (k + 1) p' q' y := by
  rcases h with ⟨i, hi, hd⟩ | ⟨i, hi, hd⟩
  · exact .inl ⟨i, by omega, hd⟩
  · exact .inr ⟨i, by omega, hd⟩

/-- What a walk of `k` terminals amounts to, by the point it starts from. -/
structure Reach (l : Link) (ts us : List Terminal) (k : Nat) (y : Mrid) : Prop where
  outer : ∀ v ∉ l.inner, Walk (ts ++ us) k v y → Detour l ts k v y
  switch : Walk (ts ++ us) k l.switch y → Leaves l ts k 1 3 y
  node : Walk (ts ++ us) k l.node y → Leaves l ts k 2 2 y
  transformer : Walk (ts ++ us) k l.transformer y → Leaves l ts k 3 1 y

/-! ### The neighbours of each point -/

section Neighbours

variable (hus : us.map ends = l.wiring) (hnew : l.IsNew ts)

include hus in
theorem joined_iff_wiring :
    Joined us a b ↔ (a, b) ∈ l.wiring ∨ (b, a) ∈ l.wiring := by
  rw [joined_iff_mem_ends, hus]

include hnew in
/-- An inner point has its neighbours on the link. -/
theorem joined_of_inner (ha : a ∈ l.inner) (h : Joined (ts ++ us) a b) : Joined us a b :=
  (joined_append.1 h).resolve_left fun hts => hnew.not_occurs a ha ⟨b, hts⟩

include hnew in
theorem not_mem_inner_of_joined (h : Joined ts a b) : b ∉ l.inner :=
  fun hb => hnew.not_occurs b hb ⟨a, h.symm⟩

include hus in
/-- The link is entered from its ends only. -/
theorem joined_outer (ha : a ∉ l.inner) (h : Joined us a b) :
    (a = l.first ∧ b = l.switch) ∨ (a = l.second ∧ b = l.transformer) := by
  have := (joined_iff_wiring hus).1 h
  simp only [inner, wiring, List.mem_cons, List.not_mem_nil, or_false, not_or, Prod.mk.injEq]
    at ha this
  grind

include hus hnew in
theorem joined_switch (h : Joined us l.switch b) : b = l.node ∨ b = l.first := by
  have := (joined_iff_wiring hus).1 h
  obtain ⟨hinner, hfirst, hsecond⟩ := hnew.distinct
  simp only [wiring, List.mem_cons, List.not_mem_nil, or_false, Prod.mk.injEq] at this
  grind

include hus hnew in
theorem joined_node (h : Joined us l.node b) : b = l.switch ∨ b = l.transformer := by
  have := (joined_iff_wiring hus).1 h
  obtain ⟨hinner, hfirst, hsecond⟩ := hnew.distinct
  simp only [wiring, List.mem_cons, List.not_mem_nil, or_false, Prod.mk.injEq] at this
  grind

include hus hnew in
theorem joined_transformer (h : Joined us l.transformer b) : b = l.node ∨ b = l.second := by
  have := (joined_iff_wiring hus).1 h
  obtain ⟨hinner, hfirst, hsecond⟩ := hnew.distinct
  simp only [wiring, List.mem_cons, List.not_mem_nil, or_false, Prod.mk.injEq] at this
  grind

end Neighbours

/-! ### The induction -/

theorem reach_zero (hy : y ∉ l.inner) : Reach l ts us 0 y := by
  have hinner {v : Mrid} (hv : v ∈ l.inner) (h : Walk (ts ++ us) 0 v y) : False :=
    hy (h.eq_of_zero ▸ hv)
  refine ⟨fun v _ h => .around ?_ (Nat.le_refl 0), fun h => ?_, fun h => ?_, fun h => ?_⟩
  · rw [h.eq_of_zero]
    exact .nil y
  · exact (hinner (by simp [inner]) h).elim
  · exact (hinner (by simp [inner]) h).elim
  · exact (hinner (by simp [inner]) h).elim

theorem reach_succ (hus : us.map ends = l.wiring) (hnew : l.IsNew ts) (ih : Reach l ts us k y) :
    Reach l ts us (k + 1) y := by
  have hswitch : l.switch ∈ l.inner := by simp [inner]
  have hnode : l.node ∈ l.inner := by simp [inner]
  have htransformer : l.transformer ∈ l.inner := by simp [inner]
  refine ⟨fun v hv h => ?_, fun h => ?_, fun h => ?_, fun h => ?_⟩
  · cases h with
    | cons hjoined hrest =>
      rcases joined_append.1 hjoined with hold | hlink
      · exact (ih.outer _ (not_mem_inner_of_joined hnew hold) hrest).cons hold
      · rcases joined_outer hus hv hlink with ⟨rfl, rfl⟩ | ⟨rfl, rfl⟩
        · -- onto the switch, and from there back or across
          rcases ih.switch hrest with ⟨i, hi, hd⟩ | ⟨i, hi, hd⟩
          · exact hd.mono (by omega)
          · exact hd.cross_forwards.mono (by omega)
        · rcases ih.transformer hrest with ⟨i, hi, hd⟩ | ⟨i, hi, hd⟩
          · exact hd.cross_backwards.mono (by omega)
          · exact hd.mono (by omega)
  · cases h with
    | cons hjoined hrest =>
      rcases joined_switch hus hnew (joined_of_inner hnew hswitch hjoined) with rfl | rfl
      · exact (ih.node hrest).step (by omega) (by omega)
      · exact .inl ⟨k, Nat.le_refl _, ih.outer _ hnew.first_not_mem hrest⟩
  · cases h with
    | cons hjoined hrest =>
      rcases joined_node hus hnew (joined_of_inner hnew hnode hjoined) with rfl | rfl
      · exact (ih.switch hrest).step (by omega) (by omega)
      · exact (ih.transformer hrest).step (by omega) (by omega)
  · cases h with
    | cons hjoined hrest =>
      rcases joined_transformer hus hnew (joined_of_inner hnew htransformer hjoined) with rfl | rfl
      · exact (ih.node hrest).step (by omega) (by omega)
      · exact .inr ⟨k, Nat.le_refl _, ih.outer _ hnew.second_not_mem hrest⟩

theorem reach (hus : us.map ends = l.wiring) (hnew : l.IsNew ts) (hy : y ∉ l.inner) (k : Nat) :
    Reach l ts us k y := by
  induction k with
  | zero => exact reach_zero hy
  | succ k ih => exact reach_succ hus hnew ih

/-- **A walk between other points crosses a link at most once, and whole.** -/
theorem detour_of_walk (hus : us.map ends = l.wiring) (hnew : l.IsNew ts) (ha : a ∉ l.inner)
    (hb : b ∉ l.inner) (h : Walk (ts ++ us) k a b) : Detour l ts k a b :=
  (reach hus hnew hb k).outer a ha h

/-- The link joins its ends by four terminals. -/
theorem walk_four (hus : us.map ends = l.wiring) : Walk us 4 l.first l.second := by
  have joined {p q : Mrid} (h : (p, q) ∈ l.wiring ∨ (q, p) ∈ l.wiring) : Joined us p q :=
    (joined_iff_wiring hus).2 h
  have hswitch : Joined us l.first l.switch := joined (.inl (by simp [wiring]))
  have hnode : Joined us l.switch l.node := joined (.inr (by simp [wiring]))
  have htransformer : Joined us l.node l.transformer := joined (.inl (by simp [wiring]))
  have hsecond : Joined us l.transformer l.second := joined (.inr (by simp [wiring]))
  exact .cons hswitch (.cons hnode (.cons htransformer (.single hsecond)))

/-- A walk of at most four terminals between other points is one of old terminals, or it is the
link itself. -/
theorem walk_or_ends_of_walk (hus : us.map ends = l.wiring) (hnew : l.IsNew ts)
    (ha : a ∉ l.inner) (hb : b ∉ l.inner) (hk : k ≤ 4) (h : Walk (ts ++ us) k a b) :
    (∃ i ≤ k, Walk ts i a b) ∨
      k = 4 ∧ ((a = l.first ∧ b = l.second) ∨ (a = l.second ∧ b = l.first)) := by
  cases detour_of_walk hus hnew ha hb h with
  | around h hle => exact .inl ⟨_, hle, h⟩
  | @forwards i j h₁ h₂ hle =>
    obtain rfl : i = 0 := by omega
    obtain rfl : j = 0 := by omega
    exact .inr ⟨by omega, .inl ⟨h₁.eq_of_zero, h₂.eq_of_zero.symm⟩⟩
  | @backwards i j h₁ h₂ hle =>
    obtain rfl : i = 0 := by omega
    obtain rfl : j = 0 := by omega
    exact .inr ⟨by omega, .inr ⟨h₁.eq_of_zero, h₂.eq_of_zero.symm⟩⟩

end Link

end Switchyard.Graph
