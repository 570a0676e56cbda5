import Switchyard.Proofs.Synthesis.Parallel

/-!
# What was made and what was left alone

A run treats items in some order, and what becomes of an item depends on the graph as it is by then.
If every item that something is made of gets the same number of terminals, that graph can be told
from the end of the run: it has the terminals of the items made earlier, and these come first in the
model.  `Draft.Treats` says which items were made so far in these terms.  It is kept by leaving an
item alone (`Treats.leave`) and by making something of it (`Treats.make`).
-/

set_option autoImplicit false

namespace Switchyard

/-! ## Places in lists that grow -/

section Places

variable {α : Type} {as bs : List α} {i j : Nat} {a : α}

/-- What stands at a place stays there when the list grows. -/
theorem getElem?_append_of_eq_some (h : as[i]? = some a) (bs : List α) :
    (as ++ bs)[i]? = some a :=
  (List.getElem?_append_left (List.getElem?_eq_some_iff.1 h).1).trans h

/-- What is appended stands after what was there. -/
theorem getElem?_append_of_length (hi : i = as.length + j) (h : bs[j]? = some a) :
    (as ++ bs)[i]? = some a := by
  rwa [hi, List.getElem?_append_right (Nat.le_add_right _ _), Nat.add_sub_cancel_left]

/-- A place of a list with one more item is an old one or the last. -/
theorem getElem?_concat_eq_some {b : α} (h : (as ++ [b])[i]? = some a) :
    as[i]? = some a ∨ i = as.length ∧ b = a := by
  rcases Nat.lt_or_ge i as.length with hlt | hge
  · rw [List.getElem?_append_left hlt] at h
    exact .inl h
  · rw [List.getElem?_append_right hge] at h
    obtain ⟨hlt, heq⟩ := List.getElem?_eq_some_iff.1 h
    rw [List.length_singleton] at hlt
    exact .inr ⟨by omega, by simpa using heq⟩

end Places

/-! ## Items that were treated -/

namespace Draft

variable {α : Type}

/-- What stands before an item of an ordered list comes before it. -/
theorem before_of_pairwise {before : α → α → Prop} {as bs : List α} {a : α}
    (h : (as ++ a :: bs).Pairwise before) : ∀ b ∈ as, before b a := fun b hb =>
  (List.pairwise_append.1 h).2.2 b hb a List.mem_cons_self

/-- Items were treated in the order `before`, and something was made of some of them, which got
`width` terminals each after the first `base` terminals of the draft. -/
structure Treats (left : Graph → α → Prop) (before : α → α → Prop) [DecidableRel before]
    (graph : Graph) (base width : Nat) (d : Draft) (treated made : List α) : Prop where
  pairwise : treated.Pairwise before
  sublist : made.Sublist treated
  /-- An item was made exactly if it was not to be left alone in the graph with the terminals of
  the items made earlier. -/
  mem_made_iff : ∀ a ∈ treated, a ∈ made ↔ ¬ left (graph.addAll
    (d.topology.terminals.take (base + width * made.countP fun b => before b a))) a
  length_terminals : d.topology.terminals.length = base + width * made.length
  graph_eq : d.graph = graph.addAll d.topology.terminals
  length_made_add_skipped : made.length + d.skipped = treated.length

namespace Treats

variable {left : Graph → α → Prop} {before : α → α → Prop} [DecidableRel before] {graph : Graph}
  {base width : Nat} {d next : Draft} {treated made : List α} {a : α}

/-- Before the first item. -/
theorem start (hlength : d.topology.terminals.length = base)
    (hgraph : d.graph = graph.addAll d.topology.terminals) (hskipped : d.skipped = 0) :
    Treats left before graph base width d [] [] where
  pairwise := .nil
  sublist := .refl _
  mem_made_iff := by simp
  length_terminals := by simpa using hlength
  graph_eq := hgraph
  length_made_add_skipped := by simpa using hskipped

/-- What has nothing to do with terminals does not matter. -/
theorem congr (h : Treats left before graph base width d treated made)
    (hterminals : next.topology.terminals = d.topology.terminals) (hgraph : next.graph = d.graph)
    (hskipped : next.skipped = d.skipped) :
    Treats left before graph base width next treated made where
  pairwise := h.pairwise
  sublist := h.sublist
  mem_made_iff := by
    rw [hterminals]
    exact h.mem_made_iff
  length_terminals := by rw [hterminals, h.length_terminals]
  graph_eq := by rw [hterminals, hgraph, h.graph_eq]
  length_made_add_skipped := by rw [hskipped, h.length_made_add_skipped]

/-- What something was made of. -/
theorem mem_iff (h : Treats left before graph base width d treated made) (a : α) :
    a ∈ made ↔ a ∈ treated ∧ ¬ left (graph.addAll
      (d.topology.terminals.take (base + width * made.countP fun b => before b a))) a := by
  constructor
  · intro ha
    have hin := h.sublist.subset ha
    exact ⟨hin, (h.mem_made_iff a hin).1 ha⟩
  · rintro ⟨hin, hnot⟩
    exact (h.mem_made_iff a hin).2 hnot

theorem pairwise_made (h : Treats left before graph base width d treated made) :
    made.Pairwise before := h.pairwise.sublist h.sublist

/-- All items made so far come before the next one. -/
theorem countP_next (h : Treats left before graph base width d treated made)
    (hbefore : ∀ b ∈ treated, before b a) : (made.countP fun b => before b a) = made.length :=
  List.countP_eq_length.2 fun b hb => decide_eq_true (hbefore b (h.sublist.subset hb))

omit [DecidableRel before] in
/-- The next item comes before none of those that were treated. -/
theorem not_before [Std.Asymm before] (hbefore : ∀ b ∈ treated, before b a) :
    ∀ b ∈ treated, ¬ before a b := fun b hb => Std.Asymm.asymm b a (hbefore b hb)

theorem not_mem_made [Std.Asymm before]
    (h : Treats left before graph base width d treated made)
    (hbefore : ∀ b ∈ treated, before b a) : a ∉ made := by
  intro ha
  have hmem := h.sublist.subset ha
  exact not_before hbefore a hmem (hbefore a hmem)

theorem pairwise_concat (h : Treats left before graph base width d treated made)
    (hbefore : ∀ b ∈ treated, before b a) : (treated ++ [a]).Pairwise before :=
  List.pairwise_append.2 ⟨h.pairwise, List.pairwise_singleton _ _, fun b hb c hc => by
    rw [List.mem_singleton.1 hc]
    exact hbefore b hb⟩

/-- **An item can be left alone**, if it is to be left alone in the graph of the draft. -/
theorem leave [Std.Asymm before] (h : Treats left before graph base width d treated made)
    (hbefore : ∀ b ∈ treated, before b a) (hleft : left d.graph a) :
    Treats left before graph base width d.skip (treated ++ [a]) made where
  pairwise := h.pairwise_concat hbefore
  sublist := h.sublist.trans (List.sublist_append_left _ _)
  mem_made_iff := by
    refine List.forall_mem_append.2 ⟨h.mem_made_iff, List.forall_mem_singleton.2 ?_⟩
    refine iff_of_false (h.not_mem_made hbefore) (not_not_intro ?_)
    -- the terminals of the items made earlier are all terminals of the draft
    show left (graph.addAll (d.topology.terminals.take _)) a
    rw [h.countP_next hbefore, ← h.length_terminals, List.take_length, ← h.graph_eq]
    exact hleft
  length_terminals := h.length_terminals
  graph_eq := h.graph_eq
  length_made_add_skipped := by
    rw [List.length_append, List.length_singleton, ← h.length_made_add_skipped]
    exact (Nat.add_assoc _ _ _).symm

/-- **Something can be made of an item**, if it is not to be left alone in the graph of the
draft. -/
theorem make [Std.Asymm before] (h : Treats left before graph base width d treated made)
    (hbefore : ∀ b ∈ treated, before b a) (hleft : ¬ left d.graph a) {portion : Topology}
    {draws labels : Nat} (hs : Step d next portion portion.terminals draws labels)
    (hwidth : portion.terminals.length = width) :
    Treats left before graph base width next (treated ++ [a]) (made ++ [a]) := by
  have hterminals : next.topology.terminals = d.topology.terminals ++ portion.terminals := by
    rw [hs.topology, Topology.append]
  have hirrefl : ¬ before a a := fun h => Std.Asymm.asymm a a h h
  refine ⟨h.pairwise_concat hbefore, h.sublist.append (.refl _), ?_, ?_, ?_, ?_⟩
  · refine List.forall_mem_append.2 ⟨fun b hb => ?_, List.forall_mem_singleton.2 ?_⟩
    · -- the new item comes after the old ones, and so do its terminals
      have hne : b ≠ a := fun heq => hirrefl (heq ▸ hbefore b hb)
      have hcount : ((made ++ [a]).countP fun c => before c b) =
          made.countP fun c => before c b := by
        simp [List.countP_append, not_before hbefore b hb]
      have hle : base + width * (made.countP fun c => before c b) ≤
          d.topology.terminals.length := by
        rw [h.length_terminals]
        exact Nat.add_le_add_left (Nat.mul_le_mul_left _ List.countP_le_length) _
      rw [hcount, hterminals, List.take_append_of_le_length hle, ← h.mem_made_iff b hb]
      simp [hne]
    · refine iff_of_true (List.mem_append_right _ (List.mem_singleton_self a)) ?_
      have hcount : ((made ++ [a]).countP fun c => before c a) = made.length := by
        rw [List.countP_append, h.countP_next hbefore]
        simp [hirrefl]
      rw [hcount, hterminals, ← h.length_terminals, List.take_left, ← h.graph_eq]
      exact hleft
  · rw [hterminals, List.length_append, List.length_append, h.length_terminals, hwidth,
      List.length_singleton, Nat.mul_succ, Nat.add_assoc]
  · rw [hterminals, Graph.addAll_append, ← h.graph_eq, hs.graph]
  · rw [hs.skipped, List.length_append, List.length_append, ← h.length_made_add_skipped]
    omega

end Treats

end Draft

end Switchyard
