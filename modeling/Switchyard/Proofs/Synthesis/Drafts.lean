import Switchyard.Proofs.Graph.Growth
import Switchyard.Synthesis.Draft

/-!
# How drafts grow

What the runs of all kinds of synthesis have in common.

* A step appends a *portion* of records to the topology, and changes nothing that was there.  A list
  of steps appends their portions in order (`Draft.topology_foldl`).
* Some steps depend on the graph as it is when they are due: an item is left alone, which only
  counts it as skipped, or something is made of it.  `Draft.chosen` lists the items that something
  is made of, and a run is the same as treating just those and skipping the others
  (`Draft.foldl_treat`).
* How the records of a topology are wired is read off its terminals: `Topology.Attaches`.
-/

set_option autoImplicit false

namespace Switchyard

/-! ## Records of several steps -/

/-- What a terminal joins: a piece of equipment to a node, under a number. -/
def Terminal.attachment (t : Terminal) : Mrid × Mrid × Int32 :=
  (t.conductingEquipmentMrid, t.connectivityNodeMrid, t.sequenceNumber)

namespace Topology

/-- A topology with the records of another one after its own. -/
def append (t u : Topology) : Topology :=
  { reportingGroup := t.reportingGroup
    busNameMarkers := t.busNameMarkers ++ u.busNameMarkers
    connectivityNodes := t.connectivityNodes ++ u.connectivityNodes
    switches := t.switches ++ u.switches
    powerTransformers := t.powerTransformers ++ u.powerTransformers
    terminals := t.terminals ++ u.terminals
    powerTransformerEnds := t.powerTransformerEnds ++ u.powerTransformerEnds }

theorem append_assoc (t u v : Topology) : (t.append u).append v = t.append (u.append v) := by
  simp [append]

/-- A topology with nothing but a reporting group adds nothing. -/
theorem append_empty (t : Topology) (group : ReportingGroup) :
    t.append { reportingGroup := group } = t := by simp [append]

/-- What the terminals join. -/
def attachments (t : Topology) : List (Mrid × Mrid × Int32) := t.terminals.map (·.attachment)

theorem attachments_append (t u : Topology) :
    (t.append u).attachments = t.attachments ++ u.attachments := List.map_append

/-- Some terminal joins a piece of equipment to a node, under a number. -/
def Attaches (t : Topology) (equipment node : Mrid) (number : Int32) : Prop :=
  (equipment, node, number) ∈ t.attachments

theorem attaches_iff {t : Topology} {equipment node : Mrid} {number : Int32} :
    t.Attaches equipment node number ↔
      ∃ x ∈ t.terminals, x.conductingEquipmentMrid = equipment ∧
        x.connectivityNodeMrid = node ∧ x.sequenceNumber = number := by
  simp [Attaches, attachments, Terminal.attachment]

end Topology

namespace Draft

/-! ## Folds of steps -/

section Folds

variable {α β : Type} {make : Draft → α → Draft}

/-- What no step changes is as it was after all of them. -/
theorem foldl_keeps (read : Draft → β) (h : ∀ d a, read (make d a) = read d) (d : Draft)
    (as : List α) : read (as.foldl make d) = read d := by
  induction as generalizing d with
  | nil => rfl
  | cons a as ih => rw [List.foldl_cons, ih, h]

/-- Steps that take so many identities each. -/
theorem ids_foldl {k : Nat} (h : ∀ d a, (make d a).ids = d.ids.advance k) (d : Draft)
    (as : List α) : (as.foldl make d).ids = d.ids.advance (k * as.length) := by
  induction as generalizing d with
  | nil => rfl
  | cons a as ih =>
    rw [List.foldl_cons, ih, h, MridSource.advance_advance, List.length_cons, Nat.mul_succ,
      Nat.add_comm]

/-- Steps that add terminals to the graph. -/
theorem grows_foldl (h : ∀ (d : Draft) a, d.graph.Grows (make d a).graph) (d : Draft)
    (as : List α) : d.graph.Grows (as.foldl make d).graph := by
  induction as generalizing d with
  | nil => exact .refl _
  | cons a as ih => exact (h d a).trans (ih (make d a))

end Folds

/-! ## Portions -/

section Portions

variable {α : Type} (make : Draft → α → Draft) (part : Draft → α → Topology)

/-- The portions of some steps, in the order of the steps. -/
def portions : Draft → List α → Topology
  | d, [] => { reportingGroup := d.topology.reportingGroup }
  | d, a :: as => (part d a).append (portions (make d a) as)

variable {make part}

/-- **Steps append their portions, and change nothing that was there.** -/
theorem topology_foldl (h : ∀ d a, (make d a).topology = d.topology.append (part d a))
    (d : Draft) (as : List α) :
    (as.foldl make d).topology = d.topology.append (portions make part d as) := by
  induction as generalizing d with
  | nil => exact (Topology.append_empty _ _).symm
  | cons a as ih => rw [List.foldl_cons, ih, h, Topology.append_assoc, portions]

/-- If the terminals of every portion enter the graph, those of all of them do. -/
theorem graph_terminals_foldl
    (h : ∀ d a, (make d a).graph.terminals = d.graph.terminals ++ (part d a).terminals)
    (d : Draft) (as : List α) :
    (as.foldl make d).graph.terminals =
      d.graph.terminals ++ (portions make part d as).terminals := by
  induction as generalizing d with
  | nil => exact (List.append_nil _).symm
  | cons a as ih =>
    rw [List.foldl_cons, ih, h, List.append_assoc]
    rfl

/-- What is true of every portion and can be put together is true of all of them. -/
theorem portions_induction {P : Topology → Prop} (hnil : ∀ group, P { reportingGroup := group })
    (happend : ∀ t u, P t → P u → P (t.append u)) (hpart : ∀ d a, P (part d a)) (d : Draft)
    (as : List α) : P (portions make part d as) := by
  induction as generalizing d with
  | nil => exact hnil _
  | cons a as ih => exact happend _ _ (hpart d a) (ih _)

end Portions

/-! ## Skipping -/

/-- Leaves some more pairs alone. -/
def skipMore (d : Draft) (n : Nat) : Draft := { d with skipped := d.skipped + n }

@[simp] theorem graph_skipMore (d : Draft) (n : Nat) : (d.skipMore n).graph = d.graph := rfl

@[simp] theorem ids_skipMore (d : Draft) (n : Nat) : (d.skipMore n).ids = d.ids := rfl

@[simp] theorem topology_skipMore (d : Draft) (n : Nat) :
    (d.skipMore n).topology = d.topology := rfl

@[simp] theorem skipped_skipMore (d : Draft) (n : Nat) :
    (d.skipMore n).skipped = d.skipped + n := rfl

theorem skip_eq_skipMore (d : Draft) : d.skip = d.skipMore 1 := rfl

theorem skipMore_skipMore (d : Draft) (m n : Nat) :
    (d.skipMore m).skipMore n = d.skipMore (m + n) := by
  simp [skipMore, Nat.add_assoc]

/-- Steps that do not look at what was skipped can be taken before skipping. -/
theorem foldl_skipMore {α : Type} {make : Draft → α → Draft}
    (hskip : ∀ d n a, make (d.skipMore n) a = (make d a).skipMore n) (d : Draft) (n : Nat)
    (as : List α) : as.foldl make (d.skipMore n) = (as.foldl make d).skipMore n := by
  induction as generalizing d with
  | nil => rfl
  | cons a as ih => rw [List.foldl_cons, List.foldl_cons, hskip, ih]

section Chosen

variable {α : Type} (leave : Draft → α → Bool) (make : Draft → α → Draft)

/-- Makes something of an item unless it is to be left alone. -/
def treat (d : Draft) (a : α) : Draft := if leave d a then d.skip else make d a

/-- The items that something is made of when items are treated in order. -/
def chosen : Draft → List α → List α
  | _, [] => []
  | d, a :: as =>
    if leave d a then chosen d.skip as
    else a :: chosen (make d a) as

variable {leave make} {d : Draft} {a : α} {as : List α}

theorem chosen_cons_of_leave (h : leave d a = true) :
    chosen leave make d (a :: as) = chosen leave make d.skip as := if_pos h

theorem chosen_cons_of_make (h : ¬ leave d a = true) :
    chosen leave make d (a :: as) = a :: chosen leave make (make d a) as := if_neg h

theorem chosen_sublist (d : Draft) (as : List α) : (chosen leave make d as).Sublist as := by
  induction as generalizing d with
  | nil => exact .refl _
  | cons a as ih =>
    by_cases h : leave d a = true
    · rw [chosen_cons_of_leave h]
      exact (ih d.skip).cons a
    · rw [chosen_cons_of_make h]
      exact (ih _).cons_cons a

theorem length_chosen_le (d : Draft) (as : List α) : (chosen leave make d as).length ≤ as.length :=
  (chosen_sublist d as).length_le

/-- **To treat items is to make something of the chosen ones and to leave the others alone.** -/
theorem foldl_treat (hskip : ∀ d n a, make (d.skipMore n) a = (make d a).skipMore n) (d : Draft)
    (as : List α) :
    as.foldl (treat leave make) d =
      ((chosen leave make d as).foldl make d).skipMore
        (as.length - (chosen leave make d as).length) := by
  induction as generalizing d with
  | nil => rfl
  | cons a as ih =>
    rw [List.foldl_cons, ih, treat]
    by_cases h : leave d a = true
    · have hlen : (chosen leave make (d.skipMore 1) as).length ≤ as.length := length_chosen_le _ as
      rw [if_pos h, chosen_cons_of_leave h, skip_eq_skipMore, foldl_skipMore hskip,
        skipMore_skipMore, List.length_cons, ← Nat.add_sub_assoc hlen, Nat.add_comm 1]
    · rw [if_neg h, chosen_cons_of_make h, List.foldl_cons, List.length_cons, List.length_cons,
        Nat.succ_sub_succ]

variable (leave) in
theorem grows_treat (h : ∀ (d : Draft) a, d.graph.Grows (make d a).graph) (d : Draft) (a : α) :
    d.graph.Grows (treat leave make d a).graph := by
  rw [treat]
  split
  · exact .refl _
  · exact h d a

/-- **If with every graph of a run the same items are left alone, the chosen items are the
others.** -/
theorem chosen_eq_filter {left : α → Bool} {last : Graph}
    (hgrows : ∀ (d : Draft) a, d.graph.Grows (make d a).graph)
    (hleft : ∀ d' : Draft, d.graph.Grows d'.graph → d'.graph.Grows last →
      ∀ a ∈ as, leave d' a = left a)
    (hlast : (as.foldl (treat leave make) d).graph.Grows last) :
    chosen leave make d as = as.filter fun a => !left a := by
  induction as generalizing d with
  | nil => rfl
  | cons a as ih =>
    have hstep : d.graph.Grows (treat leave make d a).graph :=
      grows_treat leave hgrows d a
    have hrest := grows_foldl (grows_treat leave hgrows) (treat leave make d a) as
    have hnext := ih (d := treat leave make d a)
      (fun d' hd' hd'' b hb => hleft d' (hstep.trans hd') hd'' b (List.mem_cons_of_mem a hb)) hlast
    have ha := hleft d (.refl _) (hstep.trans (hrest.trans hlast)) a List.mem_cons_self
    rw [treat] at hnext
    by_cases h : leave d a = true
    · rw [if_pos h] at hnext
      rw [chosen_cons_of_leave h, hnext, List.filter_cons_of_neg (by simp [← ha, h])]
    · rw [if_neg h] at hnext
      rw [chosen_cons_of_make h, hnext, List.filter_cons_of_pos (by simp [← ha, h])]

end Chosen

end Draft

end Switchyard
