import Switchyard.Proofs.Graph.Shortest

/-!
# Graphs that grow

A run of synthesis only ever adds terminals to the graph that it consults.  `Grows` says that a
graph has come from another one in this way; whatever was joined, and whatever was connected, stays
so.
-/

set_option autoImplicit false

namespace Switchyard.Graph

variable {g g' g'' : Graph} {a b : Mrid} {bound bound' : Nat}

/-- A graph becomes another one when terminals are added. -/
def Grows (g g' : Graph) : Prop := ∃ ts, g' = g.addAll ts

namespace Grows

theorem refl (g : Graph) : g.Grows g := ⟨[], rfl⟩

theorem addAll (g : Graph) (ts : List Terminal) : g.Grows (g.addAll ts) := ⟨ts, rfl⟩

theorem trans (h : g.Grows g') (h' : g'.Grows g'') : g.Grows g'' := by
  obtain ⟨ts, rfl⟩ := h
  obtain ⟨us, rfl⟩ := h'
  exact ⟨ts ++ us, (addAll_append g ts us).symm⟩

theorem inStep (h : g.Grows g') (hg : g.InStep) : g'.InStep := by
  obtain ⟨ts, rfl⟩ := h
  exact hg.addAll ts

theorem subset (h : g.Grows g') : g.terminals ⊆ g'.terminals := by
  obtain ⟨ts, rfl⟩ := h
  rw [terminals_addAll]
  exact List.subset_append_left _ _

theorem joined (h : g.Grows g') (hjoined : Joined g.terminals a b) : Joined g'.terminals a b :=
  hjoined.mono fun _ ht => h.subset ht

theorem occurs (h : g.Grows g') (ha : Occurs g.terminals a) : Occurs g'.terminals a :=
  let ⟨b, hjoined⟩ := ha
  ⟨b, h.joined hjoined⟩

theorem walk {n : Nat} (h : g.Grows g') (hwalk : Walk g.terminals n a b) :
    Walk g'.terminals n a b :=
  hwalk.mono fun _ ht => h.subset ht

/-- **What is connected stays connected.** -/
theorem isConnected (h : g.Grows g') (hg : g.InStep) (hab : g.isConnected a b bound = true) :
    g'.isConnected a b bound = true := by
  obtain ⟨ha, hb, n, hn, hwalk⟩ := hg.isConnected_iff_walk.1 hab
  exact (h.inStep hg).isConnected_iff_walk.2 ⟨h.occurs ha, h.occurs hb, n, hn, h.walk hwalk⟩

end Grows

/-! ## Bounds -/

theorem isConnected_weaken (h : g.isConnected a b bound = true) (hle : bound ≤ bound') :
    g.isConnected a b bound' = true := by
  obtain ⟨d, hd, hlt⟩ := isConnected_iff.1 h
  exact isConnected_iff.2 ⟨d, hd, by omega⟩

theorem InStep.isConnected_comm (hg : g.InStep) (a b : Mrid) (bound : Nat) :
    g.isConnected a b bound = g.isConnected b a bound := by
  rw [isConnected, isConnected, hg.distance_comm]

/-- A point is connected to itself within every bound but zero. -/
theorem InStep.isConnected_self (hg : g.InStep) (ha : Occurs g.terminals a) (hpos : 0 < bound) :
    g.isConnected a a bound = true :=
  hg.isConnected_iff_walk.2 ⟨ha, ha, 0, hpos, .nil a⟩

/-- What is connected within some bounds is connected over their sum. -/
theorem InStep.isConnected_trans {c : Mrid} (hg : g.InStep) (hab : g.isConnected a b bound = true)
    (hbc : g.isConnected b c bound' = true) : g.isConnected a c (bound + bound') = true := by
  obtain ⟨ha, -, m, hm, hwalk⟩ := hg.isConnected_iff_walk.1 hab
  obtain ⟨-, hc, n, hn, hwalk'⟩ := hg.isConnected_iff_walk.1 hbc
  exact hg.isConnected_iff_walk.2 ⟨ha, hc, m + n, by omega, hwalk.append hwalk'⟩

/-- Without terminals nothing is connected. -/
theorem isConnected_ofTerminals_nil (a b : Mrid) (bound : Nat) :
    (ofTerminals []).isConnected a b bound = false := rfl

end Switchyard.Graph
