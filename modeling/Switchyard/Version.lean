import Switchyard.Record.Basic

/-!
# Resolving versions

A history is a list of versions, of any number of assets and in any order.  `latest` keeps the most
recent version of each asset, the one with the greatest commit id; of several versions with the
same commit id the first in the history counts.  `active` drops the assets whose latest version is
a tombstone, so a tombstone hides its asset until a later version revives it.

Both list the assets in ascending order of identity, each once (`latest_ascending`).
-/

set_option autoImplicit false

namespace Switchyard.Version

open Versioned

variable {α : Type} [Versioned α]

/-- Takes one more version into an ascending list of latest versions: it replaces the version of
its asset only if its commit id is greater. -/
def supersede (r : α) : List α → List α
  | [] => [r]
  | current :: rest =>
    if mrid r < mrid current then r :: current :: rest
    else if mrid r = mrid current then
      if commitId r ≤ commitId current then current :: rest else r :: rest
    else current :: supersede r rest

/-- The most recent version of each asset, in ascending order of identity. -/
def latest (history : List α) : List α :=
  history.foldl (fun current r => supersede r current) []

/-- The most recent version of each asset that is not gone. -/
def active (history : List α) : List α := (latest history).filter fun r => !isDeleted r

/-! ## Order -/

/-- One more version leaves no identity behind and brings at most its own. -/
theorem mrid_mem_supersede {r s : α} {current : List α} (h : s ∈ supersede r current) :
    mrid s = mrid r ∨ ∃ t ∈ current, mrid s = mrid t := by
  induction current with
  | nil => exact .inl (by rw [List.mem_singleton.1 h])
  | cons t rest ih =>
    rw [supersede] at h
    split at h
    · rcases List.mem_cons.1 h with rfl | h
      · exact .inl rfl
      · exact .inr ⟨s, h, rfl⟩
    · split at h
      · split at h
        · exact .inr ⟨s, h, rfl⟩
        · rcases List.mem_cons.1 h with rfl | h
          · exact .inl rfl
          · exact .inr ⟨s, List.mem_cons_of_mem _ h, rfl⟩
      · rcases List.mem_cons.1 h with rfl | h
        · exact .inr ⟨s, by simp, rfl⟩
        · exact (ih h).imp id fun ⟨u, hu, heq⟩ => ⟨u, List.mem_cons_of_mem _ hu, heq⟩

theorem supersede_ascending (r : α) {current : List α}
    (h : current.Pairwise fun a b => mrid a < mrid b) :
    (supersede r current).Pairwise fun a b => mrid a < mrid b := by
  induction current with
  | nil => simp [supersede]
  | cons t rest ih =>
    obtain ⟨hhead, hrest⟩ := List.pairwise_cons.1 h
    rw [supersede]
    split
    · rename_i hlt
      refine List.pairwise_cons.2 ⟨fun u hu => ?_, h⟩
      rcases List.mem_cons.1 hu with rfl | hu
      · exact hlt
      · exact Mrid.lt_trans hlt (hhead u hu)
    · split
      · rename_i heq
        split
        · exact h
        · exact List.pairwise_cons.2 ⟨fun u hu => heq ▸ hhead u hu, hrest⟩
      · rename_i hnlt hne
        refine List.pairwise_cons.2 ⟨fun u hu => ?_, ih hrest⟩
        rcases mrid_mem_supersede hu with heq | ⟨v, hv, heq⟩
        · rw [heq]
          rcases Mrid.lt_or_eq_or_gt (mrid r) (mrid t) with hlt | heq' | hgt
          · exact absurd hlt hnlt
          · exact absurd heq' hne
          · exact hgt
        · exact heq ▸ hhead v hv

/-- **The latest versions are listed in strictly ascending order of identity.** -/
theorem latest_ascending (history : List α) :
    (latest history).Pairwise fun a b => mrid a < mrid b := by
  have general : ∀ (current : List α), current.Pairwise (fun a b => mrid a < mrid b) →
      (history.foldl (fun current r => supersede r current) current).Pairwise
        fun a b => mrid a < mrid b := by
    induction history with
    | nil => exact fun _ h => h
    | cons r rest ih => exact fun current h => ih _ (supersede_ascending r h)
  exact general [] List.Pairwise.nil

end Switchyard.Version
