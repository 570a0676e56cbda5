import Mathlib.Data.List.Nodup
import Switchyard.Asset.Connection
import Switchyard.Proofs.Version.Resolution

/-!
# The newest versions, in any order and piece by piece

`Version.latest` is a fold, and says nothing about the assets as such.  Asset by asset it is the
first of the versions with the greatest commit id (`find?_latest`).  Where no commit has two versions
of an asset there is only one such version, so the order of the history is nothing to it
(`latest_perm`); and a part of a history may be resolved ahead of the rest (`latest_latest_append`).

A tombstone is a version like any other.  While it counts its asset is hidden, and it counts as long
as no version of the asset is more recent (`isShown_iff_of_tombstone`).

The main statement is `newest_versions_kept`.
-/

set_option autoImplicit false

namespace Switchyard

namespace Version

open Versioned

variable {α : Type} [Versioned α] {history xs ys : List α} {r t : α} {id : Mrid}

/-- The asset of a version and the commit that produced it. -/
def key (r : α) : Mrid × CommitId := (mrid r, commitId r)

/-- The version is one of the asset, and none of the asset has a greater commit id. -/
def IsNewest (history : List α) (id : Mrid) (r : α) : Prop :=
  mrid r = id ∧ ∀ s ∈ history, mrid s = id → commitId s ≤ commitId r

instance (history : List α) (id : Mrid) (r : α) : Decidable (IsNewest history id r) :=
  inferInstanceAs (Decidable (mrid r = id ∧ ∀ s ∈ history, mrid s = id → commitId s ≤ commitId r))

/-- The asset has an active version. -/
def IsShown (history : List α) (id : Mrid) : Prop := ∃ r ∈ active history, mrid r = id

/-! ## Asset by asset -/

theorem IsLatest.isNewest (h : IsLatest history r) : IsNewest history (mrid r) r := by
  obtain ⟨earlier, later, rfl, hearlier, hlater⟩ := h
  refine ⟨rfl, fun s hs heq => ?_⟩
  rcases List.mem_append.1 hs with hs | hs
  · exact CommitId.le_of_lt (hearlier s hs heq)
  · rcases List.mem_cons.1 hs with rfl | hs
    · exact CommitId.le_refl _
    · exact hlater s hs heq

/-- The version that counts for an asset is the first of its newest. -/
theorem isLatest_iff_find? :
    IsLatest history r ↔ history.find? (fun s => IsNewest history (mrid r) s) = some r := by
  rw [List.find?_eq_some_iff_append]
  constructor
  · intro h
    refine ⟨decide_eq_true h.isNewest, ?_⟩
    obtain ⟨earlier, later, rfl, hearlier, -⟩ := h
    refine ⟨earlier, later, rfl, fun s hs => ?_⟩
    have hnot : ¬ IsNewest (earlier ++ r :: later) (mrid r) s := fun ⟨heq, hnewest⟩ =>
      CommitId.not_le.2 (hearlier s hs heq) (hnewest r (by simp) rfl)
    simpa using hnot
  · rintro ⟨hnewest, earlier, later, rfl, hearlier⟩
    have hnewest := of_decide_eq_true hnewest
    refine ⟨earlier, later, rfl, fun s hs heq => ?_, fun s hs heq => ?_⟩
    · -- as recent as `r` it would be among the newest, and found before `r`
      refine CommitId.not_le.1 fun hle => ?_
      have hs' : IsNewest (earlier ++ r :: later) (mrid r) s :=
        ⟨heq, fun u hu hid => CommitId.le_trans (hnewest.2 u hu hid) hle⟩
      simpa [hs'] using hearlier s hs
    · exact hnewest.2 s (by simp [hs]) heq

/-- **Resolution keeps, for each asset, the first of its newest versions.** -/
theorem find?_latest (history : List α) (id : Mrid) :
    (latest history).find? (fun r => mrid r = id) =
      history.find? fun r => IsNewest history id r := by
  apply Option.ext
  intro r
  rw [Ascending.find?_eq_some_iff (latest_ascending history), mem_latest_iff, isLatest_iff_find?]
  constructor
  · rintro ⟨hfind, heq, -⟩
    obtain rfl : mrid r = id := of_decide_eq_true heq
    exact hfind
  · intro hfind
    obtain ⟨rfl, -⟩ : IsNewest history id r := by simpa using List.find?_some hfind
    refine ⟨hfind, decide_eq_true rfl, fun s _ hlt => decide_eq_false fun heq => ?_⟩
    exact Mrid.lt_irrefl _ (heq ▸ hlt)

theorem mem_map_mrid_latest_iff : id ∈ (latest history).map mrid ↔ id ∈ history.map mrid := by
  simp only [List.mem_map]
  constructor
  · rintro ⟨r, hr, heq⟩
    exact ⟨r, mem_of_mem_latest hr, heq⟩
  · rintro ⟨s, hs, rfl⟩
    obtain ⟨r, hr, heq, -⟩ := exists_mem_latest hs
    exact ⟨r, hr, heq⟩

/-- Resolution lists each asset of a history once, and no other. -/
theorem count_mrid_latest (history : List α) (id : Mrid) :
    ((latest history).map mrid).count id = if id ∈ history.map mrid then 1 else 0 := by
  have hasc : Ascending (latest history) := latest_ascending history
  rw [hasc.nodup_mrids.count]
  simp only [mem_map_mrid_latest_iff]

/-! ## In any order -/

/-- Where no commit has two versions of an asset, the newest version of an asset is the one that
counts, wherever it stands. -/
theorem mem_latest_iff_isNewest (hnodup : (history.map key).Nodup) :
    r ∈ latest history ↔ r ∈ history ∧ IsNewest history (mrid r) r := by
  rw [mem_latest_iff]
  constructor
  · intro h
    exact ⟨mem_of_mem_latest (mem_latest_iff.2 h), h.isNewest⟩
  · rintro ⟨hr, hnewest⟩
    obtain ⟨earlier, later, rfl⟩ := List.append_of_mem hr
    rw [List.map_append, List.map_cons] at hnodup
    refine ⟨earlier, later, rfl, fun s hs heq => ?_, fun s hs heq => ?_⟩
    · refine CommitId.lt_of_le_of_ne (hnewest.2 s (by simp [hs]) heq) fun hcommit => ?_
      exact List.nodup_append.1 hnodup |>.2.2 (key s) (List.mem_map_of_mem hs) (key r)
        List.mem_cons_self (Prod.ext heq hcommit)
    · exact hnewest.2 s (by simp [hs]) heq

/-- **Where no commit has two versions of an asset, the order of a history does not matter.** -/
theorem latest_perm (h : xs.Perm ys) (hnodup : (xs.map key).Nodup) : latest xs = latest ys := by
  refine Ascending.ext (latest_ascending xs) (latest_ascending ys) fun r => ?_
  rw [mem_latest_iff_isNewest hnodup, mem_latest_iff_isNewest ((h.map key).nodup_iff.1 hnodup)]
  simp only [IsNewest, h.mem_iff]

/-! ## Piece by piece -/

/-- What is resolved already stays as it is. -/
theorem latest_of_ascending (h : Ascending xs) : latest xs = xs := by
  refine Ascending.ext (latest_ascending xs) h fun r => ⟨mem_of_mem_latest, fun hr => ?_⟩
  obtain ⟨s, hs, heq, -⟩ := exists_mem_latest hr
  rwa [h.eq_of_mrid_eq hr (mem_of_mem_latest hs) heq.symm]

theorem latest_latest (history : List α) : latest (latest history) = latest history :=
  latest_of_ascending (latest_ascending history)

/-- **The beginning of a history may be resolved ahead of the rest.** -/
theorem latest_latest_append (xs ys : List α) : latest (latest xs ++ ys) = latest (xs ++ ys) := by
  have hsplit (zs : List α) :
      latest (zs ++ ys) = ys.foldl (fun current r => supersede r current) (latest zs) := by
    simp only [latest, List.foldl_append]
  rw [hsplit, hsplit, latest_latest]

/-! ## Tombstones -/

/-- Of the versions of an asset that one commit produced, the first counts unless some version of
the asset is more recent. -/
theorem mem_latest_iff_of_first (hfirst : history.find? (fun s => key s = key t) = some t) :
    t ∈ latest history ↔ ∀ s ∈ history, mrid s = mrid t → commitId s ≤ commitId t := by
  rw [mem_latest_iff]
  refine ⟨fun h => h.isNewest.2, fun hnewest => ?_⟩
  obtain ⟨-, earlier, later, rfl, hearlier⟩ := List.find?_eq_some_iff_append.1 hfirst
  refine ⟨earlier, later, rfl, fun s hs heq => ?_, fun s hs heq => ?_⟩
  · refine CommitId.lt_of_le_of_ne (hnewest s (by simp [hs]) heq) fun hcommit => ?_
    have hkey : key s = key t := Prod.ext heq hcommit
    simpa [hkey] using hearlier s hs
  · exact hnewest s (by simp [hs]) heq

/-- A version that counts is the first of its asset and commit. -/
theorem find?_key_of_mem_latest (ht : t ∈ latest xs) :
    xs.find? (fun s => key s = key t) = some t := by
  obtain ⟨earlier, later, rfl, hearlier, -⟩ := mem_latest_iff.1 ht
  rw [List.find?_eq_some_iff_append]
  refine ⟨decide_eq_true rfl, earlier, later, rfl, fun s hs => ?_⟩
  have hne : key s ≠ key t := fun heq => by
    obtain ⟨hid, hcommit⟩ := Prod.mk.inj heq
    exact CommitId.not_le.2 (hearlier s hs hid) (hcommit ▸ CommitId.le_refl _)
  simpa using hne

theorem find?_key_append (ht : t ∈ latest xs) (ys : List α) :
    (xs ++ ys).find? (fun s => key s = key t) = some t := by
  rw [List.find?_append, find?_key_of_mem_latest ht, Option.some_or]

/-- A version that counts goes on counting until a more recent one comes. -/
theorem mem_latest_append_iff (ht : t ∈ latest xs) :
    t ∈ latest (xs ++ ys) ↔ ∀ s ∈ ys, mrid s = mrid t → commitId s ≤ commitId t := by
  rw [mem_latest_iff_of_first (find?_key_append ht ys), List.forall_mem_append]
  exact and_iff_right (mem_latest_iff.1 ht).isNewest.2

/-- An asset is hidden while a tombstone counts for it. -/
theorem not_isShown_of_tombstone (ht : t ∈ latest history) (hdeleted : isDeleted t = true) :
    ¬ IsShown history (mrid t) := by
  rintro ⟨r, hr, heq⟩
  obtain ⟨hlatest, hlive⟩ := mem_active_iff.1 hr
  obtain rfl := Ascending.eq_of_mrid_eq (latest_ascending history) hlatest ht heq
  rw [hdeleted] at hlive
  exact Bool.noConfusion hlive

/-- **The last tombstone of an asset hides it exactly until there is a more recent version.** -/
theorem isShown_iff_of_tombstone (hfirst : history.find? (fun s => key s = key t) = some t)
    (hdeleted : isDeleted t = true)
    (hlast : ∀ s ∈ history, mrid s = mrid t → isDeleted s = true → commitId s ≤ commitId t) :
    IsShown history (mrid t) ↔ ∃ s ∈ history, mrid s = mrid t ∧ commitId t < commitId s := by
  constructor
  · intro hshown
    have hnot : t ∉ latest history := fun ht => not_isShown_of_tombstone ht hdeleted hshown
    rw [mem_latest_iff_of_first hfirst] at hnot
    push Not at hnot
    obtain ⟨s, hs, heq, hnle⟩ := hnot
    exact ⟨s, hs, heq, CommitId.not_le.1 hnle⟩
  · rintro ⟨s, hs, heq, hlt⟩
    obtain ⟨r, hr, hid, hle⟩ := exists_mem_latest hs
    refine ⟨r, mem_active_iff.2 ⟨hr, ?_⟩, hid.trans heq⟩
    -- `r` is more recent than the last tombstone
    refine Bool.eq_false_iff.2 fun hgone => ?_
    have hback := hlast r (mem_of_mem_latest hr) (hid.trans heq) hgone
    exact CommitId.not_le.2 hlt (CommitId.le_trans hle hback)

/-- An asset that a tombstone hides stays hidden until a more recent version comes. -/
theorem isShown_append_iff_of_tombstone (ht : t ∈ latest xs) (hdeleted : isDeleted t = true)
    (hlast : ∀ s ∈ ys, mrid s = mrid t → isDeleted s = true → commitId s ≤ commitId t) :
    IsShown (xs ++ ys) (mrid t) ↔ ∃ s ∈ ys, mrid s = mrid t ∧ commitId t < commitId s := by
  have hnewest := (mem_latest_iff.1 ht).isNewest.2
  rw [isShown_iff_of_tombstone (find?_key_append ht ys) hdeleted
    (List.forall_mem_append.2 ⟨fun s hs heq _ => hnewest s hs heq, hlast⟩)]
  constructor
  · rintro ⟨s, hs, heq, hlt⟩
    have hnot : s ∉ xs := fun hxs => CommitId.not_le.2 hlt (hnewest s hxs heq)
    exact ⟨s, (List.mem_append.1 hs).resolve_left hnot, heq, hlt⟩
  · rintro ⟨s, hs, heq, hlt⟩
    exact ⟨s, List.mem_append_right xs hs, heq, hlt⟩

/-! ## The main statement -/

/-- **Resolution keeps the newest version of each asset.**  It lists the assets of a history in
strictly ascending order of identity, each once, in the first of the versions with the greatest
commit id that the asset has.  Where no commit has two versions of an asset, the order of the history
does not matter; the beginning of a history may be resolved ahead of the rest, and a second time
without effect.

What is active is what is not a tombstone.  A tombstone that is the first version of its asset and
commit counts exactly if no version of the asset has a greater commit id, its asset is hidden while
it counts, and if it is the last tombstone of the asset the asset is shown exactly if some version
has a greater commit id.  So a tombstone that counts goes on hiding its asset, whatever versions
come, exactly until one of them has a greater commit id. -/
theorem newest_versions_kept (xs ys : List α) :
    (latest xs).Pairwise (fun r s => mrid r < mrid s) ∧
    (∀ id, ((latest xs).map mrid).count id = if id ∈ xs.map mrid then 1 else 0) ∧
    (∀ id, (latest xs).find? (fun r => mrid r = id) =
      xs.find? fun r => mrid r = id ∧ ∀ s ∈ xs, mrid s = id → commitId s ≤ commitId r) ∧
    (∀ zs, xs.Perm zs → (xs.map fun r => (mrid r, commitId r)).Nodup → latest zs = latest xs) ∧
    latest (latest xs ++ ys) = latest (xs ++ ys) ∧
    latest (latest xs) = latest xs ∧
    active xs = (latest xs).filter (fun r => !isDeleted r) ∧
    (∀ t, isDeleted t = true → xs.find? (fun s => key s = key t) = some t →
      (t ∈ latest xs ↔ ∀ s ∈ xs, mrid s = mrid t → commitId s ≤ commitId t) ∧
      (t ∈ latest xs → ¬ IsShown xs (mrid t)) ∧
      ((∀ s ∈ xs, mrid s = mrid t → isDeleted s = true → commitId s ≤ commitId t) →
        (IsShown xs (mrid t) ↔ ∃ s ∈ xs, mrid s = mrid t ∧ commitId t < commitId s))) ∧
    ∀ t ∈ latest xs, isDeleted t = true →
      (t ∈ latest (xs ++ ys) ↔ ∀ s ∈ ys, mrid s = mrid t → commitId s ≤ commitId t) ∧
      (t ∈ latest (xs ++ ys) → ¬ IsShown (xs ++ ys) (mrid t)) ∧
      ((∀ s ∈ ys, mrid s = mrid t → isDeleted s = true → commitId s ≤ commitId t) →
        (IsShown (xs ++ ys) (mrid t) ↔ ∃ s ∈ ys, mrid s = mrid t ∧ commitId t < commitId s)) := by
  refine ⟨latest_ascending xs, count_mrid_latest xs, find?_latest xs, ?_,
    latest_latest_append xs ys, latest_latest xs, rfl, ?_, ?_⟩
  · intro zs hperm hnodup
    exact (latest_perm hperm hnodup).symm
  · intro t hdeleted hfirst
    refine ⟨mem_latest_iff_of_first hfirst, fun ht => not_isShown_of_tombstone ht hdeleted, ?_⟩
    exact isShown_iff_of_tombstone hfirst hdeleted
  · intro t ht hdeleted
    refine ⟨mem_latest_append_iff ht, fun ht' => not_isShown_of_tombstone ht' hdeleted, ?_⟩
    exact isShown_append_iff_of_tombstone ht hdeleted

/-- A version of a connectivity node. -/
def nodeVersion (n : Nat) (commit : Int64) (deleted : Bool := false) : ConnectivityNode :=
  { mrid := .ofNat n, commitId := ⟨commit⟩, deleted }

/-- Two nodes, of which the second was deleted by commit 4. -/
def twoNodes : List ConnectivityNode :=
  [nodeVersion 2 4 true, nodeVersion 1 5, nodeVersion 2 2, nodeVersion 1 3]

/-- Read backwards, the history of the two nodes has the same newest versions.  The second node is
hidden, and it is shown again once commit 6 revives it, whether or not the history was resolved
before. -/
theorem newest_versions_kept_twoNodes :
    latest twoNodes.reverse = latest twoNodes ∧
      ¬ IsShown twoNodes (.ofNat 2) ∧
      latest (latest twoNodes ++ [nodeVersion 2 6]) = latest (twoNodes ++ [nodeVersion 2 6]) ∧
      IsShown (twoNodes ++ [nodeVersion 2 6]) (.ofNat 2) := by
  obtain ⟨-, -, -, horder, hpieces, -, -, htombstones, hlater⟩ :=
    newest_versions_kept twoNodes [nodeVersion 2 6]
  obtain ⟨hcounts, hhidden, -⟩ := htombstones (nodeVersion 2 4 true) rfl (by decide)
  have hcounted : nodeVersion 2 4 true ∈ latest twoNodes := hcounts.2 (by decide)
  obtain ⟨-, -, hshown⟩ := hlater _ hcounted rfl
  refine ⟨?_, hhidden hcounted, hpieces, (hshown (by decide)).2 ?_⟩
  · exact horder _ (List.reverse_perm _).symm (by decide)
  · exact ⟨nodeVersion 2 6, by decide, by decide⟩

end Version

end Switchyard
