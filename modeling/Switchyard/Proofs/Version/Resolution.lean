import Mathlib.Data.List.Induction
import Mathlib.Data.List.Sort
import Switchyard.Version

/-!
# Which versions are current

`Version.latest` takes the versions of a history one by one.  What it is meant to keep is said
without any order of work by `IsLatest`: a version counts for its asset if no later one has a
greater commit id, and no earlier one has a commit id as great.  `mem_latest_iff` is that the two
agree.

Resolution looks at each asset by itself.  So it commutes with choosing assets (`latest_filter`),
versions of assets that are new to a history are just added to what is current
(`mem_active_append`), and a version that is more recent than those of its asset changes nothing but
the place of its asset (`active_concat`).
-/

set_option autoImplicit false

namespace Switchyard

namespace CommitId

variable {a b c : CommitId}

theorem not_le : ¬ a ≤ b ↔ b < a := by
  rw [le_iff, lt_iff]
  omega

theorem le_trans (hab : a ≤ b) (hbc : b ≤ c) : a ≤ c := by
  rw [le_iff] at *
  omega

theorem lt_of_le_of_lt (hab : a ≤ b) (hbc : b < c) : a < c := by
  rw [le_iff, lt_iff] at *
  omega

theorem le_refl (a : CommitId) : a ≤ a := le_iff.2 (Int.le_refl _)

theorem le_of_lt (h : a < b) : a ≤ b := by
  rw [lt_iff] at h
  rw [le_iff]
  omega

theorem lt_of_le_of_ne (hle : a ≤ b) (hne : a ≠ b) : a < b := by
  have hne : a.toInt ≠ b.toInt := fun heq => hne (toInt_inj.1 heq)
  rw [le_iff] at hle
  rw [lt_iff]
  omega

end CommitId

namespace Version

open Versioned

variable {α : Type} [Versioned α]

/-- The version that counts for its asset: no later version of the asset has a greater commit id,
and no earlier one a commit id as great. -/
def IsLatest (history : List α) (r : α) : Prop :=
  ∃ earlier later, history = earlier ++ r :: later ∧
    (∀ s ∈ earlier, mrid s = mrid r → commitId s < commitId r) ∧
    ∀ s ∈ later, mrid s = mrid r → commitId s ≤ commitId r

/-- A list in strictly ascending order of identity. -/
def Ascending (rs : List α) : Prop := rs.Pairwise fun a b => mrid a < mrid b

/-! ## Ascending lists -/

namespace Ascending

variable {rs rs' : List α}

/-- No identity occurs twice in an ascending list. -/
theorem nodup_mrids (h : Ascending rs) : (rs.map mrid).Nodup := by
  rw [List.Nodup, List.pairwise_map]
  refine h.imp ?_
  intro r s hlt heq
  rw [heq] at hlt
  exact Mrid.lt_irrefl _ hlt

/-- An ascending list holds one version of each asset. -/
theorem eq_of_mrid_eq (h : Ascending rs) {r s : α} (hr : r ∈ rs) (hs : s ∈ rs)
    (heq : mrid r = mrid s) : r = s :=
  List.inj_on_of_nodup_map h.nodup_mrids hr hs heq

/-- Ascending lists of the same versions are equal. -/
theorem ext (h : Ascending rs) (h' : Ascending rs') (hmem : ∀ r, r ∈ rs ↔ r ∈ rs') : rs = rs' := by
  have : Std.Irrefl fun a b : α => mrid a < mrid b := ⟨fun a => Mrid.lt_irrefl _⟩
  have : Std.Antisymm fun a b : α => mrid a < mrid b :=
    ⟨fun a b hab hba => absurd (Mrid.lt_trans hab hba) (Mrid.lt_irrefl _)⟩
  exact List.Pairwise.eq_of_mem_iff h h' hmem

theorem filter (h : Ascending rs) (p : α → Bool) : Ascending (rs.filter p) :=
  List.Pairwise.filter p h

/-- What is found first in an ascending list is the least that is looked for. -/
theorem find?_eq_some_iff (h : Ascending rs) {p : α → Bool} {r : α} :
    rs.find? p = some r ↔
      r ∈ rs ∧ p r = true ∧ ∀ s ∈ rs, mrid s < mrid r → p s = false := by
  constructor
  · intro hfind
    obtain ⟨hp, before, after, rfl, hbefore⟩ := List.find?_eq_some_iff_append.1 hfind
    refine ⟨by simp, hp, fun s hs hlt => ?_⟩
    obtain ⟨-, hafter, -⟩ := List.pairwise_append.1 h
    rcases List.mem_append.1 hs with hs | hs
    · simpa using hbefore s hs
    · rcases List.mem_cons.1 hs with rfl | hs
      · exact absurd hlt (Mrid.lt_irrefl _)
      · exact absurd (Mrid.lt_trans hlt (List.rel_of_pairwise_cons hafter hs)) (Mrid.lt_irrefl _)
  · rintro ⟨hr, hp, hless⟩
    obtain ⟨before, after, rfl⟩ := List.append_of_mem hr
    refine List.find?_eq_some_iff_append.2 ⟨hp, before, after, rfl, fun s hs => ?_⟩
    have hlt := (List.pairwise_append.1 h).2.2 s hs r List.mem_cons_self
    simpa using hless s (List.mem_append_left _ hs) hlt

end Ascending

/-! ## One more version -/

/-- What counts once `x` comes in beside some versions: `x` itself, if it is more recent than those
of its asset, and of the others whatever it is not more recent than. -/
def Kept (x : α) (current : List α) (s : α) : Prop :=
  (s ∈ current ∧ (mrid x = mrid s → commitId x ≤ commitId s)) ∨
    (s = x ∧ ∀ t ∈ current, mrid t = mrid x → commitId t < commitId x)

section Kept

variable {x c s : α} {current rest : List α}

/-- A version of a new asset comes in and drives out nothing. -/
theorem kept_iff_of_new (hne : ∀ t ∈ current, mrid t ≠ mrid x) :
    Kept x current s ↔ s = x ∨ s ∈ current := by
  constructor
  · rintro (⟨hs, -⟩ | ⟨rfl, -⟩)
    · exact .inr hs
    · exact .inl rfl
  · rintro (rfl | hs)
    · exact .inr ⟨rfl, fun t ht heq => absurd heq (hne t ht)⟩
    · exact .inl ⟨hs, fun heq => absurd heq.symm (hne s hs)⟩

/-- A version that is not more recent than that of its asset does not come in. -/
theorem kept_iff_of_le (heq : mrid x = mrid c) (hne : ∀ t ∈ rest, mrid t ≠ mrid x)
    (hle : commitId x ≤ commitId c) : Kept x (c :: rest) s ↔ s ∈ c :: rest := by
  constructor
  · rintro (⟨hs, -⟩ | ⟨rfl, hall⟩)
    · exact hs
    · exact absurd hle (CommitId.not_le.2 (hall c List.mem_cons_self heq.symm))
  · intro hs
    refine .inl ⟨hs, fun heq' => ?_⟩
    rcases List.mem_cons.1 hs with rfl | hs
    · exact hle
    · exact absurd heq'.symm (hne s hs)

/-- A version that is more recent than that of its asset drives it out. -/
theorem kept_iff_of_lt (heq : mrid x = mrid c) (hne : ∀ t ∈ rest, mrid t ≠ mrid x)
    (hlt : commitId c < commitId x) : Kept x (c :: rest) s ↔ s ∈ x :: rest := by
  rw [List.mem_cons]
  constructor
  · rintro (⟨hs, hle⟩ | ⟨rfl, -⟩)
    · rcases List.mem_cons.1 hs with rfl | hs
      · exact absurd (hle heq) (CommitId.not_le.2 hlt)
      · exact .inr hs
    · exact .inl rfl
  · rintro (rfl | hs)
    · refine .inr ⟨rfl, fun t ht heq' => ?_⟩
      rcases List.mem_cons.1 ht with rfl | ht
      · exact hlt
      · exact absurd heq' (hne t ht)
    · exact .inl ⟨List.mem_cons_of_mem c hs, fun heq' => absurd heq'.symm (hne s hs)⟩

/-- A version of another asset stays in front of whatever else counts. -/
theorem kept_cons_of_ne (hne : mrid x ≠ mrid c) :
    Kept x (c :: rest) s ↔ s = c ∨ Kept x rest s := by
  simp only [Kept, List.mem_cons, forall_eq_or_imp, hne.symm, false_implies, true_and]
  constructor
  · rintro (⟨rfl | hs, hle⟩ | h)
    · exact .inl rfl
    · exact .inr (.inl ⟨hs, hle⟩)
    · exact .inr (.inr h)
  · rintro (rfl | h | h)
    · exact .inl ⟨.inl rfl, fun heq => absurd heq hne⟩
    · exact .inl ⟨.inr h.1, h.2⟩
    · exact .inr h

/-- One more version comes in unless its asset has one as recent, and drives out an older one. -/
theorem mem_supersede_iff (h : Ascending current) : s ∈ supersede x current ↔ Kept x current s := by
  induction current with
  | nil => simp [supersede, Kept]
  | cons c rest ih =>
    obtain ⟨hhead, hrest⟩ := List.pairwise_cons.1 h
    rw [supersede]
    split
    · -- before all others
      rename_i hlt
      rw [kept_iff_of_new, List.mem_cons]
      intro t ht heq
      rcases List.mem_cons.1 ht with rfl | ht
      · exact Mrid.lt_irrefl _ (heq ▸ hlt)
      · exact Mrid.lt_irrefl _ (heq ▸ Mrid.lt_trans hlt (hhead t ht))
    · split
      · -- in the place of its asset
        rename_i heq
        have hne : ∀ t ∈ rest, mrid t ≠ mrid x := fun t ht heq' =>
          Mrid.lt_irrefl (mrid t) (by simpa [heq', heq] using hhead t ht)
        split
        · rename_i hle
          rw [kept_iff_of_le heq hne hle]
        · rename_i hnle
          rw [kept_iff_of_lt heq hne (CommitId.not_le.1 hnle)]
      · rename_i hne
        rw [List.mem_cons, ih hrest, kept_cons_of_ne hne]

end Kept

theorem latest_concat (history : List α) (x : α) :
    latest (history ++ [x]) = supersede x (latest history) := by
  simp [latest]

/-- The last version of a history counts if it is the most recent, and the others count as before
unless it is more recent than they are. -/
theorem isLatest_concat {history : List α} {x s : α} :
    IsLatest (history ++ [x]) s ↔
      (IsLatest history s ∧ (mrid x = mrid s → commitId x ≤ commitId s)) ∨
        (s = x ∧ ∀ t ∈ history, mrid t = mrid x → commitId t < commitId x) := by
  constructor
  · rintro ⟨earlier, later, heq, hearlier, hlater⟩
    rcases List.eq_nil_or_concat later with rfl | ⟨later, y, rfl⟩
    · obtain ⟨rfl, hx⟩ := List.append_inj' heq rfl
      obtain rfl : x = s := List.head_eq_of_cons_eq hx
      exact .inr ⟨rfl, hearlier⟩
    · rw [List.concat_eq_append, ← List.cons_append, ← List.append_assoc] at heq
      obtain ⟨rfl, hx⟩ := List.append_inj' heq rfl
      obtain rfl : x = y := List.head_eq_of_cons_eq hx
      refine .inl ⟨⟨earlier, later, rfl, hearlier, fun t ht => hlater t (by simp [ht])⟩, ?_⟩
      exact hlater x (by simp)
  · rintro (⟨⟨earlier, later, rfl, hearlier, hlater⟩, hle⟩ | ⟨rfl, hall⟩)
    · refine ⟨earlier, later ++ [x], by simp, hearlier, fun t ht => ?_⟩
      rcases List.mem_append.1 ht with ht | ht
      · exact hlater t ht
      · rw [List.mem_singleton.1 ht]
        exact hle
    · exact ⟨history, [], rfl, hall, by simp⟩

/-! ## Latest versions -/

/-- Every asset of a history has a latest version, as recent as any other. -/
theorem exists_mem_latest {history : List α} {s : α} (hs : s ∈ history) :
    ∃ r ∈ latest history, mrid r = mrid s ∧ commitId s ≤ commitId r := by
  induction history using List.reverseRecOn with
  | nil => exact absurd hs (by simp)
  | append_singleton history x ih =>
    have hasc : Ascending (latest history) := latest_ascending history
    rw [latest_concat]
    simp only [mem_supersede_iff hasc, Kept]
    -- the latest version that the history had, if it had one
    by_cases hex : ∃ r ∈ latest history, mrid r = mrid s ∧ commitId s ≤ commitId r
    · obtain ⟨r, hr, hid, hle⟩ := hex
      by_cases hstay : mrid x = mrid r → commitId x ≤ commitId r
      · exact ⟨r, .inl ⟨hr, hstay⟩, hid, hle⟩
      · obtain ⟨heq, hnle⟩ := Classical.not_imp.1 hstay
        have hlt := CommitId.not_le.1 hnle
        refine ⟨x, .inr ⟨rfl, fun t ht heq' => ?_⟩, heq.trans hid,
          CommitId.le_trans hle (CommitId.le_of_lt hlt)⟩
        rwa [hasc.eq_of_mrid_eq ht hr (heq'.trans heq)]
    · rcases List.mem_append.1 hs with hs | hs
      · exact absurd (ih hs) hex
      · obtain rfl := List.mem_singleton.1 hs
        refine ⟨s, .inr ⟨rfl, fun t ht heq => ?_⟩, rfl, CommitId.le_refl _⟩
        exact CommitId.not_le.1 fun hle => hex ⟨t, ht, heq, hle⟩

/-- **Resolution keeps exactly the versions that count.** -/
theorem mem_latest_iff {history : List α} {r : α} : r ∈ latest history ↔ IsLatest history r := by
  induction history using List.reverseRecOn generalizing r with
  | nil => simp [latest, IsLatest]
  | append_singleton history x ih =>
    rw [latest_concat, mem_supersede_iff (latest_ascending history), isLatest_concat, Kept, ih]
    refine or_congr_right (and_congr_right fun _ => ⟨fun h t ht heq => ?_, fun h t ht => ?_⟩)
    · obtain ⟨u, hu, hid, hle⟩ := exists_mem_latest ht
      exact CommitId.lt_of_le_of_lt hle (h u hu (hid.trans heq))
    · obtain ⟨earlier, later, rfl, -, -⟩ := ih.1 ht
      exact h t (by simp)

theorem mem_of_mem_latest {history : List α} {r : α} (h : r ∈ latest history) : r ∈ history := by
  obtain ⟨earlier, later, rfl, -, -⟩ := mem_latest_iff.1 h
  simp

/-- **Choosing assets commutes with resolution.** -/
theorem latest_filter (p : Mrid → Bool) (history : List α) :
    latest (history.filter fun r => p (mrid r)) = (latest history).filter fun r => p (mrid r) := by
  have hchosen {r : α} (hr : r ∈ latest history) (hp : p (mrid r) = true) :
      r ∈ latest (history.filter fun r => p (mrid r)) := by
    obtain ⟨earlier, later, heq, hearlier, hlater⟩ := mem_latest_iff.1 hr
    refine mem_latest_iff.2 ⟨earlier.filter fun r => p (mrid r), later.filter fun r => p (mrid r),
      ?_, fun s hs => hearlier s (List.mem_of_mem_filter hs),
      fun s hs => hlater s (List.mem_of_mem_filter hs)⟩
    simp [heq, hp]
  have hasc : Ascending (latest (history.filter fun r => p (mrid r))) := latest_ascending _
  refine hasc.ext (Ascending.filter (latest_ascending history) _) fun r => ?_
  rw [List.mem_filter]
  constructor
  · intro hr
    obtain ⟨hmem, hp⟩ := List.mem_filter.1 (mem_of_mem_latest hr)
    obtain ⟨s, hs, hid, -⟩ := exists_mem_latest hmem
    rw [hasc.eq_of_mrid_eq hr (hchosen hs (hid ▸ hp)) hid.symm]
    exact ⟨hs, hid ▸ hp⟩
  · exact fun ⟨hr, hp⟩ => hchosen hr hp

/-- Versions of assets that are new to a history are all current, and leave the others so. -/
theorem mem_latest_append {history news : List α} (hnodup : (news.map mrid).Nodup)
    (hnew : ∀ r ∈ news, ∀ s ∈ history, mrid r ≠ mrid s) {r : α} :
    r ∈ latest (history ++ news) ↔ r ∈ latest history ∨ r ∈ news := by
  induction news using List.reverseRecOn with
  | nil => simp
  | append_singleton news x ih =>
    rw [List.map_append, List.nodup_append'] at hnodup
    obtain ⟨hnews, -, hdisjoint⟩ := hnodup
    have hx : ∀ t ∈ history ++ news, mrid t ≠ mrid x := by
      intro t ht heq
      rcases List.mem_append.1 ht with ht | ht
      · exact hnew x (by simp) t ht heq.symm
      · exact hdisjoint (List.mem_map_of_mem ht) (by simp [heq])
    rw [← List.append_assoc, latest_concat, mem_supersede_iff (latest_ascending _),
      kept_iff_of_new fun t ht => hx t (mem_of_mem_latest ht),
      ih hnews fun r hr => hnew r (List.mem_append_left _ hr), List.mem_append,
      List.mem_singleton, or_comm, or_assoc]

/-! ## Active versions -/

theorem mem_active_iff {history : List α} {r : α} :
    r ∈ active history ↔ r ∈ latest history ∧ isDeleted r = false := by
  rw [active, List.mem_filter, Bool.not_eq_true']

/-- The version that is there now: it counts for its asset and is no tombstone. -/
def IsCurrent (history : List α) (r : α) : Prop := IsLatest history r ∧ isDeleted r = false

theorem mem_active_iff_isCurrent {history : List α} {r : α} :
    r ∈ active history ↔ IsCurrent history r := by
  rw [mem_active_iff, mem_latest_iff, IsCurrent]

theorem active_ascending (history : List α) : Ascending (active history) :=
  Ascending.filter (latest_ascending history) _

/-- An asset has one current version at most. -/
theorem IsCurrent.eq_of_mrid_eq {history : List α} {r s : α} (hr : IsCurrent history r)
    (hs : IsCurrent history s) (heq : mrid r = mrid s) : r = s :=
  (active_ascending history).eq_of_mrid_eq (mem_active_iff_isCurrent.2 hr)
    (mem_active_iff_isCurrent.2 hs) heq

theorem active_filter (p : Mrid → Bool) (history : List α) :
    active (history.filter fun r => p (mrid r)) = (active history).filter fun r => p (mrid r) := by
  rw [active, latest_filter, List.filter_filter, active, List.filter_filter]
  exact List.filter_congr fun r _ => Bool.and_comm _ _

/-- Versions of new assets that are not tombstones are all active, and leave the others so. -/
theorem mem_active_append {history news : List α} (hnodup : (news.map mrid).Nodup)
    (hnew : ∀ r ∈ news, ∀ s ∈ history, mrid r ≠ mrid s)
    (hactive : ∀ r ∈ news, isDeleted r = false) {r : α} :
    r ∈ active (history ++ news) ↔ r ∈ active history ∨ r ∈ news := by
  rw [mem_active_iff, mem_active_iff, mem_latest_append hnodup hnew, or_and_right]
  exact or_congr_right ⟨fun h => h.1, fun h => ⟨h, hactive r h⟩⟩

/-! ## A more recent version -/

/-- Puts a version in the place of its asset among ascending records; a tombstone leaves the place
empty. -/
def replace (x : α) (current : List α) : List α :=
  current.filter (fun r => mrid r < mrid x) ++
    ((if isDeleted x then [] else [x]) ++ current.filter fun r => mrid x < mrid r)

theorem mem_replace_iff {x r : α} {current : List α} :
    r ∈ replace x current ↔
      (r ∈ current ∧ mrid r ≠ mrid x) ∨ (r = x ∧ isDeleted x = false) := by
  have hne : mrid r ≠ mrid x ↔ mrid r < mrid x ∨ mrid x < mrid r := by
    refine ⟨fun hne => ?_, ?_⟩
    · rcases Mrid.lt_or_eq_or_gt (mrid r) (mrid x) with hlt | heq | hgt
      · exact .inl hlt
      · exact absurd heq hne
      · exact .inr hgt
    · rintro (hlt | hgt) heq
      · exact Mrid.lt_irrefl _ (heq ▸ hlt)
      · exact Mrid.lt_irrefl _ (heq ▸ hgt)
  have hplace : r ∈ (if isDeleted x then [] else [x]) ↔ r = x ∧ isDeleted x = false := by
    cases isDeleted x <;> simp
  simp only [replace, List.mem_append, List.mem_filter, decide_eq_true_eq, hplace, hne]
  rw [and_or_left, or_assoc, or_comm (a := r = x ∧ _)]

theorem replace_ascending {x : α} {current : List α} (h : Ascending current) :
    Ascending (replace x current) := by
  have hplace {r : α} (hr : r ∈ if isDeleted x then [] else [x]) : r = x := by
    cases hdeleted : isDeleted x <;> simp [hdeleted] at hr
    exact hr
  refine List.pairwise_append.2 ⟨h.filter _, List.pairwise_append.2 ⟨?_, h.filter _, ?_⟩, ?_⟩
  · cases isDeleted x <;> simp
  · intro r hr s hs
    rw [hplace hr]
    exact of_decide_eq_true (List.mem_filter.1 hs).2
  · intro r hr s hs
    have hlt : mrid r < mrid x := of_decide_eq_true (List.mem_filter.1 hr).2
    rcases List.mem_append.1 hs with hs | hs
    · rwa [hplace hs]
    · exact Mrid.lt_trans hlt (of_decide_eq_true (List.mem_filter.1 hs).2)

/-- **A version that is more recent than all of its asset takes the place of its asset**, or clears
it if it is a tombstone, and every other asset stays as it was. -/
theorem active_concat {history : List α} {x : α}
    (hnewest : ∀ s ∈ history, mrid s = mrid x → commitId s < commitId x) :
    active (history ++ [x]) = replace x (active history) := by
  refine (active_ascending _).ext (replace_ascending (active_ascending history)) fun r => ?_
  have hlatest : r ∈ latest (history ++ [x]) ↔
      (r ∈ latest history ∧ mrid r ≠ mrid x) ∨ r = x := by
    rw [latest_concat, mem_supersede_iff (latest_ascending history), Kept]
    refine or_congr (and_congr_right fun hr => ⟨fun hle heq => ?_, fun hne heq => ?_⟩) ?_
    · exact CommitId.not_le.2 (hnewest r (mem_of_mem_latest hr) heq) (hle heq.symm)
    · exact absurd heq.symm hne
    · exact and_iff_left fun t ht => hnewest t (mem_of_mem_latest ht)
  rw [mem_active_iff, hlatest, mem_replace_iff, mem_active_iff, or_and_right, and_right_comm]
  refine or_congr_right (and_congr_right fun heq => ?_)
  rw [heq]

end Version

end Switchyard
