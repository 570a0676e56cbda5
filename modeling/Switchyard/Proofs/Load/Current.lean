import Switchyard.Asset.Connection
import Switchyard.Asset.Entity
import Switchyard.Proofs.Load.Resolved

/-!
# What is loaded is current

`Backend.loadActive` gets by with two small queries where resolving the whole table would do.  It
loads exactly the assets whose latest version is no tombstone and matches: an asset is not found
under its older versions, and none that matches is missed, however many versions share a commit id
(`loaded_iff_current`).

The condition has to see every row it is asked about.  A row without names is read, but no condition
on a column matches it, so if the latest version of an asset is such a row, an older version that
matches is loaded in its place (`stale_version_loaded`).  Identity rows are the only ones that can
be without names, and they never are when the store itself writes them.
-/

set_option autoImplicit false

namespace Switchyard

open Version

namespace Backend

/-- **What is loaded is what is current and matches**, in strictly ascending order of identity.  The
condition either accepts every row or is one on a column of rows that are objects; all rows of a
type are, if it has no rows without names. -/
theorem loaded_iff_current {α : Type} [Record α] {b : Backend} {history : List α} {p : Predicate}
    (hfetch : b.fetch α .all = .ok history) (hp : p.Reads α)
    (hrows : p = .all ∨ Record.isPositional α = false ∨
      ∀ row ∈ b.store.rows (Record.table α), row.IsObject) :
    ∃ current, b.loadActive α p = .ok current ∧
      current = (active history).filter (fun r => p.holds (Record.encode r)) ∧
      current.Pairwise (fun r s => Record.mrid r < Record.mrid s) ∧
      (current.map Record.mrid).Nodup ∧
      ∀ r, r ∈ current ↔
        IsLatest history r ∧ Record.isDeleted r = false ∧ p.holds (Record.encode r) = true := by
  have hsees : ∀ row ∈ b.store.rows (Record.table α), p.Sees row := by
    rcases hrows with hall | hnamed | hobjects
    · exact fun _ _ => .inl hall
    · exact sees_of_fetch hnamed hfetch p
    · exact fun row hrow => .inr (hobjects row hrow)
  have hascending : Ascending ((active history).filter fun r => p.holds (Record.encode r)) :=
    (active_ascending history).filter _
  refine ⟨_, loadActive_eq_of_sees hp hsees hfetch, rfl, hascending, hascending.nodup_mrids, ?_⟩
  intro r
  rw [List.mem_filter, mem_active_iff, mem_latest_iff, and_assoc]

/-- A version of a terminal of a piece of equipment. -/
def terminalVersion (n : Nat) (commit : Int64) (equipment : Nat) (deleted : Bool := false) :
    Terminal :=
  { mrid := .ofNat n, commitId := ⟨commit⟩, deleted, conductingEquipmentMrid := .ofNat equipment }

/-- Terminals of which the first was moved from equipment 100 to 101, the second has two versions
of one commit, and the third is gone. -/
def terminalVersions : List Terminal :=
  [terminalVersion 1 1 100, terminalVersion 1 2 101, terminalVersion 2 1 100,
    terminalVersion 2 1 101, terminalVersion 3 1 100, terminalVersion 3 2 100 true]

/-- Of these, equipment 100 has the second one, in the version that comes first. -/
theorem loaded_iff_current_terminalVersions :
    ({ store := ({} : Store).seed terminalVersions } : Backend).fetch Terminal .all =
        .ok terminalVersions ∧
      ({ store := ({} : Store).seed terminalVersions } : Backend).loadActive Terminal
          (.columnIn "conducting_equipment_mrid" [.ofNat 100]) =
        .ok [terminalVersion 2 1 100] := by
  have hfetch : ({ store := ({} : Store).seed terminalVersions } : Backend).fetch Terminal .all =
      .ok terminalVersions :=
    fetch_all_seeded fun t _ =>
      Record.storable_of_forall_ne_real (by simp [Record.columns]) t
  have hreads : (Predicate.columnIn "conducting_equipment_mrid" [.ofNat 100]).Reads Terminal :=
    ⟨⟨"conducting_equipment_mrid", .mrid⟩, by simp [Record.schema, Record.columns], rfl⟩
  obtain ⟨current, hload, rfl, -⟩ := loaded_iff_current hfetch hreads (.inr (.inl rfl))
  rw [hload]
  exact ⟨hfetch, congrArg Except.ok (by decide +kernel)⟩

/-! ## Rows without names -/

/-- A version of an identity row. -/
def switchRow (commit : Int64) : Entity :=
  { mrid := .ofNat 1, commitId := ⟨commit⟩, entityType := "Switch" }

/-- A store with two versions of an identity row, of which the newer one is without names. -/
def unnamedNewer : Backend :=
  { store := { contents := { batches :=
    [⟨.entities, [Record.encodePositional (switchRow 3), Record.encode (switchRow 2)]⟩] } } }

/-- **If the newer version of an asset is a row without names, the older one is loaded in its
place**, though every row can be read and resolving the whole table gives the newer one. -/
theorem stale_version_loaded :
    unnamedNewer.fetch Entity .all = .ok [switchRow 3, switchRow 2] ∧
      (Predicate.mridIn [.ofNat 1]).Reads Entity ∧
      unnamedNewer.loadActive Entity (.mridIn [.ofNat 1]) = .ok [switchRow 2] ∧
      (active [switchRow 3, switchRow 2]).filter
        (fun r => (Predicate.mridIn [.ofNat 1]).holds (Record.encode r)) = [switchRow 3] :=
  ⟨toOption_eq_some_iff.1 (by decide +kernel), Predicate.reads_mridIn _,
    toOption_eq_some_iff.1 (by decide +kernel), by decide +kernel⟩

end Backend

end Switchyard
