import Switchyard.Record.Basic

/-!
# The common part of all assets

Every asset has an identity, a version, and the names it is displayed by.  The record types of the
asset model extend `Identity`, and their columns start with those of the names.
-/

set_option autoImplicit false

namespace Switchyard

/-- The identity, the version and the names of an asset. -/
structure Identity where
  /-- The identity of the asset. -/
  mrid : Mrid := Mrid.nil
  /-- The commit that produced this version. -/
  commitId : CommitId := CommitId.unset
  /-- Whether this version says that the asset is gone. -/
  deleted : Bool := false
  /-- The display name. -/
  name : String := ""
  /-- The short display name. -/
  shortName : String := ""
  /-- The description. -/
  description : String := ""
deriving DecidableEq, Inhabited

/-- The columns of an asset after the version key: those of the identity, then its own. -/
@[reducible] def assetColumns (own : List Column) : List Column :=
  ⟨"deleted", .flag⟩ :: ⟨"name", .text⟩ :: ⟨"short_name", .text⟩ :: ⟨"description", .text⟩ :: own

/-- The columns that every asset has are named differently. -/
theorem nodup_assetColumns :
    ("mrid" :: "commit_id" :: (assetColumns []).map Column.name).Nodup := by decide

end Switchyard
