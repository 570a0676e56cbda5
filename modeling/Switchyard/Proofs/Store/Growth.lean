import Switchyard.Proofs.Write.Calls
import Switchyard.Proofs.Write.EditOutcome

/-!
# What is visible only grows

Whatever happens to a store, the commits and the rows that were visible stay where they are, and
new ones come behind them.  `Contents.Extends` says so of two states of a store, and `Backend.Later`
that one is a later state of the other, whatever was done in between: actions on interleaved
transactions, whole writes and edits.
-/

set_option autoImplicit false

namespace Switchyard

/-! ## Extended contents -/

/-- Everything visible before is visible after, and new things come behind it. -/
structure Contents.Extends (before after : Contents) : Prop where
  commits : before.commits <+: after.commits
  batches : before.batches <+: after.batches
  rowsWritten : before.rowsWritten ≤ after.rowsWritten

namespace Contents.Extends

variable {a b c : Contents}

theorem refl (a : Contents) : a.Extends a := ⟨List.prefix_rfl, List.prefix_rfl, Nat.le_refl _⟩

theorem trans (hab : a.Extends b) (hbc : b.Extends c) : a.Extends c :=
  ⟨hab.commits.trans hbc.commits, hab.batches.trans hbc.batches,
    Nat.le_trans hab.rowsWritten hbc.rowsWritten⟩

/-- The rows of a table stay where they are. -/
theorem rows (h : a.Extends b) (table : Table) : a.rows table <+: b.rows table := by
  obtain ⟨later, hlater⟩ := h.batches
  exact ⟨rowsOf table later, by rw [Contents.rows, Contents.rows, ← hlater, rowsOf_append]⟩

end Contents.Extends

theorem Contents.extends_append (c : Contents) (tx : Transaction) : c.Extends (c.append tx) where
  commits := List.prefix_append _ _
  batches := List.prefix_append _ _
  rowsWritten := by
    simp only [append]
    omega

theorem Store.extends_seedBatch (s : Store) (batch : Batch) (ids : List CommitId) :
    s.contents.Extends (s.seedBatch batch ids).contents :=
  ⟨List.prefix_rfl, List.prefix_append _ _, Nat.le_refl _⟩

/-! ## Later states -/

/-- An action leaves everything visible where it is. -/
theorem Interleaving.extends_step (s : Interleaving) (a : Action) :
    s.backend.store.contents.Extends (s.step a).2.1.backend.store.contents := by
  have hend := s.step_end a
  generalize (s.step a).1 = answer at hend
  generalize (s.step a).2.1 = after at hend
  cases hend with
  | seeded batch ids => exact Store.extends_seedBatch _ batch ids
  | committed name tx => exact Contents.extends_append _ tx
  | failingSet | outageSet | started | commitStaged | batchStaged | ended | refused =>
    exact .refl _

theorem Interleaving.extends_run (s : Interleaving) (actions : List Action) :
    s.backend.store.contents.Extends (s.run actions).backend.store.contents := by
  induction actions generalizing s with
  | nil => exact .refl _
  | cons a rest ih => exact (s.extends_step a).trans (ih _)

namespace Backend

/-- A write leaves everything visible where it is, since the calls that it makes do. -/
theorem extends_write {α : Type} [Aggregate α] (b : Backend) (modelId : Int32) (note : CommitNote)
    (limit : Option Nat) (a : α) :
    b.store.contents.Extends (b.write modelId note limit a).backend.store.contents := by
  have hfree : ({ backend := b } : Interleaving).transaction? "write" = none := rfl
  have hcalls := Interleaving.extends_run { backend := b }
    (b.writeCalls "write" modelId note limit a)
  rwa [Interleaving.run_writeCalls hfree] at hcalls

/-- An edit leaves everything visible where it is. -/
theorem extends_commitIfChanged {α : Type} [Record α] (b : Backend) (modelId : Int32)
    (note : CommitNote) (stored : String) (candidate : α) :
    b.store.contents.Extends
      (b.commitIfChanged modelId note stored candidate).backend.store.contents := by
  have hend := b.edit_end modelId note stored candidate
  generalize (b.commitIfChanged modelId note stored candidate).result = result at hend
  generalize (b.commitIfChanged modelId note stored candidate).backend = after at hend
  cases hend with
  | unchanged => exact .refl _
  | committed | failed => exact extends_write _ modelId note none _

/-- A state of a store that another may come to, whatever is done: actions on transactions, of which
any may be open, writes of any aggregates, and edits. -/
inductive Later (b : Backend) : Backend → Prop where
  | refl : Later b b
  | act (s : Interleaving) (a : Action) (h : Later b s.backend) : Later b (s.step a).2.1.backend
  | write {c : Backend} {α : Type} [Aggregate α] (modelId : Int32) (note : CommitNote)
    (limit : Option Nat) (a : α) (h : Later b c) :
    Later b (c.write modelId note limit a).backend
  | edit {c : Backend} {α : Type} [Record α] (modelId : Int32) (note : CommitNote)
    (stored : String) (candidate : α) (h : Later b c) :
    Later b (c.commitIfChanged modelId note stored candidate).backend

/-- **Whatever is visible stays visible.** -/
theorem Later.extends {b c : Backend} (h : b.Later c) :
    b.store.contents.Extends c.store.contents := by
  induction h with
  | refl => exact .refl _
  | act s a _ ih => exact ih.trans (s.extends_step a)
  | write modelId note limit a _ ih => exact ih.trans (extends_write _ modelId note limit a)
  | edit modelId note stored candidate _ ih =>
    exact ih.trans (extends_commitIfChanged _ modelId note stored candidate)

end Backend

end Switchyard
