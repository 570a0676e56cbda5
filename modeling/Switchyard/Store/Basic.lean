import Switchyard.Predicate

/-!
# The store

A store keeps, for each table, the rows of every version ever persisted, and the log of commits.
It is append-only: what is visible is the list of batches in the order in which they became
visible, and the rows of a table are read off it.  Resolving the current state is not the store's
work.

Commit ids are taken from a sequence that only moves forward.  It belongs to the store but not to
what is visible, since it advances also for a transaction that is never committed.
-/

set_option autoImplicit false

namespace Switchyard

/-- Rows bound for one table, in the order of insertion. -/
structure Batch where
  table : Table
  rows : List Json

/-- The rows of records of one type. -/
def Batch.ofRecords {α : Type} [Record α] (rs : List α) : Batch :=
  ⟨Record.table α, rs.map Record.encode⟩

/-- What a commit says about itself: why, by whom, and on which branch. -/
structure CommitNote where
  message : String
  author : String
  branch : String := "main"
deriving DecidableEq

/-- A commit as the store keeps it. -/
structure Commit extends CommitNote where
  id : CommitId
deriving DecidableEq

/-- What is visible in a store. -/
structure Contents where
  /-- The commits, in the order in which they became visible. -/
  commits : List Commit := []
  /-- The batches, in the order in which they became visible. -/
  batches : List Batch := []
  /-- How many rows were persisted through transactions, commit rows included. -/
  rowsWritten : Nat := 0

namespace Contents

/-- The rows of a table that some batches bring. -/
def rowsOf (table : Table) (batches : List Batch) : List Json :=
  batches.flatMap fun b => if b.table = table then b.rows else []

@[simp] theorem rowsOf_nil (table : Table) : rowsOf table [] = [] := rfl

@[simp] theorem rowsOf_append (table : Table) (xs ys : List Batch) :
    rowsOf table (xs ++ ys) = rowsOf table xs ++ rowsOf table ys := by
  simp [rowsOf]

@[simp] theorem rowsOf_singleton (table : Table) (b : Batch) :
    rowsOf table [b] = if b.table = table then b.rows else [] := by
  simp [rowsOf]

/-- The rows of a table, oldest first. -/
def rows (contents : Contents) (table : Table) : List Json := rowsOf table contents.batches

end Contents

/-- A store: what is visible, and the last commit id taken from the sequence. -/
structure Store where
  contents : Contents := {}
  lastCommitId : CommitId := .unset

namespace Store

/-- The rows of a table, oldest first. -/
def rows (s : Store) (table : Table) : List Json := s.contents.rows table

/-- The rows of a table that fulfil a condition, oldest first. -/
def query (s : Store) (table : Table) (p : Predicate) : List Json := (s.rows table).filter p.holds

/-- The greater of two commit ids. -/
def laterId (a b : CommitId) : CommitId := if a ≤ b then b else a

/-- Adds a batch outside any transaction.  The sequence moves past every commit id in it, so that
no later commit takes one of them. -/
def seedBatch (s : Store) (b : Batch) (ids : List CommitId) : Store :=
  { contents := { s.contents with batches := s.contents.batches ++ [b] }
    lastCommitId := ids.foldl laterId s.lastCommitId }

/-- Adds records outside any transaction. -/
def seed {α : Type} [Record α] (s : Store) (rs : List α) : Store :=
  s.seedBatch (Batch.ofRecords rs) (rs.map Record.commitId)

/-- The next commit id of the sequence. -/
def nextCommitId (s : Store) : CommitId := ⟨s.lastCommitId.val + 1⟩

/-- The store after taking the next commit id. -/
def takeCommitId (s : Store) : Store := { s with lastCommitId := s.nextCommitId }

/-! ## Small facts -/

theorem le_laterId_left (a b : CommitId) : a ≤ laterId a b := by
  rw [laterId]
  split
  · assumption
  · exact CommitId.le_iff.2 (Int.le_refl _)

theorem le_laterId_right (a b : CommitId) : b ≤ laterId a b := by
  rw [laterId]
  split
  · exact CommitId.le_iff.2 (Int.le_refl _)
  · rename_i h
    rw [CommitId.le_iff] at h ⊢
    omega

theorem rows_seedBatch (s : Store) (b : Batch) (ids : List CommitId) (table : Table) :
    (s.seedBatch b ids).rows table = s.rows table ++ if b.table = table then b.rows else [] := by
  simp [rows, Contents.rows, seedBatch]

@[simp] theorem contents_takeCommitId (s : Store) : s.takeCommitId.contents = s.contents := rfl

end Store

end Switchyard
