import Switchyard.Store.Error

/-!
# How a write fails

A write is a fixed sequence of steps.  It fails at the first step that the store refuses, or it
runs out of its time; in both cases nothing of it is persisted.
-/

set_option autoImplicit false

namespace Switchyard

/-- A step of a write. -/
inductive WriteStep where
  /-- Opening the transaction. -/
  | start
  /-- Inserting the commit row. -/
  | commitRow
  /-- Turning the records into rows. -/
  | encode
  /-- Inserting the identity rows. -/
  | identities
  /-- Inserting a batch into its table. -/
  | batch (table : Table)
  /-- Committing the transaction. -/
  | finalize
deriving DecidableEq

/-- The name of a step in messages. -/
def WriteStep.name : WriteStep → String
  | start => "transaction begin"
  | commitRow => "commit insert"
  | encode => "record encoding"
  | identities => "identity insert"
  | batch table => "batch insert into " ++ table.name
  | finalize => "transaction commit"

/-- Why a write persisted nothing. -/
inductive WriteError where
  /-- A step failed, for a reason that the store gives. -/
  | step (step : WriteStep) (source : StoreError)
  /-- The write did not finish within its time, given in milliseconds. -/
  | timedOut (timeout : Nat)
deriving DecidableEq

/-- A span of whole milliseconds: in seconds with as many decimals as it needs, in milliseconds
below one second, and in nanoseconds if there is none. -/
def durationText (ms : Nat) : String :=
  let whole := ms / 1000
  let rest := ms % 1000
  if ms = 0 then "0ns"
  else if whole = 0 then toString rest ++ "ms"
  else if rest = 0 then toString whole ++ "s"
  else
    let digits := (Nat.toDigits 10 (1000 + rest)).tail.reverse.dropWhile (· = '0')
    toString whole ++ "." ++ String.ofList digits.reverse ++ "s"

namespace WriteError

/-- The step that failed, if the write failed at one. -/
def step? : WriteError → Option WriteStep
  | step s _ => some s
  | timedOut _ => none

/-- The message of an error. -/
def message : WriteError → String
  | step s source => "Write failed at " ++ s.name ++ ": " ++ source.message
  | timedOut timeout =>
    "Write timed out after " ++ durationText timeout ++ ", no changes persisted"

end WriteError

end Switchyard
