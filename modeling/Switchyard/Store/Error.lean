import Switchyard.Table

/-!
# What a store can report

The causes for which an operation of a store fails, and the places where a failure can be
injected to see how the rest copes with it.
-/

set_option autoImplicit false

namespace Switchyard

/-- Why an operation of the store failed. -/
inductive StoreError where
  /-- The database reports an error. -/
  | database (text : String)
  /-- A row could not be written or read. -/
  | serialization (text : String)
  /-- The store refuses the operation. -/
  | rejected (operation : String) (reason : String)
deriving DecidableEq

/-- The message of an error. -/
def StoreError.message : StoreError → String
  | database text => "Database error: " ++ text
  | serialization text => "Row serialization failed: " ++ text
  | rejected operation reason => "Store rejected " ++ operation ++ ": " ++ reason

/-- A place where every transaction is made to fail. -/
inductive FailurePoint where
  /-- The insertion of the commit row. -/
  | commitRow
  /-- The insertion of a batch into a table. -/
  | insertInto (table : Table)
deriving DecidableEq

/-- The error that arises at a failure point. -/
def FailurePoint.error : FailurePoint → StoreError
  | commitRow => .rejected "commit insert" "injected failure"
  | insertInto table => .rejected ("insert into " ++ table.name) "injected failure"

end Switchyard
