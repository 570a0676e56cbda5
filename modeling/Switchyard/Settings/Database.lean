import Switchyard.Settings.Number

/-!
# Settings of the database

Where the database is and how its pool of connections behaves.  Every setting has a default, which
also holds where the given value cannot be read; the values are read as they stand, white space
included.
-/

set_option autoImplicit false

namespace Switchyard

/-- The settings of the pool of connections to the database. -/
structure DatabaseSettings where
  url : String := "postgresql://localhost/grid"
  maxConnections : Nat := 10
  /-- How many connections are kept open while idle. -/
  minConnections : Nat := 2
  /-- How many seconds a connection may take to be acquired. -/
  connectTimeout : Nat := 10
  /-- How many seconds a connection may be idle. -/
  idleTimeout : Nat := 300
  /-- How many seconds a connection may live. -/
  maxLifetime : Nat := 1800
deriving DecidableEq

namespace DatabaseSettings

/-- The settings that a table of named values gives. -/
def ofLookup (lookup : String → Option String) : DatabaseSettings :=
  let number (name : String) (bound default : Nat) :=
    ((lookup name).bind fun s => Settings.natBelow? bound s.toList).getD default
  let default : DatabaseSettings := {}
  { url := (lookup "DATABASE_URL").getD default.url
    maxConnections := number "DB_MAX_CONNECTIONS" UInt32.size default.maxConnections
    minConnections := number "DB_MIN_CONNECTIONS" UInt32.size default.minConnections
    connectTimeout := number "DB_CONNECT_TIMEOUT_SECS" UInt64.size default.connectTimeout
    idleTimeout := number "DB_IDLE_TIMEOUT_SECS" UInt64.size default.idleTimeout
    maxLifetime := number "DB_MAX_LIFETIME_SECS" UInt64.size default.maxLifetime }

theorem ofLookup_none : ofLookup (fun _ => none) = {} := rfl

end DatabaseSettings

end Switchyard
