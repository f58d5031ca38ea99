/-
  TypedStore — tuning options of the directory engines.

  The size and the number of readers have a part in opening.  Whether writes are
  forced to the disk is read and kept with them, but no answer depends on it, as
  long as the system does not crash.
-/

namespace TypedStore

/-- The tuning options of a directory engine. -/
structure StoreOptions where
  /-- The greatest size of a database, in bytes. -/
  mapSize : Option Nat := none
  /-- The number of readers at one time. -/
  maxReaders : Option Nat := none
  /-- Whether every write is forced to the disk; no engine here looks at it. -/
  syncWrites : Bool := true
  deriving DecidableEq, Repr

namespace StoreOptions

/-- The size of a database that is not told another. -/
def defaultMapSize : Nat := 1024 * 1024 * 1024

/-- The greatest size of a database with the default filled in. -/
def effectiveMapSize (o : StoreOptions) : Nat := o.mapSize.getD defaultMapSize

/-- The options with another size. -/
def withMapSize (o : StoreOptions) (bytes : Nat) : StoreOptions := { o with mapSize := some bytes }

/-- The options with another number of readers. -/
def withMaxReaders (o : StoreOptions) (readers : Nat) : StoreOptions :=
  { o with maxReaders := some readers }

/-- The options with another policy on writes. -/
def withSyncWrites (o : StoreOptions) (sync : Bool) : StoreOptions := { o with syncWrites := sync }

end StoreOptions

end TypedStore
