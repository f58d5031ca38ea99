/-
  TypedStore — the journaling directory engine.

  A database is a directory with a marker file that refers to its keyspace.
  Keys have 1 to 65535 bytes, and the length is checked before the engine sees
  the key.

  * opening makes missing directories if that is allowed, and makes a database
    of a directory that has no marker;
  * a database that is open already is refused;
  * removing a database removes the directory with everything below it.

  The engine follows every change by a call that makes it last, forced to the
  disk or only handed to the system as `StoreOptions.syncWrites` says.  That
  call is left out: it is taken to succeed, and what outlives a crash of the
  system is not described.
-/
import TypedStore.Engine.Host

namespace TypedStore

/-- An open journaling database. -/
structure JournalHandle where
  /-- The number of the keyspace. -/
  number : Nat
  /-- Where the directory is. -/
  location : Location
  deriving DecidableEq

namespace Journal

/-! ## Keys -/

/-- The greatest length of a key, in bytes. -/
def greatestKey : Nat := 65535

/-- Whether the engine takes a key. -/
def isKey (key : String) : Bool := 1 ≤ key.utf8ByteSize && key.utf8ByteSize ≤ greatestKey

/-- The error of a key that the engine does not take. -/
def keyError (key : String) : StoreError :=
  .backend "fjall" ("key length " ++ key.utf8ByteSize.repr ++ " is outside 1..=" ++
    greatestKey.repr ++ " bytes")

/-- Fails unless the engine takes a key. -/
def checkKey (key : String) : Except StoreError Unit :=
  if isKey key then .ok () else .error (keyError key)

end Journal

/-- The byte store on a journaling database.  The call behind every change that
    makes it last is left out. -/
def JournalHandle.byteStore (j : JournalHandle) : ByteStore Host where
  name := "fjall"
  put key bytes h := do
    Journal.checkKey key
    return h.putKeyspace j.number ((h.keyspace j.number).insert key bytes)
  get key h := do
    Journal.checkKey key
    return (h.keyspace j.number).get? key
  delete key h := do
    Journal.checkKey key
    return h.putKeyspace j.number ((h.keyspace j.number).erase key)
  truncate h := .ok (h.putKeyspace j.number .empty)

namespace Journal

/-! ## Opening -/

/-- The name of the marker file. -/
def marker : String := "version"

/-- Opens the database in the directory at a location. -/
def openAt (held : List JournalHandle) (loc : Location) (h : Host) :
    Except StoreError JournalHandle × Host :=
  match h.files.node? (loc ++ [marker]) with
  | some (.file (.keyspace number)) =>
    if held.any (·.number == number) then (.error .journal, h)
    else (.ok ⟨number, loc⟩, h)
  | some _ => (.error .journal, h)
  | none =>
    let (number, h) := h.takeNumber
    (.ok ⟨number, loc⟩,
      (h.putNode (loc ++ [marker]) (.file (.keyspace number))).putKeyspace number .empty)

/-- Opens the database in the directory at a path.  `held` are the databases
    that are open already. -/
def «open» (held : List JournalHandle) (path : String) (create : Bool) (h : Host) :
    Except StoreError JournalHandle × Host :=
  match h.files.ensureDirectory path create with
  | .error e => (.error (.file e), h)
  | .ok files =>
    match files.resolve path with
    | .error _ => (.error .journal, { h with files })
    | .ok loc => openAt held loc { h with files }

/-! ## Removing -/

/-- Removes the directory of a database; a missing one is passed over. -/
def wipe (path : String) (h : Host) : Except StoreError Unit × Host :=
  match h.files.removeAll path with
  | (none, files) => (.ok (), { h with files })
  | (some e, files) => (.error (.file e), { h with files })

end Journal

end TypedStore
