/-
  TypedStore — open engines, and how to open them.

  A handle says what an open facade works on.  It holds no data: these are on
  the host, so that several handles can share them and that they outlive the
  handle.  `Handle.backend` is the backend that a handle stands for.

  The settings of an engine lead to a handle by `EngineConfig.open`, and
  `EngineConfig.wipe` removes everything that the engine of these settings
  stores.
-/
import TypedStore.Engine.Memory
import TypedStore.Engine.TableFile
import TypedStore.Engine.Journal
import TypedStore.Engine.Environment
import TypedStore.Engine.RowServer

namespace TypedStore

/-- What an open facade works on. -/
inductive Handle where
  | map (name : MapName)
  | store (name : String)
  | table (t : TableHandle)
  | journal (j : JournalHandle)
  | environment (e : EnvironmentHandle)
  | rows (t : RowHandle)
  deriving DecidableEq

namespace Handle

/-- The byte store that a handle stands for, unless it keeps values. -/
def byteStore? : Handle → Option (ByteStore Host)
  | map _ => none
  | store name => some (ByteMap.storeOf name)
  | table t => some t.byteStore
  | journal j => some j.byteStore
  | environment e => some e.byteStore
  | rows t => some t.byteStore

/-- The backend that a handle stands for. -/
def backend : Handle → Backend Host
  | map name => name.backend
  | store name => (ByteMap.storeOf name).packed
  | table t => t.byteStore.packed
  | journal j => j.byteStore.packed
  | environment e => e.byteStore.packed
  | rows t => t.byteStore.packed

/-- The table of a database file that a handle has open. -/
def table? : Handle → Option TableHandle
  | table t => some t
  | _ => none

/-- The journaling database that a handle has open. -/
def journal? : Handle → Option JournalHandle
  | journal j => some j
  | _ => none

/-- The environment that a handle has open. -/
def environment? : Handle → Option EnvironmentHandle
  | environment e => some e
  | _ => none

end Handle

/-! ## Engines by their settings -/

/-- The settings of a directory engine. -/
structure DirectoryConfig where
  path : String
  options : StoreOptions := {}
  createIfMissing : Bool := true
  deriving DecidableEq, Repr

/-- Which engine to open, and how. -/
inductive EngineConfig where
  | memory (shared : Bool)
  | lmdb (d : DirectoryConfig)
  | mdbx (d : DirectoryConfig)
  | rocksdb (d : DirectoryConfig)
  | fjall (d : DirectoryConfig)
  | sqlite (path table : String) (createIfMissing : Bool)
  | postgres (conninfo table : String)
  deriving DecidableEq, Repr

namespace EngineConfig

/-- The name of the engine. -/
def engine : EngineConfig → String
  | memory _ => "memory"
  | lmdb _ => "lmdb"
  | mdbx _ => "mdbx"
  | rocksdb _ => "rocksdb"
  | fjall _ => "fjall"
  | sqlite .. => "sqlite"
  | postgres .. => "postgres"

/-- The table that is used if none is named. -/
def defaultTable : String := "kv"

/-- Opens the engine.  `held` are the handles that are open already. -/
def «open» (held : List Handle) (c : EngineConfig) (h : Host) : Except StoreError Handle × Host :=
  match c with
  | memory shared =>
    let (name, h) := h.newMap shared
    (.ok (.map name), h)
  | lmdb d =>
    let (result, h) := Environment.open (held.filterMap (·.environment?)) d.path d.options
      d.createIfMissing h
    (result.map .environment, h)
  | mdbx _ | rocksdb _ => (.error (.backendDisabled c.engine), h)
  | fjall d =>
    let (result, h) := Journal.open (held.filterMap (·.journal?)) d.path d.createIfMissing h
    (result.map .journal, h)
  | sqlite path table create =>
    let (result, h) := TableFile.open (held.filterMap (·.table?)) path table create h
    (result.map .table, h)
  | postgres conninfo table =>
    let (result, h) := RowServer.open conninfo table h
    (result.map .rows, h)

/-- Removes everything that the engine stores.  What is kept in the running
    program is left alone, and what is missing is passed over. -/
def wipe (c : EngineConfig) (h : Host) : Except StoreError Unit × Host :=
  match c with
  | memory _ => (.ok (), h)
  | lmdb d => Environment.wipe d.path h
  | mdbx _ | rocksdb _ => (.error (.backendDisabled c.engine), h)
  | fjall d => Journal.wipe d.path h
  | sqlite path _ _ => TableFile.wipe path h
  | postgres conninfo _ => RowServer.wipe conninfo h

end EngineConfig

end TypedStore
