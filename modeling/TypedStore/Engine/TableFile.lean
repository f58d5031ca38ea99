/-
  TypedStore — the engine on database files.

  A facade has one table of a database open, and works on it through the
  `Statements` of its name.  The database is in a file, or in memory and gone
  with its last facade.

  * opening makes the file and the table if they are missing and that is
    allowed;
  * a write needs the file to be still the one that was opened: once it has
    been removed or replaced, reading goes on but nothing can be written;
  * removing a database removes the file at the literal path and the three
    files that are kept beside it.
-/
import TypedStore.Engine.Host
import TypedStore.Engine.TablePath
import TypedStore.Sql.Statements

namespace TypedStore

/-- An open table of a database file. -/
structure TableHandle where
  /-- The number of the database. -/
  number : Nat
  table : String
  /-- Where its file is, unless it is in memory. -/
  location : Option Location
  /-- The name under which other facades find a database in memory. -/
  share : Option String := none
  writable : Bool := true
  deriving DecidableEq

namespace TableHandle

variable (t : TableHandle)

/-- Whether the file is still the one that was opened. -/
def isAttached (h : Host) : Bool :=
  match t.location with
  | none => true
  | some loc => h.files.node? loc = some (.file (.database t.number))

/-- Whether rows can be written. -/
def canWrite (h : Host) : Bool := t.writable && t.isAttached h

/-- The rows of the table. -/
def rows (h : Host) : CellTable := h.cells t.number t.table

/-- Changes the rows of the table. -/
def update (change : CellTable → CellTable) (h : Host) : Except StoreError Host :=
  if t.canWrite h then .ok (h.putCells t.number t.table (change (t.rows h)))
  else .error (.tableFile .readOnly)

/-- Removes a row.  Where nothing can be written, this fails only if there
    would be something to remove or the table was opened for reading. -/
def delete (key : String) (h : Host) : Except StoreError Host :=
  if t.writable && !(t.rows h).contains key then .ok h else t.update (·.erase key) h

/-- The byte store on the table: what its statements `put`, `get`, `remove` and
    `clear` do. -/
def byteStore : ByteStore Host where
  name := "sqlite"
  put key bytes h := t.update (·.insert key (.blob bytes)) h
  get key h := .ok (((t.rows h).get? key).map Cell.image)
  delete := t.delete
  truncate h := t.update (fun _ => .empty) h

end TableHandle

namespace TableFile

/-! ## Opening -/

/-- Whether a table name is kept for the engine itself. -/
def isReserved (table : String) : Bool := (foldName table).startsWith "sqlite_"

/-- Makes the table of a handle unless it exists, by the statement
    `createTable`. -/
def openTable (t : TableHandle) (h : Host) : Except TableFileError TableHandle × Host :=
  if t.writable || (h.tables t.number).contains (foldName t.table) then
    (.ok t, h.ensureCells t.number t.table)
  else (.error .readOnly, h)

/-- Makes the table in the file at a location, which becomes a database if it
    is empty. -/
def openContent (loc : Location) (content : Content) (table : String) (writable : Bool) (h : Host) :
    Except TableFileError TableHandle × Host :=
  match content with
  | .database number => openTable { number, table, location := some loc, writable } h
  | .keyspace _ => (.error .notDatabase, h)
  | .bytes b =>
    if b.size ≠ 0 then (.error .notDatabase, h)
    else if writable then
      let (number, h) := h.takeNumber
      openTable { number, table, location := some loc } (h.putNode loc (.file (.database number)))
    else (.error .readOnly, h)

/-- The location that a path stands for: names are resolved without looking at
    the tree, but what stands in front of the last one must be a directory. -/
def locate (path : String) (t : FileTree) : Option Location :=
  let loc := FileTree.normalise path
  if loc.all (·.utf8ByteSize ≤ 255) && t.node? loc.dropLast = some .directory then some loc
  else none

/-- Opens a table in the file at a path. -/
def openFile (given path table : String) (create writable : Bool) (h : Host) :
    Except TableFileError TableHandle × Host :=
  let missing := (.error (.cannotOpen given), h)
  match locate path h.files with
  | none => missing
  | some loc =>
    match h.files.node? loc with
    | some .directory => missing
    | some (.file content) =>
      if isReserved table then (.error (.reservedName table), h)
      else openContent loc content table writable h
    | none =>
      if !create then missing
      else
        let empty := h.putNode loc (.file (.bytes ByteArray.empty))
        if isReserved table then (.error (.reservedName table), empty)
        else openContent loc (.bytes ByteArray.empty) table writable empty

/-- Opens a table in memory, in the database that other facades share under
    the name if there is one. -/
def openMemory (held : List TableHandle) (share : Option String) (table : String) (writable : Bool)
    (h : Host) : Except TableFileError TableHandle × Host :=
  if isReserved table then (.error (.reservedName table), h)
  else
    match held.find? fun t => share.isSome && t.share == share with
    | some t => openTable { number := t.number, table, location := none, share, writable } h
    | none =>
      let (number, h) := h.takeNumber
      openTable { number, table, location := none, share, writable } h

/-- Opens the table of a database.  `held` are the tables that are open
    already. -/
def «open» (held : List TableHandle) (path table : String) (create : Bool) (h : Host) :
    Except StoreError TableHandle × Host :=
  match Statements.checkTableName table, TablePath.target path create with
  | .error e, _ => (.error e, h)
  | .ok _, .error e => (.error (.tableFile e), h)
  | .ok _, .ok target =>
    let (result, h) := match target with
      | .memory share writable => openMemory held share table writable h
      | .file name create writable => openFile path name table create writable h
    (result.mapError .tableFile, h)

/-! ## Removing -/

/-- The files of a database: its own, the log, the index of the log and the
    journal. -/
def filesOf (path : String) : List String :=
  [path, path ++ "-wal", path ++ "-shm", path ++ "-journal"]

/-- Removes the files of a database.  Missing ones are passed over. -/
def wipe (path : String) (h : Host) : Except StoreError Unit × Host :=
  match FileTree.removeFiles (filesOf path) h.files with
  | (none, files) => (.ok (), { h with files })
  | (some e, files) => (.error (.file e), { h with files })

end TableFile

/-- Puts a cell into a table of the database file at a path. -/
def Host.putRow (h : Host) (path table key : String) (cell : Cell) : Except StoreError Host :=
  match h.files.at? path with
  | some (.file (.database number)) =>
    .ok (h.putCells number table ((h.cells number table).insert key cell))
  | _ => .error (.tableFile (.cannotOpen path))

end TypedStore
