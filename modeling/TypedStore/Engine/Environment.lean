/-
  TypedStore — the memory-mapped directory engine.

  An environment is a directory with a data file, which refers to the
  keyspace, and a lock file.  It has a size, fixed when it is opened, and a
  write that would take more pages than fit is refused.

  * opening makes missing directories if that is allowed; an environment that
    is open already is refused, even with the same settings;
  * pages that entries have once taken stay with the data file: an environment
    is never opened with fewer, whatever has been removed since;
  * the empty key is refused by every operation, a key of more than 511 bytes
    by writing only: it is merely absent to the others;
  * removing an environment removes the two files, and the directory if
    nothing else is left in it.
-/
import TypedStore.Engine.Host
import TypedStore.Options

namespace TypedStore

/-- An open environment. -/
structure EnvironmentHandle where
  /-- The number of the keyspace. -/
  number : Nat
  /-- Where the directory is. -/
  location : Location
  /-- How many pages the environment has. -/
  pages : Nat
  deriving DecidableEq

namespace Environment

/-! ## Pages -/

/-- The size of a page, in bytes. -/
def pageSize : Nat := 4096

/-- The size of an environment that is new and not told another. -/
def unsetSize : Nat := 1024 * 1024

/-- From this size on the address space does not hold an environment. -/
def addressSpace : Nat := 0x800000000000

/-- The pages that an environment without entries takes. -/
def basePages : Nat := 3

/-- The pages that the bookkeeping of a write takes. -/
def writePages : Nat := 3

/-- The bytes that an entry takes in a page of the tree, its header
    included. -/
def nodeBytes (key : String) (bytes : ByteArray) : Nat := 8 + key.utf8ByteSize + bytes.size

/-- Whether the value of an entry is kept outside the tree. -/
def isLarge (key : String) (bytes : ByteArray) : Bool := 2038 < nodeBytes key bytes

/-- The pages that the value of an entry takes outside the tree. -/
def largePages (key : String) (bytes : ByteArray) : Nat :=
  if isLarge key bytes then (16 + bytes.size + pageSize - 1) / pageSize else 0

/-- The bytes that an entry takes in the tree. -/
def treeBytes (key : String) (bytes : ByteArray) : Nat :=
  if isLarge key bytes then 16 + key.utf8ByteSize else nodeBytes key bytes

/-- What all entries of a keyspace take, if each takes `size`. -/
def total (size : String → ByteArray → Nat) (m : ByteMap) : Nat :=
  m.toList.foldr (fun e rest => size e.1 e.2 + rest) 0

/-- The pages that the entries of a keyspace take; pages of the tree are two
    thirds full. -/
def entryPages (m : ByteMap) : Nat :=
  total largePages m + total treeBytes m * 3 / (2 * pageSize)

/-- The pages that are taken while an entry is written: the old value gives
    up its pages only afterwards. -/
def neededPages (m : ByteMap) (key : String) (bytes : ByteArray) : Nat :=
  let old := ((m.get? key).map (largePages key)).getD 0
  basePages + writePages + old + entryPages (m.insert key bytes)

/-! ## Keys -/

/-- The greatest length of a key, in bytes. -/
def greatestKey : Nat := 511

/-- Fails for the empty key. -/
def checkKey (key : String) : Except StoreError Unit :=
  if key = "" then .error (.environment .badKeySize) else .ok ()

end Environment

namespace EnvironmentHandle

variable (e : EnvironmentHandle)

/-- Writes an entry. -/
def put (key : String) (bytes : ByteArray) (h : Host) : Except StoreError Host := do
  Environment.checkKey key
  if Environment.greatestKey < key.utf8ByteSize then throw (.environment .badKeySize)
  if e.pages ≤ Environment.neededPages (h.keyspace e.number) key bytes then throw (.environment .mapFull)
  let m := (h.keyspace e.number).insert key bytes
  return (h.putKeyspace e.number m).reach e.number (Environment.entryPages m)

/-- The byte store on an environment. -/
def byteStore : ByteStore Host where
  name := "lmdb"
  put := e.put
  get key h := do
    Environment.checkKey key
    return (h.keyspace e.number).get? key
  delete key h := do
    Environment.checkKey key
    return h.putKeyspace e.number ((h.keyspace e.number).erase key)
  truncate h := .ok (h.putKeyspace e.number .empty)

end EnvironmentHandle

namespace Environment

/-! ## Opening -/

/-- The name of the data file. -/
def dataFile : String := "data.mdb"

/-- The name of the lock file. -/
def lockFile : String := "lock.mdb"

/-- Fails if the options cannot be met. -/
def checkOptions (o : StoreOptions) : Except EnvironmentError Unit := do
  if o.effectiveMapSize % pageSize ≠ 0 then throw (.mapSize o.effectiveMapSize)
  if o.maxReaders = some 0 then throw .invalidArgument

/-- The pages of an environment that is opened with a size, or with none to
    keep those it has; there are enough for what its entries have ever
    taken. -/
def pagesFor (size kept peak : Nat) : Nat :=
  max (if size = 0 then kept else size / pageSize) (basePages + peak)

/-- Opens the environment whose keyspace has the given number. -/
def openNumber (loc : Location) (size number : Nat) (h : Host) :
    Except StoreError EnvironmentHandle × Host :=
  if addressSpace ≤ size then (.error (.environment .outOfMemory), h)
  else
    let pages := pagesFor size (h.pages number) (h.peak number)
    (.ok ⟨number, loc, pages⟩, h.growTo number pages)

/-- Makes an environment without entries and opens it. -/
def openNew (loc : Location) (size : Nat) (h : Host) : Except StoreError EnvironmentHandle × Host :=
  let (number, h) := h.takeNumber
  let h := (h.putNode (loc ++ [dataFile]) (.file (.keyspace number))).putKeyspace number .empty
  if size ≠ 0 ∧ size / pageSize ≤ basePages then (.error (.environment .mapFull), h)
  else openNumber loc (if size = 0 then unsetSize else size) number h

/-- Opens the environment whose data file has the given content. -/
def openData (loc : Location) (size : Nat) (content : Option Content) (h : Host) :
    Except StoreError EnvironmentHandle × Host :=
  match content with
  | none => openNew loc size h
  | some (.keyspace number) => openNumber loc size number h
  | some (.database _) => (.error (.environment .invalidFile), h)
  | some (.bytes b) =>
    if b.size = 0 then openNew loc size h else (.error (.environment .invalidFile), h)

/-- Opens the environment in the directory at a location. -/
def openAt (loc : Location) (o : StoreOptions) (h : Host) :
    Except StoreError EnvironmentHandle × Host :=
  match h.files.node? (loc ++ [lockFile]) with
  | some .directory => (.error (.environment (.file .isDirectory)), h)
  | lock =>
    let h := if lock.isSome then h
      else h.putNode (loc ++ [lockFile]) (.file (.bytes ByteArray.empty))
    match h.files.node? (loc ++ [dataFile]) with
    | some .directory => (.error (.environment (.file .isDirectory)), h)
    | some (.file content) => openData loc o.effectiveMapSize (some content) h
    | none => openData loc o.effectiveMapSize none h

/-- Opens the environment in the directory at a path.  `held` are the
    environments that are open already. -/
def «open» (held : List EnvironmentHandle) (path : String) (o : StoreOptions) (create : Bool)
    (h : Host) : Except StoreError EnvironmentHandle × Host :=
  match h.files.ensureDirectory path create with
  | .error e => (.error (.file e), h)
  | .ok files =>
    let h := { h with files }
    match files.resolve path with
    | .error e => (.error (.environment (.file e)), h)
    | .ok loc =>
      if held.any (·.location == loc) then (.error (.environment .alreadyOpen), h)
      else
        match checkOptions o with
        | .error e => (.error (.environment e), h)
        | .ok _ => openAt loc o h

/-! ## Removing -/

/-- The files of an environment. -/
def filesOf (path : String) : List String :=
  [FileTree.join path dataFile, FileTree.join path lockFile]

/-- Removes the files of an environment, and its directory if that is empty
    then.  What is missing is passed over. -/
def wipe (path : String) (h : Host) : Except StoreError Unit × Host :=
  match FileTree.removeFiles (filesOf path) h.files with
  | (some e, files) => (.error (.file e), { h with files })
  | (none, files) =>
    match files.removeIfEmpty path with
    | .ok files => (.ok (), { h with files })
    | .error e => (.error (.file e), { h with files })

end Environment

end TypedStore
