/-
  TypedStore — the host that engines keep their data on.

  A host has a file tree, the keyspaces and databases that its files refer to,
  the maps of the running program, and perhaps a relational server.  Keyspaces
  and databases have numbers of their own, because they outlive the names of
  their files while someone has them open, and because a file made anew under
  an old name is not the old database.

  * table names of a database file are the same up to ASCII case, those of the
    server only if they are equal;
  * numbers are given out once.
-/
import TypedStore.FileTree
import TypedStore.Backend

namespace TypedStore

/-! ## Tables -/

/-- The value of a row, by its storage class. -/
inductive Cell where
  | null
  | integer (w : IntKind.i64.Word)
  | real (w : FloatKind.f64.Word)
  | text (s : String)
  | blob (bytes : ByteArray)
  deriving DecidableEq

namespace Cell

/-- The bytes a cell is read as: numbers have images of eight bytes, and null
    reads as no bytes. -/
def image : Cell → ByteArray
  | null => ByteArray.empty
  | integer w => Image.ofWord 8 w.toNat
  | real w => Image.ofWord 8 w.toNat
  | text s => s.toByteArray
  | blob bytes => bytes

/-- The cell of a floating-point number; what is not a number is kept as
    null. -/
def ofReal (w : FloatKind.f64.Word) : Cell :=
  if FloatKind.f64.isNaN w then null else real w

end Cell

/-- A table of a database file. -/
abbrev CellTable : Type := Entries String Cell

/-- A table of the server, in which a value may be null. -/
abbrev RowTable : Type := Entries String (Option ByteArray)

/-- The name that a table of a database file goes by. -/
def foldName (name : String) : String := name.map Char.toLower

/-! ## Servers -/

/-- A relational server, reached through a socket in a directory. -/
structure Server where
  directory : String
  databases : Entries String (Entries String RowTable)

namespace Server

/-- The database that a server is administered from; it is always there. -/
def maintenance : String := "postgres"

/-- A server with the given databases, all without tables. -/
def start (directory : String) (names : List String) : Server where
  directory := directory
  databases := names.foldl (·.insert · .empty) (Entries.empty.insert maintenance .empty)

/-- A table of a database. -/
def table? (s : Server) (database table : String) : Option RowTable :=
  (s.databases.get? database).bind (·.get? table)

/-- Puts a table into a database. -/
def putTable (s : Server) (database table : String) (rows : RowTable) : Server :=
  { s with databases := s.databases.modify database (·.insert table rows) }

/-- Makes a table unless it exists. -/
def ensureTable (s : Server) (database table : String) : Server :=
  match s.table? database table with
  | some _ => s
  | none => s.putTable database table .empty

/-- The names of the databases and their tables, in order. -/
def listing (s : Server) : List (String × List String) :=
  (s.databases.toList.map fun e => (e.1, e.2.keys.mergeSort (· ≤ ·))).mergeSort fun a b => a.1 ≤ b.1

/-- Removes a table. -/
def dropTable (s : Server) (database table : String) : Server :=
  { s with databases := s.databases.modify database (·.erase table) }

/-- Removes a database. -/
def dropDatabase (s : Server) (database : String) : Server :=
  { s with databases := s.databases.erase database }

end Server

/-! ## Hosts -/

/-- The name of a map of the running program. -/
inductive MapName where
  | named (name : String)
  | anonymous (number : Nat) (shared : Bool)
  deriving DecidableEq, Repr

/-- Everything that stores keep their data on. -/
structure Host where
  files : FileTree := {}
  /-- The keyspaces of the directory engines. -/
  keyspaces : Entries Nat ByteMap := .empty
  /-- How many pages the environments among them have. -/
  sizes : Entries Nat Nat := .empty
  /-- The most pages that their entries have ever taken. -/
  peaks : Entries Nat Nat := .empty
  /-- The databases of the file engine, with the folded names of tables. -/
  databases : Entries Nat (Entries String CellTable) := .empty
  /-- The number that is given out next. -/
  next : Nat := 0
  maps : Entries MapName ValueMap := .empty
  /-- The byte stores of the running program. -/
  stores : Entries String ByteMap := .empty
  server : Option Server := none

namespace Host

variable (h : Host)

/-- The map of a name; it is made on first use. -/
def map (name : MapName) : ValueMap := (h.maps.get? name).getD .empty

/-- Puts a map under a name. -/
def putMap (name : MapName) (m : ValueMap) : Host := { h with maps := h.maps.insert name m }

/-- The byte store of a name; it is made on first use. -/
def store (name : String) : ByteMap := (h.stores.get? name).getD .empty

/-- Puts a byte store under a name. -/
def putStore (name : String) (m : ByteMap) : Host := { h with stores := h.stores.insert name m }

/-- The keyspace of a number. -/
def keyspace (number : Nat) : ByteMap := (h.keyspaces.get? number).getD .empty

/-- Puts a keyspace under a number. -/
def putKeyspace (number : Nat) (m : ByteMap) : Host :=
  { h with keyspaces := h.keyspaces.insert number m }

/-- The pages of the environment of a number. -/
def pages (number : Nat) : Nat := (h.sizes.get? number).getD 0

/-- Lets an environment have at least the given number of pages. -/
def growTo (number pages : Nat) : Host :=
  if pages ≤ h.pages number then h else { h with sizes := h.sizes.insert number pages }

/-- The most pages that the entries of an environment have ever taken. -/
def peak (number : Nat) : Nat := (h.peaks.get? number).getD 0

/-- Remembers how many pages the entries of an environment take. -/
def reach (number pages : Nat) : Host :=
  if pages ≤ h.peak number then h else { h with peaks := h.peaks.insert number pages }

/-- The tables of the database of a number. -/
def tables (number : Nat) : Entries String CellTable := (h.databases.get? number).getD .empty

/-- A table of the database of a number. -/
def cells (number : Nat) (table : String) : CellTable :=
  ((h.tables number).get? (foldName table)).getD .empty

/-- Puts a table into the database of a number. -/
def putCells (number : Nat) (table : String) (rows : CellTable) : Host :=
  { h with databases := h.databases.insert number ((h.tables number).insert (foldName table) rows) }

/-- Makes a table in the database of a number unless it exists. -/
def ensureCells (number : Nat) (table : String) : Host :=
  if (h.tables number).contains (foldName table) then h else h.putCells number table .empty

/-- Puts a node into the file tree. -/
def putNode (loc : Location) (n : Node) : Host := { h with files := h.files.put loc n }

/-- Gives out a number. -/
def takeNumber : Nat × Host := (h.next, { h with next := h.next + 1 })

end Host

end TypedStore
