/-
  TypedStore — the engine on the relational server.

  A facade has a connection to one database and works on one of its tables,
  through the `Statements` of its name.  The server refuses a key with a zero
  character in every statement, and every statement on a table or database that
  has been dropped; the connection lives on.  A text with a zero character
  cannot be sent to the server at all.

  * the hosts of a connection string are tried in order, and the failure of
    the last one is the failure of all;
  * removing a database needs its name in the connection string, and is a
    statement of its own, which is run in the database for maintenance; a
    missing database is passed over, the one for maintenance is never removed.
-/
import TypedStore.Engine.Host
import TypedStore.Engine.Conninfo
import TypedStore.Sql.Statements

namespace TypedStore

/-- An open table of the server. -/
structure RowHandle where
  database : String
  table : String
  deriving DecidableEq

namespace RowHandle

variable (t : RowHandle)

/-- The server and the rows of the table, as a statement with a key finds
    them. -/
def reach (key : String) (h : Host) : Except StoreError (Server × RowTable) :=
  match h.server with
  | none => .error (.server .statement)
  | some server =>
    match server.table? t.database t.table with
    | none => .error (.server .statement)
    | some rows =>
      if key.contains (Char.ofNat 0) then .error (.server .statement) else .ok (server, rows)

/-- Changes the rows of the table in a statement with a key. -/
def update (key : String) (change : RowTable → RowTable) (h : Host) : Except StoreError Host := do
  let (server, rows) ← t.reach key h
  return { h with server := some (server.putTable t.database t.table (change rows)) }

/-- The byte store on the table: what its statements `put`, `get`, `remove` and
    `clear` do.  A null value reads as no bytes. -/
def byteStore : ByteStore Host where
  name := "postgres"
  put key bytes := t.update key (·.insert key (some bytes))
  get key h := do
    let (_, rows) ← t.reach key h
    return (rows.get? key).map (·.getD ByteArray.empty)
  delete key := t.update key (·.erase key)
  truncate := t.update "" (fun _ => .empty)

end RowHandle

namespace RowServer

/-! ## Connecting -/

/-- Whether a text can be sent to the server. -/
def isSendable (text : String) : Bool := !text.contains (Char.ofNat 0)

/-- Connects to a database on one host. -/
def connectHost (c : Conninfo) (database : String) (host : Option ServerPlace) (port : Nat)
    (server : Option Server) : Except ServerError Server :=
  match server with
  | none => .error .connect
  | some server =>
    if host ≠ some (.socket server.directory) ∨ port ≠ 5432 then .error .connect
    else if c.encrypted then .error .security
    else if !(c.user.all isSendable && isSendable database) then .error .encoding
    else if c.bound then .error .authentication
    else if (server.databases.get? database).isNone || c.particular then .error .statement
    else .ok server

/-- The port for the host of the given index. -/
def portOf (c : Conninfo) (index : Nat) : Nat :=
  (c.ports[index]?.or c.ports.head?).getD 5432

/-- Whether the hosts, their addresses and their ports go together. -/
def isComplete (c : Conninfo) : Bool :=
  let count := if c.hosts.isEmpty then c.addresses.length else c.hosts.length
  0 < count && (c.addresses.isEmpty || c.hosts.isEmpty || c.hosts.length = c.addresses.length) &&
    (c.ports.length ≤ 1 || c.ports.length = count)

/-- Tries hosts in order, with the index of the first one; `failure` is that
    of the host before. -/
def connectAny (c : Conninfo) (database : String) (server : Option Server) (failure : ServerError) :
    Nat → List ServerPlace → Except ServerError Server
  | _, [] => .error failure
  | index, host :: rest =>
    match connectHost c database (some host) (portOf c index) server with
    | .ok server => .ok server
    | .error e => connectAny c database server e (index + 1) rest

/-- Connects to a database.  A host with a numeric address is not reached
    through a socket. -/
def connect (c : Conninfo) (database : Option String) (server : Option Server) :
    Except ServerError (Server × String) :=
  match c.user with
  | none => .error .configuration
  | some user =>
    if !isComplete c then .error .configuration
    else
      let hosts := if c.addresses.isEmpty then c.hosts else c.addresses.map .network
      let database := database.getD (c.target user)
      (connectAny c database server .connect 0 hosts).map (·, database)

/-! ## Opening -/

/-- Opens a table on the server that a connection string leads to. -/
def «open» (conninfo table : String) (h : Host) : Except StoreError RowHandle × Host :=
  match Statements.checkTableName table, Conninfo.ofText? conninfo with
  | .error e, _ => (.error e, h)
  | .ok _, none => (.error (.server .connectionString), h)
  | .ok _, some c =>
    match connect c none h.server with
    | .error e => (.error (.server e), h)
    | .ok (server, database) =>
      (.ok ⟨database, table⟩, { h with server := some (server.ensureTable database table) })

/-! ## Removing -/

/-- Runs the statement that removes a database. -/
def drop (text : String) (server : Server) : Except ServerError Server :=
  if !isSendable text then .error .encoding
  else
    match Statements.dropped? text with
    | none => .error .statement
    | some database =>
      if database = Server.maintenance then .error .statement else .ok (server.dropDatabase database)

/-- Drops the database that a connection string names. -/
def wipe (conninfo : String) (h : Host) : Except StoreError Unit × Host :=
  match Conninfo.ofText? conninfo with
  | none => (.error (.server .connectionString), h)
  | some c =>
    match c.database with
    | none => (.error (.backend "postgres" "connection string names no database"), h)
    | some database =>
      match connect c (some Server.maintenance) h.server with
      | .error e => (.error (.server e), h)
      | .ok (server, _) =>
        match drop (Statements.dropDatabase database) server with
        | .error e => (.error (.server e), h)
        | .ok server => (.ok (), { h with server := some server })

end RowServer

end TypedStore
