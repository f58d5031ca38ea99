/-
  TypedStore — the statements that keep a key-value table.

  A table has two columns, a text key and a blob.  Its name is quoted wherever
  it is used, so that it may hold any character but the NUL that would end a
  statement; the empty name is refused as well.  One more statement removes a
  database of the server, whose name is quoted alike.
-/
import TypedStore.Sql.Dialect
import TypedStore.Sql.Identifier
import TypedStore.Error

namespace TypedStore

/-- The five statements on a key-value table. -/
structure Statements where
  createTable : String
  put : String
  get : String
  remove : String
  clear : String
  deriving DecidableEq, Repr

namespace Statements

/-- Whether a name can be the name of a table. -/
def isTableName (name : String) : Bool := !name.isEmpty && !name.contains (Char.ofNat 0)

/-- Fails unless a name can be the name of a table. -/
def checkTableName (name : String) : Except StoreError Unit :=
  if isTableName name then .ok () else .error (.invalidTableName name)

/-- The statements with a table name already quoted. -/
def ofQuoted (d : Dialect) (table : String) : Statements :=
  let first := d.placeholder 1
  let second := d.placeholder 2
  { createTable := "CREATE TABLE IF NOT EXISTS " ++ table ++ " (key " ++ d.columnType .text ++
      " NOT NULL PRIMARY KEY, value " ++ d.columnType .blob ++ ")"
    put := "INSERT INTO " ++ table ++ " (key, value) VALUES (" ++ first ++ ", " ++ second ++
      ") ON CONFLICT (key) DO UPDATE SET value = excluded.value"
    get := "SELECT value FROM " ++ table ++ " WHERE key = " ++ first
    remove := "DELETE FROM " ++ table ++ " WHERE key = " ++ first
    clear := "DELETE FROM " ++ table }

/-- What stands in front of the name of a database that is removed. -/
def dropFront : String := "DROP DATABASE IF EXISTS "

/-- The statement that removes a database. -/
def dropDatabase (database : String) : String := dropFront ++ Identifier.quote database

/-- The database that a statement removes, if that is all it does. -/
def dropped? (text : String) : Option String :=
  if dropFront.toList.isPrefixOf text.toList then
    match Identifier.read? (text.toList.drop dropFront.toList.length) with
    | some (name, []) => some (String.ofList name)
    | _ => none
  else none

/-- The statements on the table of a name. -/
def ofTable (d : Dialect) (table : String) : Except StoreError Statements := do
  checkTableName table
  return ofQuoted d (Identifier.quote table)

end Statements

end TypedStore
