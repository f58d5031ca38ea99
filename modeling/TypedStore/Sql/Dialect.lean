/-
  TypedStore — the two dialects of SQL.

  They differ in the types of columns and in how a parameter is marked.
-/
import TypedStore.Kind

namespace TypedStore

/-- A dialect of SQL. -/
inductive Dialect where
  | sqlite
  | postgres
  deriving DecidableEq, Repr

namespace Dialect

/-- The type of a column for an affinity.  One dialect has a single integer
    type and a single floating-point type; the other keeps widths apart, but
    has no integers of one byte. -/
def columnType : Dialect → Affinity → String
  | sqlite, .boolean | sqlite, .integer _ => "INTEGER"
  | sqlite, .float | sqlite, .double => "REAL"
  | sqlite, .text => "TEXT"
  | sqlite, .blob => "BLOB"
  | postgres, .boolean => "BOOLEAN"
  | postgres, .integer w => if w ≤ 2 then "SMALLINT" else if w ≤ 4 then "INTEGER" else "BIGINT"
  | postgres, .float => "REAL"
  | postgres, .double => "DOUBLE PRECISION"
  | postgres, .text => "TEXT"
  | postgres, .blob => "BYTEA"

/-- The mark of the parameter with the given number. -/
def placeholder : Dialect → Nat → String
  | sqlite, index => "?" ++ index.repr
  | postgres, index => "$" ++ index.repr

end Dialect

end TypedStore
