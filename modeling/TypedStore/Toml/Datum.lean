/-
  TypedStore — the data of a TOML document.

  A table remembers how it came about, because that decides what may still be
  added to it: a table in braces is closed, a header may open a table that was
  only passed through before, and dotted keys extend only tables that were
  made by dotted keys.  An array of tables grows, an array in brackets does
  not.

  Numbers are kept whatever their size; a reader decides what it takes.
-/
import TypedStore.Kind

namespace TypedStore.Toml

/-- How a table came about. -/
inductive Form where
  /-- Written in braces. -/
  | inline
  /-- Passed through by a header. -/
  | implied
  /-- Passed through by a dotted key. -/
  | dotted
  /-- Named by a header. -/
  | header
  deriving DecidableEq, Repr

/-- A datum of a document. -/
inductive Datum where
  | text (s : String)
  | integer (n : Int)
  /-- A floating-point number; none if it is too large for one. -/
  | float (w : Option FloatKind.f64.Word)
  | boolean (b : Bool)
  | datetime
  | array (grows : Bool) (items : List Datum)
  | table (form : Form) (entries : List (String × Datum))

/-- The entries of a table, in the order of the document. -/
abbrev Table : Type := List (String × Datum)

/-! ## Adding to a table -/

/-- Replaces the value under a key, or adds one after the others. -/
def put (key : String) (value : Datum) : Table → Table
  | [] => [(key, value)]
  | (k, v) :: rest => if k = key then (k, value) :: rest else (k, v) :: put key value rest

/-- Whether a path may lead through a table, by dotted keys or by a header. -/
def Form.passes (byKey : Bool) : Form → Bool
  | inline => false
  | implied | dotted => true
  | header => !byKey

/-- Changes the table that a path leads to from a table of the given form.
    Missing tables are made; where the path meets an array of tables, it goes
    on in the last one. -/
def descend (byKey : Bool) (change : Form → Table → Option Table) :
    List String → Form → Table → Option Table
  | [], form, t => change form t
  | key :: path, _, t =>
    match t.lookup key with
    | none => do
      let form := if byKey then Form.dotted else .implied
      return put key (.table form (← descend byKey change path form [])) t
    | some (.table form entries) =>
      if form.passes byKey then do
        return put key (.table form (← descend byKey change path form entries)) t
      else none
    | some (.array true items) =>
      match items.getLast? with
      | some (.table form entries) => do
        let last := Datum.table form (← descend byKey change path form entries)
        return put key (.array true (items.dropLast ++ [last])) t
      | _ => none
    | some _ => none

/-- Adds a value under a key that may be dotted. -/
def insert (path : List String) (key : String) (value : Datum) (form : Form) (t : Table) :
    Option Table :=
  descend true (fun form t =>
    -- a plain key goes into a table that has a place of its own, a dotted one
    -- into a table that dotted keys have made
    if (form == .dotted) == path.isEmpty || (t.lookup key).isSome then none
    else some (put key value t)) path form t

/-- Opens the table that a header names. -/
def openTable (path : List String) (key : String) (document : Table) : Option Table :=
  descend false (fun _ t =>
    match t.lookup key with
    | none => some (put key (.table .header []) t)
    | some (.table .implied entries) => some (put key (.table .header entries) t)
    | some _ => none) path .header document

/-- Adds a table to the array that a header names. -/
def openElement (path : List String) (key : String) (document : Table) : Option Table :=
  descend false (fun _ t =>
    match t.lookup key with
    | none => some (put key (.array true [.table .header []]) t)
    | some (.array true items) => some (put key (.array true (items ++ [.table .header []])) t)
    | some _ => none) path .header document

end TypedStore.Toml
