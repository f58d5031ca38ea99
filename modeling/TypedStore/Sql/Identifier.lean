/-
  TypedStore — quoted identifiers of SQL.

  A quoted identifier stands between double quotes, and a double quote inside
  is written twice.  Reading ends at the first quote that no other follows.
-/

namespace TypedStore.Identifier

/-- The inner part of a quoted identifier. -/
def double : List Char → List Char
  | [] => []
  | c :: rest => if c = '"' then '"' :: '"' :: double rest else c :: double rest

/-- The quoted form of a name. -/
def quoteChars (name : List Char) : List Char := '"' :: double name ++ ['"']

/-- The quoted form of a name. -/
def quote (name : String) : String := String.ofList (quoteChars name.toList)

/-- Reads on inside the quotes: the rest of the name and what follows the
    closing quote. -/
def readInner : List Char → Option (List Char × List Char)
  | [] => none
  | '"' :: '"' :: rest => (readInner rest).map fun (name, after) => ('"' :: name, after)
  | '"' :: after => some ([], after)
  | c :: rest => (readInner rest).map fun (name, after) => (c :: name, after)

/-- Reads a quoted identifier at the front of a text: its name and what
    follows it. -/
def read? : List Char → Option (List Char × List Char)
  | '"' :: rest => readInner rest
  | _ => none

end TypedStore.Identifier
