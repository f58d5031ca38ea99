/-
  TypedStore — reading TOML documents (version 1.1).

  A document is a list of lines: blank ones, `key = value` and the headers
  `[key]` and `[[key]]`, each with an optional comment.  Keys are bare words
  or strings, with points between them.  Values in brackets and braces may
  extend over lines and nest 80 deep.

  Reading ends at the first fault, and only tells that there is one.
-/
import TypedStore.Toml.Scalar

namespace TypedStore.Toml

/-! ## Blanks and comments -/

/-- Drops blanks at the front of a text. -/
def skipBlanks (cs : List Char) : List Char := cs.dropWhile fun c => c = ' ' || c = '\t'

/-- Drops blanks and a comment at the front of a text; after that the line or
    the text must end. -/
def endLine (cs : List Char) : Option (List Char) :=
  let cs := skipBlanks cs
  let rest := if cs.head? = some '#' then (cs.drop 1).dropWhile isPlain else cs
  if rest.isEmpty || startsLine rest then some (dropLine rest) else none

/-- Drops blanks, line ends and comments at the front of a text. -/
def skipLines (inComment : Bool) : List Char → Option (List Char)
  | [] => some []
  | '\n' :: rest | '\r' :: '\n' :: rest => skipLines false rest
  | c :: rest =>
    if inComment then
      if isPlain c then skipLines true rest else none
    else if c = ' ' ∨ c = '\t' then skipLines false rest
    else if c = '#' then skipLines true rest
    else some (c :: rest)

/-! ## Keys -/

/-- Whether a character can be part of a bare key. -/
def isKeyChar (c : Char) : Bool := c.isAlphanum || c = '_' || c = '-'

/-- Reads a key without points. -/
def readSimpleKey : Reader String := fun cs =>
  let bare := cs.takeWhile isKeyChar
  if bare.isEmpty then readPlainString cs else some (String.ofList bare, cs.drop bare.length)

/-- Reads a key with at most `fuel` points: the names before the last one, and
    the last one. -/
def readKeyOf : Nat → Reader (List String × String)
  | 0, _ => none
  | fuel + 1, cs => do
    let (name, cs) ← readSimpleKey cs
    match skipBlanks cs with
    | '.' :: rest =>
      let ((path, last), cs) ← readKeyOf fuel (skipBlanks rest)
      return ((name :: path, last), cs)
    | cs => return (([], name), cs)

/-- Reads a key and drops the blanks after it. -/
def readKey : Reader (List String × String) := fun cs => readKeyOf cs.length cs

/-! ## Values -/

mutual

/-- Reads a value that may nest `depth` deep. -/
def readValueOf : Nat → Nat → Reader Datum
  | 0, _, _ => none
  | fuel + 1, depth, cs =>
    match cs, depth with
    | '[' :: _, 0 | '\x7b' :: _, 0 => none
    | '[' :: rest, depth + 1 => readItems fuel depth [] rest
    | '\x7b' :: rest, depth + 1 => readPairs fuel depth [] rest
    | '"' :: _, _ | '\'' :: _, _ => (readString cs).map fun (s, rest) => (.text s, rest)
    | _, _ => readWord cs

/-- Reads the rest of an array after the items in `items`, which are in
    reverse. -/
def readItems : Nat → Nat → List Datum → Reader Datum
  | 0, _, _, _ => none
  | fuel + 1, depth, items, cs => do
    match ← skipLines false cs with
    | ']' :: rest => return (.array false items.reverse, rest)
    | cs =>
      let (v, cs) ← readValueOf fuel depth cs
      match ← skipLines false cs with
      | ']' :: rest => return (.array false (v :: items).reverse, rest)
      | ',' :: rest => readItems fuel depth (v :: items) rest
      | _ => none

/-- Reads the rest of a table in braces after the entries in `t`. -/
def readPairs : Nat → Nat → Table → Reader Datum
  | 0, _, _, _ => none
  | fuel + 1, depth, t, cs => do
    match ← skipLines false cs with
    | '\x7d' :: rest => return (.table .inline t, rest)
    | cs =>
      let ((path, key), cs) ← readKey cs
      let (v, cs) ← readValueOf fuel depth (skipBlanks (← after? '=' cs))
      let t ← insert path key v .inline t
      match ← skipLines false cs with
      | '\x7d' :: rest => return (.table .inline t, rest)
      | ',' :: rest => readPairs fuel depth t rest
      | _ => none

end

/-- How deep values may nest. -/
def greatestDepth : Nat := 80

/-- Reads a value. -/
def readValue : Reader Datum := fun cs => readValueOf (2 * cs.length + 2) greatestDepth cs

/-! ## Documents -/

/-- What has been read of a document: its tables, and the path of the table
    that lines add to. -/
structure Progress where
  document : Table := []
  current : List String := []

/-- Adds a value to the current table. -/
def Progress.add (p : Progress) (path : List String) (key : String) (v : Datum) :
    Option Progress := do
  let document ← descend false (insert path key v) p.current .header p.document
  return { p with document }

/-- Reads a line that is not blank, to its end. -/
def readEntry (p : Progress) (cs : List Char) : Option (Progress × List Char) :=
  match cs with
  | '[' :: '[' :: rest => do
    let ((path, key), cs) ← readKey (skipBlanks rest)
    let cs ← endLine (← after? ']' (← after? ']' cs))
    return (⟨← openElement path key p.document, path ++ [key]⟩, cs)
  | '[' :: rest => do
    let ((path, key), cs) ← readKey (skipBlanks rest)
    let cs ← endLine (← after? ']' cs)
    return (⟨← openTable path key p.document, path ++ [key]⟩, cs)
  | _ => do
    let ((path, key), cs) ← readKey cs
    let (v, cs) ← readValue (skipBlanks (← after? '=' cs))
    return (← p.add path key v, ← endLine cs)

/-- Reads at most `fuel` lines that are not blank. -/
def readEntries : Nat → Progress → List Char → Option Table
  | 0, _, _ => none
  | fuel + 1, p, cs => do
    match ← skipLines false cs with
    | [] => return p.document
    | cs =>
      let (p, cs) ← readEntry p cs
      readEntries fuel p cs

/-- Takes a byte order mark off a text. -/
def dropMark (cs : List Char) : List Char :=
  if cs.head? = some (Char.ofNat 0xFEFF) then cs.drop 1 else cs

/-- The document of a text. -/
def ofText? (text : String) : Option Table :=
  let cs := dropMark text.toList
  readEntries (cs.length + 1) {} cs

end TypedStore.Toml
