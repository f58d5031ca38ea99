/-
  TypedStore — what the path of a database file stands for.

  A path names a file, except that the empty path and `:memory:` stand for a
  database in memory, and that a path beginning with `file:` is read as a URI:

      file:[//authority]name[?option=value&...][#fragment]

  * the authority is empty or `localhost`;
  * name, options and values may hold `%` escapes, and an escaped zero ends
    the part it stands in;
  * `mode` restricts the access that the caller asks for and never extends it,
    `cache=shared` lets databases in memory be found by their name, and `vfs`
    chooses how files are reached; other options mean nothing.
-/
import TypedStore.Error
import TypedStore.Text.Hex
import TypedStore.Text.Utf8

namespace TypedStore

/-! ## Access -/

/-- What may be done to a database. -/
inductive Access where
  | read
  | write
  | create
  | memory
  deriving DecidableEq, Repr

namespace Access

/-- The access of a mode. -/
def ofMode? : String → Option Access
  | "ro" => some read
  | "rw" => some write
  | "rwc" => some create
  | "memory" => some memory
  | _ => none

/-- How much an access to files allows. -/
def rank : Access → Nat
  | read => 1
  | write => 2
  | create => 3
  | memory => 4

/-- Whether a mode may take the place of the access that was granted. -/
def permits (granted asked : Access) : Bool := asked = memory || asked.rank ≤ granted.rank

end Access

namespace TablePath

/-- What a path stands for. -/
inductive Target where
  | memory (share : Option String) (writable : Bool)
  | file (name : String) (create writable : Bool)
  deriving DecidableEq, Repr

/-! ## The parts of a URI -/

/-- The two parts of a list around the first occurrence of a separator; the
    second one is empty if there is none. -/
def cut (separator : UInt8) (bytes : List UInt8) : List UInt8 × List UInt8 :=
  (bytes.takeWhile (· ≠ separator), (bytes.dropWhile (· ≠ separator)).drop 1)

/-- The code of an ASCII character. -/
def code (c : Char) : UInt8 := UInt8.ofNat c.toNat

/-- The byte that an escape stands for, if a mark with the bytes after it is
    one. -/
def escaped? (mark : UInt8) (rest : List UInt8) : Option UInt8 :=
  match rest with
  | a :: b :: _ =>
    if mark = code '%' then
      match Hex.value? a, Hex.value? b with
      | some high, some low => some (16 * high + low)
      | _, _ => none
    else none
  | _ => none

/-- Replaces escapes by the bytes they stand for; an escaped zero ends the
    text. -/
def unescape : List UInt8 → List UInt8
  | [] => []
  | mark :: rest =>
    match escaped? mark rest with
    | some octet => if octet = 0 then [] else octet :: unescape (rest.drop 2)
    | none => mark :: unescape rest
  termination_by bytes => bytes.length
  decreasing_by all_goals simp only [List.length_drop, List.length_cons]; omega

/-- The text of a part, escapes replaced. -/
def partText (bytes : List UInt8) : String := String.ofList (Utf8.lossyChars (unescape bytes))

/-- The options of a query, without those that have no name. -/
def options (query : List UInt8) : List (String × String) :=
  ((query.splitOn (code '&')).map fun field =>
    let (name, value) := cut (code '=') field
    (partText name, partText value)).filter (·.1 ≠ "")

/-- Takes the authority off a URI. -/
def dropAuthority (bytes : List UInt8) : Except TableFileError (List UInt8) :=
  match bytes with
  | a :: b :: rest =>
    if a = code '/' ∧ b = code '/' then
      let authority := rest.takeWhile (· ≠ code '/')
      let text := String.ofList (Utf8.lossyChars authority)
      if text = "" ∨ text = "localhost" then .ok (rest.drop authority.length)
      else .error (.badAuthority text)
    else .ok bytes
  | _ => .ok bytes

/-! ## Options -/

/-- What the options of a URI say. -/
structure Settings where
  access : Access
  shared : Bool := false
  system : Option String := none

/-- Takes one option into account. -/
def Settings.apply (s : Settings) : String × String → Except TableFileError Settings
  | ("mode", value) =>
    match Access.ofMode? value with
    | none => .error (.noSuchMode "access" value)
    | some access =>
      if s.access.permits access then .ok { s with access } else .error (.modeNotAllowed value)
  | ("cache", "shared") => .ok { s with shared := true }
  | ("cache", "private") => .ok { s with shared := false }
  | ("cache", value) => .error (.noSuchMode "cache" value)
  | ("vfs", value) => .ok { s with system := some value }
  | _ => .ok s

/-- The ways to reach files on the disk. -/
def fileSystems : List String := ["unix", "unix-none", "unix-dotfile", "unix-excl"]

/-- The database of a name. -/
def Settings.target (s : Settings) (name : String) : Target :=
  let writable := s.access ≠ .read
  if s.system = some "memdb" then
    .memory (if name.startsWith "/" && name ≠ "/" then some name else none) writable
  else if name = "" then .memory none writable
  else if name = ":memory:" ∨ s.access = .memory then
    .memory (if s.shared then some name else none) writable
  else .file name (s.access = .create) writable

/-- What a URI stands for, without its scheme. -/
def ofUri (bytes : List UInt8) (access : Access) : Except TableFileError Target := do
  let bytes ← dropAuthority bytes
  let (name, query) := cut (code '?') (bytes.takeWhile (· ≠ code '#'))
  let settings ← (options query).foldlM Settings.apply { access }
  match settings.system with
  | some system =>
    if system = "memdb" ∨ system ∈ fileSystems then return settings.target (partText name)
    else throw (.noSuchVfs system)
  | none => return settings.target (partText name)

/-- What a path stands for. -/
def target (path : String) (create : Bool) : Except TableFileError Target :=
  let bytes := path.toByteArray.data.toList
  let access : Access := if create then .create else .write
  match bytes.idxOf? 0 with
  | some position => .error (.nulInPath position)
  | none =>
    if path.startsWith "file:" then ofUri (bytes.drop 5) access
    else .ok (Settings.target { access } path)

end TablePath

end TypedStore
