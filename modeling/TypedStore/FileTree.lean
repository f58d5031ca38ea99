/-
  TypedStore — the file tree that databases are kept in.

  A location is the list of names that leads to it from the root.  A node is a directory or a
  file, and a file holds bytes or refers to a database by its number, so that
  a database outlives its name while someone has it open.

  * a path is walked name by name, through directories only;
  * every operation on one node either changes the tree or fails and leaves it
    as it was;
  * `removeFiles` goes on past names that do not exist and stops at any other
    error.
-/
import TypedStore.Entries
import TypedStore.Error

namespace TypedStore

/-! ## Locations and nodes -/

/-- The names that lead to a node. -/
abbrev Location : Type := List String

/-- What a file holds. -/
inductive Content where
  | bytes (b : ByteArray)
  | keyspace (number : Nat)
  | database (number : Nat)
  deriving DecidableEq

/-- A directory or a file. -/
inductive Node where
  | directory
  | file (content : Content)
  deriving DecidableEq

/-- The directories and files below the root.  The working directory is there
    by itself. -/
structure FileTree where
  nodes : Entries Location Node := .empty

namespace FileTree

variable (t : FileTree)

/-- The working directory, where paths begin that are not absolute. -/
def working : Location := ["tmp", "work"]

/-- The node at a location; the working directory and those above it are
    always there. -/
def node? (loc : Location) : Option Node :=
  if loc.isPrefixOf working then some .directory else t.nodes.get? loc

/-- Puts a node at a location. -/
def put (loc : Location) (n : Node) : FileTree := ⟨t.nodes.insert loc n⟩

/-- Removes the node at a location. -/
def delete (loc : Location) : FileTree := ⟨t.nodes.erase loc⟩

/-! ## Walking a path -/

/-- The location that a name leads to from a directory. -/
def enter (loc : Location) (name : String) : Except FileError Location :=
  match t.node? loc with
  | none => .error .notFound
  | some (.file _) => .error .notDirectory
  | some .directory =>
    if name = "" ∨ name = "." then .ok loc
    else if name = ".." then .ok loc.dropLast
    else if 255 < name.utf8ByteSize then .error .nameTooLong
    else .ok (loc ++ [name])

/-- Walks a list of names. -/
def walk (loc : Location) : List String → Except FileError Location
  | [] => .ok loc
  | name :: rest => do walk (← t.enter loc name) rest

/-- Where a path begins, and the names it goes through. -/
def parts (path : String) : Location × List String :=
  (if path.startsWith "/" then [] else working, path.splitOn "/")

/-- The greatest length of a path, in bytes. -/
def greatestPath : Nat := 4095

/-- Fails if a path is not one at all. -/
def checkPath (path : String) : Except FileError Unit :=
  if path.contains (Char.ofNat 0) then .error .nulInName
  else if greatestPath < path.utf8ByteSize then .error .nameTooLong
  else .ok ()

/-- The location of a path. -/
def resolve (path : String) : Except FileError Location := do
  checkPath path
  if path = "" then throw .notFound
  t.walk (parts path).1 (parts path).2

/-- The node at a path. -/
def at? (path : String) : Option Node :=
  match t.resolve path with
  | .ok loc => t.node? loc
  | .error _ => none

/-- Whether there is a node at a path. -/
def «exists» (path : String) : Bool := (t.at? path).isSome

/-- Whether there is a directory at a path. -/
def isDirectory (path : String) : Bool := t.at? path = some .directory

/-- The path of a name in a directory. -/
def join (directory name : String) : String :=
  if directory = "" ∨ directory.endsWith "/" then directory ++ name
  else directory ++ "/" ++ name

/-- The location of a path by its names alone, without looking at the tree:
    `..` takes back the name before it. -/
def normalise (path : String) : Location :=
  (parts path).2.foldl (fun loc name =>
    if name = "" ∨ name = "." then loc
    else if name = ".." then loc.dropLast
    else loc ++ [name]) (parts path).1

/-! ## Files -/

/-- What the file at a path holds. -/
def read (path : String) : Except FileError Content := do
  match t.node? (← t.resolve path) with
  | none => throw .notFound
  | some .directory => throw .isDirectory
  | some (.file content) => return content

/-- Writes a file, in place of the one that was there. -/
def write (path : String) (content : Content) : Except FileError FileTree := do
  let loc ← t.resolve path
  match t.node? loc with
  | some .directory => throw .isDirectory
  | _ => return t.put loc (.file content)

/-- Removes a file. -/
def removeFile (path : String) : Except FileError FileTree := do
  let loc ← t.resolve path
  match t.node? loc with
  | none => throw .notFound
  | some .directory => throw .isDirectory
  | some (.file _) => return t.delete loc

/-- Removes files one after another.  A name that does not exist is passed
    over; any other error ends the removal, and what was removed before stays
    so. -/
def removeFiles : List String → FileTree → Option FileError × FileTree
  | [], t => (none, t)
  | path :: rest, t =>
    match t.removeFile path with
    | .ok t' => removeFiles rest t'
    | .error e => if e.isNotFound then removeFiles rest t else (some e, t)

/-! ## Directories -/

/-- Makes the directories that a list of names leads through. -/
def makeAlong (loc : Location) : List String → FileTree → Except FileError FileTree
  | [], t => .ok t
  | name :: rest, t =>
    if name = "" ∨ name = "." then makeAlong loc rest t
    else if name = ".." then makeAlong loc.dropLast rest t
    else if 255 < name.utf8ByteSize then .error .nameTooLong
    else
      match t.node? (loc ++ [name]) with
      | some .directory => makeAlong (loc ++ [name]) rest t
      | some (.file _) =>
        .error (if rest.all (· = "") then .alreadyExists else .notDirectory)
      | none => makeAlong (loc ++ [name]) rest (t.put (loc ++ [name]) .directory)

/-- Makes a directory and the missing ones above it. -/
def makeDirectories (path : String) : Except FileError FileTree := do
  checkPath path
  makeAlong (parts path).1 (parts path).2 t

/-- Whether a directory has no entries; those above the working directory have
    one. -/
def isEmptyDirectory (loc : Location) : Bool :=
  (t.nodes.keys.all fun k => k = [] || k.dropLast != loc) && !loc.isPrefixOf working.dropLast

/-- Why a directory without entries cannot be removed under a path: its last
    name must not be the one that every directory has for itself, and the
    working directory and those above it stay. -/
def removalFault (path : String) (loc : Location) : Option FileError :=
  if ((parts path).2.filter (· ≠ "")).getLast? = some "." then some .invalidArgument
  else if loc.isPrefixOf working then some .busy
  else none

/-- Removes a directory if it has no entries; a missing one is passed over. -/
def removeIfEmpty (path : String) : Except FileError FileTree :=
  match t.resolve path with
  | .error e => if e.isNotFound then .ok t else .error e
  | .ok loc =>
    match t.node? loc with
    | none => .ok t
    | some (.file _) => .error .notDirectory
    | some .directory =>
      if t.isEmptyDirectory loc then
        match removalFault path loc with
        | some e => .error e
        | none => .ok (t.delete loc)
      else .ok t

/-- Removes everything below a directory. -/
def clear (loc : Location) : FileTree :=
  ⟨t.nodes.filterKeys fun k => k = loc || !loc.isPrefixOf k⟩

/-- Removes a directory with everything below it; a missing one is passed over.
    A path that goes through what was below the directory leads nowhere in the
    end, and the directory stays. -/
def removeAll (path : String) : Option FileError × FileTree :=
  match t.resolve path with
  | .error _ => (none, t)
  | .ok loc =>
    match t.node? loc with
    | none => (none, t)
    | some (.file _) => (some .notDirectory, t)
    | some .directory =>
      match (t.clear loc).resolve path, removalFault path loc with
      | .error _, _ => (none, t.clear loc)
      | .ok _, some e => (some e, t.clear loc)
      | .ok _, none => (none, (t.clear loc).delete loc)

/-- Makes sure that there is a directory at a path, making it if that is
    allowed. -/
def ensureDirectory (path : String) (create : Bool) : Except FileError FileTree :=
  if t.isDirectory path then .ok t
  else if create then t.makeDirectories path
  else .error (.missingDirectory path)

end FileTree

end TypedStore
