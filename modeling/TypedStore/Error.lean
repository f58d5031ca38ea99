/-
  TypedStore — errors of store operations.

  An error is one of three classes: the key is absent, the value under it does
  not fit what was asked for, or the engine failed for a reason that has
  nothing to do with the value.  The first two are recoverable: a caller with
  a default value goes on with it.
-/
import TypedStore.Value
import TypedStore.Text.Quoted

namespace TypedStore

/-! ## The file system -/

/-- Why an operation on the file system failed. -/
inductive FileError where
  | notFound
  | alreadyExists
  | notDirectory
  | isDirectory
  | notEmpty
  | busy
  | nameTooLong
  | invalidArgument
  | nulInName
  | notText
  | missingDirectory (path : String)
  deriving DecidableEq, Repr

namespace FileError

/-- The number and the words of an error of the operating system. -/
def system? : FileError → Option (Nat × String × String)
  | notFound => some (2, "NotFound", "No such file or directory")
  | alreadyExists => some (17, "AlreadyExists", "File exists")
  | notDirectory => some (20, "NotADirectory", "Not a directory")
  | isDirectory => some (21, "IsADirectory", "Is a directory")
  | notEmpty => some (39, "DirectoryNotEmpty", "Directory not empty")
  | busy => some (16, "ResourceBusy", "Device or resource busy")
  | nameTooLong => some (36, "InvalidFilename", "File name too long")
  | invalidArgument => some (22, "InvalidInput", "Invalid argument")
  | nulInName | notText | missingDirectory _ => none

/-- The message of a failed operation. -/
def message (e : FileError) : String :=
  match e.system?, e with
  | some (code, _, words), _ => words ++ " (os error " ++ code.repr ++ ")"
  | none, nulInName => "file name contained an unexpected NUL byte"
  | none, missingDirectory path => "database directory does not exist: " ++ path
  | none, _ => "stream did not contain valid UTF-8"

/-- Whether the error says that there is no such file. -/
def isNotFound : FileError → Bool
  | notFound | missingDirectory _ => true
  | _ => false

end FileError

/-! ## Engines -/

/-- Why the memory-mapped engine refused an operation. -/
inductive EnvironmentError where
  | file (e : FileError)
  | mapSize (size : Nat)
  | invalidArgument
  | alreadyOpen
  | badKeySize
  | mapFull
  | invalidFile
  | outOfMemory
  deriving DecidableEq, Repr

/-- The message of the memory-mapped engine. -/
def EnvironmentError.message : EnvironmentError → String
  | file e => e.message
  | mapSize size =>
    "map size (" ++ size.repr ++ ") must be a multiple of the system page size (4096)"
  | invalidArgument => "Invalid argument (os error 22)"
  | alreadyOpen =>
    "environment already open in this program; " ++
      "close it to be able to open it again with different options"
  | badKeySize =>
    "MDB_BAD_VALSIZE: Unsupported size of key/DB name/data, or wrong DUPFIXED size"
  | mapFull => "MDB_MAP_FULL: Environment mapsize limit reached"
  | invalidFile => "MDB_INVALID: File is not an LMDB file"
  | outOfMemory => "Cannot allocate memory (os error 12)"

/-- Why the file-based relational engine refused an operation. -/
inductive TableFileError where
  | cannotOpen (path : String)
  | notDatabase
  | reservedName (name : String)
  | readOnly
  | nulInPath (position : Nat)
  | badAuthority (authority : String)
  | noSuchMode (type mode : String)
  | modeNotAllowed (mode : String)
  | noSuchVfs (name : String)
  deriving DecidableEq, Repr

/-- The message of the file-based relational engine. -/
def TableFileError.message : TableFileError → String
  | cannotOpen path => "unable to open database file: " ++ path
  | notDatabase => "file is not a database"
  | reservedName name => "object name reserved for internal use: " ++ name
  | readOnly => "attempt to write a readonly database"
  | nulInPath position => "nul byte found in provided data at position: " ++ position.repr
  | badAuthority authority => "invalid uri authority: " ++ authority
  | noSuchMode type mode => "no such " ++ type ++ " mode: " ++ mode
  | modeNotAllowed mode => "access mode not allowed: " ++ mode
  | noSuchVfs name => "no such vfs: " ++ name

/-- Why the relational server refused an operation. -/
inductive ServerError where
  | connectionString
  | configuration
  | connect
  | security
  | authentication
  | encoding
  | statement
  deriving DecidableEq, Repr

/-- The message of the relational server. -/
def ServerError.message : ServerError → String
  | connectionString => "invalid connection string"
  | configuration => "invalid configuration"
  | connect => "error connecting to server"
  | security => "error performing TLS handshake"
  | authentication => "authentication error"
  | encoding => "error encoding message to server"
  | statement => "db error"

/-! ## Stores -/

/-- Why an operation on a store failed. -/
inductive StoreError where
  | keyNotFound (key : String)
  | badValue (key : String) (cause : CastError)
  | closed
  | file (e : FileError)
  | malformedConfig
  | backendDisabled (engine : String)
  | invalidTableName (name : String)
  | environment (e : EnvironmentError)
  | journal
  | tableFile (e : TableFileError)
  | server (e : ServerError)
  | backend (backend message : String)
  deriving DecidableEq, Repr

/-- The class of an error. -/
inductive ErrorClass where
  | keyNotFound
  | badValue
  | backend
  deriving DecidableEq, Repr

namespace StoreError

/-- The class of an error. -/
def «class» : StoreError → ErrorClass
  | keyNotFound _ => .keyNotFound
  | badValue .. => .badValue
  | _ => .backend

/-- Whether a caller with a default value goes on after the error. -/
def isRecoverable (e : StoreError) : Bool := e.class ≠ .backend

/-- The message of an error. -/
def message : StoreError → String
  | keyNotFound key => "Key not found: " ++ key
  | badValue key cause => "Bad value for key '" ++ key ++ "': " ++ cause.message
  | closed => "Database is closed"
  | file e => "IO error: " ++ e.message
  | malformedConfig => "Configuration error: Failed to parse config"
  | backendDisabled engine =>
    "Backend '" ++ engine ++ "' is not compiled in (enable the `" ++ engine ++ "` feature)"
  | invalidTableName name => "Invalid table name: " ++ Text.quoted name
  | environment e => "LMDB error: " ++ e.message
  | journal => "Fjall error"
  | tableFile e => "SQLite error: " ++ e.message
  | server e => "PostgreSQL error: " ++ e.message
  | backend name message => name ++ " error: " ++ message

end StoreError

end TypedStore
