/-
  TypedStore — failures as the command line shows them.

  A failure is shown by its structure: its name, and its contents in brackets
  or by field, texts in quotes.  What engines and the reader of configurations
  say about themselves is left out.
-/
import TypedStore.Config
import TypedStore.Command.LogFilter
import TypedStore.Literal

namespace TypedStore

/-! ## Structures -/

/-- A name with contents in brackets. -/
def Text.bracketed (name contents : String) : String := name ++ "(" ++ contents ++ ")"

/-- A name with fields in braces. -/
def Text.braced (name : String) (fields : List (String × String)) : String :=
  name ++ " \x7b " ++ ", ".intercalate (fields.map fun f => f.1 ++ ": " ++ f.2) ++ " \x7d"

open Text (quoted bracketed braced)

/-- The name of a kind in a structure. -/
def Kind.title (k : Kind) : String := k.name.capitalize

/-- A failed cast by its structure. -/
def CastError.structured : CastError → String
  | mismatch expected found =>
    braced "Mismatch" [("expected", expected.title), ("found", found.title)]
  | width expected found => braced "Width" [("expected", expected.repr), ("found", found.repr)]
  | nan stored => bracketed "NanSentinel" (Kind.float stored).title
  | invalidBool byte => bracketed "InvalidBool" byte.toNat.repr
  | invalidUtf8 => "InvalidUtf8"
  | malformed domain => braced "Malformed" [("domain", quoted domain)]
  | unsupported kind => bracketed "Unsupported" kind.title

/-- A failure of the file system by its structure. -/
def FileError.structured (e : FileError) : String :=
  match e.system?, e with
  | some (code, kind, words), _ =>
    braced "Os" [("code", code.repr), ("kind", kind), ("message", quoted words)]
  | none, missingDirectory _ => braced "Custom" [("kind", "NotFound"), ("error", quoted e.message)]
  | none, nulInName => braced "Error" [("kind", "InvalidInput"), ("message", quoted e.message)]
  | none, _ => braced "Error" [("kind", "InvalidData"), ("message", quoted e.message)]

/-- What stands for contents that are left out. -/
def omitted : String := ".."

/-- A failure of a store by its structure. -/
def StoreError.structured : StoreError → String
  | keyNotFound key => bracketed "KeyNotFound" (quoted key)
  | badValue key cause =>
    braced "BadValue" [("key", quoted key), ("source", cause.structured)]
  | closed => "Closed"
  | file e => bracketed "Io" e.structured
  | malformedConfig => bracketed "Config" (bracketed "Parse" omitted)
  | backendDisabled engine => bracketed "BackendDisabled" (quoted engine)
  | invalidTableName name => bracketed "InvalidTableName" (quoted name)
  | environment _ => bracketed "Lmdb" omitted
  | journal => bracketed "Fjall" omitted
  | tableFile _ => bracketed "Sqlite" omitted
  | server _ => bracketed "Postgres" omitted
  | backend name message =>
    braced "Backend" [("backend", quoted name), ("message", quoted message)]

/-! ## Failures of a command -/

/-- Why a command failed. -/
inductive CommandError where
  | config (fault : Config.Fault)
  | filter (fault : LogFilter.Fault)
  | literal (input : String) (kind : Kind) (fault : LiteralFault)
  | store (e : StoreError)
  deriving DecidableEq, Repr

/-- The structure of a failure. -/
def CommandError.structured : CommandError → String
  | config (.file path e) =>
    bracketed "Config" (bracketed "Io" (quoted path ++ ", " ++ e.structured))
  | config .malformed => bracketed "Config" (bracketed "Parse" omitted)
  | filter fault => bracketed "Logging" (quoted fault.message)
  | literal input kind fault =>
    bracketed "InvalidValue" ("cannot read " ++ quoted input ++ " as " ++ kind.name ++
      "\n\nCaused by:\n    " ++ fault.message)
  | store e => bracketed "Kv" e.structured

end TypedStore
