/-
  TypedStore — configurations.

  A configuration names an engine with its settings, and says how to log.  It
  is read from a TOML document:

  * a record is a table of its fields, or an array of them in order;
  * a field that is missing has its default, if there is one, and a field that
    is unknown is passed over, except in the tuning options;
  * the fields of the engine stand beside its name, which selects them.
-/
import TypedStore.Toml.Document
import TypedStore.Engine.Handle

namespace TypedStore

/-- How log lines are written. -/
inductive LogFormat where
  | text
  | json
  deriving DecidableEq, Repr

/-- The settings of the log. -/
structure LogConfig where
  level : String := "info"
  format : LogFormat := .text
  deriving DecidableEq, Repr

/-- A configuration. -/
structure Config where
  database : EngineConfig
  logging : LogConfig := {}
  deriving DecidableEq, Repr

namespace Config

open Toml (Datum)

/-! ## Numbers that can be represented -/

mutual

/-- Whether all numbers in a value are in a range. -/
def fits (least greatest : Int) : Datum → Bool
  | .integer n => least ≤ n && n ≤ greatest
  | .float w => w.isSome
  | .array _ items => fitsItems least greatest items
  | .table _ entries => fitsEntries least greatest entries
  | .text _ | .boolean _ | .datetime => true

/-- Whether all numbers in the items of an array are in a range. -/
def fitsItems (least greatest : Int) : List Datum → Bool
  | [] => true
  | v :: rest => fits least greatest v && fitsItems least greatest rest

/-- Whether all numbers in the entries of a table are in a range. -/
def fitsEntries (least greatest : Int) : List (String × Datum) → Bool
  | [] => true
  | (_, v) :: rest => fits least greatest v && fitsEntries least greatest rest

end

/-- Whether a value that is passed over can be read at all. -/
def isReadable (v : Datum) : Bool := fits (-Nat.pow 2 127) (Nat.pow 2 128 - 1) v

/-- Whether a value can be kept until it is known what it is for. -/
def isKept (v : Datum) : Bool := fits IntKind.i64.least IntKind.u64.greatest v

/-! ## Fields -/

/-- The fields of a record, by position and name. -/
abbrev Fields : Type := Nat → String → Option Datum

/-- The fields of a record that has `count` of them, given as a table or an
    array. -/
def fieldsOf (count : Nat) : Datum → Option Fields
  | .table _ entries => some fun _ name => entries.lookup name
  | .array _ items => if items.length ≤ count then some fun index _ => items[index]? else none
  | _ => none

/-- A text. -/
def text? : Datum → Option String
  | .text s => some s
  | _ => none

/-- A boolean. -/
def boolean? : Datum → Option Bool
  | .boolean b => some b
  | _ => none

/-- A number from zero to the given one. -/
def natural? (greatest : Nat) : Datum → Option Nat
  | .integer n => if 0 ≤ n ∧ n ≤ greatest then some n.toNat else none
  | _ => none

/-- A field with a default. -/
def orDefault {α : Type} (read : Datum → Option α) (default : α) : Option Datum → Option α
  | some v => read v
  | none => some default

/-- A field that may be missing. -/
def optional {α : Type} (read : Datum → Option α) : Option Datum → Option (Option α)
  | some v => (read v).map some
  | none => some none

/-! ## The engine -/

/-- The names of the tuning options. -/
def optionNames : List String := ["map_size", "max_readers", "sync_writes"]

/-- Tuning options.  An unknown one is refused. -/
def options? (v : Datum) : Option StoreOptions := do
  let known := match v with
    | .table _ entries => entries.all (·.1 ∈ optionNames)
    | _ => true
  if !known then none
  let f ← fieldsOf 3 v
  return {
    mapSize := ← optional (natural? 0xffffffffffffffff) (f 0 "map_size")
    maxReaders := ← optional (natural? 0xffffffff) (f 1 "max_readers")
    syncWrites := ← orDefault boolean? true (f 2 "sync_writes") }

/-- The settings of a directory engine. -/
def directory? (v : Datum) : Option DirectoryConfig := do
  let f ← fieldsOf 3 v
  return {
    path := ← (f 0 "path").bind text?
    options := ← orDefault options? {} (f 1 "options")
    createIfMissing := ← orDefault boolean? true (f 2 "create_if_missing") }

/-- The settings of the engine of a name. -/
def settings? (engine : String) (v : Datum) : Option EngineConfig :=
  match engine with
  | "memory" => do
    let f ← fieldsOf 1 v
    return .memory (← orDefault boolean? false (f 0 "shared"))
  | "lmdb" => (directory? v).map .lmdb
  | "mdbx" => (directory? v).map .mdbx
  | "rocksdb" => (directory? v).map .rocksdb
  | "fjall" => (directory? v).map .fjall
  | "sqlite" => do
    let f ← fieldsOf 3 v
    return .sqlite (← (f 0 "path").bind text?)
      (← orDefault text? EngineConfig.defaultTable (f 1 "table"))
      (← orDefault boolean? true (f 2 "create_if_missing"))
  | "postgres" => do
    let f ← fieldsOf 2 v
    return .postgres (← (f 0 "conninfo").bind text?)
      (← orDefault text? EngineConfig.defaultTable (f 1 "table"))
  | _ => none

/-- An engine with its settings.  In an array the name of the engine comes
    first. -/
def engine? (v : Datum) : Option EngineConfig :=
  if !isKept v then none
  else
    match v with
    | .table _ entries => do settings? (← (entries.lookup "engine").bind text?) v
    | .array grows (name :: items) => do settings? (← text? name) (.array grows items)
    | _ => none

/-! ## The log -/

/-- The format of a name. -/
def formatOf? : String → Option LogFormat
  | "text" => some .text
  | "json" => some .json
  | _ => none

/-- A format, given by its name, or by a table in which it has an empty
    value. -/
def format? : Datum → Option LogFormat
  | .text name => formatOf? name
  | .table _ [(name, .table _ [])] | .table _ [(name, .array _ [])] => formatOf? name
  | _ => none

/-- The names of the settings of the log. -/
def logNames : List String := ["level", "format"]

/-- The settings of the log.  Further items of an array are not looked at. -/
def logging? : Datum → Option LogConfig
  | .table _ entries => do
    if !entries.all fun e => e.1 ∈ logNames || isReadable e.2 then none
    return {
      level := ← orDefault text? "info" (entries.lookup "level")
      format := ← orDefault format? .text (entries.lookup "format") }
  | .array _ items => do
    return {
      level := ← orDefault text? "info" items[0]?
      format := ← orDefault format? .text items[1]? }
  | .datetime => some {}
  | _ => none

/-! ## Configurations -/

/-- The configuration of a document. -/
def ofTable? (document : Toml.Table) : Option Config := do
  if !document.all fun e => e.1 ∈ ["database", "logging"] || isReadable e.2 then none
  return {
    database := ← (document.lookup "database").bind engine?
    logging := ← orDefault logging? {} (document.lookup "logging") }

/-- The configuration of a text. -/
def ofText? (text : String) : Option Config := (Toml.ofText? text).bind ofTable?

/-- Why there is no configuration in a file. -/
inductive Fault where
  | file (path : String) (e : FileError)
  | malformed
  deriving DecidableEq, Repr

/-- The message of a fault. -/
def Fault.message : Fault → String
  | file path e => "Failed to read config file '" ++ path ++ "': " ++ e.message
  | malformed => "Failed to parse config"

/-- The text of a file. -/
def readText (path : String) (files : FileTree) : Except FileError String := do
  match ← files.read path with
  | .bytes b =>
    match Utf8.decode? b with
    | some text => return text
    | none => throw .notText
  | _ => throw .notText

/-- The configuration in a file. -/
def ofFile (path : String) (files : FileTree) : Except Fault Config :=
  match readText path files with
  | .error e => .error (.file path e)
  | .ok text =>
    match ofText? text with
    | some c => .ok c
    | none => .error .malformed

end Config

end TypedStore
