/-
  TypedStore — the fields of a configuration.

  * `Field`: the settings of all engines, of their tuning options and of the
    log, each with its place in a document and the way it is read;
  * `Takes`: a reader of records that depends on the given fields alone, and
    reads nothing if one of them cannot be read;
  * `takes_settings`, `takes_options`, `takes_log`: the records of a
    configuration are read so;
  * `ofTable?_of_shuffles`: no configuration depends on the order of keys.
-/
import TypedStore.Config
import TypedStore.Proofs.Document

namespace TypedStore.Config

open Toml (Datum)

/-- A setting of a configuration. -/
inductive Field where
  | shared
  | path
  | options
  | createIfMissing
  | table
  | conninfo
  | mapSize
  | maxReaders
  | syncWrites
  | level
  | format
  | logging
  deriving DecidableEq, Repr

namespace Field

/-- The name of a setting in its table. -/
def name : Field → String
  | shared => "shared"
  | path => "path"
  | options => "options"
  | createIfMissing => "create_if_missing"
  | table => "table"
  | conninfo => "conninfo"
  | mapSize => "map_size"
  | maxReaders => "max_readers"
  | syncWrites => "sync_writes"
  | level => "level"
  | format => "format"
  | logging => "logging"

/-- The place of a setting in a record that is written as an array. -/
def index : Field → Nat
  | shared | path | conninfo | mapSize | level => 0
  | options | table | maxReaders | format | logging => 1
  | createIfMissing | syncWrites => 2

/-- The table of a document that a setting stands in. -/
def place : Field → List String
  | logging => []
  | shared | path | options | createIfMissing | table | conninfo => ["database"]
  | mapSize | maxReaders | syncWrites => ["database", "options"]
  | level | format => ["logging"]

/-- What a setting is. -/
abbrev Setting : Field → Type
  | shared | createIfMissing | syncWrites => Bool
  | path | table | conninfo | level => String
  | options => StoreOptions
  | mapSize | maxReaders => Option Nat
  | format => LogFormat
  | logging => LogConfig

/-- What a setting is read as, given its value or none. -/
def read : (f : Field) → Option Datum → Option f.Setting
  | shared, x => orDefault boolean? false x
  | path, x => x.bind text?
  | options, x => orDefault options? {} x
  | createIfMissing, x => orDefault boolean? true x
  | table, x => orDefault text? EngineConfig.defaultTable x
  | conninfo, x => x.bind text?
  | mapSize, x => optional (natural? 0xffffffffffffffff) x
  | maxReaders, x => optional (natural? 0xffffffff) x
  | syncWrites, x => orDefault boolean? true x
  | level, x => orDefault text? "info" x
  | format, x => orDefault format? .text x
  | logging, x => orDefault logging? {} x

/-- The settings of the engine of a name. -/
def ofEngine : String → List Field
  | "memory" => [shared]
  | "lmdb" | "mdbx" | "rocksdb" | "fjall" => [path, options, createIfMissing]
  | "sqlite" => [path, table, createIfMissing]
  | "postgres" => [conninfo, table]
  | _ => []

/-- The tuning options. -/
def ofOptions : List Field := [mapSize, maxReaders, syncWrites]

/-- The settings of the log. -/
def ofLog : List Field := [level, format]

/-- The reading of a setting of a record. -/
def of (f : Field) (g : Fields) : Option f.Setting := f.read (g f.index f.name)

end Field

/-! ## Readers of records -/

variable {α β : Type} {v w : Datum} {engine : String} {f : Field} {fields : List Field}

/-- A reader of records that depends on the given fields alone, and needs to
    read each of them. -/
structure Takes (fields : List Field) (read : Fields → Option α) : Prop where
  congr {g g' : Fields} : (∀ f ∈ fields, f.of g = f.of g') → read g = read g'
  strict {g : Fields} {f : Field} : f ∈ fields → f.of g = none → read g = none

namespace Takes

theorem done (a : α) : Takes [] fun _ => some a := ⟨fun _ => rfl, nofun⟩

theorem never : Takes (α := α) [] fun _ => none := ⟨fun _ => rfl, nofun⟩

/-- One field more is read first. -/
theorem field (f : Field) {read : f.Setting → Fields → Option α} (h : ∀ x, Takes fields (read x)) :
    Takes (f :: fields) fun g => (f.of g).bind fun x => read x g where
  congr {g g'} hsame := by
    obtain ⟨hf, hfields⟩ := List.forall_mem_cons.1 hsame
    rw [hf]
    exact congrArg _ (funext fun x => (h x).congr hfields)
  strict {g f'} hmem hnone := by
    rcases List.mem_cons.1 hmem with rfl | hmem
    · rw [hnone]
      rfl
    · exact Option.bind_eq_none_iff.2 fun x _ => (h x).strict hmem hnone

theorem map {read : Fields → Option α} (h : Takes fields read) (φ : α → β) :
    Takes fields fun g => (read g).map φ where
  congr hsame := by rw [h.congr hsame]
  strict hmem hnone := by
    rw [h.strict hmem hnone]
    rfl

end Takes

/-- Two records are read alike, as far as the given fields go, or neither is a
    record. -/
def SameFields (fields : List Field) (v w : Datum) : Prop :=
  ∀ count, (fieldsOf count v = none ∧ fieldsOf count w = none) ∨
    ∃ g g', fieldsOf count v = some g ∧ fieldsOf count w = some g' ∧
      ∀ f ∈ fields, f.of g = f.of g'

/-- A field of a record that cannot be read. -/
def BadField (f : Field) (v : Datum) : Prop := ∀ count g, fieldsOf count v = some g → f.of g = none

namespace Takes

variable {read : Fields → Option α} (h : Takes fields read) (count : Nat)
include h

theorem bind_congr (hsame : SameFields fields v w) :
    (fieldsOf count v).bind read = (fieldsOf count w).bind read := by
  obtain ⟨hv, hw⟩ | ⟨g, g', hv, hw, hfields⟩ := hsame count
  · rw [hv, hw]
  · rw [hv, hw, Option.bind_some, Option.bind_some, h.congr hfields]

theorem bind_eq_none (hf : f ∈ fields) (hbad : BadField f v) :
    (fieldsOf count v).bind read = none :=
  Option.bind_eq_none_iff.2 fun g hg => h.strict hf (hbad count g hg)

end Takes

/-! ## The records of a configuration -/

theorem takes_directory : ∃ read, Takes (Field.ofEngine "lmdb") read ∧
    ∀ v, directory? v = (fieldsOf 3 v).bind read :=
  ⟨_, .field .path fun path => .field .options fun options => .field .createIfMissing fun create =>
    .done ⟨path, options, create⟩, fun _ => rfl⟩

/-- The settings of an engine are read from its fields. -/
theorem takes_settings (engine : String) : ∃ count read, Takes (Field.ofEngine engine) read ∧
    ∀ v, settings? engine v = (fieldsOf count v).bind read := by
  obtain ⟨read, hread, hdirectory⟩ := takes_directory
  have hmap (make : DirectoryConfig → EngineConfig) (v : Datum) :
      (directory? v).map make = (fieldsOf 3 v).bind fun g => (read g).map make := by
    rw [hdirectory, Option.map_bind]
    rfl
  unfold settings?
  split
  · exact ⟨1, _, .field .shared fun shared => .done (.memory shared), fun _ => rfl⟩
  · exact ⟨3, _, hread.map .lmdb, hmap .lmdb⟩
  · exact ⟨3, _, hread.map .mdbx, hmap .mdbx⟩
  · exact ⟨3, _, hread.map .rocksdb, hmap .rocksdb⟩
  · exact ⟨3, _, hread.map .fjall, hmap .fjall⟩
  · exact ⟨3, _, .field .path fun path => .field .table fun table =>
      .field .createIfMissing fun create => .done (.sqlite path table create), fun _ => rfl⟩
  · exact ⟨2, _, .field .conninfo fun conninfo => .field .table fun table =>
      .done (.postgres conninfo table), fun _ => rfl⟩
  · next hmemory hlmdb hmdbx hrocksdb hfjall hsqlite hpostgres =>
    have hnone : Field.ofEngine engine = [] := by
      unfold Field.ofEngine
      split <;> first | rfl | contradiction
    rw [hnone]
    exact ⟨0, _, .never, fun v => by cases fieldsOf 0 v <;> rfl⟩

/-- Whether a table of tuning options has no other keys. -/
def hasOnlyOptions : Datum → Bool
  | .table _ entries => entries.all (·.1 ∈ optionNames)
  | _ => true

theorem takes_options : ∃ read, Takes Field.ofOptions read ∧
    ∀ v, options? v = if hasOnlyOptions v then (fieldsOf 3 v).bind read else none := by
  refine ⟨_, .field .mapSize fun mapSize => .field .maxReaders fun maxReaders =>
    .field .syncWrites fun syncWrites => .done ⟨mapSize, maxReaders, syncWrites⟩, fun v => ?_⟩
  unfold options?
  cases v with
  | table form entries =>
    show (if !hasOnlyOptions (.table form entries) then none else _) = _
    cases hasOnlyOptions (.table form entries) <;> rfl
  | _ => rfl

/-- Whether a table of the log has no other values but ones that can be read. -/
def isReadableLog (entries : Toml.Table) : Bool :=
  entries.all fun e => e.1 ∈ logNames || isReadable e.2

theorem takes_log : ∃ read, Takes Field.ofLog read ∧
    (∀ form entries, logging? (.table form entries) =
      if isReadableLog entries then read (fun _ name => entries.lookup name) else none) ∧
    ∀ grows items, logging? (.array grows items) = read (fun index _ => items[index]?) := by
  refine ⟨_, .field .level fun level => .field .format fun format => .done ⟨level, format⟩,
    fun form entries => ?_, fun _ _ => rfl⟩
  unfold logging?
  show (if !isReadableLog entries then none else _) = _
  cases isReadableLog entries <;> rfl

/-! ## Engines and configurations -/

/-- Whether a document has no other values but ones that can be read. -/
def isReadableTop (document : Toml.Table) : Bool :=
  document.all fun e => e.1 ∈ ["database", "logging"] || isReadable e.2

theorem engine?_table (form : Toml.Form) (entries : Toml.Table) :
    engine? (.table form entries) = if isKept (.table form entries) then
      ((entries.lookup "engine").bind text?).bind (settings? · (.table form entries)) else none := by
  unfold engine?
  cases isKept (.table form entries) <;> rfl

theorem ofTable?_eq (document : Toml.Table) : ofTable? document = if isReadableTop document then
    ((document.lookup "database").bind engine?).bind fun database =>
      (Field.logging.read (document.lookup "logging")).bind fun logging => some ⟨database, logging⟩
    else none := by
  unfold ofTable?
  show (if !isReadableTop document then none else _) = _
  cases isReadableTop document <;> rfl

/-! ## Numbers in a document -/

section
variable {least greatest : Int}

theorem fitsEntries_eq (entries : Toml.Table) :
    fitsEntries least greatest entries = entries.all fun e => fits least greatest e.2 := by
  induction entries with
  | nil => rfl
  | cons e rest ih => rw [fitsEntries, ih, List.all_cons]

theorem fitsItems_eq (items : List Datum) :
    fitsItems least greatest items = items.all (fits least greatest) := by
  induction items with
  | nil => rfl
  | cons v rest ih => rw [fitsItems, ih, List.all_cons]

/-- Whether all numbers are in a range does not depend on the order of keys. -/
theorem fits_of_reorders (h : v.Reorders w) : fits least greatest v = fits least greatest w := by
  induction h with
  | here hperm => rw [fits, fits, fitsEntries_eq, fitsEntries_eq, hperm.all_eq]
  | entry _ ih =>
    simp only [fits, fitsEntries_eq, List.all_append, List.all_cons, ih]
  | item _ ih =>
    simp only [fits, fitsItems_eq, List.all_append, List.all_cons, ih]

end

/-! ## The order of keys -/

open Toml (Alike)

/-- A reader that does not see the order of keys. -/
def IsBlind (read : Datum → Option α) : Prop := ∀ {v w : Datum}, v.Shuffles w → read v = read w

theorem isBlind_text? : IsBlind text? := fun h => by cases h.reorders <;> rfl

theorem isBlind_boolean? : IsBlind boolean? := fun h => by cases h.reorders <;> rfl

theorem isBlind_natural? (greatest : Nat) : IsBlind (natural? greatest) :=
  fun h => by cases h.reorders <;> rfl

theorem IsBlind.bind {read : Datum → Option α} (h : IsBlind read) {x y : Option Datum}
    (hxy : Alike x y) : x.bind read = y.bind read := by
  cases hxy with
  | refl => rfl
  | shuffled hvw => exact h hvw

theorem IsBlind.orDefault {read : Datum → Option α} (h : IsBlind read) {x y : Option Datum}
    (hxy : Alike x y) (default : α) : orDefault read default x = orDefault read default y := by
  cases hxy with
  | refl => rfl
  | shuffled hvw => exact h hvw

theorem IsBlind.optional {read : Datum → Option α} (h : IsBlind read) {x y : Option Datum}
    (hxy : Alike x y) : optional read x = optional read y := by
  cases hxy with
  | refl => rfl
  | shuffled hvw => exact congrArg (Option.map some) (h hvw)

/-- Whether a value is empty does not depend on the order of keys, and a format
    is given by no other values. -/
theorem format?_entry (form : Toml.Form) (key : String) (h : v.Reorders w) :
    format? (.table form [(key, v)]) = format? (.table form [(key, w)]) := by
  cases h with
  | @here form' entries entries' hperm =>
    cases entries with
    | nil => rw [hperm.nil_eq]
    | cons e rest =>
      cases entries' with
      | nil => exact absurd hperm.eq_nil (List.cons_ne_nil _ _)
      | cons => rfl
  | @entry _ _ _ _ before => cases before <;> rfl
  | @item _ _ _ before => cases before <;> rfl

theorem format?_of_two (form : Toml.Form) (e e' : String × Datum) (rest : Toml.Table) :
    format? (.table form (e :: e' :: rest)) = none := by
  unfold format?
  split
  · next h => cases h
  · next h => cases h
  · next h => cases h
  · rfl

theorem isBlind_format? : IsBlind format? := by
  intro v w h
  obtain ⟨-, hreorders⟩ := h
  cases hreorders with
  | @here form entries entries' hperm =>
    have hlength := hperm.length_eq
    match entries, entries' with
    | [], [] => rfl
    | [e], [e'] => rw [List.singleton_perm_singleton.1 hperm]
    | _ :: _ :: _, _ :: _ :: _ => rw [format?_of_two, format?_of_two]
    | [], _ :: _ | _ :: _, [] => cases hlength
    | [_], _ :: _ :: _ | _ :: _ :: _, [_] => simp at hlength
  | @entry form key v w before after hvw =>
    match before, after with
    | [], [] => exact format?_entry form key hvw
    | [], _ :: _ | [_], _ | _ :: _ :: _, _ =>
      exact (format?_of_two ..).trans (format?_of_two ..).symm
  | item => rfl

/-- A setting whose reading does not depend on the order of keys. -/
def Field.IsBlind (f : Field) : Prop := ∀ {x y : Option Datum}, Alike x y → f.read x = f.read y

/-- Records in another order have the same fields. -/
theorem sameFields_of_shuffles (hfields : ∀ f ∈ fields, f.IsBlind) (h : v.Shuffles w) :
    SameFields fields v w := by
  intro count
  obtain ⟨-, hreorders⟩ := id h
  cases hreorders with
  | here | entry =>
    exact Or.inr ⟨_, _, rfl, rfl, fun f hf => hfields f hf (h.lookup f.name)⟩
  | item =>
    simp only [fieldsOf, List.length_append, List.length_cons]
    split
    · exact Or.inr ⟨_, _, rfl, rfl, fun f hf => hfields f hf (h.getElem? f.index)⟩
    · exact Or.inl ⟨rfl, rfl⟩

theorem hasOnlyOptions_of_reorders (h : v.Reorders w) : hasOnlyOptions v = hasOnlyOptions w := by
  cases h with
  | here hperm => exact hperm.all_eq
  | entry => simp only [hasOnlyOptions, List.all_append, List.all_cons]
  | item => rfl

theorem isBlind_options? : IsBlind options? := by
  intro v w h
  obtain ⟨read, hread, heq⟩ := takes_options
  have hblind : ∀ f ∈ Field.ofOptions, f.IsBlind := by
    simp only [Field.ofOptions, List.forall_mem_cons]
    exact ⟨IsBlind.optional (isBlind_natural? _), IsBlind.optional (isBlind_natural? _),
      fun hxy => IsBlind.orDefault isBlind_boolean? hxy _, nofun⟩
  rw [heq, heq, hasOnlyOptions_of_reorders h.reorders,
    hread.bind_congr 3 (sameFields_of_shuffles hblind h)]

/-- The other values of a table can be read in any order. -/
theorem all_readable_of_reorders {names : List String} {form form' : Toml.Form}
    {t t' : Toml.Table} (h : (Datum.table form t).Reorders (.table form' t')) :
    (t.all fun e => e.1 ∈ names || isReadable e.2) =
      t'.all fun e => e.1 ∈ names || isReadable e.2 := by
  cases h with
  | here hperm => exact hperm.all_eq
  | entry hvw =>
    have hreadable : isReadable _ = isReadable _ := fits_of_reorders hvw
    simp only [List.all_append, List.all_cons, hreadable]

theorem isBlind_logging? : IsBlind logging? := by
  intro v w h
  obtain ⟨read, hread, htable, harray⟩ := takes_log
  have hlevel {x y : Option Datum} (hxy : Alike x y) : Field.level.read x = Field.level.read y :=
    IsBlind.orDefault isBlind_text? hxy _
  have hformat {x y : Option Datum} (hxy : Alike x y) : Field.format.read x = Field.format.read y :=
    IsBlind.orDefault isBlind_format? hxy _
  have hsame {g g' : Fields} (hg : ∀ index name, Alike (g index name) (g' index name)) :
      read g = read g' := by
    refine hread.congr ?_
    simp only [Field.ofLog, List.forall_mem_cons]
    exact ⟨hlevel (hg _ _), hformat (hg _ _), nofun⟩
  obtain ⟨-, hreorders⟩ := id h
  cases hreorders with
  | here | entry =>
    rw [htable, htable, isReadableLog, isReadableLog, all_readable_of_reorders h.reorders,
      hsame fun _ name => h.lookup name]
  | item => rw [harray, harray, hsame fun index _ => h.getElem? index]

/-- **No setting depends on the order of keys.** -/
theorem Field.isBlind (f : Field) : f.IsBlind := by
  intro x y hxy
  cases f with
  | shared | createIfMissing | syncWrites => exact IsBlind.orDefault isBlind_boolean? hxy _
  | path | conninfo => exact IsBlind.bind isBlind_text? hxy
  | table | level => exact IsBlind.orDefault isBlind_text? hxy _
  | options => exact IsBlind.orDefault isBlind_options? hxy _
  | mapSize | maxReaders => exact IsBlind.optional (isBlind_natural? _) hxy
  | format => exact IsBlind.orDefault isBlind_format? hxy _
  | logging => exact IsBlind.orDefault isBlind_logging? hxy _

theorem isBlind_settings? (engine : String) : IsBlind (settings? engine) := by
  intro v w h
  obtain ⟨count, read, hread, heq⟩ := takes_settings engine
  rw [heq, heq, hread.bind_congr count (sameFields_of_shuffles (fun f _ => f.isBlind) h)]

theorem isBlind_engine? : IsBlind engine? := by
  intro v w h
  have hkept : isKept v = isKept w := fits_of_reorders h.reorders
  obtain ⟨hdistinct, hreorders⟩ := id h
  cases hreorders with
  | here | entry =>
    have hsettings (engine : String) := isBlind_settings? engine h
    rw [engine?_table, engine?_table, hkept, IsBlind.bind isBlind_text? (h.lookup "engine")]
    simp only [hsettings]
  | @item grows x y before after hxy =>
    unfold engine?
    rw [hkept]
    cases before with
    | nil =>
      have hx : text? x = none := by cases hxy <;> rfl
      have hy : text? y = none := by cases hxy <;> rfl
      simp only [List.nil_append, hx, hy]
    | cons name before =>
      have hitems : (Datum.array grows (before ++ x :: after)).Shuffles
          (.array grows (before ++ y :: after)) := by
        cases hdistinct with
        | array hall => exact ⟨.array fun z hz => hall z (List.mem_cons_of_mem _ hz), .item hxy⟩
      have hsettings (engine : String) := isBlind_settings? engine hitems
      simp only [List.cons_append, hsettings]

/-- **A configuration does not depend on the order of keys.** -/
theorem ofTable?_of_shuffles {form form' : Toml.Form} {d d' : Toml.Table}
    (h : (Datum.table form d).Shuffles (.table form' d')) : ofTable? d = ofTable? d' := by
  rw [ofTable?_eq, ofTable?_eq, isReadableTop, isReadableTop, all_readable_of_reorders h.reorders,
    IsBlind.bind isBlind_engine? (h.lookup "database"), Field.logging.isBlind (h.lookup "logging")]

end TypedStore.Config
