/-
  TypedStore — what a configuration depends on.

  * `Rephrases`: ways to say the same: the keys of a table in another order, a
    default that is written out, and a key that nothing is known by;
  * `ofTable?_of_rephrases`: they lead to the same configuration;
  * `Faulty`: what a configuration must not say, or fail to say, and
    `ofTable?_of_faulty`;
  * `ofTable?_of_large`: a number that is too large is not passed over;
  * `configurations_say_what_counts`: all this of the documents that are read.
-/
import Mathlib.Logic.Relation
import TypedStore.Proofs.Fields

namespace TypedStore.Config

open Toml (Datum)

variable {d d' t t' : Toml.Table} {form form' : Toml.Form} {key other engine : String}
  {path : List String} {v : Datum} {f : Field} {fields : List Field}

/-! ## Documents and their parts -/

/-- The name that a document gives to its engine. -/
def SaysEngine (d : Toml.Table) (engine : String) : Prop :=
  ∃ form entries, d.lookup "database" = some (.table form entries) ∧
    entries.lookup "engine" = some (.text engine)

/-- The settings that a document can make. -/
inductive Field.BelongsTo (d : Toml.Table) : Field → Prop where
  | engine {engine : String} {f : Field} : SaysEngine d engine → f ∈ ofEngine engine → BelongsTo d f
  | option {engine : String} {f : Field} : SaysEngine d engine → .options ∈ ofEngine engine →
      f ∈ ofOptions → BelongsTo d f
  | log {f : Field} : f ∈ ofLog → BelongsTo d f
  | logging : BelongsTo d .logging

/-- The names that mean something in the table that a path leads to. -/
def IsName (d : Toml.Table) (path : List String) (key : String) : Prop :=
  (path = [] ∧ key = "database") ∨ (path = ["database"] ∧ key = "engine") ∨
    ∃ f : Field, f.BelongsTo d ∧ f.place = path ∧ f.name = key

/-- A key that is not there is added to the table that a path leads to. -/
inductive Adds (key : String) (v : Datum) : List String → Toml.Table → Toml.Table → Prop where
  | here {t : Toml.Table} : t.lookup key = none → Adds key v [] t (t ++ [(key, v)])
  | within {name : String} {path : List String} {form : Toml.Form}
      {before after t t' : Toml.Table} : before.lookup name = none → Adds key v path t t' →
      Adds key v (name :: path) (before ++ (name, .table form t) :: after)
        (before ++ (name, .table form t') :: after)

/-- The table that a path leads to. -/
def tableAt : List String → Toml.Table → Option Toml.Table
  | [], t => some t
  | name :: path, t =>
    match t.lookup name with
    | some (.table _ entries) => tableAt path entries
    | _ => none

/-- The value that a setting has if it is left out. -/
inductive Field.IsDefault : Field → Datum → Prop where
  | shared : IsDefault .shared (.boolean false)
  | table : IsDefault .table (.text "kv")
  | createIfMissing : IsDefault .createIfMissing (.boolean true)
  | syncWrites : IsDefault .syncWrites (.boolean true)
  | level : IsDefault .level (.text "info")
  | format : IsDefault .format (.text "text")
  | options (form : Toml.Form) : IsDefault .options (.table form [])
  | logging (form : Toml.Form) : IsDefault .logging (.table form [])

/-- Whether a value under a key that means nothing can be passed over: what
    stands beside an engine is kept until the engine is known. -/
def canPass (path : List String) (v : Datum) : Bool :=
  if path = ["database"] then isKept v else isReadable v

/-- Ways to say the same with another document. -/
inductive Rephrases : Toml.Table → Toml.Table → Prop where
  | reorder {d d' : Toml.Table} : (Datum.table .header d).Shuffles (.table .header d') →
      Rephrases d d'
  | default {d d' : Toml.Table} {f : Field} {v : Datum} : f.IsDefault v →
      Adds f.name v f.place d d' → Rephrases d d'
  | other {d d' : Toml.Table} {path : List String} {key : String} {v : Datum} :
      path ∈ [[], ["database"], ["logging"]] → ¬ IsName d path key → canPass path v = true →
      Adds key v path d d' → Rephrases d d'

/-! ## Finding what was added -/

theorem lookup_concat (h : t.lookup key = none) (other : String) :
    (t ++ [(key, v)]).lookup other = if other = key then some v else t.lookup other := by
  rw [List.lookup_append, List.lookup_cons]
  by_cases ho : other = key
  · subst ho
    rw [h, if_pos rfl, beq_self_eq_true]
    rfl
  · rw [if_neg ho, beq_eq_false_iff_ne.2 ho]
    exact Option.or_none

/-- What the tables along the path have in common. -/
theorem Adds.exists_table {name : String} (h : Adds key v (name :: path) d d') :
    ∃ form t t', d.lookup name = some (.table form t) ∧ d'.lookup name = some (.table form t') ∧
      Adds key v path t t' ∧ (∀ other, other ≠ name → d'.lookup other = d.lookup other) ∧
      ∀ p : String × Datum → Bool, p (name, .table form t) = p (name, .table form t') →
        d.all p = d'.all p := by
  cases h with
  | @within _ _ form before after t t' hbefore hadds =>
    refine ⟨form, t, t', ?_, ?_, hadds, fun other hother => ?_, fun p hp => ?_⟩
    · rw [List.lookup_append, hbefore, List.lookup_cons_self]
      rfl
    · rw [List.lookup_append, hbefore, List.lookup_cons_self]
      rfl
    · rw [List.lookup_append, List.lookup_append, List.lookup_cons, List.lookup_cons,
        beq_eq_false_iff_ne.2 hother]
    · rw [List.all_append, List.all_append, List.all_cons, List.all_cons, hp]

/-- Numbers are in a range if they were and if the new ones are. -/
theorem Adds.fits {least greatest : Int} (h : Adds key v path d d') (form : Toml.Form) :
    Config.fits least greatest (.table form d') =
      (Config.fits least greatest (.table form d) && Config.fits least greatest v) := by
  induction h generalizing form with
  | here => simp [Config.fits, fitsEntries_eq]
  | within _ _ ih =>
    rename_i form' _ _ _ _ _ _
    have hinner := ih form'
    simp only [Config.fits, fitsEntries_eq, List.all_append, List.all_cons] at hinner ⊢
    rw [hinner]
    ac_rfl

/-! ## Reading with a key more -/

theorem Field.name_injective {f g : Field} (h : f.name = g.name) : f = g := by
  revert h
  cases f <;> cases g <;> decide

/-- A default that is written out is read as if it were not there. -/
theorem Field.IsDefault.read_some (h : f.IsDefault v) : f.read (some v) = f.read none := by
  cases h <;> rfl

theorem Field.IsDefault.isKept (h : f.IsDefault v) : Config.isKept v = true := by
  cases h <;> rfl

/-- A key more does not matter to the settings of other names, nor to its own
    if it has the default. -/
theorem read_concat {g : Field} (h : t.lookup key = none)
    (hg : g.name = key → g.read (some v) = g.read none) :
    g.read ((t ++ [(key, v)]).lookup g.name) = g.read (t.lookup g.name) := by
  rw [lookup_concat h]
  by_cases hk : g.name = key
  · rw [if_pos hk, hg hk, hk, h]
  · rw [if_neg hk]

/-- Tables are records whose fields are found by name. -/
theorem sameFields_table (h : ∀ f ∈ fields, f.read (t.lookup f.name) = f.read (t'.lookup f.name)) :
    SameFields fields (.table form t) (.table form' t') :=
  fun _ => Or.inr ⟨_, _, rfl, rfl, h⟩

theorem badField_table (h : f.read (t.lookup f.name) = none) : BadField f (.table form t) := by
  intro count g hg
  cases hg
  exact h

/-- An engine is read from its name and from the fields that go with it. -/
theorem engine?_congr (hkept : isKept (.table form t) = isKept (.table form' t'))
    (hname : t.lookup "engine" = t'.lookup "engine")
    (h : ∀ engine, t.lookup "engine" = some (.text engine) → ∀ f ∈ Field.ofEngine engine,
      f.read (t.lookup f.name) = f.read (t'.lookup f.name)) :
    engine? (.table form t) = engine? (.table form' t') := by
  rw [engine?_table, engine?_table, hkept, ← hname]
  congr 1
  refine Option.bind_congr fun engine hengine => ?_
  obtain ⟨count, read, hread, heq⟩ := takes_settings engine
  have htext : t.lookup "engine" = some (.text engine) := by
    obtain ⟨u, hu, htext⟩ := Option.bind_eq_some_iff.1 hengine
    cases u <;> cases htext
    exact hu
  rw [heq, heq, hread.bind_congr count (sameFields_table (h engine htext))]

/-- The log is read from its fields, if everything else can be read. -/
theorem logging?_congr (hreadable : isReadableLog t = isReadableLog t')
    (h : ∀ f ∈ Field.ofLog, f.read (t.lookup f.name) = f.read (t'.lookup f.name)) :
    logging? (.table form t) = logging? (.table form' t') := by
  obtain ⟨read, hread, htable, -⟩ := takes_log
  have hsame : read (fun _ name => t.lookup name) = read (fun _ name => t'.lookup name) :=
    hread.congr h
  rw [htable, htable, hreadable, hsame]

/-- Tuning options are read from their fields, if there are no others. -/
theorem options?_congr (hknown : hasOnlyOptions (.table form t) = hasOnlyOptions (.table form' t'))
    (h : ∀ f ∈ Field.ofOptions, f.read (t.lookup f.name) = f.read (t'.lookup f.name)) :
    options? (.table form t) = options? (.table form' t') := by
  obtain ⟨read, hread, heq⟩ := takes_options
  rw [heq, heq, hknown, hread.bind_congr 3 (sameFields_table h)]

/-- A configuration is read from the engine and from the log. -/
theorem ofTable?_congr (hreadable : isReadableTop d = isReadableTop d')
    (hengine : (d.lookup "database").bind engine? = (d'.lookup "database").bind engine?)
    (hlog : Field.logging.read (d.lookup "logging") = Field.logging.read (d'.lookup "logging")) :
    ofTable? d = ofTable? d' := by
  rw [ofTable?_eq, ofTable?_eq, hreadable, hengine, hlog]

/-- A change within the table of the engine matters only to the engine. -/
theorem ofTable?_of_engine (h : Adds key v ("database" :: path) d d')
    (hengine : ∀ {form t t'}, d.lookup "database" = some (.table form t) → Adds key v path t t' →
      engine? (.table form t) = engine? (.table form t')) : ofTable? d = ofTable? d' := by
  obtain ⟨form, t, t', ht, ht', hadds, hother, hall⟩ := h.exists_table
  refine ofTable?_congr (hall _ rfl) ?_ ?_
  · rw [ht, ht']
    exact hengine ht hadds
  · rw [hother "logging" (by decide)]

/-- A change within the table of the log matters only to the log. -/
theorem ofTable?_of_logging (h : Adds key v ("logging" :: path) d d')
    (hlog : ∀ form {t t'}, Adds key v path t t' →
      logging? (.table form t) = logging? (.table form t')) : ofTable? d = ofTable? d' := by
  obtain ⟨form, t, t', ht, ht', hadds, hother, hall⟩ := h.exists_table
  refine ofTable?_congr (hall _ rfl) ?_ ?_
  · rw [hother "database" (by decide)]
  · rw [ht, ht']
    exact hlog form hadds

/-! ## Saying the same -/

theorem isKept_of_adds (h : Adds key v path t t') (hv : isKept v = true) (form : Toml.Form) :
    isKept (.table form t) = isKept (.table form t') := by
  have hfits : isKept (.table form t') = (isKept (.table form t) && isKept v) := h.fits form
  rw [hfits, hv, Bool.and_true]

/-- A default of an engine that is written out. -/
theorem engine?_of_default (hdefault : f.IsDefault v) (hadds : Adds f.name v [] t t')
    (form : Toml.Form) : engine? (.table form t) = engine? (.table form t') := by
  have hkept := isKept_of_adds hadds hdefault.isKept form
  cases hadds with
  | here hnone =>
    refine engine?_congr hkept ?_ fun engine _ g _ => ?_
    · rw [lookup_concat hnone, if_neg]
      cases hdefault <;> decide
    · refine (read_concat hnone fun hg => ?_).symm
      rw [Field.name_injective hg, hdefault.read_some]

/-- A default of the tuning options that is written out. -/
theorem engine?_of_option (hadds : Adds "sync_writes" (.boolean true) ["options"] t t')
    (form : Toml.Form) : engine? (.table form t) = engine? (.table form t') := by
  have hkept := isKept_of_adds hadds rfl form
  obtain ⟨form', u, u', hu, hu', hinner, hother, -⟩ := hadds.exists_table
  refine engine?_congr hkept (hother "engine" (by decide)).symm fun engine _ g _ => ?_
  by_cases hg : g = .options
  · subst hg
    show Field.options.read (t.lookup "options") = Field.options.read (t'.lookup "options")
    rw [hu, hu']
    cases hinner with
    | here hnone =>
      refine options?_congr ?_ fun g _ => (read_concat hnone fun hg => ?_).symm
      · have hknown : decide ("sync_writes" ∈ optionNames) = true := by decide
        simp only [hasOnlyOptions, List.all_append, List.all_cons, List.all_nil, hknown,
          Bool.and_true]
      · rw [Field.name_injective (g := .syncWrites) hg]
        rfl
  · rw [hother g.name fun h => hg (Field.name_injective h)]

/-- A default of the log that is written out. -/
theorem logging?_of_default (hdefault : f.IsDefault v) (hf : f ∈ Field.ofLog)
    (hadds : Adds f.name v [] t t') (form : Toml.Form) :
    logging? (.table form t) = logging? (.table form t') := by
  have hname : decide (f.name ∈ logNames) = true := by
    simp only [Field.ofLog, List.mem_cons, List.not_mem_nil, or_false] at hf
    rcases hf with rfl | rfl <;> decide
  cases hadds with
  | here hnone =>
    refine logging?_congr ?_ fun g _ => (read_concat hnone fun hg => ?_).symm
    · simp only [isReadableLog, List.all_append, List.all_cons, List.all_nil, hname, Bool.true_or,
        Bool.and_true]
    · rw [Field.name_injective hg, hdefault.read_some]

/-- The settings of an engine stand in its table. -/
theorem Field.place_of_mem (h : f ∈ ofEngine engine) : f.place = ["database"] := by
  unfold ofEngine at h
  split at h <;> simp only [List.mem_cons, List.not_mem_nil, or_false] at h
  · rw [h]; rfl
  all_goals rcases h with rfl | rfl | rfl <;> rfl

theorem Field.place_of_mem_log (h : f ∈ ofLog) : f.place = ["logging"] := by
  simp only [ofLog, List.mem_cons, List.not_mem_nil, or_false] at h
  rcases h with rfl | rfl <;> rfl

/-- A key that means nothing to an engine. -/
theorem engine?_of_other (hd : d.lookup "database" = some (.table form t))
    (hname : ¬ IsName d ["database"] key) (hv : isKept v = true) (hadds : Adds key v [] t t') :
    engine? (.table form t) = engine? (.table form t') := by
  have hkept := isKept_of_adds hadds hv form
  cases hadds with
  | here hnone =>
    refine engine?_congr hkept ?_ fun engine hengine g hg => (read_concat hnone fun hk => ?_).symm
    · rw [lookup_concat hnone, if_neg]
      rintro rfl
      exact hname (Or.inr (Or.inl ⟨rfl, rfl⟩))
    · exact absurd (Or.inr (Or.inr ⟨g, .engine ⟨form, t, hd, hengine⟩ hg, g.place_of_mem hg, hk⟩))
        hname

/-- A key that means nothing to the log. -/
theorem logging?_of_other (hname : ¬ IsName d ["logging"] key) (hv : isReadable v = true)
    (hadds : Adds key v [] t t') (form : Toml.Form) :
    logging? (.table form t) = logging? (.table form t') := by
  cases hadds with
  | here hnone =>
    refine logging?_congr ?_ fun g hg => (read_concat hnone fun hk => ?_).symm
    · simp only [isReadableLog, List.all_append, List.all_cons, List.all_nil, hv, Bool.or_true,
        Bool.and_true]
    · exact absurd (Or.inr (Or.inr ⟨g, .log hg, g.place_of_mem_log hg, hk⟩)) hname

/-- A key beside the engine and the log: the log by default, or a key that
    means nothing. -/
theorem ofTable?_of_top (hadds : Adds key v [] d d') (hengine : "database" ≠ key)
    (hlog : Field.logging.name = key → Field.logging.read (some v) = Field.logging.read none)
    (hv : isReadable v = true) : ofTable? d = ofTable? d' := by
  cases hadds with
  | here hnone =>
    refine ofTable?_congr ?_ ?_ (read_concat hnone hlog).symm
    · simp only [isReadableTop, List.all_append, List.all_cons, List.all_nil, hv, Bool.or_true,
        Bool.and_true]
    · rw [lookup_concat hnone, if_neg hengine]

theorem ofTable?_of_default (hdefault : f.IsDefault v) (hadds : Adds f.name v f.place d d') :
    ofTable? d = ofTable? d' := by
  have hread := hdefault.read_some
  cases f with
  | logging =>
    refine ofTable?_of_top hadds (by decide) (fun _ => hread) ?_
    cases hdefault
    rfl
  | level | format =>
    exact ofTable?_of_logging hadds fun form {_ _} h =>
      logging?_of_default hdefault (by decide) h form
  | shared | options | createIfMissing | table =>
    exact ofTable?_of_engine hadds fun {form _ _} _ h => engine?_of_default hdefault h form
  | syncWrites =>
    cases hdefault
    exact ofTable?_of_engine hadds fun {form _ _} _ h => engine?_of_option h form
  | path | conninfo | mapSize | maxReaders => cases hdefault

theorem ofTable?_of_other (hpath : path ∈ [[], ["database"], ["logging"]])
    (hname : ¬ IsName d path key) (hv : canPass path v = true) (hadds : Adds key v path d d') :
    ofTable? d = ofTable? d' := by
  simp only [List.mem_cons, List.not_mem_nil, or_false] at hpath
  rcases hpath with rfl | rfl | rfl
  · refine ofTable?_of_top hadds ?_ (fun hk => ?_) hv
    · rintro rfl
      exact hname (Or.inl ⟨rfl, rfl⟩)
    · exact absurd (Or.inr (Or.inr ⟨.logging, .logging, rfl, hk⟩)) hname
  · exact ofTable?_of_engine hadds fun {_ _ _} hd h => engine?_of_other hd hname hv h
  · exact ofTable?_of_logging hadds fun form {_ _} h => logging?_of_other hname hv h form

/-- **What says the same leads to the same configuration.** -/
theorem ofTable?_of_rephrases (h : Rephrases d d') : ofTable? d = ofTable? d' := by
  cases h with
  | reorder h => exact ofTable?_of_shuffles h
  | default hdefault hadds => exact ofTable?_of_default hdefault hadds
  | other hpath hname hv hadds => exact ofTable?_of_other hpath hname hv hadds

/-! ## Faults -/

/-- The names of engines. -/
def engineNames : List String :=
  ["memory", "lmdb", "mdbx", "rocksdb", "fjall", "sqlite", "postgres"]

/-- A value that is neither an array nor a table. -/
def IsScalar : Datum → Prop
  | .array .. | .table .. => False
  | _ => True

/-- The scalars that a setting can be. -/
def Field.Accepts : Field → Datum → Prop
  | .shared, v | .createIfMissing, v | .syncWrites, v => ∃ b, v = .boolean b
  | .path, v | .table, v | .conninfo, v | .level, v | .format, v => ∃ s, v = .text s
  | .mapSize, v => ∃ n : Nat, n ≤ 0xffffffffffffffff ∧ v = .integer n
  | .maxReaders, v => ∃ n : Nat, n ≤ 0xffffffff ∧ v = .integer n
  | .options, _ | .logging, _ => True

/-- What makes a document no configuration. -/
inductive Faulty (d : Toml.Table) : Prop where
  /-- No engine is named, or one that is not known. -/
  | engine : (∀ grows items, d.lookup "database" ≠ some (.array grows items)) →
      (∀ engine, SaysEngine d engine → engine ∉ engineNames) → Faulty d
  /-- A setting without a default is missing. -/
  | missing {f : Field} {t : Toml.Table} : f = .path ∨ f = .conninfo → f.BelongsTo d →
      tableAt f.place d = some t → t.lookup f.name = none → Faulty d
  /-- A setting is a scalar of another type, or a number that is out of range. -/
  | scalar {f : Field} {t : Toml.Table} {v : Datum} : f.BelongsTo d → tableAt f.place d = some t →
      t.lookup f.name = some v → IsScalar v → ¬ f.Accepts v → Faulty d
  /-- There is a tuning option that is not known. -/
  | option {t : Toml.Table} {key : String} : Field.options.BelongsTo d →
      tableAt ["database", "options"] d = some t → t.lookup key ≠ none → key ∉ optionNames →
      Faulty d

theorem boolean?_eq_none (h : ¬ ∃ b, v = .boolean b) : boolean? v = none := by
  cases v <;> first | rfl | exact absurd ⟨_, rfl⟩ h

theorem text?_eq_none (h : ¬ ∃ s, v = .text s) : text? v = none := by
  cases v <;> first | rfl | exact absurd ⟨_, rfl⟩ h

theorem natural?_eq_none {greatest : Nat} (h : ¬ ∃ n : Nat, n ≤ greatest ∧ v = .integer n) :
    natural? greatest v = none := by
  cases v with
  | integer n =>
    refine if_neg fun hn => h ⟨n.toNat, by omega, ?_⟩
    rw [Int.toNat_of_nonneg hn.1]
  | _ => rfl

/-- A scalar that a setting cannot be is not read. -/
theorem Field.read_scalar (hscalar : IsScalar v) (hv : ¬ f.Accepts v) : f.read (some v) = none := by
  cases f with
  | shared | createIfMissing | syncWrites => exact boolean?_eq_none hv
  | path | table | conninfo | level => exact text?_eq_none hv
  | format =>
    unfold Field.read orDefault format?
    cases v with
    | text s => exact absurd ⟨s, rfl⟩ hv
    | table | array => exact hscalar.elim
    | _ => rfl
  | mapSize =>
    show (natural? _ v).map some = none
    rw [natural?_eq_none hv]
    rfl
  | maxReaders =>
    show (natural? _ v).map some = none
    rw [natural?_eq_none hv]
    rfl
  | options | logging => exact absurd trivial hv

theorem exists_table_of_tableAt {name : String} (h : tableAt (name :: path) d = some t) :
    ∃ form u, d.lookup name = some (.table form u) ∧ tableAt path u = some t := by
  unfold tableAt at h
  split at h
  · next form u hu => exact ⟨form, u, hu, h⟩
  · cases h

theorem ofTable?_of_no_engine (h : (d.lookup "database").bind engine? = none) :
    ofTable? d = none := by
  rw [ofTable?_eq, h]
  exact ite_self none

theorem ofTable?_of_no_log (h : Field.logging.read (d.lookup "logging") = none) :
    ofTable? d = none := by
  rw [ofTable?_eq, h]
  split
  · exact Option.bind_eq_none_iff.2 fun _ _ => rfl
  · rfl

/-- A setting of an engine that cannot be read. -/
theorem ofTable?_of_bad_engine (hengine : SaysEngine d engine) (hf : f ∈ Field.ofEngine engine)
    (hbad : ∀ form t, d.lookup "database" = some (.table form t) →
      f.read (t.lookup f.name) = none) : ofTable? d = none := by
  obtain ⟨form, t, ht, hname⟩ := hengine
  obtain ⟨count, read, hread, heq⟩ := takes_settings engine
  refine ofTable?_of_no_engine ?_
  rw [ht, Option.bind_some, engine?_table, hname, Option.bind_some, text?, Option.bind_some, heq,
    hread.bind_eq_none count hf (badField_table (hbad form t ht))]
  exact ite_self none

/-- A setting of the log that cannot be read. -/
theorem ofTable?_of_bad_log (hf : f ∈ Field.ofLog) (ht : d.lookup "logging" = some (.table form t))
    (hbad : f.read (t.lookup f.name) = none) : ofTable? d = none := by
  obtain ⟨read, hread, htable, -⟩ := takes_log
  refine ofTable?_of_no_log ?_
  rw [ht]
  show logging? (.table form t) = none
  have hnone : read (fun _ name => t.lookup name) = none := hread.strict hf hbad
  rw [htable, hnone]
  exact ite_self none

/-- Tuning options that cannot be read. -/
theorem ofTable?_of_bad_options (hengine : SaysEngine d engine)
    (hmem : .options ∈ Field.ofEngine engine) (ht : tableAt ["database", "options"] d = some t)
    (hbad : ∀ form, options? (.table form t) = none) : ofTable? d = none := by
  obtain ⟨form, u, hu, ht⟩ := exists_table_of_tableAt ht
  obtain ⟨form', w, hw, ht⟩ := exists_table_of_tableAt ht
  refine ofTable?_of_bad_engine hengine hmem fun form'' u' hu' => ?_
  obtain ⟨-, rfl⟩ : form = form'' ∧ u = u' := by simpa using hu.symm.trans hu'
  obtain rfl : w = t := by simpa [tableAt] using ht
  show Field.options.read (u.lookup "options") = none
  rw [hw]
  exact hbad form'

/-- A setting that cannot be read. -/
theorem ofTable?_of_bad_field (hf : f.BelongsTo d) (ht : tableAt f.place d = some t)
    (hbad : f.read (t.lookup f.name) = none) : ofTable? d = none := by
  cases hf with
  | @engine engine _ hengine hmem =>
    rw [f.place_of_mem hmem] at ht
    obtain ⟨form, u, hu, ht⟩ := exists_table_of_tableAt ht
    obtain rfl : u = t := by simpa [tableAt] using ht
    refine ofTable?_of_bad_engine hengine hmem fun form' u' hu' => ?_
    obtain ⟨-, rfl⟩ : form = form' ∧ u = u' := by simpa using hu.symm.trans hu'
    exact hbad
  | @option engine _ hengine hoptions hmem =>
    obtain ⟨read, hread, heq⟩ := takes_options
    have hplace : f.place = ["database", "options"] := by
      simp only [Field.ofOptions, List.mem_cons, List.not_mem_nil, or_false] at hmem
      rcases hmem with rfl | rfl | rfl <;> rfl
    rw [hplace] at ht
    refine ofTable?_of_bad_options hengine hoptions ht fun form => ?_
    rw [heq, hread.bind_eq_none 3 hmem (badField_table hbad)]
    exact ite_self none
  | log hmem =>
    have hplace : f.place = ["logging"] := Field.place_of_mem_log hmem
    rw [hplace] at ht
    obtain ⟨form, u, hu, ht⟩ := exists_table_of_tableAt ht
    obtain rfl : u = t := by simpa [tableAt] using ht
    exact ofTable?_of_bad_log hmem hu hbad
  | logging =>
    obtain rfl : d = t := by simpa [tableAt, Field.place] using ht
    exact ofTable?_of_no_log hbad

/-- An engine that is not known has no settings. -/
theorem settings?_eq_none (h : engine ∉ engineNames) (v : Datum) : settings? engine v = none := by
  unfold settings?
  split
  case h_8 => rfl
  all_goals exact absurd (by decide) h

/-- Without an engine there is no configuration. -/
theorem ofTable?_of_unknown_engine
    (harray : ∀ grows items, d.lookup "database" ≠ some (.array grows items))
    (h : ∀ engine, SaysEngine d engine → engine ∉ engineNames) : ofTable? d = none := by
  refine ofTable?_of_no_engine (Option.bind_eq_none_iff.2 fun v hv => ?_)
  cases v with
  | table form t =>
    rw [engine?_table]
    cases ht : (t.lookup "engine").bind text? with
    | none => exact ite_self none
    | some engine =>
      obtain ⟨u, hu, htext⟩ := Option.bind_eq_some_iff.1 ht
      have hsays : SaysEngine d engine := by
        cases u <;> cases htext
        exact ⟨form, t, hv, hu⟩
      rw [Option.bind_some, settings?_eq_none (h engine hsays)]
      exact ite_self none
  | array grows items => exact absurd hv (harray grows items)
  | _ => exact ite_self none

/-- **What is faulty is no configuration.** -/
theorem ofTable?_of_faulty (h : Faulty d) : ofTable? d = none := by
  cases h with
  | engine harray hunknown => exact ofTable?_of_unknown_engine harray hunknown
  | @missing f t hf hbelongs ht hnone =>
    refine ofTable?_of_bad_field hbelongs ht ?_
    rw [hnone]
    rcases hf with rfl | rfl <;> rfl
  | @scalar f t v hbelongs ht hv hscalar haccepts =>
    refine ofTable?_of_bad_field hbelongs ht ?_
    rw [hv]
    exact Field.read_scalar hscalar haccepts
  | @option t key hbelongs ht hkey hunknown =>
    obtain ⟨engine, hengine, hmem⟩ :
        ∃ engine, SaysEngine d engine ∧ .options ∈ Field.ofEngine engine := by
      cases hbelongs with
      | engine hengine hmem => exact ⟨_, hengine, hmem⟩
      | option _ _ hmem | log hmem => exact absurd hmem (by decide)
    refine ofTable?_of_bad_options hengine hmem ht fun form => ?_
    obtain ⟨read, -, heq⟩ := takes_options
    rw [heq, if_neg]
    intro hall
    obtain ⟨v, hv⟩ := Option.ne_none_iff_exists'.1 hkey
    obtain ⟨before, after, rfl, -⟩ := List.lookup_eq_some_iff.1 hv
    exact hunknown (of_decide_eq_true (List.all_eq_true.1 hall (key, v) (by simp)))

/-! ## Numbers that cannot be passed over -/

/-- Among other keys, a value that cannot be read is not passed over. -/
theorem all_eq_false_of_other {names : List String} (hkey : key ∉ names)
    (hv : isReadable v = false) (hadds : Adds key v [] t t') :
    (t'.all fun e => e.1 ∈ names || isReadable e.2) = false := by
  cases hadds with
  | here =>
    rw [List.all_append, List.all_cons, decide_eq_false hkey, hv]
    simp only [Bool.or_false, Bool.false_and, Bool.and_false]

/-- **A key that means nothing is not passed over if a number in its value is
    too large.** -/
theorem ofTable?_of_large (hpath : path ∈ [[], ["database"], ["logging"]])
    (hname : ¬ IsName d path key) (hv : canPass path v = false) (hadds : Adds key v path d d') :
    ofTable? d' = none := by
  simp only [List.mem_cons, List.not_mem_nil, or_false] at hpath
  rcases hpath with rfl | rfl | rfl
  · have hkey : key ∉ ["database", "logging"] := by
      simp only [List.mem_cons, List.not_mem_nil, or_false, not_or]
      refine ⟨?_, ?_⟩
      · rintro rfl
        exact hname (Or.inl ⟨rfl, rfl⟩)
      · rintro rfl
        exact hname (Or.inr (Or.inr ⟨.logging, .logging, rfl, rfl⟩))
    rw [ofTable?_eq, isReadableTop, all_eq_false_of_other hkey hv hadds]
    rfl
  · -- the engine is read from what is kept of its table, or not at all
    obtain ⟨form, t, t', -, ht', hadds, -⟩ := hadds.exists_table
    have hkept : isKept (.table form t') = false := by
      show Config.fits _ _ (.table form t') = false
      rw [hadds.fits form]
      exact Bool.and_eq_false_imp.2 fun _ => hv
    refine ofTable?_of_no_engine ?_
    rw [ht', Option.bind_some, engine?_table, hkept]
    rfl
  · obtain ⟨form, t, t', -, ht', hadds, -⟩ := hadds.exists_table
    have hkey : key ∉ logNames := by
      simp only [logNames, List.mem_cons, List.not_mem_nil, or_false, not_or]
      refine ⟨?_, ?_⟩
      · rintro rfl
        exact hname (Or.inr (Or.inr ⟨.level, .log (by decide), rfl, rfl⟩))
      · rintro rfl
        exact hname (Or.inr (Or.inr ⟨.format, .log (by decide), rfl, rfl⟩))
    obtain ⟨read, -, htable, -⟩ := takes_log
    refine ofTable?_of_no_log ?_
    rw [ht']
    show logging? (.table form t') = none
    rw [htable, isReadableLog, all_eq_false_of_other hkey hv hadds]
    rfl

/-! ## Configurations -/

/-- **A configuration depends on what counts.**  Documents have each key of a
    table once, and are configurations for what stands in them.  The order of
    keys, defaults that are written out and keys that mean nothing do not
    matter, unless a number under such a key is too large to be passed over;
    and what is faulty is no configuration. -/
theorem configurations_say_what_counts :
    (∀ text d, Toml.ofText? text = some d →
      ofText? text = ofTable? d ∧ (Datum.table .header d).Distinct) ∧
    (∀ d d', Relation.EqvGen Rephrases d d' → ofTable? d = ofTable? d') ∧
    (∀ d, Faulty d → ofTable? d = none) ∧
    ∀ path key v d d', path ∈ [[], ["database"], ["logging"]] → ¬ IsName d path key →
      canPass path v = false → Adds key v path d d' → ofTable? d' = none := by
  refine ⟨fun text d hd => ⟨?_, Toml.distinct_ofText? hd⟩, fun d d' h => ?_,
    fun d h => ofTable?_of_faulty h, fun path key v d d' hpath hname hv hadds =>
      ofTable?_of_large hpath hname hv hadds⟩
  · rw [ofText?, hd, Option.bind_some]
  · -- along any number of changes, in both directions
    induction h with
    | rel _ _ h => exact ofTable?_of_rephrases h
    | refl => rfl
    | symm _ _ _ ih => exact ih.symm
    | trans _ _ _ _ _ ih ih' => exact ih.trans ih'

/-- A document that asks for a store in memory, with more keys beside. -/
def memoryDocument (more : Toml.Table) : Toml.Table :=
  [("database", .table .header (("engine", .text "memory") :: more))]

theorem ofText?_memory :
    Toml.ofText? "[database]\nengine = \"memory\"\n" = some (memoryDocument []) := by
  decide +kernel

theorem ofText?_memory_number :
    Toml.ofText? "[database]\nengine = \"memory\"\nx = 18446744073709551616\n" =
      some (memoryDocument [("x", .integer 18446744073709551616)]) := by
  decide +kernel

theorem adds_memory (h : key ≠ "engine") (v : Datum) :
    Adds key v ["database"] (memoryDocument []) (memoryDocument [(key, v)]) := by
  refine .within (show List.lookup "database" [] = none from rfl) (.here ?_)
  rw [List.lookup_cons, beq_eq_false_iff_ne.2 h]
  rfl

/-- Beside the name of a store in memory, `x` means nothing. -/
theorem not_isName_memory : ¬ IsName (memoryDocument []) ["database"] "x" := by
  rintro (⟨hpath, -⟩ | ⟨-, hkey⟩ | ⟨f, -, -, hname⟩)
  · cases hpath
  · exact absurd hkey (by decide)
  · exact absurd hname (by cases f <;> decide)

theorem configurations_say_what_counts_memory :
    ofText? "[database]\nengine = \"memory\"\n" = ofTable? (memoryDocument []) ∧
      ofTable? (memoryDocument []) = ofTable? (memoryDocument [("shared", .boolean false)]) ∧
      ofTable? [] = none ∧
      ofTable? (memoryDocument [("x", .integer 18446744073709551616)]) = none := by
  obtain ⟨hread, hsame, hfaulty, hlarge⟩ := configurations_say_what_counts
  refine ⟨(hread _ _ ofText?_memory).1, hsame _ _ (.rel _ _ ?_), hfaulty _ ?_,
    hlarge ["database"] "x" (.integer 18446744073709551616) _ _ (by decide) not_isName_memory
      (by decide) (adds_memory (by decide) _)⟩
  · exact .default .shared (adds_memory (by decide) _)
  · refine .engine (fun _ _ h => nomatch h) fun engine h => ?_
    obtain ⟨_, _, h, -⟩ := h
    cases h

/-- A number that is passed over at the top of a document makes a document no
    configuration if it stands under an unknown key beside the name of the
    engine. -/
theorem large_number_is_not_passed_over :
    ∃ d d', Toml.ofText? "[database]\nengine = \"memory\"\n" = some d ∧
      Toml.ofText? "[database]\nengine = \"memory\"\nx = 18446744073709551616\n" = some d' ∧
      ¬ IsName d ["database"] "x" ∧ Adds "x" (.integer 18446744073709551616) ["database"] d d' ∧
      ofText? "[database]\nengine = \"memory\"\n" = some ⟨.memory false, {}⟩ ∧
      ofText? "[database]\nengine = \"memory\"\nx = 18446744073709551616\n" = none ∧
      ofText? "x = 18446744073709551616\n[database]\nengine = \"memory\"\n" =
        some ⟨.memory false, {}⟩ :=
  ⟨_, _, ofText?_memory, ofText?_memory_number, not_isName_memory, adds_memory (by decide) _,
    by decide +kernel, by decide +kernel, by decide +kernel⟩

end TypedStore.Config
