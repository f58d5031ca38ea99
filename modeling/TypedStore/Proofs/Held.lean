/-
  TypedStore — how opening depends on what is open.

  * `EngineConfig.open_congr`: the order does not matter in which things have
    been opened;
  * `Environment.open_refused_iff`, `Journal.open_refused_iff`: a directory is
    refused exactly if it is open already;
  * `EngineConfig.running_of_open`: opening that fails changes nothing but
    files, and `Handle.fetch_congr` that then everything is read as before.
-/
import TypedStore.Proofs.Places

namespace TypedStore

/-- Where the directory of a path is, once it is made sure that there is one. -/
def FileTree.directory? (t : FileTree) (path : String) (create : Bool) : Option Location :=
  match t.ensureDirectory path create with
  | .ok u => (u.resolve path).toOption
  | .error _ => none

theorem FileTree.directory?_eq_some_iff {t : FileTree} {path : String} {create : Bool}
    {loc : Location} : t.directory? path create = some loc ↔
      ∃ u, t.ensureDirectory path create = .ok u ∧ u.resolve path = .ok loc := by
  unfold directory?
  cases t.ensureDirectory path create with
  | error e =>
    constructor
    · nofun
    · rintro ⟨_, ⟨⟩, -⟩
  | ok u =>
    dsimp only
    constructor
    · intro h
      cases hloc : u.resolve path with
      | error e => rw [hloc] at h; cases h
      | ok found =>
        rw [hloc] at h
        cases h
        exact ⟨u, rfl, hloc⟩
    · rintro ⟨_, ⟨⟩, hloc⟩
      rw [hloc]
      rfl

/-! ## Refused directories -/

namespace Environment

variable {h : Host} {held : List EnvironmentHandle} {path : String} {o : StoreOptions}

theorem openNumber_ne_alreadyOpen (loc : Location) (size number : Nat) :
    (openNumber loc size number h).1 ≠ .error (.environment .alreadyOpen) := by
  unfold openNumber
  split_ifs <;> nofun

theorem openData_ne_alreadyOpen (loc : Location) (size : Nat) (content : Option Content) :
    (openData loc size content h).1 ≠ .error (.environment .alreadyOpen) := by
  have hnew : (openNew loc size h).1 ≠ .error (.environment .alreadyOpen) := by
    simp only [openNew]
    split_ifs with hsize
    · simp
    · exact openNumber_ne_alreadyOpen _ _ _
    · exact openNumber_ne_alreadyOpen _ _ _
  unfold openData
  split
  · exact hnew
  · exact openNumber_ne_alreadyOpen _ _ _
  · simp
  · split_ifs
    · exact hnew
    · simp

theorem openAt_ne_alreadyOpen (loc : Location) :
    (openAt loc o h).1 ≠ .error (.environment .alreadyOpen) := by
  unfold openAt
  split
  · nofun
  · dsimp only
    split
    · nofun
    · exact openData_ne_alreadyOpen _ _ _
    · exact openData_ne_alreadyOpen _ _ _

theorem checkOptions_ne_alreadyOpen : checkOptions o ≠ .error .alreadyOpen := by
  intro h
  unfold checkOptions at h
  split_ifs at h <;> cases h

/-- **An environment is refused as open already exactly if it is.** -/
theorem open_refused_iff {create : Bool} :
    (Environment.open held path o create h).1 = .error (.environment .alreadyOpen) ↔
      ∃ loc, h.files.directory? path create = some loc ∧ ∃ e ∈ held, e.location = loc := by
  simp only [FileTree.directory?_eq_some_iff]
  unfold Environment.open
  cases hfiles : h.files.ensureDirectory path create with
  | error e =>
    constructor
    · nofun
    · rintro ⟨_, ⟨_, ⟨⟩, -⟩, -⟩
  | ok files =>
    cases hloc : files.resolve path with
    | error e =>
      constructor
      · intro h
        simp only [hloc] at h
        cases h
      · rintro ⟨_, ⟨_, ⟨⟩, hloc'⟩, -⟩
        rw [hloc] at hloc'
        cases hloc'
    | ok loc =>
      simp only [hloc]
      split_ifs with hany
      · obtain ⟨e, he, heq⟩ := List.any_eq_true.1 hany
        exact iff_of_true rfl ⟨loc, ⟨files, rfl, hloc⟩, e, he, eq_of_beq heq⟩
      · constructor
        · intro h
          split at h
          · next e he =>
            cases h
            exact absurd he checkOptions_ne_alreadyOpen
          · exact absurd h (openAt_ne_alreadyOpen loc)
        · rintro ⟨_, ⟨_, ⟨⟩, hloc'⟩, e, he, rfl⟩
          rw [hloc] at hloc'
          cases hloc'
          have hlocation : (e.location == e.location) = true := beq_self_eq_true _
          exact absurd (List.any_eq_true.2 ⟨e, he, hlocation⟩) hany

end Environment

namespace Journal

variable {h : Host} {held : List JournalHandle} {path : String}

/-- **A journaling database that could be opened is refused exactly if it is
    open already.** -/
theorem open_refused_iff (hh : h.IsFresh) {create : Bool}
    (hheld : ∀ j ∈ held, h.files.node? (j.location ++ [marker]) = some (.file (.keyspace j.number))) :
    ((Journal.open held path create h).1 = .error .journal ∧
        (Journal.open [] path create h).1.isOk = true) ↔
      ∃ loc, h.files.directory? path create = some loc ∧ ∃ j ∈ held, j.location = loc := by
  simp only [FileTree.directory?_eq_some_iff]
  unfold Journal.open
  cases hfiles : h.files.ensureDirectory path create with
  | error e =>
    constructor
    · rintro ⟨⟨⟩, -⟩
    · rintro ⟨_, ⟨_, ⟨⟩, -⟩, -⟩
  | ok files =>
    have hadds := FileTree.adds_of_ensureDirectory hfiles
    have hext : h.Extends none { h with files } := hh.extends_files hadds
    have hfresh : ({ h with files } : Host).IsFresh := hext.fresh
    cases hloc : files.resolve path with
    | error e =>
      constructor
      · rintro ⟨-, hok⟩
        simp only [hloc] at hok
        cases hok
      · rintro ⟨_, ⟨_, ⟨⟩, hloc'⟩, -⟩
        rw [hloc] at hloc'
        cases hloc'
    | ok loc =>
      simp only [hloc, openAt]
      constructor
      · rintro ⟨hrefused, hok⟩
        split at hrefused
        · next number hmarker =>
          split_ifs at hrefused with hany
          obtain ⟨j, hj, heq⟩ := List.any_eq_true.1 hany
          -- only one file refers to the keyspace
          have hplace := hfresh.once (hadds.node? (hheld j hj)) hmarker rfl
            (congrArg some (eq_of_beq heq).symm)
          exact ⟨loc, ⟨files, rfl, hloc⟩, j, hj, (List.append_inj_left' hplace rfl)⟩
        · next hother hmarker =>
          rw [hmarker] at hok
          split at hok
          · next number heq => exact absurd (Option.some.inj heq) (hother number)
          · cases hok
          · next hnone => cases hnone
        · cases hrefused
      · rintro ⟨_, ⟨_, ⟨⟩, hloc'⟩, j, hj, rfl⟩
        rw [hloc] at hloc'
        cases hloc'
        have hmarker : files.node? (j.location ++ [marker]) = some (.file (.keyspace j.number)) :=
          hadds.node? (hheld j hj)
        have hany : held.any (·.number == j.number) = true :=
          List.any_eq_true.2 ⟨j, hj, beq_self_eq_true _⟩
        simp only [hmarker, hany, if_true, List.any_nil, Bool.false_eq_true, if_false]
        exact ⟨trivial, rfl⟩

end Journal

/-! ## The order in which things are opened -/

section
variable {held held' : List Handle} (hmem : ∀ x, x ∈ held ↔ x ∈ held')
include hmem

theorem List.any_filterMap_congr {β : Type} (part : Handle → Option β) (p : β → Bool) :
    (held.filterMap part).any p = (held'.filterMap part).any p := by
  rw [Bool.eq_iff_iff, List.any_eq_true, List.any_eq_true]
  simp only [List.mem_filterMap, hmem]

/-- Whatever database is found under a name that is shared, it has one
    number. -/
theorem TableFile.openMemory_congr
    (hshared : ∀ x ∈ held, ∀ y ∈ held, (Session.share? x).isSome →
      Session.share? y = Session.share? x → y.number? = x.number?)
    (share : Option String) (table : String) (writable : Bool) (h : Host) :
    openMemory (held.filterMap (·.table?)) share table writable h =
      openMemory (held'.filterMap (·.table?)) share table writable h := by
  have hfound {held : List Handle} {t : TableHandle} (ht : (held.filterMap (·.table?)).find?
      (fun t => share.isSome && t.share == share) = some t) :
      .table t ∈ held ∧ share.isSome ∧ t.share = share := by
    obtain ⟨x, hx, htable⟩ := List.mem_filterMap.1 (List.mem_of_find?_eq_some ht)
    have hshare := List.find?_some ht
    rw [Bool.and_eq_true, beq_iff_eq] at hshare
    cases x with
    | table => cases htable; exact ⟨hx, hshare⟩
    | map | store | journal | environment | rows => cases htable
  have hsome : ((held.filterMap (·.table?)).find? fun t => share.isSome && t.share == share).isSome ↔
      ((held'.filterMap (·.table?)).find? fun t => share.isSome && t.share == share).isSome := by
    simp only [List.find?_isSome, List.mem_filterMap, hmem]
  unfold openMemory
  split_ifs
  · rfl
  · cases ht : (held.filterMap (·.table?)).find? fun t => share.isSome && t.share == share with
    | none =>
      rw [ht] at hsome
      have hnone := Option.isSome_eq_false_iff.1 (Bool.eq_false_iff.2 fun h => nomatch hsome.2 h)
      rw [Option.isNone_iff_eq_none.1 hnone]
    | some t =>
      rw [ht] at hsome
      obtain ⟨t', ht'⟩ := Option.isSome_iff_exists.1 (hsome.1 rfl)
      obtain ⟨hx, hs, hshare⟩ := hfound ht
      obtain ⟨hx', -, hshare'⟩ := hfound ht'
      have hnumber : some t'.number = some t.number :=
        hshared _ hx _ ((hmem _).2 hx') (by rw [← hshare] at hs; exact hs)
          (hshare'.trans hshare.symm)
      rw [ht']
      dsimp only
      rw [Option.some.inj hnumber]

/-- It does not matter in which order things have been opened. -/
theorem EngineConfig.open_congr
    (hshared : ∀ x ∈ held, ∀ y ∈ held, (Session.share? x).isSome →
      Session.share? y = Session.share? x → y.number? = x.number?)
    (c : EngineConfig) (h : Host) : c.open held h = c.open held' h := by
  cases c with
  | memory | mdbx | rocksdb | postgres => rfl
  | lmdb d =>
    simp only [EngineConfig.open, Environment.open, List.any_filterMap_congr hmem]
  | fjall d =>
    simp only [EngineConfig.open, Journal.open, Journal.openAt, List.any_filterMap_congr hmem]
  | sqlite path table create =>
    simp only [EngineConfig.open, TableFile.open, TableFile.openMemory_congr hmem hshared]

end

/-! ## Opening that fails -/

/-- What is not in files: maps and byte stores of the program, and the server. -/
def Host.running (h : Host) : Entries MapName ValueMap × Entries String ByteMap × Option Server :=
  (h.maps, h.stores, h.server)

section
variable {h : Host}

theorem Host.running_growTo (n pages : Nat) : (h.growTo n pages).running = h.running := by
  unfold growTo
  split_ifs <;> rfl

theorem Host.running_ensureCells (n : Nat) (table : String) :
    (h.ensureCells n table).running = h.running := by
  unfold ensureCells
  split_ifs <;> rfl

theorem Environment.running_openNumber (loc : Location) (size number : Nat) :
    (openNumber loc size number h).2.running = h.running := by
  unfold openNumber
  split_ifs
  · rfl
  · exact Host.running_growTo _ _

theorem Environment.running_openData (loc : Location) (size : Nat) (content : Option Content) :
    (openData loc size content h).2.running = h.running := by
  have hnew : (openNew loc size h).2.running = h.running := by
    simp only [openNew]
    split_ifs
    · rfl
    · exact running_openNumber _ _ _
    · exact running_openNumber _ _ _
  unfold openData
  split
  · exact hnew
  · exact running_openNumber _ _ _
  · rfl
  · split_ifs
    · exact hnew
    · rfl

theorem Environment.running_open {held : List EnvironmentHandle} {path : String}
    {o : StoreOptions} {create : Bool} :
    (Environment.open held path o create h).2.running = h.running := by
  unfold Environment.open
  split
  · rfl
  dsimp only
  split
  · rfl
  split_ifs
  · rfl
  split
  · rfl
  unfold openAt
  split
  · rfl
  · -- the lock file may be made first
    dsimp only
    split
    · split_ifs <;> rfl
    · rw [running_openData]
      split_ifs <;> rfl
    · rw [running_openData]
      split_ifs <;> rfl

theorem Journal.running_open {held : List JournalHandle} {path : String} {create : Bool} :
    (Journal.open held path create h).2.running = h.running := by
  unfold Journal.open
  split
  · rfl
  split
  · rfl
  unfold openAt
  split
  · split_ifs <;> rfl
  · rfl
  · rfl

theorem TableFile.running_openTable (t : TableHandle) :
    (openTable t h).2.running = h.running := by
  unfold openTable
  split_ifs
  · exact Host.running_ensureCells _ _
  · rfl

theorem TableFile.running_openContent (loc : Location) (content : Content) (table : String)
    (writable : Bool) : (openContent loc content table writable h).2.running = h.running := by
  unfold openContent
  split
  · exact running_openTable _
  · rfl
  · split_ifs
    · rfl
    · exact running_openTable _
    · rfl

theorem TableFile.running_open {held : List TableHandle} {path table : String} {create : Bool} :
    (TableFile.open held path table create h).2.running = h.running := by
  unfold TableFile.open
  split
  · rfl
  · rfl
  · next target _ _ =>
    cases target with
    | memory share writable =>
      show (openMemory held share table writable h).2.running = h.running
      unfold openMemory
      split_ifs
      · rfl
      split
      · exact running_openTable _
      · exact running_openTable _
    | file name create writable =>
      show (openFile path name table create writable h).2.running = h.running
      unfold openFile
      dsimp only
      split
      · rfl
      split
      · rfl
      · split_ifs
        · rfl
        · exact running_openContent _ _ _ _
      · split_ifs
        · rfl
        · rfl
        · exact running_openContent _ _ _ _

theorem RowServer.open_eq_error {conninfo table : String} {e : StoreError} {u : Host}
    (hopen : RowServer.open conninfo table h = (.error e, u)) : u = h := by
  unfold RowServer.open at hopen
  split at hopen
  · cases hopen; rfl
  · cases hopen; rfl
  · split at hopen
    · cases hopen; rfl
    · cases hopen

/-- Opening that fails changes nothing that is not in files. -/
theorem EngineConfig.running_of_open {c : EngineConfig} {held : List Handle} {e : StoreError}
    {u : Host} (hopen : c.open held h = (.error e, u)) : u.running = h.running := by
  cases c with
  | memory => cases hopen
  | mdbx | rocksdb => cases hopen; rfl
  | lmdb d =>
    obtain rfl : _ = u := congrArg Prod.snd hopen
    exact Environment.running_open
  | fjall d =>
    obtain rfl : _ = u := congrArg Prod.snd hopen
    exact Journal.running_open
  | sqlite path table create =>
    obtain rfl : _ = u := congrArg Prod.snd hopen
    exact TableFile.running_open
  | postgres conninfo table =>
    obtain ⟨he, hu⟩ := Prod.mk.inj hopen
    exact congrArg Host.running (RowServer.open_eq_error (Prod.ext (Except.map_eq_error_iff.1 he) hu))

end

/-- A read finds the same on two hosts that have the same in files and
    elsewhere. -/
theorem Handle.fetch_congr {h u : Host} (hrunning : u.running = h.running)
    (hkeyspace : ∀ n, u.keyspace n = h.keyspace n) (hcells : ∀ n table, u.cells n table = h.cells n table)
    (handle : Handle) (key : String) (kind : Kind) :
    handle.backend.fetch key kind u = handle.backend.fetch key kind h := by
  obtain ⟨hmaps, hstores, hserver⟩ : u.maps = h.maps ∧ u.stores = h.stores ∧ u.server = h.server := by
    simpa [Host.running] using hrunning
  cases handle with
  | map name =>
    have hmap : u.map name = h.map name := by rw [Host.map, Host.map, hmaps]
    show (Backend.tagged name.backendName).fetch key kind (u.map name) = _
    rw [hmap]
    rfl
  | store name =>
    have hstore : u.store name = h.store name := by rw [Host.store, Host.store, hstores]
    refine ByteStore.fetch_congr ?_ kind
    show ByteMap.byteStore.get key (u.store name) = _
    rw [hstore]
    rfl
  | table t =>
    refine ByteStore.fetch_congr ?_ kind
    show Except.ok _ = Except.ok _
    rw [TableHandle.rows, TableHandle.rows, hcells]
  | journal j =>
    refine ByteStore.fetch_congr ?_ kind
    rw [JournalHandle.get_eq, JournalHandle.get_eq, hkeyspace]
  | environment e =>
    refine ByteStore.fetch_congr ?_ kind
    rw [EnvironmentHandle.get_eq, EnvironmentHandle.get_eq, hkeyspace]
  | rows t =>
    refine ByteStore.fetch_congr ?_ kind
    have hreach : t.reach key u = t.reach key h := by rw [RowHandle.reach, RowHandle.reach, hserver]
    simp only [RowHandle.byteStore, hreach]

end TypedStore
