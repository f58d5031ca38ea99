/-
  TypedStore — what a successful opening leaves.

  Each `IsOpen` says what is on the host while an engine is open by some
  settings.  A successful opening leaves that (`isOpen_of_open`), and while it
  is so the same settings give the same handle and change nothing
  (`open_of_isOpen`), unless somebody else has the engine open.

  * `Environment.IsOpen`, `Journal.IsOpen`: the directory with its files;
  * `TableFile.Serves`: what any path stands for, with the table, and
    `TableFile.IsOpen` the file at a plain path;
  * `RowServer.IsOpen`: the server with the table.
-/
import TypedStore.Proofs.Opening
import TypedStore.Proofs.TablePath

namespace TypedStore

/-! ## Environments -/

namespace Host

variable {h : Host}

@[simp] theorem files_growTo (n pages : Nat) : (h.growTo n pages).files = h.files := by
  unfold growTo; split <;> rfl

@[simp] theorem peak_growTo (n pages m : Nat) : (h.growTo n pages).peak m = h.peak m := by
  unfold growTo; split <;> rfl

theorem pages_growTo (n pages : Nat) : (h.growTo n pages).pages n = max (h.pages n) pages := by
  unfold growTo
  split_ifs with hle
  · exact (max_eq_left hle).symm
  · have hpages : ({ h with sizes := h.sizes.insert n pages } : Host).pages n = pages := by
      simp only [Host.pages, Entries.get?_insert, if_true, Option.getD_some]
    rw [hpages, max_eq_right (by omega)]

end Host

namespace Environment

/-- An environment is open by a path and options. -/
structure IsOpen (path : String) (o : StoreOptions) (e : EnvironmentHandle) (h : Host) : Prop where
  resolve : h.files.resolve path = .ok e.location
  directory : h.files.node? e.location = some .directory
  options : checkOptions o = .ok ()
  lock : ∃ content, h.files.node? (e.location ++ [lockFile]) = some (.file content)
  data : h.files.node? (e.location ++ [dataFile]) = some (.file (.keyspace e.number))
  size : o.effectiveMapSize < addressSpace
  pages : pagesFor o.effectiveMapSize (h.pages e.number) (h.peak e.number) = e.pages
  grown : e.pages ≤ h.pages e.number

variable {h t : Host} {e : EnvironmentHandle} {loc : Location} {o : StoreOptions} {path : String}

/-- Opening gives an environment the pages that it is opened with again. -/
theorem openNumber_eq_ok {size number : Nat} (hopen : openNumber loc size number h = (.ok e, t)) :
    size < addressSpace ∧ e.number = number ∧ e.location = loc ∧
      t = h.growTo number e.pages ∧ pagesFor size (h.pages number) (h.peak number) = e.pages := by
  unfold openNumber at hopen
  split_ifs at hopen with hsize
  · cases hopen
  · cases hopen
    exact ⟨by omega, rfl, rfl, rfl, rfl⟩

/-- The size that a directory is opened with stands for that of the options:
    the pages that it gives are those that the options give afterwards. -/
def StandsFor (size : Nat) (o : StoreOptions) (kept peak : Nat) : Prop :=
  (size < addressSpace → o.effectiveMapSize < addressSpace) ∧
    ∀ pages, pagesFor size kept peak = pages →
      pagesFor o.effectiveMapSize (max kept pages) peak = pages

theorem standsFor_self (o : StoreOptions) (kept peak : Nat) :
    StandsFor o.effectiveMapSize o kept peak := by
  refine ⟨id, fun pages h => ?_⟩
  unfold pagesFor at h ⊢
  split_ifs at h ⊢ <;> omega

/-- An environment that is new and not told its size has the usual one. -/
theorem standsFor_unset (o : StoreOptions) (peak : Nat) :
    StandsFor (if o.effectiveMapSize = 0 then unsetSize else o.effectiveMapSize) o 0 peak := by
  by_cases ho : o.effectiveMapSize = 0
  · rw [if_pos ho]
    refine ⟨fun _ => by rw [ho]; decide, fun pages h => ?_⟩
    unfold pagesFor at h ⊢
    rw [if_pos ho]
    rw [if_neg (by decide)] at h
    omega
  · rw [if_neg ho]
    exact standsFor_self o 0 peak

theorem isOpen_of_openNumber {size number : Nat}
    (hopen : openNumber loc size number h = (.ok e, t))
    (hsize : StandsFor size o (h.pages number) (h.peak number))
    (hresolve : h.files.resolve path = .ok loc) (hdirectory : h.files.node? loc = some .directory)
    (hoptions : checkOptions o = .ok ())
    (hlock : ∃ content, h.files.node? (loc ++ [lockFile]) = some (.file content))
    (hdata : h.files.node? (loc ++ [dataFile]) = some (.file (.keyspace number))) :
    IsOpen path o e t := by
  obtain ⟨hspace, rfl, rfl, rfl, hpages⟩ := openNumber_eq_ok hopen
  have hgrown := h.pages_growTo e.number e.pages
  refine ⟨?_, ?_, hoptions, ?_, ?_, hsize.1 hspace, ?_, ?_⟩
  · rwa [h.files_growTo]
  · rwa [h.files_growTo]
  · rwa [h.files_growTo]
  · rwa [h.files_growTo]
  · rw [hgrown, h.peak_growTo]
    exact hsize.2 _ hpages
  · rw [hgrown]
    exact le_max_right _ _

theorem isOpen_of_openNew (hh : h.IsFresh) (hopen : openNew loc o.effectiveMapSize h = (.ok e, t))
    (hnone : h.files.node? (loc ++ [dataFile]) ≠ some .directory)
    (hresolve : h.files.resolve path = .ok loc) (hdirectory : h.files.node? loc = some .directory)
    (hoptions : checkOptions o = .ok ())
    (hlock : ∃ content, h.files.node? (loc ++ [lockFile]) = some (.file content)) :
    IsOpen path o e t := by
  simp only [openNew, Host.takeNumber] at hopen
  split at hopen
  · cases hopen
  · have hkeeps := FileTree.keepsDirectories_put hnone (.file (.keyspace h.next))
    have hnode := FileTree.node?_put hnone (.file (.keyspace h.next))
    refine isOpen_of_openNumber hopen ?_ (FileTree.resolve_of_keepsDirectories hkeeps hresolve)
      (hkeeps loc hdirectory) hoptions ?_ ?_
    · have hpages : h.pages h.next = 0 := by rw [Host.pages, hh.sizes le_rfl]; rfl
      exact hpages ▸ standsFor_unset o _
    · obtain ⟨content, hcontent⟩ := hlock
      refine ⟨content, (hnode _).trans ?_⟩
      rw [if_neg (by simp [lockFile, dataFile]), hcontent]
    · exact (hnode _).trans (if_pos rfl)

theorem isOpen_of_openAt (hh : h.IsFresh) (hopen : openAt loc o h = (.ok e, t))
    (hresolve : h.files.resolve path = .ok loc) (hdirectory : h.files.node? loc = some .directory)
    (hoptions : checkOptions o = .ok ()) : IsOpen path o e t := by
  unfold openAt at hopen
  split at hopen
  · cases hopen
  · next lock hlock =>
    -- there is a lock file, perhaps made just now
    have hlocked : ∃ u : Host, u.IsFresh ∧ u.files.resolve path = .ok loc ∧
        u.files.node? loc = some .directory ∧
        (∃ content, u.files.node? (loc ++ [lockFile]) = some (.file content)) ∧
        (if (h.files.node? (loc ++ [lockFile])).isSome then h
          else h.putNode (loc ++ [lockFile]) (.file (.bytes ByteArray.empty))) = u := by
      split_ifs with hsome
      · obtain ⟨n, hn⟩ := Option.isSome_iff_exists.1 hsome
        cases n with
        | directory => exact absurd hn hlock
        | file content => exact ⟨h, hh, hresolve, hdirectory, ⟨content, hn⟩, rfl⟩
      · have hnone : h.files.node? (loc ++ [lockFile]) = none := by simpa using hsome
        have hkeeps := FileTree.keepsDirectories_put hlock (.file (.bytes ByteArray.empty))
        have hput : h.Extends none (h.putNode (loc ++ [lockFile]) (.file (.bytes ByteArray.empty))) :=
          hh.extends_putBytes hnone _
        refine ⟨_, hput.fresh, FileTree.resolve_of_keepsDirectories hkeeps hresolve,
          hkeeps loc hdirectory, ⟨.bytes ByteArray.empty, ?_⟩, rfl⟩
        exact (FileTree.node?_put hlock _ _).trans (if_pos rfl)
    obtain ⟨u, hu, hresolve, hdirectory, hlock, heq⟩ := hlocked
    rw [heq] at hopen
    dsimp only at hopen
    split at hopen
    · cases hopen
    · next content hcontent =>
      unfold openData at hopen
      split at hopen
      · next hnone => cases hnone
      · next number hnumber =>
        cases hnumber
        exact isOpen_of_openNumber hopen (standsFor_self o _ _) hresolve hdirectory hoptions hlock
          hcontent
      · cases hopen
      · next b hb =>
        cases hb
        split_ifs at hopen
        · exact isOpen_of_openNew hu hopen (by simp [hcontent]) hresolve hdirectory hoptions hlock
        · cases hopen
    · next hnone =>
      exact isOpen_of_openNew hu hopen (by simp [hnone]) hresolve hdirectory hoptions hlock

theorem isOpen_of_open (hh : h.IsFresh) {held : List EnvironmentHandle} {create : Bool}
    (hopen : Environment.open held path o create h = (.ok e, t)) :
    IsOpen path o e t ∧ ∀ other ∈ held, other.location ≠ e.location := by
  unfold Environment.open at hopen
  split at hopen
  · cases hopen
  · next files hfiles =>
    dsimp only at hopen
    split at hopen
    · cases hopen
    · next loc hloc =>
      split_ifs at hopen with hheld
      · cases hopen
      · split at hopen
        · cases hopen
        · next hoptions =>
          have hadds : h.Extends none { h with files } :=
            hh.extends_files (FileTree.adds_of_ensureDirectory hfiles)
          have hisOpen : IsOpen path o e t := isOpen_of_openAt hadds.fresh hopen hloc
            (FileTree.isDirectory_of_ensureDirectory hfiles hloc) hoptions
          refine ⟨hisOpen, fun other hother heq => hheld ?_⟩
          have hlocation : e.location = loc := by
            rw [← FileTree.normalise_of_resolve hisOpen.resolve,
              FileTree.normalise_of_resolve hloc]
          exact List.any_eq_true.2 ⟨other, hother, by rw [heq, hlocation]; exact beq_self_eq_true _⟩

/-- Opening an environment once more gives the same handle and changes
    nothing, unless it is open still. -/
theorem open_of_isOpen (hisOpen : IsOpen path o e h) {held : List EnvironmentHandle}
    (hheld : ∀ other ∈ held, other.location ≠ e.location) (create : Bool) :
    Environment.open held path o create h = (.ok e, h) := by
  have hdirectory : h.files.isDirectory path = true :=
    FileTree.isDirectory_iff.2 ⟨e.location, hisOpen.resolve, hisOpen.directory⟩
  have hfree : held.any (·.location == e.location) = false :=
    List.any_eq_false.2 fun other hother => by simpa using hheld other hother
  obtain ⟨content, hlock⟩ := hisOpen.lock
  have hnumber : openNumber e.location o.effectiveMapSize e.number h = (.ok e, h) := by
    unfold openNumber
    rw [if_neg (by have := hisOpen.size; omega)]
    simp only [hisOpen.pages, Host.growTo, if_pos hisOpen.grown]
  unfold Environment.open
  rw [FileTree.ensureDirectory_of_isDirectory hdirectory]
  simp only [hisOpen.resolve, hfree, Bool.false_eq_true, if_false, hisOpen.options, openAt, hlock,
    Option.isSome_some, if_true, hisOpen.data, openData, hnumber]

end Environment

/-! ## Journaling databases -/

namespace Journal

/-- A journaling database is open by a path. -/
structure IsOpen (path : String) (j : JournalHandle) (h : Host) : Prop where
  resolve : h.files.resolve path = .ok j.location
  directory : h.files.node? j.location = some .directory
  marker : h.files.node? (j.location ++ [marker]) = some (.file (.keyspace j.number))

variable {h t : Host} {j : JournalHandle} {path : String} {held : List JournalHandle}

theorem isOpen_of_open (hheld : ∀ other ∈ held, other.number < h.next) {create : Bool}
    (hopen : Journal.open held path create h = (.ok j, t)) :
    IsOpen path j t ∧ ∀ other ∈ held, other.number ≠ j.number := by
  unfold Journal.open at hopen
  split at hopen
  · cases hopen
  · next files hfiles =>
    split at hopen
    · cases hopen
    · next loc hloc =>
      have hdirectory := FileTree.isDirectory_of_ensureDirectory hfiles hloc
      unfold openAt at hopen
      split at hopen
      · next number hmarker =>
        split_ifs at hopen with hany
        · cases hopen
        · cases hopen
          refine ⟨⟨hloc, hdirectory, hmarker⟩, fun other hother heq => hany ?_⟩
          exact List.any_eq_true.2 ⟨other, hother, by rw [heq]; exact beq_self_eq_true _⟩
      · cases hopen
      · next hnone =>
        cases hopen
        have hne : files.node? (loc ++ [Journal.marker]) ≠ some .directory := by
          intro hn
          have hnone : files.node? (loc ++ [Journal.marker]) = none := hnone
          rw [hnone] at hn; cases hn
        have hkeeps := FileTree.keepsDirectories_put hne (.file (.keyspace h.next))
        refine ⟨⟨FileTree.resolve_of_keepsDirectories hkeeps hloc, hkeeps loc hdirectory,
          (FileTree.node?_put hne _ _).trans (if_pos rfl)⟩, fun other hother => ?_⟩
        have hlt := hheld other hother
        show other.number ≠ h.next
        omega

theorem open_of_isOpen (hisOpen : IsOpen path j h)
    (hheld : ∀ other ∈ held, other.number ≠ j.number) (create : Bool) :
    Journal.open held path create h = (.ok j, h) := by
  have hdirectory : h.files.isDirectory path = true :=
    FileTree.isDirectory_iff.2 ⟨j.location, hisOpen.resolve, hisOpen.directory⟩
  have hfree : held.any (·.number == j.number) = false :=
    List.any_eq_false.2 fun other hother => by simpa using hheld other hother
  unfold Journal.open
  rw [FileTree.ensureDirectory_of_isDirectory hdirectory]
  simp only [hisOpen.resolve, openAt, hisOpen.marker, hfree, Bool.false_eq_true, if_false]

end Journal

/-! ## Database files -/

namespace TableFile

/-- A file can be where a path stands for one. -/
def IsPlaced (files : FileTree) : TablePath.Target → Prop
  | .memory .. => True
  | .file name _ _ => locate name files = some (FileTree.normalise name)

/-- A table is open as what a path stands for. -/
structure Serves (target : TablePath.Target) (table : String) (t : TableHandle) (h : Host) :
    Prop where
  free : isReserved table = false
  opened : t.table = table
  placed : IsPlaced h.files target
  node {name : String} {create writable : Bool} : target = .file name create writable →
    h.files.node? (FileTree.normalise name) = some (.file (.database t.number))
  made : (h.tables t.number).contains (foldName table) = true

/-- A table is open in the file at a plain path. -/
structure IsOpen (path table : String) (t : TableHandle) (h : Host) : Prop where
  target (create) : TablePath.target path create = .ok (.file path create true)
  name : Statements.checkTableName table = .ok ()
  serves : Serves (.file path true true) table t h
  handle : t = { number := t.number, table, location := some (FileTree.normalise path) }

variable {h u : Host} {t : TableHandle} {path table : String} {held : List TableHandle}

theorem contains_ensureCells (n : Nat) (table : String) :
    ((h.ensureCells n table).tables n).contains (foldName table) = true := by
  unfold Host.ensureCells
  split_ifs with hc
  · exact hc
  · rw [Host.tables_putCells, if_pos rfl, Entries.contains, Entries.get?_insert, if_pos rfl]
    rfl

theorem files_ensureCells (n : Nat) (table : String) :
    (h.ensureCells n table).files = h.files := by
  unfold Host.ensureCells
  split_ifs <;> rfl

/-- A table is opened by itself, and made if it does not exist. -/
theorem openTable_eq_ok {t' : TableHandle} (hopen : openTable t h = (.ok t', u)) :
    t' = t ∧ u = h.ensureCells t.number t.table := by
  unfold openTable at hopen
  split_ifs at hopen <;> cases hopen
  exact ⟨rfl, rfl⟩

theorem keeps_locate {files : FileTree} {loc : Location} (hkeeps : files.KeepsDirectories u.files)
    (hlocate : locate path files = some loc) : locate path u.files = some loc := by
  unfold locate at hlocate ⊢
  dsimp only at hlocate ⊢
  split_ifs at hlocate with hc
  rw [Bool.and_eq_true, decide_eq_true_eq] at hc
  rw [if_pos (by simp only [hc.1, hkeeps _ hc.2, decide_true, Bool.and_self]), hlocate]

/-- In the second host the file at a location is a database, which was there in
    the first one or has just been made. -/
structure Provides (h v : Host) (loc : Location) (number : Nat) : Prop where
  directories : h.files.KeepsDirectories v.files
  node : v.files.node? loc = some (.file (.database number))
  made : v = h ∨ number = h.next ∧ v.next = h.next + 1 ∧
    ∀ n, h.files.node? loc ≠ some (.file (.database n))

/-- An empty file becomes a database. -/
theorem provides_putNode {loc : Location} (hdirectory : h.files.node? loc ≠ some .directory)
    (hdatabase : ∀ n, h.files.node? loc ≠ some (.file (.database n))) :
    Provides h (h.takeNumber.2.putNode loc (.file (.database h.next))) loc h.next where
  directories := FileTree.keepsDirectories_put hdirectory _
  node := (FileTree.node?_put hdirectory _ _).trans (if_pos rfl)
  made := Or.inr ⟨rfl, rfl, hdatabase⟩

theorem openContent_eq_ok {loc : Location} {content : Content} {writable : Bool}
    (hcontent : h.files.node? loc = some (.file content))
    (hopen : openContent loc content table writable h = (.ok t, u)) : ∃ v number,
      Provides h v loc number ∧
      openTable { number, table, location := some loc, writable } v = (.ok t, u) := by
  unfold openContent at hopen
  split at hopen
  · next number => exact ⟨h, number, ⟨fun _ => id, hcontent, Or.inl rfl⟩, hopen⟩
  · cases hopen
  · split_ifs at hopen with hsize hwritable
    · cases hopen
    · subst hwritable
      exact ⟨_, _, provides_putNode (by simp [hcontent]) (by simp [hcontent]), hopen⟩
    · cases hopen

/-- A file is opened as the database that it is, or that it becomes. -/
theorem openFile_eq_ok {given name : String} {create writable : Bool}
    (hopen : openFile given name table create writable h = (.ok t, u)) :
    isReserved table = false ∧ ∃ loc v number, locate name h.files = some loc ∧
      Provides h v loc number ∧
      openTable { number, table, location := some loc, writable } v = (.ok t, u) := by
  unfold openFile at hopen
  dsimp only at hopen
  split at hopen
  · cases hopen
  · next loc hlocate =>
    split at hopen
    · cases hopen
    · next content hcontent =>
      split_ifs at hopen with hfree
      · cases hopen
      · obtain ⟨v, number, hv, hopen⟩ := openContent_eq_ok hcontent hopen
        exact ⟨by simpa using hfree, loc, v, number, hlocate, hv, hopen⟩
    · next hnone =>
      split_ifs at hopen with hcreate hfree
      · cases hopen
      · cases hopen
      · have hdirectory : h.files.node? loc ≠ some .directory := by simp [hnone]
        have hkeeps := FileTree.keepsDirectories_put hdirectory (.file (.bytes ByteArray.empty))
        have hempty : (h.putNode loc (.file (.bytes ByteArray.empty))).files.node? loc =
            some (.file (.bytes ByteArray.empty)) :=
          (FileTree.node?_put hdirectory _ _).trans (if_pos rfl)
        obtain ⟨v, number, hv, hopen⟩ := openContent_eq_ok hempty hopen
        refine ⟨by simpa using hfree, loc, v, number, hlocate, ⟨?_, hv.node, ?_⟩, hopen⟩
        · exact fun other ho => hv.directories other (hkeeps other ho)
        · rcases hv.made with rfl | ⟨hnumber, hnext, -⟩
          · have hnode := hv.node
            rw [hempty] at hnode
            cases hnode
          · exact Or.inr ⟨hnumber, hnext, by simp [hnone]⟩

/-- A database in memory is opened as one that is held under the name, or as a
    new one. -/
theorem openMemory_eq_ok {share : Option String} {writable : Bool}
    (hopen : openMemory held share table writable h = (.ok t, u)) :
    isReserved table = false ∧ ∃ v number,
      (v = h ∧ (∃ other ∈ held, other.number = number ∧ share.isSome ∧ other.share = share) ∨
        v = h.takeNumber.2 ∧ number = h.next ∧
          ∀ other ∈ held, share.isSome → other.share ≠ share) ∧
      openTable { number, table, location := none, share, writable } v = (.ok t, u) := by
  unfold openMemory at hopen
  split_ifs at hopen with hfree
  · cases hopen
  · refine ⟨by simpa using hfree, ?_⟩
    split at hopen
    · next other hfound =>
      have hshare := List.find?_some hfound
      simp only [Bool.and_eq_true, beq_iff_eq] at hshare
      exact ⟨h, other.number,
        Or.inl ⟨rfl, other, List.mem_of_find?_eq_some hfound, rfl, hshare⟩, hopen⟩
    · next hnone =>
      refine ⟨_, _, Or.inr ⟨rfl, rfl, fun other hother hsome hshare => ?_⟩, hopen⟩
      have hno := List.find?_eq_none.1 hnone other hother
      simp only [hsome, hshare, beq_self_eq_true, Bool.and_self, not_true_eq_false] at hno

/-- Opens the table of what a path stands for. -/
def openTarget (held : List TableHandle) (path table : String) :
    TablePath.Target → Host → Except TableFileError TableHandle × Host
  | .memory share writable => openMemory held share table writable
  | .file name create writable => openFile path name table create writable

theorem open_eq_ok_iff {create : Bool} : TableFile.open held path table create h = (.ok t, u) ↔
    Statements.checkTableName table = .ok () ∧ ∃ target, TablePath.target path create = .ok target ∧
      openTarget held path table target h = (.ok t, u) := by
  unfold TableFile.open
  cases Statements.checkTableName table with
  | error e => simp
  | ok =>
    cases TablePath.target path create with
    | error e => simp
    | ok target =>
      have hresult (result : Except TableFileError TableHandle × Host) :
          (result.1.mapError StoreError.tableFile, result.2) = (.ok t, u) ↔ result = (.ok t, u) := by
        rw [Prod.mk.injEq, Except.mapError_eq_ok_iff, Prod.ext_iff]
      simp only [true_and, Except.ok.injEq, exists_eq_left']
      cases target with
      | memory | file => exact hresult _

theorem locate_eq_some {files : FileTree} {loc : Location} (h : locate path files = some loc) :
    loc = FileTree.normalise path := by
  unfold locate at h
  dsimp only at h
  split_ifs at h
  exact (Option.some.inj h).symm

/-- What is opened is open. -/
theorem serves_of_openTarget {target : TablePath.Target}
    (hopen : openTarget held path table target h = (.ok t, u)) : Serves target table t u := by
  cases target with
  | memory share writable =>
    obtain ⟨hfree, v, number, -, hopen⟩ := openMemory_eq_ok hopen
    obtain ⟨rfl, rfl⟩ := openTable_eq_ok hopen
    exact ⟨hfree, rfl, trivial, nofun, contains_ensureCells _ _⟩
  | file name create writable =>
    obtain ⟨hfree, loc, v, number, hlocate, hv, hopen⟩ := openFile_eq_ok hopen
    obtain ⟨rfl, rfl⟩ := openTable_eq_ok hopen
    obtain rfl := locate_eq_some hlocate
    refine ⟨hfree, rfl, ?_, fun heq => ?_, contains_ensureCells _ _⟩
    · show locate name (v.ensureCells number table).files = _
      rw [files_ensureCells]
      exact keeps_locate hv.directories hlocate
    · cases heq
      rw [files_ensureCells]
      exact hv.node

/-- It does not matter whether a file may be made. -/
theorem Serves.of_widens {target target' : TablePath.Target} (hserves : Serves target table t h)
    (hwidens : target.Widens target') : Serves target' table t h := by
  cases target with
  | memory share writable =>
    obtain rfl : target' = .memory share writable := hwidens
    exact hserves
  | file name create writable =>
    obtain ⟨create', rfl⟩ := hwidens
    exact { hserves with
      placed := hserves.placed
      node := fun heq => by cases heq; exact hserves.node rfl }

/-- The file that a table is open in is opened once more as the same database,
    without any change. -/
theorem Serves.openTarget_eq {name : String} {create writable : Bool}
    (hserves : Serves (.file name create writable) table t h) (held : List TableHandle)
    (path : String) : openTarget held path table (.file name create writable) h =
      (.ok { number := t.number, table, location := some (FileTree.normalise name), writable }, h) := by
  have hlocate : locate name h.files = some (FileTree.normalise name) := hserves.placed
  simp only [openTarget, openFile, hlocate, hserves.node rfl, hserves.free, Bool.false_eq_true,
    if_false, openContent, openTable, hserves.made, Bool.or_true, if_true, Host.ensureCells]

theorem isOpen_of_open {create : Bool} (hplain : TablePath.IsPlain path)
    (hopen : TableFile.open held path table create h = (.ok t, u)) : IsOpen path table t u := by
  obtain ⟨hname, target, htarget, hopen⟩ := open_eq_ok_iff.1 hopen
  obtain ⟨rfl, hagain⟩ := hplain.target htarget
  refine ⟨hagain, hname, (serves_of_openTarget hopen).of_widens ⟨true, rfl⟩, ?_⟩
  obtain ⟨-, loc, v, number, hlocate, -, hopen⟩ := openFile_eq_ok hopen
  rw [← locate_eq_some hlocate, (openTable_eq_ok hopen).1]

theorem open_of_isOpen (hisOpen : IsOpen path table t h) (create : Bool) :
    TableFile.open held path table create h = (.ok t, h) := by
  refine open_eq_ok_iff.2 ⟨hisOpen.name, _, hisOpen.target create, ?_⟩
  rw [(hisOpen.serves.of_widens ⟨create, rfl⟩).openTarget_eq, ← hisOpen.handle]

end TableFile

/-! ## The server -/

namespace RowServer

/-- A table of the server is open by a connection string. -/
structure IsOpen (conninfo table : String) (t : RowHandle) (h : Host) : Prop where
  name : Statements.checkTableName table = .ok ()
  handle : t.table = table
  reach : ∃ c server, Conninfo.ofText? conninfo = some c ∧ h.server = some server ∧
    connect c none (some server) = .ok (server, t.database) ∧
    ∃ rows, server.table? t.database table = some rows

/-- Two servers on which a database is reached in the same way. -/
structure Alike (database : String) (s s' : Server) : Prop where
  directory : s'.directory = s.directory
  database : (s'.databases.get? database).isNone = (s.databases.get? database).isNone

theorem connectHost_of_alike {s s' : Server} {database : String} (h : Alike database s s')
    (c : Conninfo) (host : Option ServerPlace) (port : Nat) :
    connectHost c database host port (some s') =
      (connectHost c database host port (some s)).map fun _ => s' := by
  unfold connectHost
  dsimp only
  rw [h.directory, h.database]
  split_ifs <;> rfl

theorem connectAny_of_alike {s s' : Server} {database : String} (h : Alike database s s')
    (c : Conninfo) (failure : ServerError) (index : Nat) (hosts : List ServerPlace) :
    connectAny c database (some s') failure index hosts =
      (connectAny c database (some s) failure index hosts).map fun _ => s' := by
  induction hosts generalizing failure index with
  | nil => rfl
  | cons host hosts ih =>
    unfold connectAny
    rw [connectHost_of_alike h]
    cases connectHost c database (some host) (portOf c index) (some s) with
    | ok found => rfl
    | error e => exact ih e (index + 1)

theorem connect_of_alike {s s' : Server} {c : Conninfo} {database? : Option String}
    (h : ∀ user, Alike (database?.getD (c.target user)) s s') :
    connect c database? (some s') =
      (connect c database? (some s)).map fun found => (s', found.2) := by
  unfold connect
  cases c.user with
  | none => rfl
  | some user =>
    dsimp only
    split
    · rfl
    · rw [connectAny_of_alike (h user)]
      cases connectAny c _ (some s) _ _ _ <;> rfl

theorem alike_putTable (s : Server) (database table : String) (rows : RowTable) (name : String) :
    Alike name s (s.putTable database table rows) where
  directory := rfl
  database := by
    simp only [Server.putTable, Entries.modify]
    split
    · next tables htables =>
      rw [Entries.get?_insert]
      split_ifs with hname
      · rw [hname, htables]; rfl
      · rfl
    · rfl

theorem alike_ensureTable (s : Server) (database table name : String) :
    Alike name s (s.ensureTable database table) := by
  unfold Server.ensureTable
  split
  · exact ⟨rfl, rfl⟩
  · exact alike_putTable s database table _ name

/-- What has been put into a database that exists is there. -/
theorem table?_putTable {s : Server} {database table : String}
    (h : (s.databases.get? database).isSome = true) (rows : RowTable) :
    (s.putTable database table rows).table? database table = some rows := by
  obtain ⟨tables, htables⟩ := Option.isSome_iff_exists.1 h
  simp only [Server.putTable, Server.table?, Entries.modify, htables, Entries.get?_insert, if_true,
    Option.bind_some]

/-- Once it is made sure that a table exists, there is one. -/
theorem exists_table_ensureTable {s : Server} {database : String}
    (h : (s.databases.get? database).isSome = true) (table : String) :
    ∃ rows, (s.ensureTable database table).table? database table = some rows := by
  unfold Server.ensureTable
  split
  · next rows hrows => exact ⟨rows, hrows⟩
  · exact ⟨.empty, table?_putTable h _⟩

variable {h u : Host} {t : RowHandle} {conninfo table : String}

theorem isOpen_of_open (hopen : RowServer.open conninfo table h = (.ok t, u)) :
    IsOpen conninfo table t u := by
  unfold RowServer.open at hopen
  split at hopen
  · cases hopen
  · cases hopen
  · next c hname hc =>
    split at hopen
    · cases hopen
    · next server database hconnect =>
      cases hopen
      obtain ⟨hserver, hdatabase⟩ := connect_eq_ok hconnect
      refine ⟨hname, rfl, c, _, hc, rfl, ?_, exists_table_ensureTable hdatabase table⟩
      rw [connect_of_alike fun _ => alike_ensureTable server database table _, ← hserver, hconnect]
      rfl

theorem open_of_isOpen (hisOpen : IsOpen conninfo table t h) :
    RowServer.open conninfo table h = (.ok t, h) := by
  obtain ⟨c, server, hc, hserver, hconnect, rows, hrows⟩ := hisOpen.reach
  have hensure : server.ensureTable t.database table = server := by
    unfold Server.ensureTable
    rw [hrows]
  unfold RowServer.open
  simp only [hisOpen.name, hc, hserver, hconnect, hensure]
  obtain ⟨database, _⟩ := t
  cases hisOpen.handle
  rw [← hserver]

end RowServer

end TypedStore
