/-
  TypedStore — engines that are removed and opened again.

  An engine on files stores what one file refers to.  Removing takes that file
  away, if there is one, where the path leads somewhere for the file system.
  Then the engine can be opened again, and is empty.

  * `EngineConfig.IsOpen.file`: what is open is what the file refers to, and
    `EngineConfig.IsOpen.reads` that it is read under every key it accepts;
  * `EngineConfig.node?_of_wipe`: a file that is reached is removed;
  * `EngineConfig.view_of_missing`: what is opened where there was no file is
    empty;
  * `EngineConfig.emptied_of_wipe`: so an engine that was removed is opened again
    without any entry.
-/
import TypedStore.Proofs.Wiping

namespace TypedStore

variable {c : EngineConfig} {handle : Handle} {h u v : Host}

/-- Opening an engine while nothing is open leaves all that is stored. -/
theorem Host.IsFresh.extends_open (hh : h.IsFresh) (c : EngineConfig) :
    h.Extends c.keyspaceFile? (c.open [] h).2 :=
  EngineConfig.extends_open hh (fun _ ht => absurd ht List.not_mem_nil) c

namespace EngineConfig

/-! ## The file of an engine -/

/-- An engine that keeps its data in files, of a path that names a file as it
    is. -/
def IsOnFiles : EngineConfig → Prop
  | lmdb _ | fjall _ => True
  | sqlite path _ _ => TablePath.IsPlain path
  | memory _ | mdbx _ | rocksdb _ | postgres .. => False

theorem IsOnFiles.isDurable (hc : c.IsOnFiles) : c.IsDurable := by
  cases c with
  | lmdb | fjall => trivial
  | sqlite => exact hc
  | memory | mdbx | rocksdb | postgres => exact hc.elim

/-- Where the file is that refers to what an engine stores, by the names in its
    path. -/
def file? : EngineConfig → Option Location
  | lmdb d => some (FileTree.normalise d.path ++ [Environment.dataFile])
  | fjall d => some (FileTree.normalise d.path ++ [Journal.marker])
  | sqlite path _ _ => some (FileTree.normalise path)
  | memory _ | mdbx _ | rocksdb _ | postgres .. => none

/-- An engine that is open has open what its file refers to. -/
theorem IsOpen.file (hopen : c.IsOpen handle h) (hc : c.IsOnFiles) : ∃ loc content n,
    c.file? = some loc ∧ h.files.node? loc = some (.file content) ∧ content.number? = some n ∧
      handle.number? = some n := by
  cases c with
  | memory | mdbx | rocksdb | postgres => exact hc.elim
  | lmdb d =>
    cases handle with
    | map | store | table | journal | rows => exact hopen.elim
    | environment e =>
      have hopen : Environment.IsOpen d.path d.options e h := hopen
      refine ⟨_, _, e.number, ?_, hopen.data, rfl, rfl⟩
      rw [file?, FileTree.normalise_of_resolve hopen.resolve]
  | fjall d =>
    cases handle with
    | map | store | table | environment | rows => exact hopen.elim
    | journal j =>
      have hopen : Journal.IsOpen d.path j h := hopen
      refine ⟨_, _, j.number, ?_, hopen.marker, rfl, rfl⟩
      rw [file?, FileTree.normalise_of_resolve hopen.resolve]
  | sqlite path table create =>
    cases handle with
    | map | store | journal | environment | rows => exact hopen.elim
    | table t =>
      have hopen : TableFile.IsOpen path table t h := hopen
      exact ⟨_, _, t.number, rfl, hopen.serves.node rfl, rfl, rfl⟩

/-- What is opened where there was no file is empty. -/
theorem view_of_missing (hh : h.IsFresh) (hc : c.IsOnFiles)
    (hext : h.Extends c.keyspaceFile? u) (hopen : c.IsOpen handle u)
    (hnone : ∀ loc, c.file? = some loc → h.files.node? loc = none) (key : String) :
    handle.view u key = none := by
  obtain ⟨loc, content, n, hloc, hn, hcontent, hnumber⟩ := hopen.file hc
  have hnew : h.next ≤ n := by
    rcases hext.made hn hcontent with hold | ⟨hle, -⟩
    · rw [hnone loc hloc] at hold
      cases hold
    · exact hle
  have hkeyspace : u.keyspace n = .empty := by
    rw [hext.keyspace, Host.keyspace, hh.keyspaces hnew]
    rfl
  cases handle with
  | map | store | rows => cases hnumber
  | table t =>
    cases hnumber
    rw [Handle.view, TableHandle.rows, hext.cells, hh.cells_eq_empty hnew]
    rfl
  | journal j =>
    cases hnumber
    rw [Handle.view, hkeyspace]
    rfl
  | environment e =>
    cases hnumber
    rw [Handle.view, hkeyspace]
    rfl

/-! ## Keys -/

/-- The keys that an engine on files accepts. -/
def Accepts (key : String) : EngineConfig → Prop
  | lmdb _ => key ≠ "" ∧ key.utf8ByteSize ≤ Environment.greatestKey
  | fjall _ => Journal.isKey key = true
  | sqlite .. => True
  | memory _ | mdbx _ | rocksdb _ | postgres .. => False

/-- An open engine on files keeps images, and reads what is under every key that
    it accepts. -/
theorem IsOpen.reads {key : String} (hopen : c.IsOpen handle h) (hkey : c.Accepts key) :
    ∃ store, handle.byteStore? = some store ∧
      ∀ u, store.get key u = .ok (handle.view u key) := by
  cases c with
  | memory | mdbx | rocksdb | postgres => exact hkey.elim
  | lmdb d =>
    cases handle with
    | map | store | table | journal | rows => exact hopen.elim
    | environment e => exact ⟨_, rfl, fun u => (e.get_eq key u).trans (if_neg hkey.1)⟩
  | fjall d =>
    cases handle with
    | map | store | table | environment | rows => exact hopen.elim
    | journal j => exact ⟨_, rfl, fun u => (j.get_eq key u).trans (if_pos hkey)⟩
  | sqlite path table create =>
    cases handle with
    | map | store | journal | environment | rows => exact hopen.elim
    | table t => exact ⟨_, rfl, fun _ => rfl⟩

/-! ## Removing -/

/-- The path of an engine leads somewhere as the file system takes it, and that
    of a directory engine to a directory. -/
def Leads (h : Host) : EngineConfig → Prop
  | lmdb d | fjall d => h.files.isDirectory d.path = true
  | sqlite path _ _ => ∃ loc, h.files.resolve path = .ok loc
  | memory _ | mdbx _ | rocksdb _ | postgres .. => False

/-- Removing an engine comes to its file, if there is one. -/
def IsReached (c : EngineConfig) (h : Host) : Prop :=
  (∀ loc, c.file? = some loc → h.files.node? loc = none) ∨ c.Leads h

/-- The path of an open engine in a directory leads there. -/
theorem IsOpen.leads (hopen : c.IsOpen handle h) (hc : (c.keyspaceFile?).isSome) : c.Leads h := by
  cases c with
  | memory | mdbx | rocksdb | sqlite | postgres => cases hc
  | lmdb d =>
    cases handle with
    | map | store | table | journal | rows => exact hopen.elim
    | environment e =>
      have hopen : Environment.IsOpen d.path d.options e h := hopen
      exact FileTree.isDirectory_iff.2 ⟨_, hopen.resolve, hopen.directory⟩
  | fjall d =>
    cases handle with
    | map | store | table | environment | rows => exact hopen.elim
    | journal j =>
      have hopen : Journal.IsOpen d.path j h := hopen
      exact FileTree.isDirectory_iff.2 ⟨_, hopen.resolve, hopen.directory⟩

end EngineConfig

namespace Environment

variable {path : String}

theorem isName_dataFile : FileTree.IsName dataFile := by decide

theorem isName_lockFile : FileTree.IsName lockFile := by decide

/-- Removing an environment succeeds if its files can be removed, and then the
    directory, if that is empty. -/
theorem wipe_eq_ok_iff : wipe path h = (.ok (), v) ↔
    ∃ files left, FileTree.removeFiles (filesOf path) h.files = (none, files) ∧
      files.removeIfEmpty path = .ok left ∧ v = { h with files := left } := by
  unfold wipe
  split
  · next e files hfiles => simp [hfiles]
  · next files hfiles =>
    split
    · next left hleft => simp [hfiles, hleft, eq_comm]
    · next e hleft => simp [hfiles, hleft]

/-- The files of an environment that is removed are gone from its directory. -/
theorem node?_of_wipe (hwipe : wipe path h = (.ok (), v)) {dir : Location}
    (hdir : h.files.base path = .ok dir) (hn : h.files.node? dir = some .directory) :
    v.files.node? (dir ++ [dataFile]) = none ∧ v.files.node? (dir ++ [lockFile]) = none := by
  obtain ⟨files, left, hfiles, hleft, rfl⟩ := wipe_eq_ok_iff.1 hwipe
  have hgone {file : String} (hname : FileTree.IsName file)
      (hfile : FileTree.join path file ∈ filesOf path) : left.node? (dir ++ [file]) = none := by
    have hcheck := (FileTree.isMissing_of_removeFiles hfiles _ hfile).checkPath
    have hloc := FileTree.resolve_join_of_base hname hdir hn hcheck
    exact (FileTree.drops_removeIfEmpty hleft).node?_eq_none
      (FileTree.node?_of_removeFiles hfiles hfile hloc)
  exact ⟨hgone isName_dataFile List.mem_cons_self,
    hgone isName_lockFile (List.mem_cons_of_mem _ List.mem_cons_self)⟩

end Environment

namespace Journal

variable {path : String}

/-- Removing a journaling database succeeds if its directory can be removed. -/
theorem wipe_eq_ok_iff : wipe path h = (.ok (), v) ↔
    ∃ files, h.files.removeAll path = (none, files) ∧ v = { h with files } := by
  unfold wipe
  split <;> next hfiles => simp [hfiles, eq_comm]

/-- The marker of a journaling database that is removed is gone. -/
theorem node?_of_wipe (hwipe : wipe path h = (.ok (), v)) {dir : Location}
    (hdir : h.files.resolve path = .ok dir) (hn : h.files.node? dir = some .directory) :
    v.files.node? (dir ++ [marker]) = none := by
  obtain ⟨files, hremove, rfl⟩ := wipe_eq_ok_iff.1 hwipe
  have hgone := FileTree.node?_of_removeAll hdir hn (List.prefix_append dir [marker])
  rw [hremove] at hgone
  refine hgone (by simp) fun hp => ?_
  have hmem : marker ∈ FileTree.working := hp.subset (List.mem_append_right _ List.mem_cons_self)
  exact absurd hmem (by decide)

end Journal

namespace EngineConfig

theorem drops_of_wipe (hwipe : c.wipe h = (.ok (), v)) : h.files.Drops v.files := by
  obtain ⟨files, server, hdrops, heq⟩ := c.exists_of_wipe h
  rw [hwipe] at heq
  have hv : v = { h with files, server } := heq
  rwa [hv]

/-- An engine that is reached is removed with its file. -/
theorem node?_of_wipe (hwipe : c.wipe h = (.ok (), v)) (hreached : c.IsReached h) {loc : Location}
    (hloc : c.file? = some loc) : v.files.node? loc = none := by
  rcases hreached with hnone | hleads
  · exact (drops_of_wipe hwipe).node?_eq_none (hnone loc hloc)
  cases c with
  | memory | mdbx | rocksdb | postgres => cases hloc
  | lmdb d =>
    cases hloc
    obtain ⟨dir, hdir, hn⟩ := FileTree.isDirectory_iff.1 hleads
    rw [FileTree.normalise_of_resolve hdir]
    exact (Environment.node?_of_wipe hwipe (FileTree.base_of_resolve hdir) hn).1
  | fjall d =>
    cases hloc
    obtain ⟨dir, hdir, hn⟩ := FileTree.isDirectory_iff.1 hleads
    rw [FileTree.normalise_of_resolve hdir]
    exact Journal.node?_of_wipe hwipe hdir hn
  | sqlite path table create =>
    cases hloc
    obtain ⟨loc, hresolve⟩ := hleads
    obtain ⟨files, hremove, rfl⟩ := TableFile.wipe_eq_ok_iff.1 hwipe
    rw [FileTree.normalise_of_resolve hresolve]
    exact FileTree.node?_of_removeFiles hremove List.mem_cons_self hresolve

end EngineConfig

/-! ## Opening again -/

/-- An environment is made where there is no data file, of a size that a new one
    can have. -/
theorem Environment.isOk_openAt {loc : Location} {o : StoreOptions}
    (hlock : h.files.node? (loc ++ [lockFile]) ≠ some .directory)
    (hdata : h.files.node? (loc ++ [dataFile]) = none) (hspace : o.effectiveMapSize < addressSpace)
    (hnew : o.effectiveMapSize = 0 ∨ basePages < o.effectiveMapSize / pageSize) :
    (openAt loc o h).1.isOk = true := by
  have hopenNew (t : Host) : (openNew loc o.effectiveMapSize t).1.isOk = true := by
    have hsize : ¬ (o.effectiveMapSize ≠ 0 ∧ o.effectiveMapSize / pageSize ≤ basePages) := by omega
    have hunset : unsetSize < addressSpace := by decide
    simp only [openNew, if_neg hsize, openNumber]
    rw [if_neg (by split_ifs <;> omega)]
    rfl
  have hmade : (h.putNode (loc ++ [lockFile]) (.file (.bytes ByteArray.empty))).files.node?
      (loc ++ [dataFile]) = none := by
    refine (FileTree.node?_put hlock _ _).trans ?_
    rw [if_neg (by simp [lockFile, dataFile]), hdata]
  unfold openAt
  split
  · next hdirectory => exact absurd hdirectory hlock
  · dsimp only
    split_ifs
    · rw [hdata]
      exact hopenNew h
    · rw [hmade]
      exact hopenNew _

/-- What was missing when a directory was made is still missing, unless there
    had been a directory before. -/
theorem FileTree.node?_of_made {t files made : FileTree} {loc : Location} (hdrops : t.Drops made)
    (hadds : files.Adds made) (hnone : files.node? loc = none)
    (hfile : t.node? loc ≠ some .directory) : made.node? loc = none := by
  rcases hadds loc with hsame | ⟨-, hdirectory⟩
  · rw [hsame, hnone]
  · exact absurd (hdrops loc _ hdirectory) hfile

/-- What opening an environment makes sure of first. -/
theorem Environment.directory_of_open (hh : h.IsFresh) {e : EnvironmentHandle} {path : String}
    {o : StoreOptions} {create : Bool} (hopen : Environment.open [] path o create h = (.ok e, u)) :
    ∃ files, h.files.Adds files ∧ files.isDirectory path = true ∧
      files.KeepsDirectories u.files := by
  unfold Environment.open at hopen
  split at hopen
  · cases hopen
  · next files hfiles =>
    have hadds := FileTree.adds_of_ensureDirectory hfiles
    have hext : h.Extends none { h with files } := hh.extends_files hadds
    dsimp only at hopen
    split at hopen
    · cases hopen
    · next loc hloc =>
      have hdirectory := FileTree.isDirectory_of_ensureDirectory hfiles hloc
      refine ⟨files, hadds, FileTree.isDirectory_iff.2 ⟨loc, hloc, hdirectory⟩, ?_⟩
      split_ifs at hopen
      · cases hopen
      · split at hopen
        · cases hopen
        · have hat := extends_openAt hext.fresh loc o
          rw [hopen] at hat
          exact hat.directories

/-- What opening a journaling database makes sure of first. -/
theorem Journal.directory_of_open {j : JournalHandle} {path : String} {create : Bool}
    (hopen : Journal.open [] path create h = (.ok j, u)) :
    ∃ files, h.files.Adds files ∧ files.isDirectory path = true ∧
      files.KeepsDirectories u.files := by
  unfold Journal.open at hopen
  split at hopen
  · cases hopen
  · next files hfiles =>
    split at hopen
    · cases hopen
    · next loc hloc =>
      have hdirectory := FileTree.isDirectory_of_ensureDirectory hfiles hloc
      refine ⟨files, FileTree.adds_of_ensureDirectory hfiles,
        FileTree.isDirectory_iff.2 ⟨loc, hloc, hdirectory⟩, ?_⟩
      unfold openAt at hopen
      split at hopen
      · cases hopen
        exact fun _ => id
      · cases hopen
      · next hnone =>
        cases hopen
        refine FileTree.keepsDirectories_put ?_ _
        intro hn
        have hnone : files.node? (loc ++ [marker]) = none := hnone
        rw [hn] at hnone
        cases hnone

section
variable {t : FileTree} (hdrops : t.Drops v.files) {path : String}
  (hpath : t.isDirectory path = true)
include hdrops hpath

theorem Environment.isOk_open_of_drops {o : StoreOptions}
    (hlock : t.node? (FileTree.normalise path ++ [lockFile]) ≠ some .directory)
    (hdata : t.node? (FileTree.normalise path ++ [dataFile]) ≠ some .directory)
    (hnone : v.files.node? (FileTree.normalise path ++ [dataFile]) = none)
    (hoptions : checkOptions o = .ok ()) (hspace : o.effectiveMapSize < addressSpace)
    (hnew : o.effectiveMapSize = 0 ∨ basePages < o.effectiveMapSize / pageSize) :
    (Environment.open [] path o true v).1.isOk = true := by
  obtain ⟨files, hfiles, hmade, hresolve⟩ := FileTree.ensureDirectory_of_drops hdrops hpath
  have hadds := FileTree.adds_of_ensureDirectory hfiles
  unfold Environment.open
  simp only [hfiles, hresolve, List.any_nil, Bool.false_eq_true, if_false, hoptions]
  refine isOk_openAt (fun hn => hlock (hmade _ _ hn)) ?_ hspace hnew
  exact FileTree.node?_of_made hmade hadds hnone hdata

theorem Journal.isOk_open_of_drops
    (hmarker : t.node? (FileTree.normalise path ++ [marker]) ≠ some .directory)
    (hnone : v.files.node? (FileTree.normalise path ++ [marker]) = none) :
    (Journal.open [] path true v).1.isOk = true := by
  obtain ⟨files, hfiles, hmade, hresolve⟩ := FileTree.ensureDirectory_of_drops hdrops hpath
  have hadds := FileTree.adds_of_ensureDirectory hfiles
  have hnode := FileTree.node?_of_made hmade hadds hnone hmarker
  unfold Journal.open
  simp only [hfiles, hresolve, openAt, hnode]
  rfl

end

theorem TableFile.isOk_open_of_wipe {path table : String} {t : TableHandle}
    (hopen : TableFile.open [] path table true h = (.ok t, u)) (hisOpen : IsOpen path table t u)
    (hwipe : wipe path h = (.ok (), v)) (hnone : v.files.node? (FileTree.normalise path) = none) :
    (TableFile.open [] path table true v).1.isOk = true := by
  obtain ⟨-, target, htarget, hopened⟩ := open_eq_ok_iff.1 hopen
  rw [hisOpen.target true] at htarget
  cases htarget
  have hplaced : IsPlaced h.files (.file path true true) := by
    obtain ⟨-, loc, _, _, hlocate, -⟩ := openFile_eq_ok hopened
    show locate path h.files = some (FileTree.normalise path)
    rw [hlocate, locate_eq_some hlocate]
  obtain ⟨files, hremove, rfl⟩ := wipe_eq_ok_iff.1 hwipe
  have hplaced' := isPlaced_of_removeFiles hremove hplaced
  obtain ⟨x, w, hagain⟩ : ∃ x w,
      openTarget [] path table (.file path true true) { h with files } = (.ok x, w) :=
    exists_openTarget hnone rfl hisOpen.serves.free hplaced'
  have htable : TableFile.open [] path table true { h with files } = (.ok x, w) :=
    open_eq_ok_iff.2 ⟨hisOpen.name, _, hisOpen.target true, hagain⟩
  rw [htable]
  rfl

namespace EngineConfig

/-- A new engine can be made by the settings: what is missing may be made, and
    the size is one that a new environment can have. -/
def Makes : EngineConfig → Prop
  | lmdb d => d.createIfMissing = true ∧ (d.options.effectiveMapSize = 0 ∨
    Environment.basePages < d.options.effectiveMapSize / Environment.pageSize)
  | fjall d => d.createIfMissing = true
  | sqlite _ _ create => create = true
  | memory _ | mdbx _ | rocksdb _ | postgres .. => False

/-- An engine that could be opened, and was removed, can be opened again. -/
theorem isOk_open_of_wipe (hh : h.IsFresh) (hopen : c.open [] h = (.ok handle, u))
    (hisOpen : c.IsOpen handle u) (hc : c.IsOnFiles) (hmakes : c.Makes)
    (hwipe : c.wipe h = (.ok (), v))
    (hnone : ∀ loc, c.file? = some loc → v.files.node? loc = none) :
    (c.open [] v).1.isOk = true := by
  have hdrops := drops_of_wipe hwipe
  -- what is a file while the engine is open was no directory before
  have hfile {t : FileTree} {loc : Location} {content : Content}
      (hkeeps : t.KeepsDirectories u.files) (hn : u.files.node? loc = some (.file content)) :
      t.node? loc ≠ some .directory := by
    intro hdirectory
    rw [hkeeps loc hdirectory] at hn
    cases hn
  cases c with
  | memory | mdbx | rocksdb | postgres => exact hc.elim
  | lmdb d =>
    obtain ⟨e, he, rfl⟩ := Except.pair_map_eq_ok_iff.1 hopen
    have hisOpen : Environment.IsOpen d.path d.options e u := hisOpen
    obtain ⟨hcreate, hsize⟩ : d.createIfMissing = true ∧ _ := hmakes
    obtain ⟨files, hadds, hpath, hkeeps⟩ := Environment.directory_of_open hh he
    obtain ⟨content, hlock⟩ := hisOpen.lock
    have hdata := hisOpen.data
    rw [← FileTree.normalise_of_resolve hisOpen.resolve] at hlock hdata
    have hok := Environment.isOk_open_of_drops (hdrops.of_adds hadds) hpath (hfile hkeeps hlock)
      (hfile hkeeps hdata) (hnone _ rfl) hisOpen.options hisOpen.size hsize
    show ((Environment.open [] d.path d.options d.createIfMissing v).1.map _).isOk = true
    rwa [hcreate, Except.isOk_map]
  | fjall d =>
    obtain ⟨j, hj, rfl⟩ := Except.pair_map_eq_ok_iff.1 hopen
    have hisOpen : Journal.IsOpen d.path j u := hisOpen
    have hcreate : d.createIfMissing = true := hmakes
    obtain ⟨files, hadds, hpath, hkeeps⟩ := Journal.directory_of_open hj
    have hmarker := hisOpen.marker
    rw [← FileTree.normalise_of_resolve hisOpen.resolve] at hmarker
    have hok := Journal.isOk_open_of_drops (hdrops.of_adds hadds) hpath (hfile hkeeps hmarker)
      (hnone _ rfl)
    show ((Journal.open [] d.path d.createIfMissing v).1.map _).isOk = true
    rwa [hcreate, Except.isOk_map]
  | sqlite path table create =>
    obtain ⟨t, ht, rfl⟩ := Except.pair_map_eq_ok_iff.1 hopen
    obtain rfl : create = true := hmakes
    have hok := TableFile.isOk_open_of_wipe ht hisOpen hwipe (hnone _ rfl)
    show ((TableFile.open [] path table true v).1.map _).isOk = true
    rwa [Except.isOk_map]

/-- **An engine on files that is removed is opened again without any entry.** -/
theorem emptied_of_wipe (hs : Session.Sound { host := h }) (hc : c.IsOnFiles) (hmakes : c.Makes)
    (hopen : c.open [] h = (.ok handle, u)) (hreached : c.IsReached h)
    (hwipe : c.wipe h = (.ok (), v)) : ∃ handle' w, c.open [] v = (.ok handle', w) ∧
      c.IsOpen handle' w ∧ ∀ key, handle'.view w key = none := by
  have hv : Session.Sound { host := v } := by
    have hnext := hs.next (i := ⟨_, .wipe c⟩) trivial
    rwa [show Session.machine.next _ _ = { host := (c.wipe h).2 } from rfl, hwipe] at hnext
  have hnone : ∀ loc, c.file? = some loc → v.files.node? loc = none :=
    fun loc hloc => node?_of_wipe hwipe hreached hloc
  obtain ⟨hisOpen, -⟩ := isOpen_of_open hs hc.isDurable hopen
  obtain ⟨handle', hhandle'⟩ :=
    Except.isOk_iff.1 (isOk_open_of_wipe hs.fresh hopen hisOpen hc hmakes hwipe hnone)
  have hopen' : c.open [] v = (.ok handle', (c.open [] v).2) := Prod.ext hhandle' rfl
  obtain ⟨hisOpen', -⟩ := isOpen_of_open hv hc.isDurable hopen'
  refine ⟨handle', _, hopen', hisOpen', fun key => ?_⟩
  exact view_of_missing hv.fresh hc (hv.fresh.extends_open c) hisOpen' hnone key

end EngineConfig

end TypedStore
