/-
  TypedStore — what removing an engine touches.

  * `EngineConfig.Touches`, `EngineConfig.databaseName?`: the places in the file
    tree, and the database of the server, that an engine stores its data in;
  * `EngineConfig.Confined`: a host that differs from another in nothing else,
    and has nothing that was not there;
  * `EngineConfig.Gone`: a host that an engine is gone from;
  * `EngineConfig.InTheWay`: why an engine cannot be removed;
  * `wiping_is_confined`: removing an engine is confined to what is its own,
    whether it fails or not, and can be repeated.
-/
import TypedStore.Proofs.Emptied
import TypedStore.Proofs.Statements

namespace TypedStore

/-! ## Entries that are missing -/

theorem Entries.erase_eq_self {κ β : Type} [DecidableEq κ] {m : Entries κ β} {key : κ}
    (h : m.get? key = none) : m.erase key = m := by
  obtain ⟨entries, hnodup⟩ := m
  have hkeep : entries.filter (fun e => decide (e.1 ≠ key)) = entries := by
    refine List.filter_eq_self.2 fun e he => decide_eq_true ?_
    rintro rfl
    have hmem : e.1 ∈ (⟨entries, hnodup⟩ : Entries κ β).keys := List.mem_map_of_mem he
    rw [Entries.mem_keys, h] at hmem
    cases hmem
  simp only [erase, filterKeys, hkeep]

/-! ## What belongs to an engine -/

/-- The tables of a database of the server. -/
def Host.database? (h : Host) (name : String) : Option (Entries String RowTable) :=
  h.server.bind (·.databases.get? name)

/-- A database can be removed: the connection string names it and leads to the
    server, and it is not the one that the server is administered from. -/
def RowServer.Removes (conninfo : String) (h : Host) (server : Server) (database : String) : Prop :=
  ∃ c name, Conninfo.ofText? conninfo = some c ∧ c.database = some database ∧
    connect c (some Server.maintenance) h.server = .ok (server, name) ∧
    isSendable database = true ∧ database ≠ Server.maintenance

namespace EngineConfig

/-- The paths that are removed with an engine. -/
def paths : EngineConfig → List String
  | lmdb d => Environment.filesOf d.path
  | sqlite path _ _ => TableFile.filesOf path
  | fjall d => [d.path]
  | memory _ | mdbx _ | rocksdb _ | postgres .. => []

/-- The database of the server that is removed with an engine: the one that the
    connection string names. -/
def databaseName? : EngineConfig → Option String
  | postgres conninfo _ => (Conninfo.ofText? conninfo).bind (·.database)
  | memory _ | lmdb _ | mdbx _ | rocksdb _ | fjall _ | sqlite .. => none

/-- The places that belong to an engine: a directory and two of its entries, the
    files of a database, or a directory with everything below it. -/
def Touches (t : FileTree) (loc : Location) : EngineConfig → Prop
  | lmdb d => ∃ dir, t.base d.path = .ok dir ∧
    (loc = dir ∨ loc = dir ++ [Environment.dataFile] ∨ loc = dir ++ [Environment.lockFile])
  | sqlite path _ _ => ∃ file ∈ TableFile.filesOf path, t.resolve file = .ok loc
  | fjall d => ∃ dir, t.resolve d.path = .ok dir ∧ dir <+: loc
  | memory _ | mdbx _ | rocksdb _ | postgres .. => False

/-- A host that differs from `h` in nothing but what belongs to an engine, and
    has nothing that was not there.  The directory of an environment is gone
    only if it has no entries. -/
structure Confined (c : EngineConfig) (h u : Host) : Prop where
  rest : u = { h with files := u.files, server := u.server }
  drops : h.files.Drops u.files
  node? {loc} : ¬ c.Touches h.files loc → u.files.node? loc = h.files.node? loc
  empty {d dir} : c = .lmdb d → h.files.base d.path = .ok dir →
    h.files.node? dir = some .directory → u.files.node? dir = none →
      ∀ name, u.files.node? (dir ++ [name]) = none
  directory : u.server.map (·.directory) = h.server.map (·.directory)
  database? {name} : c.databaseName? ≠ some name → u.database? name = h.database? name
  nothing : c.paths = [] → c.databaseName? = none → u = h

/-- A host that an engine is gone from.  The directory of an environment with
    other entries still has them. -/
structure Gone (c : EngineConfig) (h u : Host) : Prop where
  missing : ∀ path ∈ c.paths, u.files.exists path = false
  database? {name} : c.databaseName? = some name → u.database? name = none
  others {d dir name} : c = .lmdb d → h.files.base d.path = .ok dir →
    h.files.node? dir = some .directory → name ≠ Environment.dataFile →
      name ≠ Environment.lockFile → h.files.node? (dir ++ [name]) ≠ none →
        u.files.node? dir = some .directory ∧
        u.files.node? (dir ++ [Environment.dataFile]) = none ∧
        u.files.node? (dir ++ [Environment.lockFile]) = none ∧
        ∀ other, other ≠ Environment.dataFile → other ≠ Environment.lockFile →
          u.files.node? (dir ++ [other]) = h.files.node? (dir ++ [other])

theorem Confined.refl (c : EngineConfig) (h : Host) : c.Confined h h where
  rest := rfl
  drops := FileTree.Drops.refl _
  node? _ := rfl
  empty _ _ hn hgone := by cases hn.symm.trans hgone
  directory := rfl
  database? _ := rfl
  nothing _ _ := rfl

/-- Why an engine cannot be removed.  That something is missing is no reason. -/
def InTheWay (h : Host) (e : StoreError) : EngineConfig → Prop
  | memory _ => False
  | mdbx d => e = .backendDisabled (mdbx d).engine
  | rocksdb d => e = .backendDisabled (rocksdb d).engine
  | lmdb d => ∃ f, e = .file f ∧
    ((∃ path ∈ Environment.filesOf d.path, h.files.Blocks path f) ∨
      h.files.BlocksDirectory d.path f)
  | fjall d => ∃ f, e = .file f ∧ h.files.BlocksDirectory d.path f
  | sqlite path _ _ => ∃ f, e = .file f ∧ ∃ file ∈ TableFile.filesOf path, h.files.Blocks file f
  | postgres conninfo _ => ∀ server database, ¬ RowServer.Removes conninfo h server database

/-- Something of the wrong kind stands where an engine has its files, or its
    directory. -/
def IsMistaken (t : FileTree) : EngineConfig → Prop
  | lmdb d => (∃ path ∈ Environment.filesOf d.path, t.isDirectory path = true) ∨
    ∃ loc content, t.resolve d.path = .ok loc ∧ t.node? loc = some (.file content)
  | sqlite path _ _ => ∃ file ∈ TableFile.filesOf path, t.isDirectory file = true
  | fjall d => ∃ loc content, t.resolve d.path = .ok loc ∧ t.node? loc = some (.file content)
  | memory _ | mdbx _ | rocksdb _ | postgres .. => False

end EngineConfig

variable {h u : Host} {e : StoreError} {path : String}

/-! ## Environments -/

namespace Environment

theorem inTheWay_of_wipe (he : (wipe path h).1 = .error e) : ∃ f, e = .file f ∧
    ((∃ file ∈ filesOf path, h.files.Blocks file f) ∨ h.files.BlocksDirectory path f) := by
  unfold wipe at he
  split at he
  · next f files hfiles =>
    cases he
    exact ⟨f, rfl, .inl (FileTree.blocks_of_removeFiles hfiles)⟩
  · next files hfiles =>
    split at he
    · cases he
    · next f hleft =>
      cases he
      have hdrops := FileTree.drops_removeFiles (filesOf path) h.files
      rw [hfiles] at hdrops
      exact ⟨f, rfl, .inr ((FileTree.blocksDirectory_of_removeIfEmpty hleft).of_drops hdrops)⟩

/-- What is left of the file tree: the files are removed, and perhaps the
    directory, if it has no entries. -/
theorem exists_of_wipe (path : String) (h : Host) : ∃ files left,
    files = (FileTree.removeFiles (filesOf path) h.files).2 ∧
    (wipe path h).2 = { h with files := left } ∧
    (left = files ∨ ∃ dir, h.files.base path = .ok dir ∧ files.isEmptyDirectory dir = true ∧
      ¬ dir <+: FileTree.working ∧ left = files.delete dir) := by
  unfold wipe
  split
  · next f files hfiles => exact ⟨files, files, by rw [hfiles], rfl, .inl rfl⟩
  · next files hfiles =>
    split
    · next left hleft =>
      refine ⟨files, left, by rw [hfiles], rfl, ?_⟩
      rcases FileTree.removeIfEmpty_eq_ok hleft with
        hsame | ⟨dir, hdir, -, hempty, hworking, hdelete⟩
      · exact .inl hsame
      · have hdrops := FileTree.drops_removeFiles (filesOf path) h.files
        rw [hfiles] at hdrops
        -- the path leads there before the files are removed
        have hback : h.files.resolve path = .ok dir :=
          FileTree.resolve_of_keepsDirectories (fun loc hn => hdrops loc _ hn) hdir
        exact .inr ⟨dir, FileTree.base_of_resolve hback, hempty, hworking, hdelete⟩
    · exact ⟨files, files, by rw [hfiles], rfl, .inl rfl⟩

/-- The files of an environment are the two entries of its directory. -/
theorem eq_of_mem_filesOf {file : String} (hfile : file ∈ filesOf path) {loc : Location}
    (hloc : h.files.resolve file = .ok loc) : ∃ dir, h.files.base path = .ok dir ∧
      (loc = dir ++ [dataFile] ∨ loc = dir ++ [lockFile]) := by
  simp only [filesOf, List.mem_cons, List.not_mem_nil, or_false] at hfile
  rcases hfile with rfl | rfl
  · obtain ⟨dir, hdir, -, heq⟩ := FileTree.base_of_resolve_join isName_dataFile hloc
    exact ⟨dir, hdir, .inl heq⟩
  · obtain ⟨dir, hdir, -, heq⟩ := FileTree.base_of_resolve_join isName_lockFile hloc
    exact ⟨dir, hdir, .inr heq⟩

theorem confined_wipe (d : DirectoryConfig) (h : Host) :
    (EngineConfig.lmdb d).Confined h (wipe d.path h).2 := by
  obtain ⟨files, left, hfiles, hwipe, hleft⟩ := exists_of_wipe d.path h
  have hdrops : h.files.Drops files := hfiles ▸ FileTree.drops_removeFiles _ _
  have hkeeps : h.files.KeepsDirectories files := hfiles ▸ FileTree.removeFiles_directory _ _
  rw [hwipe]
  refine ⟨rfl, ?_, fun {loc} hloc => ?_, ?_, rfl, fun _ => rfl, nofun⟩
  · rcases hleft with rfl | ⟨dir, -, -, -, rfl⟩
    · exact hdrops
    · exact hdrops.trans (files.drops_delete dir)
  · have hsame : files.node? loc = h.files.node? loc := by
      rw [hfiles]
      refine FileTree.node?_removeFiles_of_ne fun file hfile hresolve => hloc ?_
      obtain ⟨dir, hdir, heq⟩ := eq_of_mem_filesOf hfile hresolve
      exact ⟨dir, hdir, .inr heq⟩
    rcases hleft with rfl | ⟨dir, hdir, -, hworking, rfl⟩
    · exact hsame
    · have hne : loc ≠ dir := fun heq => hloc ⟨dir, hdir, .inl heq⟩
      show (files.delete dir).node? loc = _
      rw [FileTree.node?_delete_of_not_above hworking, if_neg hne, hsame]
  · rintro _ dir ⟨rfl⟩ hdir hn hgone name
    have hstill := hkeeps dir hn
    rcases hleft with rfl | ⟨dir', hdir', hempty, hworking, rfl⟩
    · cases hstill.symm.trans hgone
    · obtain rfl : dir = dir' := Except.ok.inj (hdir.symm.trans hdir')
      exact (files.drops_delete dir).node?_eq_none
        (FileTree.node?_concat_of_isEmptyDirectory hempty name)

/-- A directory that holds something else is kept, with what it holds. -/
theorem others_of_wipe {d : DirectoryConfig} (hwipe : wipe d.path h = (.ok (), u)) {dir : Location}
    (hdir : h.files.base d.path = .ok dir) (hn : h.files.node? dir = some .directory)
    {name : String} (hdata : name ≠ dataFile) (hlock : name ≠ lockFile)
    (hother : h.files.node? (dir ++ [name]) ≠ none) :
    u.files.node? dir = some .directory ∧
      u.files.node? (dir ++ [dataFile]) = none ∧ u.files.node? (dir ++ [lockFile]) = none ∧
      ∀ other, other ≠ dataFile → other ≠ lockFile →
        u.files.node? (dir ++ [other]) = h.files.node? (dir ++ [other]) := by
  have hconfined := confined_wipe d h
  rw [hwipe] at hconfined
  have hkept (other : String) (hdata : other ≠ dataFile) (hlock : other ≠ lockFile) :
      u.files.node? (dir ++ [other]) = h.files.node? (dir ++ [other]) := by
    refine hconfined.node? ?_
    rintro ⟨dir', hdir', heq⟩
    obtain rfl : dir = dir' := Except.ok.inj (hdir.symm.trans hdir')
    simp [hdata, hlock] at heq
  have hdirectory : u.files.node? dir = some .directory := by
    cases hu : u.files.node? dir with
    | none =>
      have hgone := hconfined.empty rfl hdir hn hu name
      rw [hkept name hdata hlock] at hgone
      exact absurd hgone hother
    | some n => exact (hconfined.drops dir n hu).symm.trans hn
  obtain ⟨hdata, hlock⟩ := node?_of_wipe hwipe hdir hn
  exact ⟨hdirectory, hdata, hlock, hkept⟩

theorem gone_of_wipe {d : DirectoryConfig} (hwipe : wipe d.path h = (.ok (), u)) :
    (EngineConfig.lmdb d).Gone h u := by
  refine ⟨?_, nofun, fun hd hdir hn hdata hlock hother => ?_⟩
  · obtain ⟨files, left, hfiles, hleft, rfl⟩ := wipe_eq_ok_iff.1 hwipe
    have hdrops := FileTree.drops_removeIfEmpty hleft
    exact fun file hfile =>
      ((FileTree.isMissing_of_removeFiles hfiles file hfile).of_drops hdrops).exists_eq_false
  · cases hd
    exact others_of_wipe hwipe hdir hn hdata hlock hother

theorem wipe_again (hwipe : wipe path h = (.ok (), u)) : wipe path u = (.ok (), u) := by
  obtain ⟨files, left, hfiles, hleft, rfl⟩ := wipe_eq_ok_iff.1 hwipe
  have hdrops := FileTree.drops_removeIfEmpty hleft
  refine wipe_eq_ok_iff.2 ⟨left, left, ?_, FileTree.removeIfEmpty_again hleft, rfl⟩
  exact FileTree.removeFiles_of_isMissing fun file hfile =>
    (FileTree.isMissing_of_removeFiles hfiles file hfile).of_drops hdrops

theorem error_of_isMistaken {d : DirectoryConfig}
    (h' : (EngineConfig.lmdb d).IsMistaken h.files) : ∃ e, (wipe d.path h).1 = .error e := by
  cases hresult : (wipe d.path h).1 with
  | error e => exact ⟨e, rfl⟩
  | ok =>
    exfalso
    obtain ⟨files, left, hfiles, -, -⟩ :=
      wipe_eq_ok_iff.1 (show wipe d.path h = (.ok (), (wipe d.path h).2) from Prod.ext hresult rfl)
    rcases h' with ⟨file, hfile, hdirectory⟩ | ⟨loc, content, hloc, hn⟩
    · rw [FileTree.not_isDirectory_of_removeFiles hfiles hfile] at hdirectory
      cases hdirectory
    · obtain ⟨e, hblocks⟩ := FileTree.exists_blocks_of_file isName_dataFile hloc hn
      have hremove := FileTree.removeFiles_of_blocks hblocks [FileTree.join d.path lockFile]
      cases hremove.symm.trans hfiles

end Environment

/-! ## Tables, journals and databases -/

namespace TableFile

variable {table : String} {create : Bool}

theorem wipe_snd (path : String) (h : Host) : (wipe path h).2 =
    { h with files := (FileTree.removeFiles (filesOf path) h.files).2 } := by
  unfold wipe
  split <;> next hfiles => rw [hfiles]

theorem confined_wipe (path table : String) (create : Bool) (h : Host) :
    (EngineConfig.sqlite path table create).Confined h (wipe path h).2 := by
  rw [wipe_snd]
  refine ⟨rfl, FileTree.drops_removeFiles _ _, fun {loc} hloc => ?_, nofun, rfl, fun _ => rfl,
    nofun⟩
  exact FileTree.node?_removeFiles_of_ne fun file hfile hresolve => hloc ⟨file, hfile, hresolve⟩

theorem gone_of_wipe (hwipe : wipe path h = (.ok (), u)) :
    (EngineConfig.sqlite path table create).Gone h u := by
  obtain ⟨files, hfiles, rfl⟩ := wipe_eq_ok_iff.1 hwipe
  exact ⟨fun file hfile => (FileTree.isMissing_of_removeFiles hfiles file hfile).exists_eq_false,
    nofun, nofun⟩

theorem wipe_again (hwipe : wipe path h = (.ok (), u)) : wipe path u = (.ok (), u) := by
  obtain ⟨files, hfiles, rfl⟩ := wipe_eq_ok_iff.1 hwipe
  exact wipe_eq_ok_iff.2
    ⟨files, FileTree.removeFiles_of_isMissing (FileTree.isMissing_of_removeFiles hfiles), rfl⟩

theorem inTheWay_of_wipe (he : (wipe path h).1 = .error e) :
    ∃ f, e = .file f ∧ ∃ file ∈ filesOf path, h.files.Blocks file f := by
  unfold wipe at he
  split at he
  · cases he
  · next f files hfiles =>
    cases he
    exact ⟨f, rfl, FileTree.blocks_of_removeFiles hfiles⟩

end TableFile

namespace Journal

theorem wipe_eq (path : String) (h : Host) : wipe path h =
    ((h.files.removeAll path).1.elim (.ok ()) fun e => .error (.file e),
      { h with files := (h.files.removeAll path).2 }) := by
  unfold wipe
  split <;> next hfiles => rw [hfiles]; rfl

theorem confined_wipe (d : DirectoryConfig) (h : Host) :
    (EngineConfig.fjall d).Confined h (wipe d.path h).2 := by
  rw [wipe_eq]
  refine ⟨rfl, FileTree.drops_removeAll _ _, fun {loc} hloc => ?_, nofun, rfl, fun _ => rfl, nofun⟩
  exact FileTree.node?_removeAll_of_not_below fun dir hdir hbelow => hloc ⟨dir, hdir, hbelow⟩

theorem gone_of_wipe {d : DirectoryConfig} (hwipe : wipe d.path h = (.ok (), u)) :
    (EngineConfig.fjall d).Gone h u := by
  obtain ⟨files, hfiles, rfl⟩ := wipe_eq_ok_iff.1 hwipe
  exact ⟨List.forall_mem_singleton.2 (FileTree.exists_of_removeAll hfiles), nofun, nofun⟩

theorem wipe_again (hwipe : wipe path h = (.ok (), u)) : wipe path u = (.ok (), u) := by
  obtain ⟨files, hfiles, rfl⟩ := wipe_eq_ok_iff.1 hwipe
  exact wipe_eq_ok_iff.2
    ⟨files, FileTree.removeAll_of_not_exists (FileTree.exists_of_removeAll hfiles), rfl⟩

theorem inTheWay_of_wipe (he : (wipe path h).1 = .error e) :
    ∃ f, e = .file f ∧ h.files.BlocksDirectory path f := by
  unfold wipe at he
  split at he
  · cases he
  · next f files hfiles =>
    cases he
    exact ⟨f, rfl, FileTree.blocksDirectory_of_removeAll hfiles⟩

/-- What is a file is not removed as a directory. -/
theorem error_of_file {loc : Location} {content : Content} (hloc : h.files.resolve path = .ok loc)
    (hn : h.files.node? loc = some (.file content)) : ∃ e, (wipe path h).1 = .error e := by
  have hremove : h.files.removeAll path = (some .notDirectory, h.files) := by
    unfold FileTree.removeAll
    simp only [hloc, hn]
  exact ⟨.file .notDirectory, by simp only [wipe, hremove]⟩

end Journal

namespace RowServer

variable {conninfo table : String}

/-- Removing a database drops it from the server, or changes nothing. -/
theorem wipe_cases (conninfo : String) (h : Host) :
    ((∃ e, wipe conninfo h = (.error e, h)) ∧
      ∀ server database, ¬ Removes conninfo h server database) ∨
    ∃ server database, Removes conninfo h server database ∧ h.server = some server ∧
      wipe conninfo h = (.ok (), { h with server := some (server.dropDatabase database) }) := by
  unfold wipe Removes
  split
  · next hc => exact .inl ⟨⟨_, rfl⟩, by simp [hc]⟩
  · next c hc =>
    split
    · next hdatabase => exact .inl ⟨⟨_, rfl⟩, by simp [hc, hdatabase]⟩
    · next database hdatabase =>
      split
      · next f hconnect => exact .inl ⟨⟨_, rfl⟩, by simp [hc, hdatabase, hconnect]⟩
      · next server name hconnect =>
        simp only [drop_dropDatabase]
        split_ifs with hsend hname
        · rw [Bool.not_eq_true'] at hsend
          exact .inl ⟨⟨_, rfl⟩, by simp [hc, hdatabase, hsend]⟩
        · exact .inl ⟨⟨_, rfl⟩, by simp [hc, hdatabase, hname]⟩
        · have hsendable : isSendable database = true := by simpa using hsend
          exact .inr ⟨server, database, ⟨c, name, hc, hdatabase, hconnect, hsendable, hname⟩,
            (connect_eq_ok hconnect).1, rfl⟩

theorem databaseName?_of_removes {server : Server} {database : String}
    (h' : Removes conninfo h server database) :
    (EngineConfig.postgres conninfo table).databaseName? = some database := by
  obtain ⟨c, -, hc, hdatabase, -⟩ := h'
  simp only [EngineConfig.databaseName?, hc, Option.bind_some, hdatabase]

theorem confined_wipe (conninfo table : String) (h : Host) :
    (EngineConfig.postgres conninfo table).Confined h (wipe conninfo h).2 := by
  rcases wipe_cases conninfo h with ⟨⟨e, hwipe⟩, -⟩ | ⟨server, database, hremoves, hserver, hwipe⟩
  · rw [hwipe]
    exact .refl _ h
  · have hname : (EngineConfig.postgres conninfo table).databaseName? = some database :=
      databaseName?_of_removes hremoves
    rw [hwipe]
    refine ⟨rfl, FileTree.Drops.refl _, fun _ => rfl, nofun, by rw [hserver]; rfl,
      fun {name} hne => ?_, fun _ hnone => by cases hname.symm.trans hnone⟩
    rw [hname, ne_eq, Option.some.injEq] at hne
    simp only [Host.database?, hserver, Option.bind_some, Server.dropDatabase, Entries.get?_erase,
      if_neg (Ne.symm hne)]

/-- What removing a database leaves. -/
theorem exists_of_wipe (hwipe : wipe conninfo h = (.ok (), u)) :
    ∃ server database, Removes conninfo h server database ∧
      u = { h with server := some (server.dropDatabase database) } := by
  rcases wipe_cases conninfo h with ⟨⟨e, heq⟩, -⟩ | ⟨server, database, hremoves, -, heq⟩
  · cases heq.symm.trans hwipe
  · cases heq.symm.trans hwipe
    exact ⟨server, database, hremoves, rfl⟩

theorem gone_of_wipe (hwipe : wipe conninfo h = (.ok (), u)) :
    (EngineConfig.postgres conninfo table).Gone h u := by
  obtain ⟨server, database, hremoves, rfl⟩ := exists_of_wipe hwipe
  refine ⟨fun _ hpath => absurd hpath List.not_mem_nil, fun {name} hname => ?_, nofun⟩
  obtain rfl : database = name :=
    Option.some.inj ((databaseName?_of_removes hremoves).symm.trans hname)
  simp only [Host.database?, Option.bind_some, Server.dropDatabase, Entries.get?_erase, if_true]

/-- The server is reached without the database as with it. -/
theorem wipe_again (hwipe : wipe conninfo h = (.ok (), u)) : wipe conninfo u = (.ok (), u) := by
  obtain ⟨server, database, hremoves, rfl⟩ := exists_of_wipe hwipe
  obtain ⟨c, name, hc, hdatabase, hconnect, hsend, hne⟩ := hremoves
  have halike (user : String) : Alike ((some Server.maintenance).getD (c.target user)) server
      (server.dropDatabase database) :=
    ⟨rfl, by rw [Option.getD_some, Server.dropDatabase, Entries.get?_erase, if_neg (Ne.symm hne)]⟩
  have hagain : connect c (some Server.maintenance) (some (server.dropDatabase database)) =
      .ok (server.dropDatabase database, name) := by
    rw [connect_of_alike halike, ← (connect_eq_ok hconnect).1, hconnect]
    rfl
  have herase : (server.dropDatabase database).dropDatabase database =
      server.dropDatabase database := by
    have hgone : (server.databases.erase database).get? database = none := by
      rw [Entries.get?_erase, if_pos rfl]
    simp only [Server.dropDatabase, Entries.erase_eq_self hgone]
  unfold wipe
  simp only [hc, hdatabase, hagain, drop_dropDatabase, hsend, Bool.not_true, Bool.false_eq_true,
    if_false, if_neg hne, herase]

end RowServer

/-! ## Removing any engine -/

namespace EngineConfig

variable {c : EngineConfig}

theorem confined_wipe (c : EngineConfig) (h : Host) : c.Confined h (c.wipe h).2 := by
  cases c with
  | memory | mdbx | rocksdb => exact .refl _ h
  | lmdb d => exact Environment.confined_wipe d h
  | fjall d => exact Journal.confined_wipe d h
  | sqlite path table create => exact TableFile.confined_wipe path table create h
  | postgres conninfo table => exact RowServer.confined_wipe conninfo table h

theorem gone_of_wipe (hwipe : c.wipe h = (.ok (), u)) : c.Gone h u := by
  cases c with
  | memory => exact ⟨fun _ hpath => absurd hpath List.not_mem_nil, nofun, nofun⟩
  | mdbx | rocksdb => cases hwipe
  | lmdb d => exact Environment.gone_of_wipe hwipe
  | fjall d => exact Journal.gone_of_wipe hwipe
  | sqlite path table create => exact TableFile.gone_of_wipe hwipe
  | postgres conninfo table => exact RowServer.gone_of_wipe hwipe

/-- What has been removed can be removed again, which changes nothing. -/
theorem wipe_again (hwipe : c.wipe h = (.ok (), u)) : c.wipe u = (.ok (), u) := by
  cases c with
  | memory => rfl
  | mdbx | rocksdb => cases hwipe
  | lmdb d => exact Environment.wipe_again hwipe
  | fjall d => exact Journal.wipe_again hwipe
  | sqlite path table create => exact TableFile.wipe_again hwipe
  | postgres conninfo table => exact RowServer.wipe_again hwipe

theorem inTheWay_of_wipe (he : (c.wipe h).1 = .error e) : c.InTheWay h e := by
  cases c with
  | memory => cases he
  | mdbx | rocksdb => exact (Except.error.inj he).symm
  | lmdb d => exact Environment.inTheWay_of_wipe he
  | fjall d => exact Journal.inTheWay_of_wipe he
  | sqlite path table create => exact TableFile.inTheWay_of_wipe he
  | postgres conninfo table =>
    rcases RowServer.wipe_cases conninfo h with ⟨-, hnone⟩ | ⟨server, database, -, -, hwipe⟩
    · exact hnone
    · have he : (RowServer.wipe conninfo h).1 = .error e := he
      rw [hwipe] at he
      cases he

theorem error_of_isMistaken (hmistaken : c.IsMistaken h.files) :
    ∃ e, (c.wipe h).1 = .error e := by
  cases c with
  | memory | mdbx | rocksdb | postgres => exact hmistaken.elim
  | lmdb d => exact Environment.error_of_isMistaken hmistaken
  | fjall d =>
    obtain ⟨loc, content, hloc, hn⟩ := hmistaken
    exact Journal.error_of_file hloc hn
  | sqlite path table create =>
    obtain ⟨file, hfile, hdirectory⟩ := hmistaken
    cases hresult : (TableFile.wipe path h).1 with
    | error e => exact ⟨e, hresult⟩
    | ok =>
      obtain ⟨files, hfiles, -⟩ := TableFile.wipe_eq_ok_iff.1
        (show TableFile.wipe path h = (.ok (), (TableFile.wipe path h).2) from Prod.ext hresult rfl)
      rw [FileTree.not_isDirectory_of_removeFiles hfiles hfile] at hdirectory
      cases hdirectory

end EngineConfig

/-- **Removing an engine is confined to what is its own, and can be repeated.**

    Whether it succeeds or not, nothing else is touched: an environment has a
    directory, which goes only when it is empty, and two files in it; a database
    file has its own path and three with a suffix; a journaling database has all
    that is at its path and below; the relational server has the database that
    the connection string names; and engines that keep their data in the program
    or are not there have nothing.

    If it succeeds, none of the paths exists any more and there is no such
    database, a directory with other entries has just those, and removing the
    engine again succeeds and changes nothing.  If it fails, something is in the
    way, and that is never something missing: a directory or a file of the
    wrong kind makes it fail. -/
theorem wiping_is_confined (c : EngineConfig) (h : Host) :
    c.Confined h (c.wipe h).2 ∧
    ((c.wipe h).1 = .ok () →
      c.Gone h (c.wipe h).2 ∧ c.wipe (c.wipe h).2 = (.ok (), (c.wipe h).2)) ∧
    (∀ e, (c.wipe h).1 = .error e → c.InTheWay h e) ∧
    (c.IsMistaken h.files → ∃ e, (c.wipe h).1 = .error e) := by
  refine ⟨c.confined_wipe h, fun hok => ?_, fun e => EngineConfig.inTheWay_of_wipe,
    EngineConfig.error_of_isMistaken⟩
  have hwipe : c.wipe h = (.ok (), (c.wipe h).2) := Prod.ext hok rfl
  exact ⟨EngineConfig.gone_of_wipe hwipe, EngineConfig.wipe_again hwipe⟩

end TypedStore
