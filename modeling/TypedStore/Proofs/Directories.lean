/-
  TypedStore — directory engines that are removed and opened again.

  The path of a directory engine is walked twice: to remove it, and to open it
  again.  Opening makes directories first, so that a path may lead somewhere
  then that led nowhere before.

  * `FileTree.IsTree`: every node is in a directory; in such a tree a path without
    `..` leads nowhere new (`FileTree.IsTree.isDirectory_or`);
  * `EngineConfig.wipe_of_not_leads`: a path that leads to no directory is passed
    over;
  * `Session.Lacks`: a key is not found, or refused;
  * `wiping_empties_directories`: after an engine was removed that is reached,
    every key is missing in what is opened;
  * `wiping_misses_a_detour`: but a path that goes back from a missing name does
    not reach what it leads to later.
-/
import TypedStore.Proofs.Confined

namespace TypedStore

/-! ## Paths in trees -/

namespace FileTree

variable {t u : FileTree} {loc target : Location} {path : String}

/-- Every node is in a directory. -/
def IsTree (t : FileTree) : Prop :=
  ∀ loc name, t.node? (loc ++ [name]) ≠ none → t.node? loc = some .directory

namespace IsTree

variable (ht : t.IsTree)
include ht

/-- Above a directory there are directories only. -/
theorem node?_above (hp : loc <+: target) (hn : t.node? target = some .directory) :
    t.node? loc = some .directory := by
  obtain ⟨names, rfl⟩ := hp
  induction names using List.reverseRecOn with
  | nil => rwa [List.append_nil] at hn
  | append_singleton names name ih =>
    refine ih (ht _ name ?_)
    rw [List.append_assoc, hn]
    exact Option.some_ne_none _

/-- Names that lead to a directory lead there in every tree that has it, unless
    they go back. -/
theorem walk_of_walk {names : List String} (hback : ".." ∉ names)
    (hwalk : u.walk loc names = .ok target) (hn : t.node? target = some .directory) :
    loc <+: target ∧ t.walk loc names = .ok target := by
  induction names generalizing loc with
  | nil =>
    cases hwalk
    exact ⟨List.prefix_rfl, rfl⟩
  | cons name names ih =>
    obtain ⟨next, henter, hrest⟩ := walk_cons_eq_ok_iff.1 hwalk
    obtain ⟨hbelow, hwalk'⟩ := ih (fun h => hback (List.mem_cons_of_mem _ h)) hrest
    obtain ⟨-, hnext⟩ := enter_eq_ok_iff.1 henter
    have hloc : loc <+: next := by
      split_ifs at hnext with h₁ h₂
      · rw [hnext]
      · exact absurd (h₂ ▸ List.mem_cons_self) hback
      · rw [hnext.2]
        exact List.prefix_append loc [name]
    have hdirectory := ht.node?_above (hloc.trans hbelow) hn
    exact ⟨hloc.trans hbelow,
      walk_cons_eq_ok_iff.2 ⟨next, enter_eq_ok_iff.2 ⟨hdirectory, hnext⟩, hwalk'⟩⟩

/-- Where a path without `..` leads in the end, there is nothing yet, or it leads
    there already. -/
theorem isDirectory_or (hback : ".." ∉ (parts path).2) (hpath : u.resolve path = .ok loc)
    (name : String) : t.node? (loc ++ [name]) = none ∨ t.isDirectory path = true := by
  refine or_iff_not_imp_left.2 fun hn => ?_
  have hdirectory := ht loc name hn
  obtain ⟨hcheck, hne, hwalk⟩ := resolve_eq_ok_iff.1 hpath
  have hresolve : t.resolve path = .ok loc :=
    resolve_eq_ok_iff.2 ⟨hcheck, hne, (ht.walk_of_walk hback hwalk hdirectory).2⟩
  exact isDirectory_iff.2 ⟨loc, hresolve, hdirectory⟩

end IsTree

theorem isTree_empty : ({} : FileTree).IsTree := by
  intro loc name hn
  have hp : (loc ++ [name]) <+: working := by
    by_contra hp
    exact hn (if_neg (mt List.isPrefixOf_iff_prefix.1 hp))
  exact node?_of_prefix_working ((List.prefix_append loc [name]).trans hp)

/-- A tree stays one when something is put into a directory, in place of no
    directory. -/
theorem IsTree.put (ht : t.IsTree) (hn : t.node? loc = some .directory) {name : String}
    (hfree : t.node? (loc ++ [name]) ≠ some .directory) (n : Node) :
    (t.put (loc ++ [name]) n).IsTree := by
  have hkeeps := keepsDirectories_put hfree n
  intro dir other ho
  refine hkeeps dir ?_
  rw [node?_put hfree] at ho
  split_ifs at ho with heq
  · rw [(List.append_inj' heq rfl).1]
    exact hn
  · exact ht dir other ho

end FileTree

variable {h u : Host} {path : String}

/-! ## Paths that lead to no directory -/

theorem Environment.wipe_of_not_isDirectory (hwipe : wipe path h = (.ok (), u)) (hpath : path ≠ "")
    (hdirectory : h.files.isDirectory path = false) : u = h := by
  have hnot : ¬ h.files.isDirectory path = true := Bool.eq_false_iff.1 hdirectory
  obtain ⟨files, left, hfiles, hleft, rfl⟩ := wipe_eq_ok_iff.1 hwipe
  have hsame : files = h.files := by
    refine FileTree.removeFiles_eq_self hfiles fun file hfile loc content hloc => ?_
    -- a file of the environment would be in the directory
    have hin {name : String} (hname : FileTree.IsName name)
        (hloc : h.files.resolve (FileTree.join path name) = .ok loc) : False := by
      obtain ⟨dir, hdir, hn, -⟩ := FileTree.base_of_resolve_join hname hloc
      rw [FileTree.base, if_neg hpath] at hdir
      exact hnot (FileTree.isDirectory_iff.2 ⟨dir, hdir, hn⟩)
    simp only [filesOf, List.mem_cons, List.not_mem_nil, or_false] at hfile
    rcases hfile with rfl | rfl
    · exact (hin isName_dataFile hloc).elim
    · exact (hin isName_lockFile hloc).elim
  subst hsame
  rcases FileTree.removeIfEmpty_eq_ok hleft with rfl | ⟨loc, hloc, hn, -⟩
  · rfl
  · exact absurd (FileTree.isDirectory_iff.2 ⟨loc, hloc, hn⟩) hnot

theorem Journal.wipe_of_not_isDirectory (hwipe : wipe path h = (.ok (), u))
    (hdirectory : h.files.isDirectory path = false) : u = h := by
  obtain ⟨files, hfiles, rfl⟩ := wipe_eq_ok_iff.1 hwipe
  rcases h.files.removeAll_cases path with
    ⟨heq, -⟩ | ⟨_, _, -, -, heq⟩ | ⟨loc, hloc, hn, -⟩
  · cases heq.symm.trans hfiles
    rfl
  · cases heq.symm.trans hfiles
  · exact absurd (FileTree.isDirectory_iff.2 ⟨loc, hloc, hn⟩) (Bool.eq_false_iff.1 hdirectory)

/-! ## Directory engines -/

namespace EngineConfig

variable {engine : DirectoryConfig → EngineConfig} {d d' : DirectoryConfig} {c : EngineConfig}
  {handle : Handle} {key : String}

/-- The engines that have a directory of their own. -/
def IsInDirectory (engine : DirectoryConfig → EngineConfig) : Prop := engine = lmdb ∨ engine = fjall

namespace IsInDirectory

variable (hengine : IsInDirectory engine)
include hengine

theorem isOnFiles (d : DirectoryConfig) : (engine d).IsOnFiles := by
  rcases hengine with rfl | rfl <;> trivial

theorem leads_iff : (engine d).Leads h ↔ h.files.isDirectory d.path = true := by
  rcases hengine with rfl | rfl <;> rfl

/-- The file that refers to what is stored is an entry of the directory. -/
theorem exists_file? : ∃ name, ∀ d,
    (engine d).file? = some (FileTree.normalise d.path ++ [name]) := by
  rcases hengine with rfl | rfl
  · exact ⟨_, fun _ => rfl⟩
  · exact ⟨_, fun _ => rfl⟩

theorem file?_congr (hpath : d'.path = d.path) : (engine d').file? = (engine d).file? := by
  obtain ⟨name, hfile⟩ := hengine.exists_file?
  rw [hfile, hfile, hpath]

theorem leads_of_isOpen (hopen : (engine d).IsOpen handle h) : (engine d).Leads h := by
  refine hopen.leads ?_
  rcases hengine with rfl | rfl <;> rfl

/-- In a tree an engine is reached by a path that does not go back, if it leads
    anywhere when the engine is opened. -/
theorem isReached_of_isTree (ht : h.files.IsTree) (hback : ".." ∉ (FileTree.parts d.path).2)
    {loc : Location} (hpath : u.files.resolve d.path = .ok loc) : (engine d).IsReached h := by
  obtain ⟨name, hfile⟩ := hengine.exists_file?
  refine (ht.isDirectory_or hback hpath name).imp (fun hnone loc' hloc' => ?_) hengine.leads_iff.2
  rw [hfile, FileTree.normalise_of_resolve hpath] at hloc'
  cases hloc'
  exact hnone

/-- A path that leads to no directory is passed over. -/
theorem wipe_of_not_leads (hwipe : (engine d).wipe h = (.ok (), u)) (hpath : d.path ≠ "")
    (hleads : ¬ (engine d).Leads h) : u = h := by
  have hdirectory := Bool.eq_false_iff.2 (mt hengine.leads_iff.2 hleads)
  rcases hengine with rfl | rfl
  · exact Environment.wipe_of_not_isDirectory hwipe hpath hdirectory
  · exact Journal.wipe_of_not_isDirectory hwipe hdirectory

/-- Without leave to make it, a missing directory is an error, and nothing is
    made. -/
theorem open_of_missing {held : List Handle} (hdirectory : h.files.isDirectory d.path = false)
    (hcreate : d.createIfMissing = false) :
    (engine d).open held h = (.error (.file (.missingDirectory d.path)), h) := by
  have hensure : h.files.ensureDirectory d.path d.createIfMissing =
      .error (.missingDirectory d.path) := by
    simp only [FileTree.ensureDirectory, hdirectory, hcreate, Bool.false_eq_true, if_false]
  rcases hengine with rfl | rfl
  · simp only [EngineConfig.open, Environment.open, hensure]
    rfl
  · simp only [EngineConfig.open, Journal.open, hensure]
    rfl

/-- What is opened where a file refers to a keyspace has what is in that. -/
theorem view_of_file (hext : h.Extends (engine d).keyspaceFile? u)
    (hopen : (engine d).IsOpen handle u) {loc : Location} {n : Nat}
    (hloc : (engine d).file? = some loc)
    (hn : h.files.node? loc = some (.file (.keyspace n))) (key : String) :
    handle.view u key = (h.keyspace n).get? key := by
  obtain ⟨loc', content, m, hloc', hn', hcontent, hnumber⟩ := hopen.file (hengine.isOnFiles d)
  obtain rfl : loc' = loc := Option.some.inj (hloc'.symm.trans hloc)
  cases (hext.kept hn rfl).symm.trans hn'
  cases hcontent
  rw [← hext.keyspace n]
  rcases hengine with rfl | rfl
  · cases handle with
    | map | store | table | journal | rows => exact hopen.elim
    | environment e =>
      cases hnumber
      rfl
  · cases handle with
    | map | store | table | environment | rows => exact hopen.elim
    | journal j =>
      cases hnumber
      rfl

end IsInDirectory

/-- An open engine of this kind keeps images. -/
theorem IsOpen.exists_byteStore? (hopen : c.IsOpen handle h) (hc : c.IsOnFiles) :
    ∃ store, handle.byteStore? = some store := by
  obtain ⟨-, -, n, -, -, -, hnumber⟩ := hopen.file hc
  cases handle with
  | map | store | rows => cases hnumber
  | table | journal | environment => exact ⟨_, rfl⟩

/-- A key that nothing is under is not found, or refused by the engine. -/
theorem IsOpen.get_of_view (hopen : c.IsOpen handle h) (hc : c.IsOnFiles)
    (hview : handle.view u key = none) {α : Type} (type : NativeType α) :
    ∃ e, (Facade.ofBackend handle.backend).get key type u = .error e ∧
      (e = .keyNotFound key ∨ ¬ c.Accepts key ∧ e.class = .backend) := by
  obtain ⟨store, hstore⟩ := hopen.exists_byteStore? hc
  have hmap := Handle.isMap hstore
  rw [Handle.backend_of_byteStore? hstore]
  cases hget : store.get key u with
  | ok found =>
    have hnone : found = none := (hmap.get hget).trans hview
    rw [hnone] at hget
    exact ⟨_, Facade.get_of_fetch_error (ByteStore.fetch_of_absent hget), .inl rfl⟩
  | error e =>
    have hfetch : store.packed.fetch key type.kind u = .error e := ByteStore.fetch_of_get_error hget
    refine ⟨e, Facade.get_of_fetch_error hfetch, .inr ⟨fun hkey => ?_, hmap.get_error hget⟩⟩
    obtain ⟨store', hstore', hreads⟩ := hopen.reads hkey
    cases hstore.symm.trans hstore'
    cases hget.symm.trans (hreads u)

end EngineConfig

/-! ## Sessions -/

namespace Session

/-- A key is not found through a facade, or refused by the engine. -/
def Lacks (s : Session) (name : String) (c : EngineConfig) (key : String) : Prop :=
  ∀ {α : Type} (type : NativeType α), ∃ e,
    machine.act (.through name (.get key type)) s = (.error e, s) ∧
      (e = .keyNotFound key ∨ ¬ c.Accepts key ∧ e.class = .backend)

variable {s t u : Session} {c : EngineConfig} {handle : Handle} {name : String}

theorem Sound.wipe (hs : s.Sound) (hwipe : s.wipe c = (.ok (), t)) : t.Sound := by
  have ht := hs.next (i := ⟨_, .wipe c⟩) trivial
  rwa [show machine.next _ s = (s.wipe c).2 from rfl, hwipe] at ht

/-- An engine on files that is opened through a facade. -/
theorem Sound.isOpen_of_open (hs : s.Sound) (hc : c.IsOnFiles)
    (hopen : s.open name c = (.ok handle, u)) : u.handle? name = some handle ∧
      c.IsOpen handle u.host ∧ s.host.Extends c.keyspaceFile? u.host := by
  obtain ⟨h, hopened, rfl⟩ := open_eq_ok hopen
  have hext := EngineConfig.extends_open hs.fresh hs.number_lt_of_table? c
  rw [hopened] at hext
  exact ⟨by rw [handle?_hold, if_pos rfl], (EngineConfig.isOpen_of_open hs hc.isDurable hopened).1,
    hext⟩

theorem lacks_of_view (hname : s.handle? name = some handle) (hopen : c.IsOpen handle s.host)
    (hc : c.IsOnFiles) {key : String} (hview : handle.view s.host key = none) :
    s.Lacks name c key := by
  intro α type
  obtain ⟨e, hget, he⟩ := hopen.get_of_view hc hview type
  exact ⟨e, act_through_of_eq hname (Prod.ext hget rfl), he⟩

/-- A journaling database that is opened while nothing is open. -/
theorem exists_open_journal (hs : s.handles = []) {d : DirectoryConfig} {j : JournalHandle}
    {h : Host} (hopen : Journal.open [] d.path d.createIfMissing s.host = (.ok j, h))
    (name : String) : ∃ t, s.open name (.fjall d) = (.ok (.journal j), t) ∧
      t.handle? name = some (.journal j) ∧ t.host = h := by
  have hengine : (EngineConfig.fjall d).open s.handles s.host = (.ok (.journal j), h) := by
    rw [hs]
    exact Except.pair_map_eq_ok_iff.2 ⟨j, hopen, rfl⟩
  exact ⟨_, open_of_eq_ok hengine, by rw [handle?_hold, if_pos rfl], rfl⟩

end Session

/-! ## A database that was closed -/

/-- A session that has stored an entry in a journaling database and closed it. -/
def closedJournal : Session := Session.machine.after
  [⟨_, .open "db" (.fjall { path := "env" })⟩,
    ⟨_, .through "db" (.set "k" (.native .bool true))⟩, ⟨_, .close "db"⟩] {}

/-- Its files: the directory of the database, and the marker. -/
def closedFiles : FileTree :=
  (FileTree.put {} ["tmp", "work", "env"] .directory).put ["tmp", "work", "env", "version"]
    (.file (.keyspace 0))

theorem reachable_closedJournal : closedJournal.Reachable :=
  .next ⟨_, .close "db"⟩ (.next ⟨_, .through "db" (.set "k" (.native .bool true))⟩
    (.next ⟨_, .open "db" (.fjall { path := "env" })⟩ .start trivial) trivial) trivial

theorem files_closedJournal : closedJournal.host.files = closedFiles := by
  unfold closedJournal closedFiles
  cbv

theorem handles_closedJournal : closedJournal.handles = [] := by
  unfold closedJournal
  cbv

theorem image_closedJournal :
    (closedJournal.host.keyspace 0).get? "k" = Image.encode (.bool true) := by
  unfold closedJournal
  cbv

theorem isTree_closedFiles : closedFiles.IsTree := by
  have hworking : ({} : FileTree).node? FileTree.working = some .directory := by decide
  have hdirectory : (FileTree.put {} ["tmp", "work", "env"] .directory).IsTree :=
    FileTree.isTree_empty.put hworking (by decide) .directory
  have henv : (FileTree.put {} ["tmp", "work", "env"] .directory).node? ["tmp", "work", "env"] =
      some .directory := by decide
  exact hdirectory.put henv (by decide) _

/-! ## Removing and opening again -/

/-- **Removing a directory engine empties what it reaches.**  In any state that a
    session reaches, let a directory engine be removed without an error, and
    let the same path be opened, by whatever settings.

    If the removal reaches the engine, which it does in a tree unless the path
    goes back by `..`, every key is missing.  A removal whose path leads to no
    directory changes nothing, and what is opened has what the file has been
    referring to, if there was one.  Where there is no directory after the
    removal, opening without leave to make it is an error and makes nothing. -/
theorem wiping_empties_directories {s t : Session} (hs : s.Reachable)
    {engine : DirectoryConfig → EngineConfig} (hengine : EngineConfig.IsInDirectory engine)
    {d d' : DirectoryConfig} (hpath : d'.path = d.path)
    (hwipe : s.wipe (engine d) = (.ok (), t)) (name : String) :
    (∀ handle u, t.open name (engine d') = (.ok handle, u) →
      ((engine d).IsReached s.host ∨
          s.host.files.IsTree ∧ ".." ∉ (FileTree.parts d.path).2 →
        ∀ key, handle.view u.host key = none ∧ u.Lacks name (engine d') key) ∧
      (¬ (engine d).Leads s.host → t = s ∧ ∀ loc n, (engine d).file? = some loc →
        s.host.files.node? loc = some (.file (.keyspace n)) →
          ∀ key, handle.view u.host key = (s.host.keyspace n).get? key)) ∧
    (t.host.files.isDirectory d.path = false → d'.createIfMissing = false →
      t.open name (engine d') = (.error (.file (.missingDirectory d.path)), t)) := by
  have ht := hs.sound.wipe hwipe
  obtain ⟨h, hremove, rfl⟩ := Session.wipe_eq_ok_iff.1 hwipe
  have hc := hengine.isOnFiles d'
  refine ⟨fun handle u hopen => ?_, fun hdirectory hcreate => ?_⟩
  · obtain ⟨hname, hisOpen, hext⟩ := ht.isOpen_of_open hc hopen
    obtain ⟨loc, hloc, -⟩ := FileTree.isDirectory_iff.1
      (hengine.leads_iff.1 (hengine.leads_of_isOpen hisOpen))
    rw [hpath] at hloc
    refine ⟨fun hcondition key => ?_, fun hleads => ?_⟩
    · have hreached : (engine d).IsReached s.host := by
        rcases hcondition with hreached | ⟨htree, hback⟩
        · exact hreached
        · exact hengine.isReached_of_isTree htree hback hloc
      have hview := EngineConfig.view_of_missing ht.fresh hc hext hisOpen
        (fun _ hfile => EngineConfig.node?_of_wipe hremove hreached
          ((hengine.file?_congr hpath).symm.trans hfile)) key
      exact ⟨hview, Session.lacks_of_view hname hisOpen hc hview⟩
    · have hne : d.path ≠ "" := (FileTree.resolve_eq_ok_iff.1 hloc).2.1
      obtain rfl := hengine.wipe_of_not_leads hremove hne hleads
      exact ⟨rfl, fun loc n hfile hn => hengine.view_of_file hext hisOpen
        ((hengine.file?_congr hpath).trans hfile) hn⟩
  · rw [← hpath] at hdirectory ⊢
    exact Session.open_of_eq_error (hengine.open_of_missing hdirectory hcreate)

/-- A journaling database that is removed by its name. -/
theorem wiping_empties_directories_journal :
    let c : EngineConfig := .fjall { path := "env" }
    ∃ t handle u, closedJournal.wipe c = (.ok (), t) ∧ t.open "db" c = (.ok handle, u) ∧
      Session.machine.act (.through "db" (.get "k" .bool)) u = (.error (.keyNotFound "k"), u) := by
  intro c
  have hname : FileTree.IsName "env" := by decide
  have hdirectory : closedFiles.isDirectory "env" = true :=
    FileTree.isDirectory_iff.2 ⟨_, hname.resolve _, rfl⟩
  have hleads : closedJournal.host.files.isDirectory "env" = true := by
    rw [files_closedJournal, hdirectory]
  -- the directory is removed with the marker
  have hremove : (closedFiles.removeAll "env").1 = none := by
    simp only [FileTree.removeAll, FileTree.removalFault, hname.resolve, hname.parts]
    rfl
  let left : Host := { closedJournal.host with files := (closedFiles.removeAll "env").2 }
  have hwiped : Journal.wipe "env" closedJournal.host = (.ok (), left) :=
    Journal.wipe_eq_ok_iff.2
      ⟨_, Prod.ext (files_closedJournal ▸ hremove) (by rw [files_closedJournal]), rfl⟩
  have hwipe : closedJournal.wipe c = (.ok (), { closedJournal with host := left }) :=
    Session.wipe_eq_ok_iff.2 ⟨_, hwiped, rfl⟩
  -- the database is made anew
  have hgone : left.files.node? (FileTree.normalise "env" ++ [Journal.marker]) = none :=
    EngineConfig.node?_of_wipe (c := c) hwiped (.inr hleads) rfl
  obtain ⟨j, hj⟩ := Except.isOk_iff.1 <|
    Journal.isOk_open_of_drops (FileTree.drops_removeAll "env" closedFiles) hdirectory
      (by rw [hname.normalise]; decide) hgone
  obtain ⟨u, hopen, -⟩ := Session.exists_open_journal
    (s := { closedJournal with host := left }) (d := { path := "env" }) handles_closedJournal
    (Prod.ext hj rfl) "db"
  obtain ⟨hempty, -⟩ := wiping_empties_directories reachable_closedJournal (.inr rfl)
    (rfl : (⟨"env", {}, true⟩ : DirectoryConfig).path = "env") hwipe "db"
  have hback : ".." ∉ (FileTree.parts "env").2 := by
    rw [hname.parts]
    decide
  obtain ⟨-, hlacks⟩ :=
    (hempty _ _ hopen).1 (.inr ⟨files_closedJournal ▸ isTree_closedFiles, hback⟩) "k"
  obtain ⟨e, hget, rfl | ⟨hkey, -⟩⟩ := hlacks .bool
  · exact ⟨_, _, _, hwipe, hopen, hget⟩
  · exact absurd (show Journal.isKey "k" = true by decide +kernel) hkey

/-- A path that goes back from a missing name. -/
def detour : String := "missing/../env"

theorem parts_detour : FileTree.parts detour = (FileTree.working, ["missing", "..", "env"]) := by
  rw [FileTree.parts, FileTree.splitOn_slash]
  decide +kernel

theorem checkPath_detour : FileTree.checkPath detour = .ok () :=
  FileTree.checkPath_eq_ok (by decide) (by decide +kernel)

theorem detour_ne_empty : detour ≠ "" := by decide

theorem resolve_detour : closedFiles.resolve detour = .error .notFound :=
  FileTree.resolve_of_missing (by decide) (by decide) checkPath_detour detour_ne_empty parts_detour

theorem ensureDirectory_detour : closedFiles.ensureDirectory detour true =
    .ok (closedFiles.put ["tmp", "work", "missing"] .directory) := by
  have hdirectory : closedFiles.isDirectory detour = false := by
    simp only [FileTree.isDirectory, FileTree.at?, resolve_detour]
    rfl
  simp only [FileTree.ensureDirectory, hdirectory, FileTree.makeDirectories, checkPath_detour,
    parts_detour]
  rfl

/-- Once the missing name is made, the path leads to the database. -/
theorem resolve_detour_of_made :
    (closedFiles.put ["tmp", "work", "missing"] .directory).resolve detour =
      .ok ["tmp", "work", "env"] := by
  refine FileTree.resolve_eq_ok_iff.2 ⟨checkPath_detour, detour_ne_empty, ?_⟩
  rw [parts_detour]
  rfl

/-- An engine is not removed by a path that goes back from a missing name, and
    is opened by it with all that it has. -/
theorem wiping_misses_a_detour :
    let c : EngineConfig := .fjall { path := detour }
    closedJournal.Reachable ∧ closedJournal.handles = [] ∧ closedJournal.host.files.IsTree ∧
      closedJournal.wipe c = (.ok (), closedJournal) ∧
      ∃ handle t, closedJournal.open "db" c = (.ok handle, t) ∧
        Session.machine.act (.through "db" (.get "k" .bool)) t = (.ok true, t) := by
  intro c
  have hwiped : Journal.wipe detour closedJournal.host = (.ok (), closedJournal.host) := by
    refine Journal.wipe_eq_ok_iff.2 ⟨_, FileTree.removeAll_of_not_exists ?_, rfl⟩
    rw [files_closedJournal]
    simp only [FileTree.exists, FileTree.at?, resolve_detour]
    rfl
  have hopened : Journal.open [] detour true closedJournal.host =
      (.ok ⟨0, ["tmp", "work", "env"]⟩, { closedJournal.host with
        files := closedFiles.put ["tmp", "work", "missing"] .directory }) := by
    unfold Journal.open
    rw [files_closedJournal, ensureDirectory_detour]
    simp only [resolve_detour_of_made]
    rfl
  obtain ⟨t, hopen, hheld, hhost⟩ :=
    Session.exists_open_journal (d := { path := detour }) handles_closedJournal hopened "db"
  -- making a directory leaves what is stored
  let store : ByteStore Host := JournalHandle.byteStore ⟨0, ["tmp", "work", "env"]⟩
  have hget : store.get "k" t.host = .ok (Image.encode (.bool true)) := by
    rw [← image_closedJournal, hhost]
    exact (JournalHandle.get_eq _ _ _).trans (if_pos (by decide +kernel))
  have hfetch : store.packed.fetch "k" (NativeType.kind .bool) t.host = .ok (.bool true) := by
    have himage := Image.decode_encode (v := .bool true) rfl rfl
    rw [ByteStore.fetch_of_image hget]
    exact congrArg (Except.mapError _) himage
  refine ⟨reachable_closedJournal, handles_closedJournal,
    files_closedJournal ▸ isTree_closedFiles, Session.wipe_eq_ok_iff.2 ⟨_, hwiped, rfl⟩,
    _, t, hopen, Session.act_through_of_eq hheld (Prod.ext ?_ rfl)⟩
  show (Facade.ofBackend store.packed).get "k" .bool t.host = .ok true
  rw [Facade.get_ofBackend, hfetch]
  rfl

end TypedStore
