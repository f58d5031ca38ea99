/-
  TypedStore — what removing a database file removes.

  Opening reads the path of a database as the engine does: `file:` begins a
  URI, and names are resolved without looking at the tree.  Removing takes the
  path literally.

  * `TableFile.IsReached`: removing the files of a path takes away what the path
    stands for, and `TableFile.IsVacant` that there is nothing;
  * `Session.Sound.get_of_isVacant`: what is in a table that is opened where
    there is nothing;
  * `Session.open_after_wipe`: a file that is not reached is opened again, and
    read as before;
  * `wiping_empties_what_it_reaches`: what is read after a database has been
    removed, and `wiping_misses_a_uri`: that a file which was opened by a URI is
    still there.
-/
import TypedStore.Proofs.Keys
import TypedStore.Proofs.Places
import TypedStore.Proofs.Removal
import TypedStore.Proofs.Reopening

namespace TypedStore

/-- Whether what a path stands for may be made. -/
def TablePath.Target.makes : Target → Bool
  | .memory _ writable => writable
  | .file _ create writable => create && writable

theorem Host.IsFresh.cells_eq_empty {h : Host} (hh : h.IsFresh) {n : Nat} (hn : h.next ≤ n)
    (table : String) : h.cells n table = .empty := by
  rw [cells, tables, hh.databases hn]
  rfl

namespace TableFile

variable {held : List TableHandle} {path table name : String} {h u : Host} {t : TableHandle}
  {target : TablePath.Target} {create writable : Bool}

/-! ## Removed files -/

/-- Removing the files of a path takes away what it stands for: a file that is
    one of them, and a database in memory if nobody shares it. -/
def IsReached (held : List TableHandle) (path : String) (h : Host) : TablePath.Target → Prop
  | .memory share _ => share = none ∨ ∀ t ∈ held, t.share ≠ share
  | .file name _ _ => ∃ file ∈ filesOf path, h.files.resolve file = .ok (FileTree.normalise name)

/-- There is nothing that a path stands for. -/
def IsVacant (held : List TableHandle) (h : Host) : TablePath.Target → Prop
  | .memory share _ => share = none ∨ ∀ t ∈ held, t.share ≠ share
  | .file name _ _ => h.files.node? (FileTree.normalise name) = none

variable {files : FileTree} (hremove : FileTree.removeFiles (filesOf path) h.files = (none, files))
include hremove

theorem isVacant_of_removeFiles (hreached : IsReached held path h target) :
    IsVacant held { h with files } target := by
  cases target with
  | memory => exact hreached
  | file =>
    obtain ⟨file, hmem, hresolve⟩ := hreached
    exact FileTree.node?_of_removeFiles hremove hmem hresolve

theorem isPlaced_of_removeFiles (hplaced : IsPlaced h.files target) : IsPlaced files target := by
  cases target with
  | memory => trivial
  | file =>
    have hkeeps := FileTree.removeFiles_directory (filesOf path) h.files
    rw [hremove] at hkeeps
    exact keeps_locate (u := { h with files }) hkeeps hplaced

/-- A file that is not reached stays. -/
theorem serves_of_removeFiles (hserves : Serves (.file name create writable) table t h)
    (hmissed : ¬ IsReached held path h (.file name create writable)) :
    Serves (.file name create writable) table t { h with files } := by
  refine { hserves with placed := isPlaced_of_removeFiles hremove hserves.placed, node := ?_ }
  intro _ _ _ heq
  cases heq
  have hother : ∀ file ∈ filesOf path, h.files.resolve file ≠ .ok (FileTree.normalise name) :=
    fun file hmem hresolve => hmissed ⟨file, hmem, hresolve⟩
  have hkept := FileTree.node?_removeFiles_of_ne hother
  rw [hremove] at hkept
  exact hkept.trans (hserves.node rfl)

end TableFile

namespace TableFile

variable {held : List TableHandle} {path table : String} {h u : Host} {t : TableHandle}
  {target : TablePath.Target}

/-- Where there is nothing, a new database is opened. -/
theorem openTarget_of_isVacant (hvacant : IsVacant held h target)
    (hopen : openTarget held path table target h = (.ok t, u)) : t.number = h.next := by
  cases target with
  | memory share writable =>
    obtain ⟨-, v, number, hv, hopen⟩ := openMemory_eq_ok hopen
    obtain ⟨rfl, -⟩ := openTable_eq_ok hopen
    rcases hv with ⟨-, other, hother, -, hsome, hshare⟩ | ⟨-, rfl, -⟩
    · rcases hvacant with hnone | hvacant
      · rw [hnone] at hsome; cases hsome
      · exact absurd hshare (hvacant other hother)
    · rfl
  | file name create writable =>
    obtain ⟨-, loc, v, number, hlocate, hv, hopen⟩ := openFile_eq_ok hopen
    obtain ⟨rfl, -⟩ := openTable_eq_ok hopen
    obtain rfl := locate_eq_some hlocate
    rcases hv.made with rfl | ⟨rfl, -, -⟩
    · have hnode := hv.node
      rw [show v.files.node? _ = none from hvacant] at hnode
      cases hnode
    · rfl

theorem openTable_of_writable (ht : t.writable = true) :
    openTable t h = (.ok t, h.ensureCells t.number t.table) := by
  unfold openTable
  rw [ht, Bool.true_or, if_pos rfl]

/-- A file that is missing is made. -/
theorem openFile_of_missing {given name : String} {loc : Location}
    (hplaced : locate name h.files = some loc) (hnone : h.files.node? loc = none)
    (hfree : isReserved table = false) :
    openFile given name table true true h =
      (.ok { number := h.next, table, location := some loc },
        ((h.putNode loc (.file (.bytes ByteArray.empty))).takeNumber.2.putNode loc
          (.file (.database h.next))).ensureCells h.next table) := by
  have hempty : ¬ ByteArray.empty.size ≠ 0 := by decide
  simp only [openFile, hplaced, hnone, hfree, Bool.not_true, Bool.false_eq_true, if_false,
    openContent, if_neg hempty, if_true]
  exact openTable_of_writable rfl

/-- Where there is nothing, a table can be opened that may be made. -/
theorem exists_openTarget (hvacant : IsVacant held h target) (hmakes : target.makes = true)
    (hfree : isReserved table = false) (hplaced : IsPlaced h.files target) :
    ∃ t u, openTarget held path table target h = (.ok t, u) := by
  cases target with
  | memory share writable =>
    have hnone : held.find? (fun t => share.isSome && t.share == share) = none := by
      refine List.find?_eq_none.2 fun t ht => ?_
      rcases hvacant with rfl | hvacant
      · simp
      · simp [hvacant t ht]
    simp only [openTarget, openMemory, hfree, Bool.false_eq_true, if_false, hnone]
    exact ⟨_, _, openTable_of_writable hmakes⟩
  | file name create writable =>
    obtain ⟨rfl, rfl⟩ : create = true ∧ writable = true := by
      simpa [TablePath.Target.makes] using hmakes
    exact ⟨_, _, openFile_of_missing hplaced hvacant hfree⟩

/-- Removing a database succeeds if its files can be removed. -/
theorem wipe_eq_ok_iff {path : String} {h v : Host} : wipe path h = (.ok (), v) ↔
    ∃ files, FileTree.removeFiles (filesOf path) h.files = (none, files) ∧
      v = { h with files } := by
  unfold wipe
  split
  · next files hfiles => simp [hfiles, eq_comm]
  · next e files hfiles => simp [hfiles]

end TableFile

/-! ## Sessions -/

namespace Session

variable {s t u v : Session} {name path table : String} {create : Bool} {handle : Handle}
  {x : TableHandle} {target : TablePath.Target}

/-- What is asked of the facade of a name. -/
def asking (name : String) (i : Step Operation) : Step Action := ⟨i.1, .through name i.2⟩

/-- What the calls of a backend keep, a run of operations keeps. -/
theorem after_asking (hs : s.Reachable) (hopen : s.handle? name = some handle) {P : Host → Prop}
    (hP : handle.backend.Preserves P) (hhost : P s.host) (run : List (Step Operation)) :
    (machine.after (run.map (asking name)) s).Reachable ∧
      (machine.after (run.map (asking name)) s).facades = s.facades ∧
      P (machine.after (run.map (asking name)) s).host := by
  induction run generalizing s with
  | nil => exact ⟨hs, rfl, hhost⟩
  | cons i run ih =>
    have hnext : P (machine.next (asking name i) s).host := by
      show P ((s.facade name).perform i.2 s.host).2
      rw [facade_of_handle? hopen]
      exact hP.facade i.2 hhost
    exact ih (hs.next (asking name i) trivial) hopen hnext

/-! ### Opening -/

theorem open_sqlite_of_eq_ok (hname : Statements.checkTableName table = .ok ())
    (htarget : TablePath.target path create = .ok target) {h : Host}
    (hopen : TableFile.openTarget s.tables path table target s.host = (.ok x, h)) :
    s.open name (.sqlite path table create) =
      (.ok (.table x), { s with host := h }.hold name (some (.table x))) := by
  have htable : TableFile.open s.tables path table create s.host = (.ok x, h) :=
    TableFile.open_eq_ok_iff.2 ⟨hname, target, htarget, hopen⟩
  exact open_of_eq_ok (Except.pair_map_eq_ok_iff.2 ⟨x, htable, rfl⟩)

/-- Where there is nothing, every key of the table that is opened is missing. -/
theorem Sound.get_of_isVacant (hs : s.Sound) (htarget : TablePath.target path create = .ok target)
    (hvacant : TableFile.IsVacant s.tables s.host target)
    (hopen : s.open name (.sqlite path table create) = (.ok handle, t)) {α : Type} (key : String)
    (type : NativeType α) :
    machine.act (.through name (.get key type)) t = (.error (.keyNotFound key), t) := by
  obtain ⟨x, found, rfl, hheld, -, hfound, hopened, hrows⟩ := open_sqlite_eq_ok hs hopen
  rw [htarget] at hfound
  cases hfound
  have hnumber := TableFile.openTarget_of_isVacant hvacant hopened
  have hget : x.byteStore.get key t.host = .ok none := by
    simp only [TableHandle.byteStore, hrows, hs.fresh.cells_eq_empty hnumber.ge table]
    rfl
  refine act_through_of_eq hheld (Prod.ext ?_ rfl)
  exact Facade.get_of_fetch_error (ByteStore.fetch_of_absent hget)

/-- Where a table is open in a file, the table that is opened has its rows. -/
theorem open_of_serves {file : String} {create' writable : Bool}
    (hname : Statements.checkTableName table = .ok ())
    (htarget : TablePath.target path create = .ok (.file file create' writable))
    (hserves : TableFile.Serves (.file file create' writable) table x s.host) :
    ∃ y t, s.open name (.sqlite path table create) = (.ok (.table y), t) ∧
      t.handle? name = some (.table y) ∧ y.rows t.host = x.rows s.host := by
  have hopen : s.open name (.sqlite path table create) = _ :=
    open_sqlite_of_eq_ok hname htarget (hserves.openTarget_eq s.tables path)
  refine ⟨_, _, hopen, by rw [handle?_hold, if_pos rfl], ?_⟩
  rw [TableHandle.rows, TableHandle.rows, hserves.opened]
  rfl

/-- Two tables with the same rows are read alike. -/
theorem get_congr (hs : s.handle? name = some (.table x)) {y : TableHandle}
    (ht : t.handle? name = some (.table y)) (hrows : x.rows s.host = y.rows t.host) {α : Type}
    (key : String) (type : NativeType α) : (machine.act (.through name (.get key type)) s).1 =
      (machine.act (.through name (.get key type)) t).1 := by
  have hfetch (key : String) (kind : Kind) : x.byteStore.packed.fetch key kind s.host =
      y.byteStore.packed.fetch key kind t.host :=
    ByteStore.fetch_congr (by simp only [TableHandle.byteStore, hrows]) kind
  rw [act_through hs, act_through ht]
  exact Facade.answer_congr_of_fetch hfetch rfl

/-! ### Removing -/

theorem wipe_eq_ok_iff {c : EngineConfig} : s.wipe c = (.ok (), t) ↔
    ∃ h, c.wipe s.host = (.ok (), h) ∧ t = { s with host := h } := by
  show (((c.wipe s.host).1, { s with host := (c.wipe s.host).2 }) :
    Except StoreError Unit × Session) = _ ↔ _
  cases c.wipe s.host with
  | mk result h => simp [eq_comm]

theorem wipe_sqlite_eq_ok_iff : s.wipe (.sqlite path table create) = (.ok (), t) ↔
    ∃ files, FileTree.removeFiles (TableFile.filesOf path) s.host.files = (none, files) ∧
      t = { s with host := { s.host with files } } := by
  rw [wipe_eq_ok_iff]
  constructor
  · rintro ⟨h, hwipe, rfl⟩
    obtain ⟨files, hremove, rfl⟩ := TableFile.wipe_eq_ok_iff.1 hwipe
    exact ⟨files, hremove, rfl⟩
  · rintro ⟨files, hremove, rfl⟩
    exact ⟨_, TableFile.wipe_eq_ok_iff.2 ⟨files, hremove, rfl⟩, rfl⟩

theorem after_wipe (hu : u.Reachable)
    (hwipe : (u.close name).wipe (.sqlite path table create) = (.ok (), v)) :
    v.Reachable ∧ ∃ files,
      FileTree.removeFiles (TableFile.filesOf path) u.host.files = (none, files) ∧
      v = { u.close name with host := { u.host with files } } := by
  refine ⟨?_, wipe_sqlite_eq_ok_iff.1 hwipe⟩
  have hv := (hu.next ⟨_, .close name⟩ trivial).next ⟨_, .wipe (.sqlite path table create)⟩ trivial
  rwa [show machine.next _ _ = ((u.close name).wipe _).2 from rfl, hwipe] at hv

/-- A file that is not reached is opened again, and read as before. -/
theorem open_after_wipe {file : String} {create' writable : Bool} (hu : u.Reachable)
    (hwipe : (u.close name).wipe (.sqlite path table create) = (.ok (), v))
    (hname : Statements.checkTableName table = .ok ())
    (htarget : TablePath.target path true = .ok (.file file create' writable))
    (hheld : u.handle? name = some (.table x))
    (hserves : TableFile.Serves (.file file create' writable) table x u.host)
    (hmissed : ¬ TableFile.IsReached (u.close name).tables path u.host
      (.file file create' writable)) :
    ∃ handle w, v.open name (.sqlite path table true) = (.ok handle, w) ∧
      ∀ {α : Type} (key : String) (type : NativeType α),
        (machine.act (.through name (.get key type)) w).1 =
          (machine.act (.through name (.get key type)) u).1 := by
  obtain ⟨-, files, hremove, rfl⟩ := after_wipe hu hwipe
  have hkept : TableFile.Serves (.file file create' writable) table x { u.host with files } :=
    TableFile.serves_of_removeFiles hremove hserves hmissed
  obtain ⟨y, w, hopen, hheld', hrows⟩ :=
    open_of_serves (s := { u.close name with host := { u.host with files } }) hname htarget hkept
  exact ⟨_, w, hopen, fun key type => get_congr hheld' hheld hrows key type⟩

/-- A facade that is opened on a table stays open on it in a run of
    operations. -/
theorem serves_after_asking (hs : s.Reachable)
    (hopen : s.open name (.sqlite path table create) = (.ok handle, t)) (run : List (Step Operation))
    (hrun : machine.after (run.map (asking name)) t = u) :
    u.Reachable ∧ Statements.checkTableName table = .ok () ∧ ∃ x target,
      u.handle? name = some (.table x) ∧ TablePath.target path true = .ok target ∧
      TableFile.Serves target table x u.host := by
  obtain ⟨x, found, rfl, hheld, hname, hfound, hopened, -⟩ := open_sqlite_eq_ok hs.sound hopen
  obtain ⟨target, htarget, hwidens⟩ := TablePath.widens_target hfound
  have ht : t.Reachable := by
    have hnext := hs.next ⟨_, .open name (.sqlite path table create)⟩ trivial
    rwa [show machine.next _ s = (s.open name _).2 from rfl, hopen] at hnext
  have hserves := (TableFile.serves_of_openTarget hopened).of_widens hwidens
  obtain ⟨hu, hfacades, hserves⟩ :=
    after_asking ht hheld TableFile.preserves_serves.packed hserves run
  rw [hrun] at hu hfacades hserves
  refine ⟨hu, hname, x, target, ?_, htarget, hserves⟩
  rw [handle?, hfacades]
  exact hheld

end Session

/-! ## A first file -/

/-- The table `kv` in a file that has been made in the beginning. -/
def firstTable : TableHandle :=
  { number := 0, table := "kv", location := some ["tmp", "work", "kv.db"] }

/-- The files with it. -/
def firstFiles : FileTree :=
  let loc := ["tmp", "work", "kv.db"]
  (({} : FileTree).put loc (.file (.bytes ByteArray.empty))).put loc (.file (.database 0))

theorem checkTableName_kv : Statements.checkTableName "kv" = .ok () := by cbv

theorem isReserved_kv : TableFile.isReserved "kv" = false := by
  have hfold : foldName "kv" = "kv" := String.toList_inj.1 (String.toList_map.trans rfl)
  rw [TableFile.isReserved, hfold]
  exact String.startsWith_string_eq_false_iff.2 (by decide)

theorem open_firstTable {path : String}
    (htarget : TablePath.target path true = .ok (.file "kv.db" true true)) :
    ∃ t, ({} : Session).open "db" (.sqlite path "kv" true) = (.ok (.table firstTable), t) ∧
      t.Reachable ∧ t.handle? "db" = some (.table firstTable) ∧ t.host.files = firstFiles := by
  have hplaced : TableFile.locate "kv.db" {} = some ["tmp", "work", "kv.db"] :=
    FileTree.locate_of_resolve (FileTree.IsName.resolve (by decide) {})
  have hopened : TableFile.openTarget ({} : Session).tables path "kv" (.file "kv.db" true true) {} =
      (.ok firstTable, _) := TableFile.openFile_of_missing hplaced rfl isReserved_kv
  have hopen : ({} : Session).open "db" (.sqlite path "kv" true) = _ :=
    Session.open_sqlite_of_eq_ok checkTableName_kv htarget hopened
  have ht := Session.Reachable.start.next ⟨_, .open "db" (.sqlite path "kv" true)⟩ trivial
  rw [show Session.machine.next _ {} = (({} : Session).open "db" _).2 from rfl, hopen] at ht
  refine ⟨_, hopen, ht, ?_, TableFile.files_ensureCells _ _⟩
  rw [Session.handle?_hold, if_pos rfl]

theorem target_kv : TablePath.target "kv.db" true = .ok (.file "kv.db" true true) :=
  TablePath.IsPlain.target_eq
    ⟨String.startsWith_string_eq_false_iff.2 (by decide), by decide, by decide⟩ (by decide)

theorem target_uri : TablePath.target "file:kv.db" true = .ok (.file "kv.db" true true) := by
  have hbytes : "file:kv.db".toByteArray.data.toList =
      [102, 105, 108, 101, 58, 107, 118, 46, 100, 98] := by decide +kernel
  have hzero : List.idxOf? (0 : UInt8) [102, 105, 108, 101, 58, 107, 118, 46, 100, 98] = none := by
    decide
  have huri : "file:kv.db".startsWith "file:" = true := String.startsWith_string_iff.2 (by decide)
  have hname : TablePath.unescape [107, 118, 46, 100, 98] = [107, 118, 46, 100, 98] := by
    simp [TablePath.unescape, TablePath.escaped?, TablePath.code]
  have hoptions : TablePath.options [] = [] := by
    have hnone : TablePath.unescape [] = [] := by simp [TablePath.unescape]
    have hempty : TablePath.partText [] = "" := by
      rw [TablePath.partText, hnone]
      decide +kernel
    simp [TablePath.options, TablePath.cut, hempty]
  simp only [TablePath.target, hbytes, hzero, huri, if_true]
  refine TablePath.ofUri_eq_ok_iff.2 ⟨[107, 118, 46, 100, 98], by decide, { access := .create },
    ?_, nofun, ?_⟩
  · show (TablePath.options []).foldlM _ _ = _
    rw [hoptions]
    rfl
  · show TablePath.Settings.target _ (TablePath.partText [107, 118, 46, 100, 98]) = _
    rw [TablePath.partText, hname]
    decide +kernel

/-! ## Removing and opening again -/

/-- **Removing a database empties what it reaches.**  In any state that a session
    reaches, let a facade be opened on a database file or in memory, let any
    operations be asked of it, let it be closed, and let the database be
    removed by the same settings without an error.

    If the removal reaches what the path stands for, every key is missing in
    the table that is opened afterwards by the same settings, and it can be
    opened unless the path itself forbids to make it.  If the path stands for a
    file and the removal takes its path for another, the table is opened and
    every key is read as before the facade was closed. -/
theorem wiping_empties_what_it_reaches {s t u v : Session} (hs : s.Reachable)
    {name path table : String} {create : Bool} {handle : Handle}
    (hopen : s.open name (.sqlite path table create) = (.ok handle, t)) (run : List (Step Operation))
    (hrun : Session.machine.after (run.map (Session.asking name)) t = u)
    (hwipe : (u.close name).wipe (.sqlite path table create) = (.ok (), v)) :
    ∃ target, TablePath.target path true = .ok target ∧
      (TableFile.IsReached (u.close name).tables path u.host target →
        (target.makes = true →
          ∃ handle w, v.open name (.sqlite path table true) = (.ok handle, w)) ∧
        ∀ handle w, v.open name (.sqlite path table true) = (.ok handle, w) →
          ∀ {α : Type} (key : String) (type : NativeType α),
            Session.machine.act (.through name (.get key type)) w =
              (.error (.keyNotFound key), w)) ∧
      ∀ file create writable, target = .file file create writable →
        ¬ TableFile.IsReached (u.close name).tables path u.host target →
        ∃ handle w, v.open name (.sqlite path table true) = (.ok handle, w) ∧
          ∀ {α : Type} (key : String) (type : NativeType α),
            (Session.machine.act (.through name (.get key type)) w).1 =
              (Session.machine.act (.through name (.get key type)) u).1 := by
  obtain ⟨hu, hname, x, target, hheld, htarget, hserves⟩ :=
    Session.serves_after_asking hs hopen run hrun
  obtain ⟨hv, files, hremove, heq⟩ := Session.after_wipe hu hwipe
  refine ⟨target, htarget, fun hreached => ?_, ?_⟩
  · have hvacant : TableFile.IsVacant v.tables v.host target := by
      rw [heq]
      exact TableFile.isVacant_of_removeFiles hremove hreached
    refine ⟨fun hmakes => ?_, fun handle w hopen' α key type =>
      hv.sound.get_of_isVacant htarget hvacant hopen' key type⟩
    have hplaced : TableFile.IsPlaced v.host.files target := by
      rw [heq]
      exact TableFile.isPlaced_of_removeFiles hremove hserves.placed
    obtain ⟨y, h, hopened⟩ :=
      TableFile.exists_openTarget hvacant hmakes hserves.free hplaced
    exact ⟨_, _, Session.open_sqlite_of_eq_ok hname htarget hopened⟩
  · rintro file create' writable rfl hmissed
    exact Session.open_after_wipe hu hwipe hname htarget hheld hserves hmissed

/-- A file that is removed by its name. -/
theorem wiping_empties_what_it_reaches_file :
    let c : EngineConfig := .sqlite "kv.db" "kv" true
    let run : List (Step Operation) := [⟨_, .set "k" (.native .bool true)⟩]
    ∃ handle handle' t v w, ({} : Session).open "db" c = (.ok handle, t) ∧
      ((Session.machine.after (run.map (Session.asking "db")) t).close "db").wipe c = (.ok (), v) ∧
      v.open "db" c = (.ok handle', w) ∧
      Session.machine.act (.through "db" (.get "k" .bool)) w = (.error (.keyNotFound "k"), w) := by
  intro c run
  obtain ⟨t, hopen, ht, hheld, hfiles⟩ := open_firstTable target_kv
  obtain ⟨-, -, hafter⟩ :=
    Session.after_asking ht hheld (Handle.table firstTable).preserves_files hfiles run
  have hnames : ∀ name ∈ TableFile.filesOf "kv.db", FileTree.IsName name := by decide +kernel
  have hremove : (FileTree.removeFiles (TableFile.filesOf "kv.db") firstFiles).1 = none :=
    FileTree.removeFiles_of_isName hnames (by decide +kernel)
  have hwipe : ((Session.machine.after (run.map (Session.asking "db")) t).close "db").wipe c =
      (.ok (), _) := Session.wipe_sqlite_eq_ok_iff.2 ⟨_, Prod.ext (hafter ▸ hremove) rfl, rfl⟩
  obtain ⟨target, htarget, hreached, -⟩ := wiping_empties_what_it_reaches .start hopen run rfl hwipe
  rw [target_kv] at htarget
  cases htarget
  have hname := hnames "kv.db" List.mem_cons_self
  obtain ⟨hopens, hmissing⟩ := hreached
    ⟨"kv.db", List.mem_cons_self, by rw [hname.resolve, hname.normalise]⟩
  obtain ⟨handle', w, hopen'⟩ := hopens rfl
  exact ⟨_, _, _, _, _, hopen, hwipe, hopen', hmissing _ _ hopen' "k" .bool⟩

/-- A file that is opened by a URI is not removed by it. -/
theorem wiping_misses_a_uri :
    let c : EngineConfig := .sqlite "file:kv.db" "kv" true
    ∃ handle handle' t u v w, ({} : Session).open "db" c = (.ok handle, t) ∧
      Session.machine.act (.through "db" (.set "k" (.native .bool true))) t = (.ok (), u) ∧
      (u.close "db").wipe c = (.ok (), v) ∧ v.open "db" c = (.ok handle', w) ∧
      (Session.machine.act (.through "db" (.get "k" .bool)) w).1 = .ok true := by
  intro c
  obtain ⟨t, hopen, ht, hheld, hfiles⟩ := open_firstTable target_uri
  -- the entry is written
  have hwritable : firstTable.canWrite t.host = true := by
    rw [TableHandle.canWrite, TableHandle.isAttached, hfiles]
    decide +kernel
  obtain ⟨h, hput⟩ : ∃ h, (Facade.ofBackend (Handle.table firstTable).backend).set "k"
      (NativeType.bool.write true) t.host = .ok h := ⟨_, if_pos hwritable⟩
  have hset : Session.machine.act (.through "db" (.set "k" (.native .bool true))) t =
      (.ok (), { t with host := h }) := by
    rw [Session.act_through hheld, Facade.perform, Payload.toValue, hput]
    rfl
  obtain ⟨hu, hname, x, target, hheld', htarget, hserves⟩ := Session.serves_after_asking .start hopen
    [⟨_, .set "k" (.native .bool true)⟩] (congrArg Prod.snd hset)
  obtain rfl : x = firstTable := Handle.table.inj (Option.some.inj (hheld'.symm.trans hheld))
  rw [target_uri] at htarget
  cases htarget
  have hvalue : NativeType.bool.write true ≠ .null := by rintro ⟨⟩
  have hget := (Handle.table firstTable).readsBack.get_of_set hvalue rfl rfl hput
  -- no file that is removed is the one that is open
  have hnames : ∀ name ∈ TableFile.filesOf "file:kv.db", FileTree.IsName name := by decide +kernel
  have hmissed : ¬ TableFile.IsReached (Session.tables { t with host := h }) "file:kv.db" h
      (.file "kv.db" true true) := by
    rintro ⟨file, hmem, hresolve⟩
    rw [(hnames file hmem).resolve, FileTree.IsName.normalise (by decide +kernel)] at hresolve
    obtain rfl : file = "kv.db" := by simpa using hresolve
    exact absurd hmem (by decide +kernel)
  have hremove : (FileTree.removeFiles (TableFile.filesOf "file:kv.db") h.files).1 = none := by
    rw [(Handle.table firstTable).preserves_files.set hput hfiles]
    exact FileTree.removeFiles_of_isName hnames (by decide +kernel)
  obtain ⟨v, hwipe⟩ : ∃ v, (Session.close { t with host := h } "db").wipe c = (.ok (), v) :=
    ⟨_, Session.wipe_sqlite_eq_ok_iff.2 ⟨_, Prod.ext hremove rfl, rfl⟩⟩
  obtain ⟨handle', w, hopen', hread⟩ :=
    Session.open_after_wipe hu hwipe hname target_uri hheld' hserves hmissed
  refine ⟨_, handle', t, _, v, w, hopen, hset, hwipe, hopen', ?_⟩
  rw [hread, Session.act_through hheld']
  exact hget

end TypedStore
