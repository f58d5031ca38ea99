/-
  TypedStore — what opening an engine does to the host.

  Opening never empties or alters what is stored.  It adds directories, gives
  out a number, makes a file that refers to it, and makes tables that do not
  exist.

  * `Host.IsFresh`: nothing has a number that has not been given out, and a
    number is that of one file at most;
  * `Host.Extends`: all that opening can do; `EngineConfig.extends_open` says
    so of every engine.
-/
import TypedStore.Engine.Handle
import TypedStore.Proofs.FileTree

namespace TypedStore

/-- The number of the keyspace or database that a file refers to. -/
def Content.number? : Content → Option Nat
  | bytes _ => none
  | keyspace n | database n => some n

/-! ## Hosts -/

/-- Nothing has a number that has not been given out, and no two files refer to
    the same. -/
structure Host.IsFresh (h : Host) : Prop where
  keyspaces {n} : h.next ≤ n → h.keyspaces.get? n = none
  sizes {n} : h.next ≤ n → h.sizes.get? n = none
  databases {n} : h.next ≤ n → h.databases.get? n = none
  refers {loc content n} : h.files.node? loc = some (.file content) → content.number? = some n →
    n < h.next
  once {loc loc' content content' n} : h.files.node? loc = some (.file content) →
    h.files.node? loc' = some (.file content') → content.number? = some n →
      content'.number? = some n → loc = loc'

/-- The rows of a table of the server, if there are a server and a table. -/
def Host.serverTable? (h : Host) (database table : String) : Option RowTable :=
  h.server.bind (·.table? database table)

/-- The second host has all that the first one has, but that an empty file may
    have become another.  A file that refers to something new is called `file`
    if that is a keyspace. -/
structure Host.Extends (file : Option String) (h t : Host) : Prop where
  next : h.next ≤ t.next
  directories : h.files.KeepsDirectories t.files
  kept {loc content n} : h.files.node? loc = some (.file content) → content.number? = some n →
    t.files.node? loc = some (.file content)
  bytes {loc b} : h.files.node? loc = some (.file (.bytes b)) → b.size ≠ 0 →
    t.files.node? loc = some (.file (.bytes b))
  made {loc content n} : t.files.node? loc = some (.file content) → content.number? = some n →
    h.files.node? loc = some (.file content) ∨
      h.next ≤ n ∧ ∀ m, content = .keyspace m → loc.getLast? = file
  keyspace (n) : t.keyspace n = h.keyspace n
  cells (n table) : t.cells n table = h.cells n table
  server {database table rows} : h.serverTable? database table = some rows →
    t.serverTable? database table = some rows
  fresh : t.IsFresh

namespace Host

variable {file : Option String} {h t u : Host}

theorem Extends.trans (hht : h.Extends file t) (htu : t.Extends file u) : h.Extends file u where
  next := hht.next.trans htu.next
  directories loc hn := htu.directories loc (hht.directories loc hn)
  kept hn hnumber := htu.kept (hht.kept hn hnumber) hnumber
  bytes hn hsize := htu.bytes (hht.bytes hn hsize) hsize
  made hn hnumber := by
    rcases htu.made hn hnumber with hn | ⟨hle, hfile⟩
    · exact hht.made hn hnumber
    · exact Or.inr ⟨hht.next.trans hle, hfile⟩
  keyspace n := (htu.keyspace n).trans (hht.keyspace n)
  cells n table := (htu.cells n table).trans (hht.cells n table)
  server hrows := htu.server (hht.server hrows)
  fresh := htu.fresh

theorem keyspace_putKeyspace (n m : Nat) (b : ByteMap) :
    (h.putKeyspace n b).keyspace m = if m = n then b else h.keyspace m := by
  simp only [keyspace, putKeyspace, Entries.get?_insert]
  split <;> rfl

theorem tables_putCells (n m : Nat) (table : String) (rows : CellTable) :
    (h.putCells n table rows).tables m =
      if m = n then (h.tables n).insert (foldName table) rows else h.tables m := by
  simp only [tables, putCells, Entries.get?_insert]
  split <;> rfl

theorem cells_putCells (n m : Nat) (table other : String) (rows : CellTable) :
    (h.putCells n table rows).cells m other =
      if m = n ∧ foldName other = foldName table then rows else h.cells m other := by
  simp only [cells, tables_putCells]
  by_cases hm : m = n
  · subst hm
    simp only [if_true, Entries.get?_insert, true_and]
    split <;> rfl
  · simp only [hm, false_and, if_false]

namespace IsFresh

variable (hh : h.IsFresh)
include hh

theorem extends_self : h.Extends file h where
  next := le_rfl
  directories _ := id
  kept hn _ := hn
  bytes hn _ := hn
  made hn _ := Or.inl hn
  keyspace _ := rfl
  cells _ _ := rfl
  server := id
  fresh := hh

/-- Directories are made. -/
theorem extends_files {t : FileTree} (ht : h.files.Adds t) :
    h.Extends file { h with files := t } where
  next := le_rfl
  directories _ hn := ht.node? hn
  kept hn _ := ht.node? hn
  bytes hn _ := ht.node? hn
  made hn _ := Or.inl (ht.of_file hn)
  keyspace _ := rfl
  cells _ _ := rfl
  server := id
  fresh := {
    hh with
    refers := fun hn hnumber => hh.refers (ht.of_file hn) hnumber
    once := fun hn hn' => hh.once (ht.of_file hn) (ht.of_file hn') }

/-- A file of bytes is made where there is nothing. -/
theorem extends_putBytes {loc : Location} (hloc : h.files.node? loc = none) (b : ByteArray) :
    h.Extends file (h.putNode loc (.file (.bytes b))) := by
  have hnode (other : Location) {content : Content} {n : Nat} (hnumber : content.number? = some n) :
      (h.files.put loc (.file (.bytes b))).node? other = some (.file content) ↔
        h.files.node? other = some (.file content) := by
    rw [FileTree.node?_put (by simp [hloc])]
    split_ifs with ho
    · subst ho
      constructor
      · rintro ⟨⟩; cases hnumber
      · intro hn; rw [hloc] at hn; cases hn
    · rfl
  exact {
    next := le_rfl
    directories := FileTree.keepsDirectories_put (by simp [hloc]) _
    kept := fun hn hnumber => (hnode _ hnumber).2 hn
    bytes := by
      intro other c hn _
      have hne : other ≠ loc := by
        rintro rfl
        rw [hloc] at hn
        cases hn
      show (h.files.put loc (.file (.bytes b))).node? other = _
      rw [FileTree.node?_put (by simp [hloc]), if_neg hne, hn]
    made := fun hn hnumber => Or.inl ((hnode _ hnumber).1 hn)
    keyspace := fun _ => rfl
    cells := fun _ _ => rfl
    server := id
    fresh := {
      hh with
      refers := fun hn hnumber => hh.refers ((hnode _ hnumber).1 hn) hnumber
      once := fun hn hn' hnumber hnumber' =>
        hh.once ((hnode _ hnumber).1 hn) ((hnode _ hnumber').1 hn') hnumber hnumber' } }

theorem extends_takeNumber : h.Extends file h.takeNumber.2 where
  next := Nat.le_succ _
  directories _ := id
  kept hn _ := hn
  bytes hn _ := hn
  made hn _ := Or.inl hn
  keyspace _ := rfl
  cells _ _ := rfl
  server := id
  fresh := {
    keyspaces := fun hn => hh.keyspaces (Nat.le_of_succ_le hn)
    sizes := fun hn => hh.sizes (Nat.le_of_succ_le hn)
    databases := fun hn => hh.databases (Nat.le_of_succ_le hn)
    refers := fun hn hnumber => Nat.lt_succ_of_lt (hh.refers hn hnumber)
    once := hh.once }

/-- A number is given out, and a file is made that refers to it, where there
    was none but perhaps an empty one. -/
theorem extends_putNode (file : Option String) (loc : Location) (content : Content)
    (hloc : ∀ n, h.files.node? loc = some n → ∃ b, n = .file (.bytes b) ∧ b.size = 0)
    (hnumber : content.number? = some h.next)
    (hfile : ∀ m, content = .keyspace m → loc.getLast? = file) :
    h.Extends file (h.takeNumber.2.putNode loc (.file content)) := by
  have hdirectory : h.files.node? loc ≠ some .directory := by
    intro hn
    obtain ⟨b, hb, -⟩ := hloc _ hn
    cases hb
  have hnode := FileTree.node?_put hdirectory (.file content)
  have hmade {other : Location} {c : Content} {n : Nat}
      (hn : (h.files.put loc (.file content)).node? other = some (.file c))
      (hc : c.number? = some n) :
      h.files.node? other = some (.file c) ∨ other = loc ∧
        n = h.next ∧ ∀ m, c = .keyspace m → other.getLast? = file := by
    rw [hnode] at hn
    split_ifs at hn with ho
    · cases hn
      rw [hnumber] at hc
      exact Or.inr ⟨ho, (Option.some.inj hc).symm, fun m hm => ho ▸ hfile m hm⟩
    · exact Or.inl hn
  have htake : h.Extends file h.takeNumber.2 := hh.extends_takeNumber
  exact {
    htake with
    directories := FileTree.keepsDirectories_put hdirectory _
    kept := by
      intro other c n hn hc
      show (h.files.put loc (.file content)).node? other = _
      rw [hnode]
      split_ifs with ho
      · subst ho
        obtain ⟨b, hb, -⟩ := hloc _ hn
        cases hb
        cases hc
      · exact hn
    bytes := by
      intro other b hn hsize
      show (h.files.put loc (.file content)).node? other = _
      rw [hnode]
      split_ifs with ho
      · subst ho
        obtain ⟨_, hb, hempty⟩ := hloc _ hn
        cases hb
        exact absurd hempty hsize
      · exact hn
    made := by
      intro other c n hn hc
      rcases hmade hn hc with hn | ⟨-, rfl, hfile⟩
      · exact Or.inl hn
      · exact Or.inr ⟨le_rfl, hfile⟩
    fresh := {
      htake.fresh with
      refers := by
        intro other c n hn hc
        rcases hmade hn hc with hn | ⟨-, rfl, -⟩
        · exact htake.fresh.refers hn hc
        · exact Nat.lt_succ_self _
      once := by
        intro other other' c c' n hn hn' hc hc'
        rcases hmade hn hc with hold | ⟨ho, hnext, -⟩ <;>
          rcases hmade hn' hc' with hold' | ⟨ho', hnext', -⟩
        · exact hh.once hold hold' hc hc'
        · exact absurd (hh.refers hold hc) (by omega)
        · exact absurd (hh.refers hold' hc') (by omega)
        · exact ho.trans ho'.symm } }

/-- A keyspace is made. -/
theorem extends_putKeyspace {n : Nat} (hn : n < h.next) (hnone : h.keyspaces.get? n = none) :
    h.Extends file (h.putKeyspace n .empty) where
  next := le_rfl
  directories _ := id
  kept hn _ := hn
  bytes hn _ := hn
  made hn _ := Or.inl hn
  keyspace m := by
    rw [keyspace_putKeyspace]
    split_ifs with hm
    · rw [hm, keyspace, hnone]; rfl
    · rfl
  cells _ _ := rfl
  server := id
  fresh := {
    hh with
    keyspaces := by
      intro m hm
      have hm : h.next ≤ m := hm
      simp only [putKeyspace, Entries.get?_insert, if_neg (show m ≠ n by omega)]
      exact hh.keyspaces hm }

theorem extends_growTo {n : Nat} (hn : n < h.next) (pages : Nat) :
    h.Extends file (h.growTo n pages) := by
  unfold growTo
  split_ifs
  · exact hh.extends_self
  · exact {
      (hh.extends_self : h.Extends file h) with
      fresh := {
        hh with
        sizes := by
          intro m hm
          have hm : h.next ≤ m := hm
          simp only [Entries.get?_insert, if_neg (show m ≠ n by omega)]
          exact hh.sizes hm } }

/-- A table is made unless it exists. -/
theorem extends_ensureCells {n : Nat} (hn : n < h.next) (table : String) :
    h.Extends file (h.ensureCells n table) := by
  unfold ensureCells
  split_ifs with hc
  · exact hh.extends_self
  · exact {
      (hh.extends_self : h.Extends file h) with
      cells := by
        intro m other
        rw [cells_putCells]
        split_ifs with ho
        · have hnone : (h.tables n).get? (foldName table) = none := by
            simpa [Entries.contains] using hc
          rw [ho.1, cells, ho.2, hnone]
          rfl
        · rfl
      fresh := {
        hh with
        databases := by
          intro m hm
          have hm : h.next ≤ m := hm
          simp only [putCells, Entries.get?_insert, if_neg (show m ≠ n by omega)]
          exact hh.databases hm } }

theorem extends_newMap (shared : Bool) : h.Extends file (h.newMap shared).2 := by
  have htake : h.Extends file h.takeNumber.2 := hh.extends_takeNumber
  exact {
    htake with
    fresh := { htake.fresh with } }

end IsFresh

end Host

/-! ## Engines -/

namespace Journal

theorem extends_open {h : Host} (hh : h.IsFresh) (held : List JournalHandle) (path : String)
    (create : Bool) : h.Extends (some marker) (Journal.open held path create h).2 := by
  unfold Journal.open
  split
  · exact hh.extends_self
  · next files hfiles =>
    have hadds : h.Extends (some marker) { h with files } :=
      hh.extends_files (FileTree.adds_of_ensureDirectory hfiles)
    split
    · exact hadds
    · next loc hloc =>
      refine hadds.trans ?_
      unfold openAt
      split
      · split_ifs <;> exact hadds.fresh.extends_self
      · exact hadds.fresh.extends_self
      · next hnone =>
        have hput := hadds.fresh.extends_putNode (some marker) (loc ++ [marker])
          (.keyspace h.next) (fun n hn => by rw [hnone] at hn; cases hn) rfl
          (fun _ _ => List.getLast?_concat)
        exact hput.trans (hput.fresh.extends_putKeyspace (Nat.lt_succ_self h.next)
          (hh.keyspaces le_rfl))

end Journal

namespace Environment

variable {h : Host}

theorem extends_openNumber (hh : h.IsFresh) (loc : Location) (size : Nat) {number : Nat}
    (hn : number < h.next) : h.Extends (some dataFile) (openNumber loc size number h).2 := by
  unfold openNumber
  split_ifs
  · exact hh.extends_self
  · exact hh.extends_growTo hn _

theorem extends_openNew (hh : h.IsFresh) {loc : Location} (size : Nat)
    (hloc : ∀ n, h.files.node? (loc ++ [dataFile]) = some n →
      ∃ b, n = .file (.bytes b) ∧ b.size = 0) :
    h.Extends (some dataFile) (openNew loc size h).2 := by
  have hput := hh.extends_putNode (some dataFile) (loc ++ [dataFile]) (.keyspace h.next) hloc rfl
    (fun _ _ => List.getLast?_concat)
  have hmade := hput.trans (hput.fresh.extends_putKeyspace (Nat.lt_succ_self h.next)
    (hh.keyspaces le_rfl))
  simp only [openNew]
  split_ifs
  · exact hmade
  · exact hmade.trans (extends_openNumber hmade.fresh loc _ (Nat.lt_succ_self h.next))
  · exact hmade.trans (extends_openNumber hmade.fresh loc _ (Nat.lt_succ_self h.next))

theorem extends_openAt (hh : h.IsFresh) (loc : Location) (o : StoreOptions) :
    h.Extends (some dataFile) (openAt loc o h).2 := by
  unfold openAt
  split
  · exact hh.extends_self
  · next lock hlock =>
    -- the lock file is made
    have hlocked : h.Extends (some dataFile) (if (h.files.node? (loc ++ [lockFile])).isSome then h
        else h.putNode (loc ++ [lockFile]) (.file (.bytes ByteArray.empty))) := by
      split_ifs with hsome
      · exact hh.extends_self
      · exact hh.extends_putBytes (by simpa using hsome) _
    generalize (if (h.files.node? (loc ++ [lockFile])).isSome then h
      else h.putNode (loc ++ [lockFile]) (.file (.bytes ByteArray.empty))) = t at hlocked
    refine hlocked.trans ?_
    dsimp only
    split
    · exact hlocked.fresh.extends_self
    · next content hcontent =>
      unfold openData
      split
      · next hnone => cases hnone
      · next number heq =>
        cases heq
        exact extends_openNumber hlocked.fresh loc _ (hlocked.fresh.refers hcontent rfl)
      · exact hlocked.fresh.extends_self
      · next b heq =>
        cases heq
        split_ifs with hempty
        · exact extends_openNew hlocked.fresh _ fun n hn => by
            rw [hcontent] at hn
            exact ⟨b, (Option.some.inj hn).symm, hempty⟩
        · exact hlocked.fresh.extends_self
    · next hnone =>
      exact extends_openNew hlocked.fresh _ fun n hn => by rw [hnone] at hn; cases hn

theorem extends_open (hh : h.IsFresh) (held : List EnvironmentHandle) (path : String)
    (o : StoreOptions) (create : Bool) :
    h.Extends (some dataFile) (Environment.open held path o create h).2 := by
  unfold Environment.open
  split
  · exact hh.extends_self
  · next files hfiles =>
    have hadds : h.Extends (some dataFile) { h with files } :=
      hh.extends_files (FileTree.adds_of_ensureDirectory hfiles)
    dsimp only
    split
    · exact hadds
    · split_ifs
      · exact hadds
      · split
        · exact hadds
        · exact hadds.trans (extends_openAt hadds.fresh _ o)

end Environment

namespace TableFile

variable {h : Host} {file : Option String}

theorem extends_openTable (hh : h.IsFresh) {t : TableHandle} (ht : t.number < h.next) :
    h.Extends file (openTable t h).2 := by
  unfold openTable
  split_ifs
  · exact hh.extends_ensureCells ht _
  · exact hh.extends_self

theorem extends_openContent (hh : h.IsFresh) {loc : Location} {content : Content}
    (hcontent : h.files.node? loc = some (.file content)) (table : String) (writable : Bool) :
    h.Extends file (openContent loc content table writable h).2 := by
  unfold openContent
  split
  · next number => exact extends_openTable hh (hh.refers hcontent rfl)
  · exact hh.extends_self
  · next b =>
    split_ifs with hsize
    · exact hh.extends_self
    · have hput : h.Extends file (h.takeNumber.2.putNode loc (.file (.database h.next))) :=
        hh.extends_putNode file loc (.database h.next)
          (fun n hn => by
            rw [hcontent] at hn
            exact ⟨b, (Option.some.inj hn).symm, not_not.1 hsize⟩) rfl nofun
      exact hput.trans (extends_openTable hput.fresh (Nat.lt_succ_self h.next))
    · exact hh.extends_self

theorem extends_openFile (hh : h.IsFresh) (given path table : String) (create writable : Bool) :
    h.Extends file (openFile given path table create writable h).2 := by
  unfold openFile
  dsimp only
  split
  · exact hh.extends_self
  · next loc hloc =>
    split
    · exact hh.extends_self
    · next content hcontent =>
      split_ifs
      · exact hh.extends_self
      · exact extends_openContent hh hcontent table writable
    · next hnone =>
      split_ifs
      · exact hh.extends_self
      · exact hh.extends_putBytes hnone _
      · have hput : h.Extends file (h.putNode loc (.file (.bytes ByteArray.empty))) :=
          hh.extends_putBytes hnone _
        refine hput.trans (extends_openContent hput.fresh ?_ table writable)
        show (h.files.put loc _).node? loc = _
        rw [FileTree.node?_put (by simp [hnone]), if_pos rfl]

theorem extends_openMemory (hh : h.IsFresh) {held : List TableHandle}
    (hheld : ∀ t ∈ held, t.number < h.next) (share : Option String) (table : String)
    (writable : Bool) : h.Extends file (openMemory held share table writable h).2 := by
  unfold openMemory
  split_ifs
  · exact hh.extends_self
  · split
    · next t ht => exact extends_openTable hh (hheld t (List.mem_of_find?_eq_some ht))
    · have htake : h.Extends file h.takeNumber.2 := hh.extends_takeNumber
      exact htake.trans (extends_openTable htake.fresh (Nat.lt_succ_self h.next))

theorem extends_open (hh : h.IsFresh) {held : List TableHandle}
    (hheld : ∀ t ∈ held, t.number < h.next) (path table : String) (create : Bool) :
    h.Extends file (TableFile.open held path table create h).2 := by
  unfold TableFile.open
  split
  · exact hh.extends_self
  · exact hh.extends_self
  · next target _ _ =>
    cases target with
    | memory share writable => exact extends_openMemory hh hheld share table writable
    | file name create writable => exact extends_openFile hh path name table create writable

end TableFile

/-- Making a table leaves those that exist. -/
theorem Server.table?_ensureTable {s : Server} {database table other name : String}
    {rows : RowTable} (h : s.table? other name = some rows) :
    (s.ensureTable database table).table? other name = some rows := by
  unfold ensureTable
  split
  · exact h
  · next hnone =>
    simp only [putTable, table?, Entries.modify] at h hnone ⊢
    cases hd : s.databases.get? database with
    | none => simpa [hd] using h
    | some tables =>
      simp only [hd, Option.bind_some] at hnone ⊢
      rw [Entries.get?_insert]
      split_ifs with ho
      · subst ho
        simp only [hd, Option.bind_some, Entries.get?_insert] at h ⊢
        rw [if_neg, h]
        rintro rfl
        rw [hnone] at h; cases h
      · exact h

namespace RowServer

/-- Who is connected to has the database. -/
theorem connectHost_eq_ok {c : Conninfo} {database : String} {host : Option ServerPlace}
    {port : Nat} {server : Option Server} {found : Server}
    (h : connectHost c database host port server = .ok found) :
    server = some found ∧ (found.databases.get? database).isSome = true := by
  unfold connectHost at h
  split at h
  · cases h
  · split_ifs at h with _ _ _ _ hdatabase
    cases h
    refine ⟨rfl, ?_⟩
    rw [Bool.or_eq_true, not_or] at hdatabase
    simpa [Option.isSome_iff_ne_none] using hdatabase.1

theorem connectAny_eq_ok {c : Conninfo} {database : String} {server : Option Server}
    {found : Server} {failure : ServerError} {index : Nat} {hosts : List ServerPlace}
    (h : connectAny c database server failure index hosts = .ok found) :
    server = some found ∧ (found.databases.get? database).isSome = true := by
  induction hosts generalizing failure index with
  | nil => cases h
  | cons host hosts ih =>
    unfold connectAny at h
    split at h
    · next hok => cases h; exact connectHost_eq_ok hok
    · exact ih h

/-- Connecting finds the server itself, with the database. -/
theorem connect_eq_ok {c : Conninfo} {database? : Option String} {server : Option Server}
    {found : Server} {database : String}
    (h : connect c database? server = .ok (found, database)) :
    server = some found ∧ (found.databases.get? database).isSome = true := by
  unfold connect at h
  split at h
  · cases h
  · split at h
    · cases h
    · obtain ⟨_, hfound, heq⟩ := Except.map_eq_ok_iff.1 h
      cases heq
      exact connectAny_eq_ok hfound

theorem extends_open {h : Host} {file : Option String} (hh : h.IsFresh) (conninfo table : String) :
    h.Extends file (RowServer.open conninfo table h).2 := by
  unfold RowServer.open
  split
  · exact hh.extends_self
  · exact hh.extends_self
  · split
    · exact hh.extends_self
    · next server database hconnect =>
      obtain ⟨hserver, -⟩ := connect_eq_ok hconnect
      exact {
        (hh.extends_self : h.Extends file h) with
        server := by
          intro other name rows hrows
          simp only [Host.serverTable?, hserver, Option.bind_some] at hrows ⊢
          exact Server.table?_ensureTable hrows
        fresh := { hh with } }

end RowServer

namespace EngineConfig

/-- The name of the file that refers to the keyspace of an engine. -/
def keyspaceFile? : EngineConfig → Option String
  | lmdb _ => some Environment.dataFile
  | fjall _ => some Journal.marker
  | memory _ | mdbx _ | rocksdb _ | sqlite .. | postgres .. => none

/-- **Opening any engine, whatever comes of it, leaves all that is stored.** -/
theorem extends_open {h : Host} (hh : h.IsFresh) {held : List Handle}
    (hheld : ∀ t ∈ held.filterMap (·.table?), t.number < h.next) (c : EngineConfig) :
    h.Extends c.keyspaceFile? (c.open held h).2 := by
  cases c with
  | memory shared => exact hh.extends_newMap shared
  | lmdb d => exact Environment.extends_open hh _ _ _ _
  | mdbx | rocksdb => exact hh.extends_self
  | fjall d => exact Journal.extends_open hh _ _ _
  | sqlite path table create => exact TableFile.extends_open hh hheld path table create
  | postgres conninfo table => exact RowServer.extends_open hh _ _

end EngineConfig

end TypedStore
