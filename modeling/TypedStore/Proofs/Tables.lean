/-
  TypedStore — facades on the tables of a database.

  A table is known by its database and its name: in a file or in memory up to
  the case of ASCII letters, on the server exactly.

  * `Handle.AgreesOn`: two hosts have the same in a table; whatever is asked of
    another table leaves it so (`Handle.preserves_agreesOn`), and so does
    opening (`Handle.AgreesOn.extends`), and what is asked of this one is answered
    alike on both hosts (`Handle.simulates_agreesOn`);
  * `Session.heardOn`: all that facades on a table are asked in a run;
  * `tables_are_isolated`: it is answered as if nothing else happened, and as if
    they were one facade, and it is what the statements on the table do.
-/
import Mathlib
import TypedStore.Proofs.Letters
import TypedStore.Proofs.Simulation
import TypedStore.Proofs.Statements
import TypedStore.Proofs.Wiping

namespace TypedStore

/-! ## Names of tables -/

/-- The same character, or both cases of an ASCII letter. -/
def SameLetter (c d : Char) : Prop :=
  c = d ∨ c.isUpper = true ∧ d.toNat = c.toNat + 32 ∨ d.isUpper = true ∧ c.toNat = d.toNat + 32

theorem toLower_eq_iff {c d : Char} : c.toLower = d.toLower ↔ SameLetter c d := by
  rw [← Char.toNat_inj, toNat_toLower, toNat_toLower]
  unfold SameLetter
  simp only [← Char.toNat_inj, isUpper_iff]
  split_ifs <;> omega

/-- Two names of tables are the same up to the case of ASCII letters. -/
def SameName (a b : String) : Prop := List.Forall₂ SameLetter a.toList b.toList

theorem foldName_eq_iff {a b : String} : foldName a = foldName b ↔ SameName a b := by
  unfold foldName SameName
  rw [← String.toList_inj, String.toList_map, String.toList_map, ← List.forall₂_eq_eq_eq,
    List.forall₂_map_left_iff, List.forall₂_map_right_iff]
  simp only [toLower_eq_iff]

/-! ## Tables -/

/-- A table of a database in a file or in memory, by the name that it goes by,
    or of a database of the server. -/
inductive SqlTable where
  | cells (number : Nat) (name : String)
  | rows (database table : String)
  deriving DecidableEq

namespace Handle

/-- The table that a handle has open. -/
def sqlTable? : Handle → Option SqlTable
  | table t => some (.cells t.number (foldName t.table))
  | rows t => some (.rows t.database t.table)
  | map _ | store _ | journal _ | environment _ => none

/-- The handle on another table of the same database. -/
def withTable : Handle → String → Handle
  | table t, name => table { t with table := name }
  | rows t, name => rows { t with table := name }
  | map name, _ => map name
  | store name, _ => store name
  | journal j, _ => journal j
  | environment e, _ => environment e

/-- The handle that may write the same. -/
def writer : Handle → Handle
  | table t => table { t with writable := true }
  | map name => map name
  | store name => store name
  | journal j => journal j
  | environment e => environment e
  | rows t => rows t

/-- Whether a handle was opened for writing. -/
def mayWrite : Handle → Bool
  | table t => t.writable
  | map _ | store _ | journal _ | environment _ | rows _ => true

/-- Two hosts have the same in a table, and the file of its database is in the
    same places. -/
def AgreesOn : Handle → Host → Host → Prop
  | table t, h, h' => t.rows h = t.rows h' ∧ ∀ loc,
    h.files.node? loc = some (.file (.database t.number)) ↔
      h'.files.node? loc = some (.file (.database t.number))
  | rows t, h, h' => ∃ rows, h.serverTable? t.database t.table = some rows ∧
    h'.serverTable? t.database t.table = some rows
  | map _, _, _ | store _, _, _ | journal _, _, _ | environment _, _, _ => True

variable {x y : Handle} {h h' u : Host}

theorem AgreesOn.of_eq (hy : y.AgreesOn h h') (hfiles : u.files = h.files)
    (hdatabases : u.databases = h.databases) (hserver : u.server = h.server) :
    y.AgreesOn u h' := by
  cases y with
  | table t =>
    have hrows : t.rows u = t.rows h := by
      simp only [TableHandle.rows, Host.cells, Host.tables, hdatabases]
    refine ⟨hrows.trans hy.1, fun loc => ?_⟩
    rw [hfiles]
    exact hy.2 loc
  | rows t =>
    obtain ⟨rows, hrows, hrows'⟩ := hy
    exact ⟨rows, by rw [← hrows, Host.serverTable?, Host.serverTable?, hserver], hrows'⟩
  | map | store | journal | environment => trivial

end Handle

namespace Server

/-- What is put into a table is not seen in another one. -/
theorem table?_putTable_of_ne {s : Server} {database table other name : String}
    (hne : ¬ (other = database ∧ name = table)) (rows : RowTable) :
    (s.putTable database table rows).table? other name = s.table? other name := by
  simp only [putTable, table?, Entries.modify]
  cases hd : s.databases.get? database with
  | none => rfl
  | some tables =>
    simp only [Entries.get?_insert]
    by_cases ho : other = database
    · subst ho
      have hname : name ≠ table := fun heq => hne ⟨rfl, heq⟩
      simp only [if_true, Option.bind_some, Entries.get?_insert, if_neg hname, hd]
    · simp only [if_neg ho]

end Server

namespace Handle

variable {x y : Handle} {h h' u : Host}

theorem AgreesOn.putCells (hy : y.AgreesOn h h') {t : TableHandle}
    (hne : (table t).sqlTable? ≠ y.sqlTable?) (cells : CellTable) :
    y.AgreesOn (h.putCells t.number t.table cells) h' := by
  cases y with
  | table t' =>
    refine ⟨?_, hy.2⟩
    have hrows : t'.rows (h.putCells t.number t.table cells) = t'.rows h := by
      refine (Host.cells_putCells t.number t'.number t.table t'.table cells).trans (if_neg ?_)
      rintro ⟨hnumber, hname⟩
      exact hne (by simp only [sqlTable?, hnumber, hname])
    exact hrows.trans hy.1
  | rows t' => exact hy
  | map | store | journal | environment => trivial

theorem AgreesOn.putTable (hy : y.AgreesOn h h') {t : RowHandle}
    (hne : (rows t).sqlTable? ≠ y.sqlTable?) {server : Server} (hserver : h.server = some server)
    (found : RowTable) :
    y.AgreesOn { h with server := some (server.putTable t.database t.table found) } h' := by
  cases y with
  | table t' => exact hy
  | rows t' =>
    obtain ⟨rows, hrows, hrows'⟩ := hy
    refine ⟨rows, ?_, hrows'⟩
    rw [Host.serverTable?, hserver] at hrows
    refine (Server.table?_putTable_of_ne ?_ found).trans hrows
    rintro ⟨hdatabase, htable⟩
    exact hne (by simp only [sqlTable?, hdatabase, htable])
  | map | store | journal | environment => trivial

/-- What is asked of an engine leaves every other table as it is. -/
theorem preserves_agreesOn (hne : x.sqlTable? ≠ y.sqlTable?) (h' : Host) :
    x.backend.Preserves fun h => y.AgreesOn h h' := by
  cases x with
  | map name =>
    have htrivial : (Backend.tagged name.backendName).Preserves fun _ => True :=
      ⟨fun _ _ => trivial, fun _ _ => trivial, fun _ _ => trivial⟩
    exact htrivial.within (fun _ _ => trivial) fun _ _ hy _ => hy.of_eq rfl rfl rfl
  | store name =>
    exact ByteStore.Preserves.packed (ByteMap.preserves_of_put fun _ _ hy => hy.of_eq rfl rfl rfl)
  | table t =>
    exact ByteStore.Preserves.packed
      (TableHandle.preserves_of_put fun _ rows hy => hy.putCells hne rows)
  | journal j =>
    exact ByteStore.Preserves.packed
      (JournalHandle.preserves_of_put fun _ _ hy => hy.of_eq rfl rfl rfl)
  | environment e =>
    refine ByteStore.Preserves.packed (EnvironmentHandle.preserves_of_put
      (fun _ _ hy => hy.of_eq rfl rfl rfl) fun h pages hy => hy.of_eq (h.files_reach _ _) ?_ ?_)
    all_goals
      unfold Host.reach
      split_ifs <;> rfl
  | rows t =>
    exact ByteStore.Preserves.packed
      (RowHandle.preserves_of_put fun _ _ rows hserver hy => hy.putTable hne hserver rows)

/-- Opening leaves every table as it is. -/
theorem AgreesOn.extends {file : Option String} (hy : y.AgreesOn h h') (hext : h.Extends file u)
    (hlt : ∀ n, y.number? = some n → n < h.next) : y.AgreesOn u h' := by
  cases y with
  | table t =>
    refine ⟨(hext.cells t.number t.table).trans hy.1, fun loc => ?_⟩
    rw [← hy.2 loc]
    constructor
    · intro hn
      rcases hext.made hn rfl with hn | ⟨hle, -⟩
      · exact hn
      · have hold := hlt t.number rfl
        omega
    · exact fun hn => hext.kept hn rfl
  | rows t =>
    obtain ⟨rows, hrows, hrows'⟩ := hy
    exact ⟨rows, hext.server hrows, hrows'⟩
  | map | store | journal | environment => trivial

end Handle

/-! ## One table -/

namespace TableHandle

variable {t x : TableHandle} {h h' : Host}
  (hx : (Handle.table x).sqlTable? = (Handle.table t).sqlTable?)
include hx

theorem number_eq : x.number = t.number := (SqlTable.cells.inj (Option.some.inj hx)).1

theorem foldName_table_eq : foldName x.table = foldName t.table :=
  (SqlTable.cells.inj (Option.some.inj hx)).2

theorem rows_eq (h : Host) : x.rows h = t.rows h := by
  simp only [rows, Host.cells, number_eq hx, foldName_table_eq hx]

theorem canWrite_eq (hy : (Handle.table t).AgreesOn h h') : x.canWrite h = x.canWrite h' := by
  unfold canWrite isAttached
  cases x.location with
  | none => rfl
  | some loc =>
    have hplace := hy.2 loc
    rw [← number_eq hx] at hplace
    simp only [hplace]

theorem agreesOn_putCells (hy : (Handle.table t).AgreesOn h h') (cells : CellTable) :
    (Handle.table t).AgreesOn (h.putCells x.number x.table cells)
      (h'.putCells x.number x.table cells) := by
  refine ⟨?_, hy.2⟩
  have hput (h : Host) : t.rows (h.putCells x.number x.table cells) = cells :=
    (h.cells_putCells x.number t.number x.table t.table cells).trans
      (if_pos ⟨(number_eq hx).symm, (foldName_table_eq hx).symm⟩)
  rw [hput, hput]

/-- Rows are changed alike where they and the file of the database are the
    same. -/
theorem matches_update (hy : (Handle.table t).AgreesOn h h') (change : CellTable → CellTable) :
    Matches (Handle.table t).AgreesOn (x.update change h) (x.update change h') := by
  have hrows : x.rows h = x.rows h' := by rw [rows_eq hx, rows_eq hx, hy.1]
  unfold update
  rw [canWrite_eq hx hy, hrows]
  split_ifs
  · exact .ok (agreesOn_putCells hx hy _)
  · exact .error _

theorem simulates_agreesOn : x.byteStore.Simulates x.byteStore (Handle.table t).AgreesOn where
  put hy := by simp only [byteStore]; exact matches_update hx hy _
  get {key h h'} hy := by
    show Except.ok _ = Except.ok _
    rw [rows_eq hx, rows_eq hx, hy.1]
  delete {key h h'} hy := by
    show Matches _ (x.delete key h) (x.delete key h')
    have hrows : x.rows h = x.rows h' := by rw [rows_eq hx, rows_eq hx, hy.1]
    unfold delete
    rw [hrows]
    split_ifs
    · exact .ok hy
    · exact matches_update hx hy _
  truncate hy := by simp only [byteStore]; exact matches_update hx hy _

/-- Handles of one table in one place that may both write are alike. -/
theorem byteStore_eq (hlocation : x.location = t.location) (hwritable : x.writable = t.writable) :
    x.byteStore = t.byteStore := by
  have hrows : x.rows = t.rows := funext (rows_eq hx)
  have hcanWrite : x.canWrite = t.canWrite := by
    funext h
    unfold canWrite isAttached
    rw [hlocation, hwritable, number_eq hx]
  have hput (h : Host) : h.putCells x.number x.table = h.putCells t.number t.table := by
    funext cells
    simp only [Host.putCells, number_eq hx, foldName_table_eq hx]
  have hupdate : x.update = t.update := by
    funext change h
    simp only [update, hcanWrite, hput, hrows]
  have hdelete : x.delete = t.delete := by
    funext key h
    simp only [delete, hrows, hupdate, hwritable]
  simp only [byteStore, hrows, hupdate, hdelete]

end TableHandle

namespace RowHandle

variable {t : RowHandle} {h h' : Host}

theorem matches_reach (hy : (Handle.rows t).AgreesOn h h') (key : String) :
    (∃ e, t.reach key h = .error e ∧ t.reach key h' = .error e) ∨
      ∃ server server' rows, t.reach key h = .ok (server, rows) ∧
        t.reach key h' = .ok (server', rows) := by
  obtain ⟨rows, hrows, hrows'⟩ := hy
  obtain ⟨server, hserver, htable⟩ := Option.bind_eq_some_iff.1 hrows
  obtain ⟨server', hserver', htable'⟩ := Option.bind_eq_some_iff.1 hrows'
  unfold reach
  simp only [hserver, hserver', htable, htable']
  split_ifs
  · exact Or.inl ⟨_, rfl, rfl⟩
  · exact Or.inr ⟨_, _, _, rfl, rfl⟩

theorem serverTable?_putTable {server : Server} {rows : RowTable}
    (hreach : t.reach key h = .ok (server, rows)) (found : RowTable) :
    Host.serverTable? { h with server := some (server.putTable t.database t.table found) }
      t.database t.table = some found := by
  obtain ⟨-, htable, -⟩ := reach_eq_ok hreach
  obtain ⟨tables, htables, -⟩ := Option.bind_eq_some_iff.1 htable
  exact RowServer.table?_putTable (Option.isSome_iff_exists.2 ⟨tables, htables⟩) found

theorem matches_update (hy : (Handle.rows t).AgreesOn h h') (key : String)
    (change : RowTable → RowTable) :
    Matches (Handle.rows t).AgreesOn (t.update key change h) (t.update key change h') := by
  unfold update
  rcases matches_reach hy key with ⟨e, he, he'⟩ | ⟨server, server', rows, hreach, hreach'⟩
  · rw [he, he']
    exact .error e
  · rw [hreach, hreach']
    exact .ok ⟨change rows, serverTable?_putTable hreach _, serverTable?_putTable hreach' _⟩

theorem simulates_agreesOn : t.byteStore.Simulates t.byteStore (Handle.rows t).AgreesOn where
  put hy := by simp only [byteStore]; exact matches_update hy _ _
  get {key h h'} hy := by
    simp only [byteStore]
    rcases matches_reach hy key with ⟨e, he, he'⟩ | ⟨server, server', rows, hreach, hreach'⟩
    · rw [he, he']
    · rw [hreach, hreach']
      rfl
  delete hy := by simp only [byteStore]; exact matches_update hy _ _
  truncate hy := by simp only [byteStore]; exact matches_update hy _ _

theorem eq_of_sqlTable? {x : RowHandle}
    (hx : (Handle.rows x).sqlTable? = (Handle.rows t).sqlTable?) : x = t := by
  obtain ⟨hdatabase, htable⟩ := SqlTable.rows.inj (Option.some.inj hx)
  obtain ⟨database, table⟩ := x
  obtain rfl : database = t.database := hdatabase
  obtain rfl : table = t.table := htable
  rfl

end RowHandle

namespace Handle

variable {x y : Handle}

/-- What is asked of a table is answered alike where the table is the same. -/
theorem simulates_agreesOn (hx : x.sqlTable? = y.sqlTable?) (hy : y.sqlTable?.isSome) :
    x.backend.Simulates x.backend y.AgreesOn := by
  cases y with
  | map | store | journal | environment => cases hy
  | table t =>
    cases x with
    | table x => exact (TableHandle.simulates_agreesOn hx).packed
    | map | store | journal | environment | rows => cases hx
  | rows t =>
    cases x with
    | rows x =>
      obtain rfl := RowHandle.eq_of_sqlTable? hx
      exact RowHandle.simulates_agreesOn.packed
    | map | store | journal | environment | table => cases hx

/-- On one table and in one place, all that may write are alike. -/
theorem backend_eq_writer (hx : x.sqlTable? = y.sqlTable?) (hfile : x.file? = y.file?)
    (hy : y.sqlTable?.isSome) (hwrite : x.mayWrite = true) : x.backend = y.writer.backend := by
  cases y with
  | map | store | journal | environment => cases hy
  | table t =>
    cases x with
    | table x =>
      have hwriter : (table x).sqlTable? = (table { t with writable := true }).sqlTable? := hx
      exact congrArg ByteStore.packed (TableHandle.byteStore_eq hwriter hfile hwrite)
    | map | store | journal | environment | rows => cases hx
  | rows t =>
    cases x with
    | rows x =>
      obtain rfl := RowHandle.eq_of_sqlTable? hx
      rfl
    | map | store | journal | environment | table => cases hx

/-- On one table all read alike. -/
theorem fetch_eq_writer (hx : x.sqlTable? = y.sqlTable?) (hy : y.sqlTable?.isSome) :
    x.backend.fetch = y.writer.backend.fetch := by
  cases y with
  | map | store | journal | environment => cases hy
  | table t =>
    cases x with
    | table x =>
      have hrows : x.rows = t.rows := funext (TableHandle.rows_eq hx)
      funext key kind h
      exact ByteStore.fetch_congr (congrArg Except.ok (by rw [hrows]; rfl)) kind
    | map | store | journal | environment | rows => cases hx
  | rows t =>
    cases x with
    | rows x =>
      obtain rfl := RowHandle.eq_of_sqlTable? hx
      rfl
    | map | store | journal | environment | table => cases hx

/-- Handles on one table with one number are in one place. -/
theorem file?_eq (hx : x.sqlTable? = y.sqlTable?) (hy : y.sqlTable?.isSome)
    (hsame : ∀ n, y.number? = some n → x.number? = some n → x.file? = y.file?) :
    x.file? = y.file? := by
  cases y with
  | map | store | journal | environment => cases hy
  | table t =>
    cases x with
    | table x => exact hsame t.number rfl (congrArg some (TableHandle.number_eq hx))
    | map | store | journal | environment | rows => cases hx
  | rows t =>
    cases x with
    | rows x => rfl
    | map | store | journal | environment | table => cases hx

/-- Nothing is changed through a handle that may not write. -/
theorem isOk_of_not_mayWrite {α : Type} (hwrite : x.mayWrite = false) {op : Operation α}
    (hop : op.change?.isSome) (h : Host) :
    ((Facade.ofBackend x.backend).perform op h).1.isOk = false := by
  cases x with
  | map | store | journal | environment | rows => cases hwrite
  | table t =>
    have hwrite : t.writable = false := hwrite
    have hupdate (change : CellTable → CellTable) : (t.update change h).isOk = false := by
      simp only [TableHandle.update, TableHandle.canWrite, hwrite, Bool.false_and,
        Bool.false_eq_true, if_false]
      rfl
    have hdelete (key : String) : (t.delete key h).isOk = false := by
      simp only [TableHandle.delete, hwrite, Bool.false_and, Bool.false_eq_true, if_false, hupdate]
    refine Facade.isOk_of_change (fun key v => ?_) hdelete ?_ hop
    · show (t.byteStore.putValue key v h).isOk = false
      unfold ByteStore.putValue
      split
      · simp only [TableHandle.byteStore, hupdate]
      · exact hdelete key
    · show (t.byteStore.truncate h).isOk = false
      simp only [TableHandle.byteStore, hupdate]

/-! ## Runs -/

/-- An operation that is asked of a handle. -/
abbrev Asked (α : Type) : Type 1 := Handle × Operation α

/-- What operations do that are asked of handles, on a host alone. -/
def machine : Machine Asked Host where
  act asked h := (Facade.ofBackend asked.1.backend).perform asked.2 h

/-- The operation, whatever it is asked of. -/
def operation (asked : Step Asked) : Step Operation := ⟨asked.1, asked.2.2⟩

/-- Whether an operation may be made through the handle that it is asked of: it
    may write, or nothing is written. -/
def isAble (asked : Step Asked) : Bool := asked.2.1.mayWrite || asked.2.2.change?.isNone

theorem perform_writer (hx : x.sqlTable? = y.sqlTable?) (hfile : x.file? = y.file?)
    (hy : y.sqlTable?.isSome) {α : Type} {op : Operation α} (hable : isAble ⟨α, x, op⟩ = true) :
    (Facade.ofBackend x.backend).perform op = (Facade.ofBackend y.writer.backend).perform op := by
  rcases Bool.or_eq_true_iff.1 hable with hwrite | hread
  · rw [backend_eq_writer hx hfile hy hwrite]
  · have hread := Option.isNone_iff_eq_none.1 hread
    exact funext (Facade.perform_congr_of_fetch (fetch_eq_writer hx hy) hread)

theorem isOk_of_not_isAble {asked : Step Asked} (hable : isAble asked = false) (h : Host) :
    (machine.answer asked h).isOk = false ∧ machine.next asked h = h := by
  obtain ⟨hwrite, hread⟩ := Bool.or_eq_false_iff.1 hable
  have hfail := isOk_of_not_mayWrite hwrite (by simpa using hread) h
  exact ⟨hfail, Facade.perform_of_not_isOk _ asked.2.2 h hfail⟩

/-- Operations on one table are answered as by one facade that may write, but
    for those that may not be made, which fail. -/
theorem answers_writer (hy : y.sqlTable?.isSome) {heard : List (Step Asked × Answer)}
    (hheard : ∀ e ∈ heard, e.1.2.1.sqlTable? = y.sqlTable? ∧ e.1.2.1.file? = y.file?) {h : Host}
    (hanswers : machine.answers (heard.map Prod.fst) h = heard.map Prod.snd) :
    (Facade.ofBackend y.writer.backend).machine.answers
        ((heard.filter fun e => isAble e.1).map fun e => operation e.1) h =
      (heard.filter fun e => isAble e.1).map Prod.snd ∧
    ∀ e ∈ heard, isAble e.1 = false → e.2.isOk = false := by
  induction heard generalizing h with
  | nil => exact ⟨rfl, fun e he => absurd he List.not_mem_nil⟩
  | cons e heard ih =>
    obtain ⟨asked, answer⟩ := e
    obtain ⟨htable, hfile⟩ := hheard _ List.mem_cons_self
    simp only [List.map_cons, Machine.answers, List.cons.injEq] at hanswers
    obtain ⟨rfl, hanswers⟩ := hanswers
    obtain ⟨hrest, hfails⟩ := ih (fun e he => hheard e (List.mem_cons_of_mem _ he)) hanswers
    cases hable : isAble asked with
    | true =>
      have hperform := perform_writer htable hfile hy hable
      have hanswer : machine.answer asked h =
          (Facade.ofBackend y.writer.backend).machine.answer (operation asked) h :=
        congrArg (Sigma.mk asked.1) (congrArg Prod.fst (congrFun hperform h))
      have hnext : machine.next asked h =
          (Facade.ofBackend y.writer.backend).machine.next (operation asked) h :=
        congrArg Prod.snd (congrFun hperform h)
      refine ⟨?_, fun e he hno => ?_⟩
      · simp only [List.filter_cons, hable, if_true, List.map_cons, Machine.answers, hanswer,
          ← hrest, hnext]
      · rcases List.mem_cons.1 he with rfl | he
        · rw [hable] at hno; cases hno
        · exact hfails e he hno
    | false =>
      obtain ⟨hfail, hnext⟩ := isOk_of_not_isAble hable h
      rw [hnext] at hrest
      refine ⟨?_, fun e he hno => ?_⟩
      · simpa only [List.filter_cons, hable, Bool.false_eq_true, if_false] using hrest
      · rcases List.mem_cons.1 he with rfl | he
        · exact hfail
        · exact hfails e he hno

end Handle

namespace Session

variable {s t : Session} {T : SqlTable} {y : Handle} {h : Host}

/-- The operation that an action asks of a facade on a table. -/
def asks? (T : SqlTable) (s : Session) : Step Action → Option (Step Handle.Asked)
  | ⟨α, .through name op⟩ =>
    (s.handle? name).bind fun x => if x.sqlTable? = some T then some ⟨α, x, op⟩ else none
  | ⟨_, .open ..⟩ | ⟨_, .openMap ..⟩ | ⟨_, .openStore ..⟩ | ⟨_, .close _⟩ | ⟨_, .take ..⟩
  | ⟨_, .directly ..⟩ | ⟨_, .putImage ..⟩ | ⟨_, .wipe _⟩ | ⟨_, .putRow ..⟩ | ⟨_, .changeFiles _⟩
  | ⟨_, .changeServer _⟩ => none

/-- All that is asked of facades on a table in a run, with the answers. -/
def heardOn (T : SqlTable) : List (Step Action) → Session → List (Step Handle.Asked × Answer)
  | [], _ => []
  | i :: run, s =>
    match s.asks? T i with
    | some asked => (asked, machine.answer i s) :: heardOn T run (machine.next i s)
    | none => heardOn T run (machine.next i s)

/-- The table of a handle is on a host as it is in a session, whether or not the
    handle is open there still. -/
structure Follows (y : Handle) (s : Session) (h : Host) : Prop where
  sound : s.Sound
  placed : s.Placed
  marks : s.Marks y
  known {n} : y.number? = some n → n < s.host.next
  agrees : y.AgreesOn s.host h

theorem Follows.of_agreesOn (hf : Follows y s h) {i : Step Action} (hi : onFacades i = true)
    {u : Host} (hagrees : y.AgreesOn (machine.next i s).host u) :
    Follows y (machine.next i s) u := by
  have hpermits := s.permits_of_onFacades hi
  obtain ⟨held, hm⟩ := hf.sound.moves_next hpermits
  have hsound := hf.sound.next hpermits
  exact ⟨hsound, hf.placed.moves hm hf.sound hsound.fresh,
    hf.marks.moves hm hf.placed fun _ => hf.known,
    fun hn => (hf.known hn).trans_le hm.next, hagrees⟩

/-- What is asked of the table is answered on the host as in the session. -/
theorem Follows.asked (hf : Follows y s h) (hy : y.sqlTable? = some T) {i : Step Action}
    (hi : onFacades i = true) {asked : Step Handle.Asked} (hasked : s.asks? T i = some asked) :
    asked.2.1.sqlTable? = y.sqlTable? ∧ asked.2.1.file? = y.file? ∧
      machine.answer i s = Handle.machine.answer asked h ∧
      Follows y (machine.next i s) (Handle.machine.next asked h) := by
  obtain ⟨α, action⟩ := i
  cases action with
  | through name op =>
    obtain ⟨x, hx, hif⟩ := Option.bind_eq_some_iff.1 hasked
    split_ifs at hif with hT
    cases hif
    have htable : x.sqlTable? = y.sqlTable? := hT.trans hy.symm
    have hfile : x.file? = y.file? :=
      Handle.file?_eq htable (by rw [hy]; rfl) fun n =>
        hf.marks.same (n := n) (mem_handles.2 ⟨name, hx⟩)
    obtain ⟨hanswer, hagrees⟩ :=
      (Handle.simulates_agreesOn htable (by rw [hy]; rfl)).perform op hf.agrees
    have hact := act_through hx op
    refine ⟨htable, hfile, ?_, hf.of_agreesOn hi ?_⟩
    · exact congrArg (Sigma.mk α) ((congrArg Prod.fst hact).trans hanswer)
    · rw [show (machine.next ⟨α, .through name op⟩ s).host = _ from
        congrArg (fun r => r.2.host) hact]
      exact hagrees
  | «open» | openMap | openStore | close | take => cases hasked
  | directly | putImage | wipe | putRow | changeFiles | changeServer => cases hi

/-- Anything else leaves the table. -/
theorem Follows.other (hf : Follows y s h) (hy : y.sqlTable? = some T) {i : Step Action}
    (hi : onFacades i = true) (hnone : s.asks? T i = none) : Follows y (machine.next i s) h := by
  refine hf.of_agreesOn hi ?_
  obtain ⟨α, action⟩ := i
  cases action with
  | «open» name c => exact hf.agrees.extends (hf.sound.extends_open name c) fun _ => hf.known
  | openMap | close | take => exact hf.agrees
  | openStore => exact hf.agrees.of_eq rfl rfl rfl
  | through name op =>
    show y.AgreesOn ((s.facade name).perform op s.host).2 h
    cases hh : s.handle? name with
    | none =>
      rw [facade_of_closed hh, Facade.perform_closed]
      exact hf.agrees
    | some x =>
      simp only [asks?, hh, Option.bind_some, ite_eq_right_iff, reduceCtorEq, imp_false] at hnone
      rw [facade_of_handle? hh]
      exact (Handle.preserves_agreesOn (hy ▸ hnone) h).facade op hf.agrees
  | directly | putImage | wipe | putRow | changeFiles | changeServer => cases hi

/-- What is asked of a table in a run is answered as on a host where nothing
    else happens. -/
theorem Follows.answers_heardOn (hf : Follows y s h) (hy : y.sqlTable? = some T)
    {run : List (Step Action)} (hrun : ∀ i ∈ run, onFacades i = true) :
    Handle.machine.answers ((heardOn T run s).map Prod.fst) h = (heardOn T run s).map Prod.snd ∧
      ∀ e ∈ heardOn T run s, e.1.2.1.sqlTable? = y.sqlTable? ∧ e.1.2.1.file? = y.file? := by
  induction run generalizing s h with
  | nil => exact ⟨rfl, fun e he => absurd he List.not_mem_nil⟩
  | cons i run ih =>
    have hi := hrun i List.mem_cons_self
    have hrest : ∀ j ∈ run, onFacades j = true := fun j hj => hrun j (List.mem_cons_of_mem i hj)
    unfold heardOn
    split
    · next asked hasked =>
      obtain ⟨htable, hfile, hanswer, hnext⟩ := hf.asked hy hi hasked
      obtain ⟨hanswers, hheard⟩ := ih hnext hrest
      refine ⟨?_, fun e he => ?_⟩
      · rw [List.map_cons, List.map_cons, Machine.answers, hanswers, hanswer]
      · rcases List.mem_cons.1 he with rfl | he
        · exact ⟨htable, hfile⟩
        · exact hheard e he
    · next hnone => exact ih (hf.other hy hi hnone) hrest

/-- A table that is opened is on the host as it is in the session. -/
theorem Reachable.follows_of_open (hs : s.Reachable) {name : String} {c : EngineConfig}
    (hopen : s.open name c = (.ok y, t)) (hy : y.sqlTable? = some T) : Follows y t t.host := by
  have ht := hs.next ⟨_, .open name c⟩ trivial
  rw [show machine.next _ s = (s.open name c).2 from rfl, hopen] at ht
  obtain ⟨h, hengine, rfl⟩ := open_eq_ok hopen
  have hmem : y ∈ Session.handles ({ s with host := h }.hold name (some y)) :=
    mem_handles.2 ⟨name, by rw [handle?_hold, if_pos rfl]⟩
  refine ⟨ht.sound, ht.placed, (ht.placed y hmem).toMarks, fun hn => ht.sound.number hmem hn, ?_⟩
  cases y with
  | table x => exact ⟨rfl, fun _ => Iff.rfl⟩
  | rows x =>
    -- the server has the table, because it is open
    cases c with
    | postgres conninfo table =>
      obtain ⟨x, hx, heq⟩ := Except.pair_map_eq_ok_iff.1 hengine
      cases heq
      have hisOpen := RowServer.isOpen_of_open hx
      obtain ⟨_, server, -, hserver, -, rows, hrows⟩ := hisOpen.reach
      have htable : h.serverTable? x.database x.table = some rows := by
        rw [Host.serverTable?, hserver, hisOpen.handle]
        exact hrows
      exact ⟨rows, htable, htable⟩
    | memory | mdbx | rocksdb => cases hengine
    | lmdb | fjall | sqlite =>
      obtain ⟨_, -, heq⟩ := Except.pair_map_eq_ok_iff.1 hengine
      cases heq
  | map | store | journal | environment => cases hy

end Session

/-! ## Places of tables -/

/-- Where a table is: in the database at a location of the tree, or in a
    database of the server, under a name. -/
inductive TablePlace where
  | file (loc : Location) (name : String)
  | rows (database name : String)

namespace TablePlace

/-- Two places of one table: names in a file are the same up to the case of
    ASCII letters, those on the server if they are equal. -/
def Same : TablePlace → TablePlace → Prop
  | file loc name, file loc' name' => loc = loc' ∧ SameName name name'
  | rows database name, rows database' name' => database = database' ∧ name = name'
  | file .., rows .. | rows .., file .. => False

/-- A host has a table at a place. -/
def Has (h : Host) : TablePlace → SqlTable → Prop
  | file loc name, .cells n folded =>
    h.files.node? loc = some (.file (.database n)) ∧ foldName name = folded
  | rows database name, .rows database' name' => database = database' ∧ name = name'
  | file .., .rows .. | rows .., .cells .. => False

/-- Two places have one table if they are the same. -/
theorem eq_iff_same {h : Host} (hh : h.IsFresh) {p p' : TablePlace} {T T' : SqlTable}
    (hp : p.Has h T) (hp' : p'.Has h T') : T' = T ↔ p.Same p' := by
  cases p with
  | file loc name =>
    cases p' with
    | file loc' name' =>
      cases T with
      | rows => cases hp
      | cells n folded =>
        cases T' with
        | rows => cases hp'
        | cells n' folded' =>
          obtain ⟨hnode, rfl⟩ := hp
          obtain ⟨hnode', rfl⟩ := hp'
          rw [SqlTable.cells.injEq, Same, ← foldName_eq_iff]
          constructor
          · rintro ⟨rfl, hname⟩
            exact ⟨hh.once hnode hnode' rfl rfl, hname.symm⟩
          · rintro ⟨rfl, hname⟩
            rw [hnode] at hnode'
            cases hnode'
            exact ⟨rfl, hname.symm⟩
    | rows =>
      cases T with
      | rows => cases hp
      | cells =>
        cases T' with
        | rows => exact iff_of_false nofun id
        | cells => cases hp'
  | rows database name =>
    cases T with
    | cells => cases hp
    | rows =>
      obtain ⟨rfl, rfl⟩ := hp
      cases p' with
      | file =>
        cases T' with
        | cells => exact iff_of_false nofun id
        | rows => cases hp'
      | rows =>
        cases T' with
        | cells => cases hp'
        | rows =>
          obtain ⟨rfl, rfl⟩ := hp'
          rw [SqlTable.rows.injEq, Same, eq_comm, @eq_comm _ name]

end TablePlace

/-- The database that a connection string leads to. -/
def RowServer.databaseOf? (conninfo : String) : Option String :=
  (Conninfo.ofText? conninfo).bind fun c => c.user.map c.target

namespace EngineConfig

/-- The dialect and the name of the table of an engine that keeps one. -/
def sql? : EngineConfig → Option (Dialect × String)
  | sqlite _ table _ => some (.sqlite, table)
  | postgres _ table => some (.postgres, table)
  | memory _ | lmdb _ | mdbx _ | rocksdb _ | fjall _ => none

/-- Where the table is that the settings of an engine lead to, unless its
    database is in memory. -/
def place? : EngineConfig → Option TablePlace
  | sqlite path table create =>
    match TablePath.target path create with
    | .ok (.file name _ _) => some (.file (FileTree.normalise name) table)
    | .ok (.memory ..) | .error _ => none
  | postgres conninfo table => (RowServer.databaseOf? conninfo).map (.rows · table)
  | memory _ | lmdb _ | mdbx _ | rocksdb _ | fjall _ => none

theorem exists_sql_of_place {c : EngineConfig} {p : TablePlace} (hp : c.place? = some p) :
    ∃ named, c.sql? = some named := by
  cases c with
  | sqlite | postgres => exact ⟨_, rfl⟩
  | memory | lmdb | mdbx | rocksdb | fjall => cases hp

end EngineConfig

theorem RowServer.database_of_connect {c : Conninfo} {server : Option Server} {found : Server}
    {database : String} (h : connect c none server = .ok (found, database)) :
    c.user.map c.target = some database := by
  unfold connect at h
  split at h
  · cases h
  · next user huser =>
    split at h
    · cases h
    · obtain ⟨_, -, heq⟩ := Except.map_eq_ok_iff.1 h
      cases heq
      rw [huser]
      rfl

namespace Session

variable {s t : Session} {name : String} {c : EngineConfig} {handle : Handle}

/-- An engine that keeps a table is opened on one, and its name is one that
    statements can be made of. -/
theorem exists_table_of_open (hs : s.Sound) (hopen : s.open name c = (.ok handle, t))
    {d : Dialect} {table : String} (hsql : c.sql? = some (d, table)) :
    Statements.checkTableName table = .ok () ∧
      (∃ store, handle.byteStore? = some store ∧
        (handle.withTable table).byteStore? = some store) ∧
      ∃ T, handle.sqlTable? = some T ∧ ∀ p, c.place? = some p → p.Has t.host T := by
  cases c with
  | memory | lmdb | mdbx | rocksdb | fjall => cases hsql
  | sqlite path table create =>
    cases hsql
    obtain ⟨x, target, rfl, -, hname, htarget, hopened, -⟩ := open_sqlite_eq_ok hs hopen
    have hserves := TableFile.serves_of_openTarget hopened
    have hsame : (Handle.table x).withTable table = .table x := by
      rw [Handle.withTable, ← hserves.opened]
    refine ⟨hname, ⟨_, rfl, by rw [hsame]; rfl⟩, _, rfl, fun p hp => ?_⟩
    cases target with
    | memory => simp [EngineConfig.place?, htarget] at hp
    | file file create writable =>
      simp only [EngineConfig.place?, htarget, Option.some.injEq] at hp
      subst hp
      exact ⟨hserves.node rfl, by rw [hserves.opened]⟩
  | postgres conninfo table =>
    cases hsql
    obtain ⟨h, hengine, rfl⟩ := open_eq_ok hopen
    obtain ⟨x, hx, rfl⟩ := Except.pair_map_eq_ok_iff.1 hengine
    have hisOpen := RowServer.isOpen_of_open hx
    obtain ⟨c, server, hc, -, hconnect, -⟩ := hisOpen.reach
    have hsame : (Handle.rows x).withTable table = .rows x := by
      rw [Handle.withTable, ← hisOpen.handle]
    refine ⟨hisOpen.name, ⟨_, rfl, by rw [hsame]; rfl⟩, _, rfl, fun p hp => ?_⟩
    simp only [EngineConfig.place?, RowServer.databaseOf?, hc, Option.bind_some,
      RowServer.database_of_connect hconnect, Option.map_some, Option.some.injEq] at hp
    subst hp
    exact ⟨rfl, hisOpen.handle.symm⟩

/-- Facades leave every table where it is. -/
theorem Sound.has_after (hs : s.Sound) {run : List (Step Action)}
    (hrun : ∀ i ∈ run, onFacades i = true) {p : TablePlace} {T : SqlTable} (hp : p.Has s.host T) :
    (machine.after run s).Sound ∧ p.Has (machine.after run s).host T := by
  induction run generalizing s with
  | nil => exact ⟨hs, hp⟩
  | cons i run ih =>
    have hi := hrun i List.mem_cons_self
    refine ih (hs.next (permits_of_onFacades hi)) (fun j hj => hrun j (List.mem_cons_of_mem i hj)) ?_
    cases p with
    | file =>
      cases T with
      | cells => exact ⟨hs.kept_next hi rfl hp.1, hp.2⟩
      | rows => cases hp
    | rows =>
      cases T with
      | cells => cases hp
      | rows => exact hp

end Session

/-! ## Isolation -/

/-- **Tables are isolated from each other.**  In any state that a session
    reaches, let a facade be opened on a table, and let facades be opened, moved,
    closed and worked with in any way afterwards.

    All that facades on this table are asked is answered as on a host where
    nothing else happens, and as if one facade that may write were asked; what
    is written through a facade that may not write fails.  A facade that is
    opened later is on this table exactly if its settings lead to the same
    place: the names in one file are the same up to the case of ASCII letters,
    and those in one database of the server if they are equal.

    The store of the facade does what the five statements on the table make of
    the database.  Whatever the name contains, each of them is a fixed text of
    plain characters around it, and so does one deed to the table of this name
    and nothing else. -/
theorem tables_are_isolated {s t : Session} (hs : s.Reachable) {name : String} {c : EngineConfig}
    {handle : Handle} (hopen : s.open name c = (.ok handle, t)) {d : Dialect} {table : String}
    (hsql : c.sql? = some (d, table)) {run : List (Step Session.Action)}
    (hrun : ∀ i ∈ run, Session.onFacades i = true) :
    ∃ T, handle.sqlTable? = some T ∧
      (let heard := Session.heardOn T run t
       let able := heard.filter fun e => Handle.isAble e.1
       Handle.machine.answers (heard.map Prod.fst) t.host = heard.map Prod.snd ∧
         (Facade.ofBackend handle.writer.backend).machine.answers
           (able.map fun e => Handle.operation e.1) t.host = able.map Prod.snd ∧
         ∀ e ∈ heard, Handle.isAble e.1 = false → e.2.isOk = false) ∧
      (∀ p c' p' name' handle' u, c.place? = some p → c'.place? = some p' →
        (Session.machine.after run t).open name' c' = (.ok handle', u) →
          (handle'.sqlTable? = some T ↔ p.Same p')) ∧
      ∃ statements store, Statements.ofTable d table = .ok statements ∧
        handle.byteStore? = some store ∧
        statements.Runs d (fun other => (handle.withTable other).byteStore?) store ∧
        statements.all.map (Statements.read? d) =
          Statements.deeds.map (fun deed => some (deed, table)) ∧
        (∀ text ∈ statements.all, Statements.target? text = some table) ∧
        statements.all = (Statements.frames d).map (·.around (Identifier.quote table)) ∧
        ∀ f ∈ Statements.frames d, f.isPlain = true ∧
          Identifier.pieces? (f.around (Identifier.quote table)).toList =
            some (f.front.toList.map .plain ++
              .name table.toList :: f.back.toList.map .plain) := by
  obtain ⟨hname, ⟨store, hstore, htable⟩, T, hT, hplace⟩ :=
    Session.exists_table_of_open hs.sound hopen hsql
  have hfollows := hs.follows_of_open hopen hT
  refine ⟨T, hT, ?_, fun p c' p' name' handle' u hp hp' hopen' => ?_, ?_⟩
  · obtain ⟨hanswers, hheard⟩ := hfollows.answers_heardOn hT hrun
    have hsome : handle.sqlTable?.isSome := by rw [hT]; rfl
    exact ⟨hanswers, Handle.answers_writer hsome hheard hanswers⟩
  · -- the first table is where it was, when the second one is opened
    obtain ⟨hsound, hhas⟩ := hfollows.sound.has_after hrun (hplace p hp)
    obtain ⟨⟨d', table'⟩, hsql'⟩ := EngineConfig.exists_sql_of_place hp'
    obtain ⟨-, -, T', hT', hplace'⟩ := Session.exists_table_of_open hsound hopen' hsql'
    have hlast : ∀ i ∈ [(⟨_, .open name' c'⟩ : Step Session.Action)], Session.onFacades i = true :=
      List.forall_mem_singleton.2 rfl
    have hlater := hsound.has_after hlast hhas
    have hstep : Session.machine.after [(⟨_, .open name' c'⟩ : Step Session.Action)]
        (Session.machine.after run t) = u := congrArg Prod.snd hopen'
    rw [hstep] at hlater
    rw [hT', Option.some.injEq]
    exact TablePlace.eq_iff_same hlater.1.fresh hlater.2 (hplace' p' hp')
  · have hs : Statements.ofTable d table = .ok (.ofQuoted d (Identifier.quote table)) :=
      Statements.ofTable_eq_ok_iff.2 ⟨hname, rfl⟩
    exact ⟨_, store, hs, hstore, Statements.runs_ofTable hs htable, Statements.map_read?_all hs,
      fun text htext => Statements.target?_of_mem hs htext, Statements.all_ofQuoted d _,
      fun f hf => Statements.splits_of_mem_frames hf table⟩

/-- Two tables in one file, and one of them under two names. -/
theorem tables_are_isolated_quoted :
    let c : EngineConfig := .sqlite "kv.db" "kv" true
    let run : List (Step Session.Action) := [
      ⟨_, .open "other" (.sqlite "kv.db" "kv\"; DROP TABLE kv" true)⟩,
      ⟨_, .open "same" (.sqlite "kv.db" "KV" true)⟩,
      ⟨_, .through "same" (.set "k" (.native .bool true))⟩,
      ⟨_, .through "other" .clear⟩,
      ⟨_, .through "db" (.get "k" .bool)⟩]
    ∃ t, ({} : Session).open "db" c = (.ok (.table firstTable), t) ∧
      (let heard := Session.heardOn (.cells 0 (foldName "kv")) run t
       Handle.machine.answers (heard.map Prod.fst) t.host = heard.map Prod.snd) := by
  intro c run
  obtain ⟨t, hopen, -⟩ := open_firstTable target_kv
  obtain ⟨T, hT, ⟨hanswers, -⟩, -⟩ := tables_are_isolated .start hopen rfl
    (show ∀ i ∈ run, Session.onFacades i = true by simp [run, Session.onFacades])
  cases hT
  exact ⟨t, hopen, hanswers⟩

end TypedStore
