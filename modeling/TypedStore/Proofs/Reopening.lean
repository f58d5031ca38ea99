/-
  TypedStore — closing a facade and opening it again.

  An engine that keeps its data on files or on a server has them when it is
  opened again by the same settings, whether or not missing things may be made
  then.

  * `EngineConfig.isOpen_of_open`, `EngineConfig.open_of_isOpen`: what opening
    leaves, and that it is enough to open again without any change;
  * `EngineConfig.preserves_isOpen`: no operation of the facade takes it away;
  * `reopening_is_invisible`: so a run has the same answers if the facade is
    closed and opened again in between, and opening alters nothing that exists.
-/
import Mathlib
import TypedStore.Proofs.Engines
import TypedStore.Proofs.Reachable

namespace TypedStore

/-! ## Operations on an open engine -/

theorem Host.peak_reach (h : Host) (n pages : Nat) :
    (h.reach n pages).peak n = max (h.peak n) pages := by
  unfold reach
  split_ifs with hle
  · exact (max_eq_left hle).symm
  · have hpeak : ({ h with peaks := h.peaks.insert n pages } : Host).peak n = pages := by
      simp only [peak, Entries.get?_insert, if_true, Option.getD_some]
    rw [hpeak, max_eq_right (by omega)]

namespace Environment

variable {e : EnvironmentHandle} {path : String} {o : StoreOptions} {h : Host}

theorem IsOpen.putKeyspace (hisOpen : IsOpen path o e h) (m : ByteMap) :
    IsOpen path o e (h.putKeyspace e.number m) := { hisOpen with }

/-- A write that fits leaves enough pages for opening again. -/
theorem IsOpen.reach (hisOpen : IsOpen path o e h) {pages : Nat}
    (hpages : basePages + pages ≤ e.pages) : IsOpen path o e (h.reach e.number pages) := by
  have hagain : pagesFor o.effectiveMapSize (h.pages e.number) (max (h.peak e.number) pages) =
      e.pages := by
    have hopened := hisOpen.pages
    unfold pagesFor at hopened ⊢
    omega
  have hpeak := h.peak_reach e.number pages
  unfold Host.reach at hpeak ⊢
  split_ifs at hpeak ⊢
  · exact hisOpen
  · exact { hisOpen with pages := by rw [hpeak]; exact hagain }

theorem preserves_isOpen : e.byteStore.Preserves (IsOpen path o e) where
  put {key bytes h t} ht hisOpen := by
    obtain ⟨-, -, hneeded, rfl⟩ := EnvironmentHandle.put_eq_ok ht
    refine (hisOpen.putKeyspace _).reach ?_
    dsimp only [neededPages] at hneeded
    omega
  delete ht hisOpen := by
    obtain ⟨_, -, ht⟩ := Except.bind_eq_ok_iff.1 ht
    cases ht
    exact hisOpen.putKeyspace _
  truncate ht hisOpen := by
    cases ht
    exact hisOpen.putKeyspace _

end Environment

namespace Journal

theorem preserves_isOpen {path : String} {j : JournalHandle} :
    j.byteStore.Preserves (IsOpen path j) where
  put ht hisOpen := by
    obtain ⟨_, -, ht⟩ := Except.bind_eq_ok_iff.1 ht
    cases ht
    exact { hisOpen with }
  delete ht hisOpen := by
    obtain ⟨_, -, ht⟩ := Except.bind_eq_ok_iff.1 ht
    cases ht
    exact { hisOpen with }
  truncate ht hisOpen := by
    cases ht
    exact { hisOpen with }

end Journal

namespace TableFile

variable {path table : String} {t : TableHandle}

theorem Serves.update {target : TablePath.Target} {change : CellTable → CellTable} {h u : Host}
    (hserves : Serves target table t h) (hu : t.update change h = .ok u) :
    Serves target table t u := by
  unfold TableHandle.update at hu
  split at hu <;> cases hu
  refine { hserves with made := ?_ }
  rw [Host.tables_putCells, if_pos rfl, hserves.opened, Entries.contains, Entries.get?_insert,
    if_pos rfl]
  rfl

/-- Whatever is asked of a table, it stays open. -/
theorem preserves_serves {target : TablePath.Target} :
    t.byteStore.Preserves (Serves target table t) where
  put hu hserves := by simp only [TableHandle.byteStore] at hu; exact hserves.update hu
  delete hu hserves := by
    simp only [TableHandle.byteStore, TableHandle.delete] at hu
    split at hu
    · cases hu; exact hserves
    · exact hserves.update hu
  truncate hu hserves := by simp only [TableHandle.byteStore] at hu; exact hserves.update hu

theorem preserves_isOpen : t.byteStore.Preserves (IsOpen path table t) where
  put hu hisOpen := { hisOpen with serves := preserves_serves.put hu hisOpen.serves }
  delete hu hisOpen := { hisOpen with serves := preserves_serves.delete hu hisOpen.serves }
  truncate hu hisOpen := { hisOpen with serves := preserves_serves.truncate hu hisOpen.serves }

end TableFile

namespace RowServer

variable {conninfo table : String} {t : RowHandle}

theorem IsOpen.update {h u : Host} (hisOpen : IsOpen conninfo table t h) {key : String}
    {change : RowTable → RowTable} (hu : t.update key change h = .ok u) :
    IsOpen conninfo table t u := by
  obtain ⟨c, server, hc, hserver, hconnect, -⟩ := hisOpen.reach
  obtain ⟨⟨found, rows⟩, hreach, hu⟩ := Except.bind_eq_ok_iff.1 hu
  cases hu
  obtain ⟨hfound, -, -⟩ := RowHandle.reach_eq_ok hreach
  obtain rfl : server = found := Option.some.inj (hserver.symm.trans hfound)
  obtain ⟨-, hdatabase⟩ := connect_eq_ok hconnect
  refine ⟨hisOpen.name, hisOpen.handle, c, _, hc, rfl, ?_, change rows, ?_⟩
  · rw [connect_of_alike fun _ => alike_putTable server t.database t.table _ _, hconnect]
    rfl
  · rw [hisOpen.handle]
    exact table?_putTable hdatabase _

theorem preserves_isOpen : t.byteStore.Preserves (IsOpen conninfo table t) := by
  refine ⟨fun hu hisOpen => ?_, fun hu hisOpen => ?_, fun hu hisOpen => ?_⟩ <;>
    · simp only [RowHandle.byteStore] at hu
      exact hisOpen.update hu

end RowServer

/-! ## Engines -/

/-- An engine that keeps its data when nobody has it open. -/
def EngineConfig.IsDurable : EngineConfig → Prop
  | lmdb _ | fjall _ | postgres .. => True
  | sqlite path _ _ => TablePath.IsPlain path
  | memory _ | mdbx _ | rocksdb _ => False

/-- The same settings, but for whether missing things may be made. -/
def EngineConfig.withCreate (create : Bool) : EngineConfig → EngineConfig
  | memory shared => memory shared
  | lmdb d => lmdb { d with createIfMissing := create }
  | mdbx d => mdbx { d with createIfMissing := create }
  | rocksdb d => rocksdb { d with createIfMissing := create }
  | fjall d => fjall { d with createIfMissing := create }
  | sqlite path table _ => sqlite path table create
  | postgres conninfo table => postgres conninfo table

/-- A handle is open by some settings. -/
def EngineConfig.IsOpen : EngineConfig → Handle → Host → Prop
  | lmdb d, .environment e => Environment.IsOpen d.path d.options e
  | fjall d, .journal j => Journal.IsOpen d.path j
  | sqlite path table _, .table t => TableFile.IsOpen path table t
  | postgres conninfo table, .rows t => RowServer.IsOpen conninfo table t
  | _, _ => fun _ => False

/-- While the second handle is held, the first one cannot be opened. -/
def Handle.IsLockedBy : Handle → Handle → Prop
  | environment e, environment other => other.location = e.location
  | journal j, journal other => other.number = j.number
  | _, _ => False

namespace EngineConfig

variable {c : EngineConfig} {handle : Handle} {held : List Handle} {h : Host}

theorem isOpen_of_open {s : Session} (hs : s.Sound) (hc : c.IsDurable) {t : Host}
    (hopen : c.open s.handles s.host = (.ok handle, t)) :
    c.IsOpen handle t ∧ ∀ other ∈ s.handles, ¬ handle.IsLockedBy other := by
  cases c with
  | memory | mdbx | rocksdb => exact hc.elim
  | lmdb d =>
    obtain ⟨e, he, rfl⟩ := Except.pair_map_eq_ok_iff.1 hopen
    obtain ⟨hisOpen, hfree⟩ := Environment.isOpen_of_open hs.fresh he
    refine ⟨hisOpen, fun other hother hlocked => ?_⟩
    cases other with
    | environment e' => exact hfree e' (List.mem_filterMap.2 ⟨_, hother, rfl⟩) hlocked
    | map | store | table | journal | rows => exact hlocked
  | fjall d =>
    obtain ⟨j, hj, rfl⟩ := Except.pair_map_eq_ok_iff.1 hopen
    obtain ⟨hisOpen, hfree⟩ := Journal.isOpen_of_open hs.number_lt_of_journal? hj
    refine ⟨hisOpen, fun other hother hlocked => ?_⟩
    cases other with
    | journal j' => exact hfree j' (List.mem_filterMap.2 ⟨_, hother, rfl⟩) hlocked
    | map | store | table | environment | rows => exact hlocked
  | sqlite path table create =>
    obtain ⟨t, ht, rfl⟩ := Except.pair_map_eq_ok_iff.1 hopen
    exact ⟨TableFile.isOpen_of_open hc ht, fun _ _ => id⟩
  | postgres conninfo table =>
    obtain ⟨t, ht, rfl⟩ := Except.pair_map_eq_ok_iff.1 hopen
    exact ⟨RowServer.isOpen_of_open ht, fun _ _ => id⟩

/-- An engine that is open by some settings is opened by them once more, without
    any change. -/
theorem open_of_isOpen (hisOpen : c.IsOpen handle h)
    (hfree : ∀ other ∈ held, ¬ handle.IsLockedBy other) (create : Bool) :
    (c.withCreate create).open held h = (.ok handle, h) := by
  cases c with
  | memory | mdbx | rocksdb => exact hisOpen.elim
  | lmdb d =>
    cases handle with
    | map | store | table | journal | rows => exact hisOpen.elim
    | environment e =>
      refine Except.pair_map_eq_ok_iff.2 ⟨e, Environment.open_of_isOpen hisOpen ?_ create, rfl⟩
      intro other hother
      obtain ⟨x, hx, heq⟩ := List.mem_filterMap.1 hother
      cases x with
      | environment => cases heq; exact hfree _ hx
      | map | store | table | journal | rows => cases heq
  | fjall d =>
    cases handle with
    | map | store | table | environment | rows => exact hisOpen.elim
    | journal j =>
      refine Except.pair_map_eq_ok_iff.2 ⟨j, Journal.open_of_isOpen hisOpen ?_ create, rfl⟩
      intro other hother
      obtain ⟨x, hx, heq⟩ := List.mem_filterMap.1 hother
      cases x with
      | journal => cases heq; exact hfree _ hx
      | map | store | table | environment | rows => cases heq
  | sqlite path table =>
    cases handle with
    | map | store | journal | environment | rows => exact hisOpen.elim
    | table t =>
      exact Except.pair_map_eq_ok_iff.2 ⟨t, TableFile.open_of_isOpen hisOpen create, rfl⟩
  | postgres conninfo table =>
    cases handle with
    | map | store | table | journal | environment => exact hisOpen.elim
    | rows t => exact Except.pair_map_eq_ok_iff.2 ⟨t, RowServer.open_of_isOpen hisOpen, rfl⟩

/-- No operation on an open engine takes away what opening needs. -/
theorem preserves_isOpen (hisOpen : c.IsOpen handle h) :
    handle.backend.Preserves (c.IsOpen handle) := by
  cases c with
  | memory | mdbx | rocksdb => exact hisOpen.elim
  | lmdb d =>
    cases handle with
    | map | store | table | journal | rows => exact hisOpen.elim
    | environment e => exact Environment.preserves_isOpen.packed
  | fjall d =>
    cases handle with
    | map | store | table | environment | rows => exact hisOpen.elim
    | journal j => exact Journal.preserves_isOpen.packed
  | sqlite path table =>
    cases handle with
    | map | store | journal | environment | rows => exact hisOpen.elim
    | table t => exact TableFile.preserves_isOpen.packed
  | postgres conninfo table =>
    cases handle with
    | map | store | table | journal | environment => exact hisOpen.elim
    | rows t => exact RowServer.preserves_isOpen.packed

end EngineConfig

/-! ## Runs -/

namespace Session

/-- Whether an action is an operation of some facade. -/
def isOperation : Step Action → Bool
  | ⟨_, .through ..⟩ => true
  | ⟨_, .open ..⟩ | ⟨_, .openMap ..⟩ | ⟨_, .openStore ..⟩ | ⟨_, .close _⟩ | ⟨_, .take ..⟩
  | ⟨_, .directly ..⟩ | ⟨_, .putImage ..⟩ | ⟨_, .wipe _⟩ | ⟨_, .putRow ..⟩ | ⟨_, .changeFiles _⟩
  | ⟨_, .changeServer _⟩ => false

/-- The first run has operations of one facade only.  The second one is the
    same, but the facade is closed at any points, and opened again by the same
    settings, with missing things made or not. -/
inductive Reopened (name : String) (c : EngineConfig) :
    List (Step Action) → List (Step Action) → Prop where
  | nil : Reopened name c [] []
  | through {α : Type} (op : Operation α) {run run' : List (Step Action)} :
    Reopened name c run run' →
      Reopened name c (⟨_, .through name op⟩ :: run) (⟨_, .through name op⟩ :: run')
  | reopen (create : Bool) {run run' : List (Step Action)} : Reopened name c run run' →
    Reopened name c run (⟨_, .close name⟩ :: ⟨_, .open name (c.withCreate create)⟩ :: run')

/-- Two sessions with the same host and the same facades. -/
structure Same (s t : Session) : Prop where
  host : t.host = s.host
  handle? (name) : t.handle? name = s.handle? name

theorem Same.refl (s : Session) : Same s s := ⟨rfl, fun _ => rfl⟩

variable {s t : Session} {name : String} {c : EngineConfig} {handle : Handle}

/-- The facade of a name is open by some settings, and nobody else has what it
    is open on. -/
structure Holds (s : Session) (name : String) (c : EngineConfig) (handle : Handle) : Prop where
  held : s.handle? name = some handle
  isOpen : c.IsOpen handle s.host
  free {other x} : other ≠ name → s.handle? other = some x → ¬ handle.IsLockedBy x

theorem Sound.holds_of_open (hs : s.Sound) (hc : c.IsDurable)
    (hopen : s.open name c = (.ok handle, t)) : t.Holds name c handle := by
  obtain ⟨h, hengine, rfl⟩ := open_eq_ok hopen
  obtain ⟨hisOpen, hfree⟩ := EngineConfig.isOpen_of_open hs hc hengine
  refine ⟨by rw [handle?_hold, if_pos rfl], hisOpen, fun {other x} hne hx => ?_⟩
  rw [handle?_hold, if_neg hne] at hx
  exact hfree x (mem_handles.2 ⟨other, hx⟩)

theorem Holds.through (hs : s.Holds name c handle) {α : Type} (op : Operation α) :
    (machine.next ⟨_, .through name op⟩ s).Holds name c handle := by
  refine ⟨hs.held, ?_, hs.free⟩
  show c.IsOpen handle ((s.facade name).perform op s.host).2
  rw [facade_of_handle? hs.held]
  exact (EngineConfig.preserves_isOpen hs.isOpen).facade op hs.isOpen

/-- Closing a facade and opening it again succeeds, and changes nothing. -/
theorem Holds.reopen (hs : s.Holds name c handle) (hst : Same s t) (create : Bool) :
    ∃ u, (t.close name).open name (c.withCreate create) = (.ok handle, u) ∧ Same s u := by
  have hfree : ∀ other ∈ (t.close name).handles, ¬ handle.IsLockedBy other := by
    intro x hx
    obtain ⟨other, hother⟩ := mem_handles.1 hx
    rw [close, handle?_hold] at hother
    split_ifs at hother with hne
    rw [hst.handle?] at hother
    exact hs.free hne hother
  have hopen := EngineConfig.open_of_isOpen hs.isOpen hfree create
  rw [← hst.host] at hopen
  refine ⟨_, open_of_eq_ok hopen, hst.host, fun other => ?_⟩
  rw [handle?_hold]
  split_ifs with hne
  · rw [hne, hs.held]
  · show (t.close name).handle? other = s.handle? other
    rw [close, handle?_hold, if_neg hne, hst.handle?]

/-- What is asked of a facade does not depend on how sessions came to be the
    same. -/
theorem Same.through (hst : Same s t) (name : String) {α : Type} (op : Operation α) :
    machine.answer ⟨_, .through name op⟩ t = machine.answer ⟨_, .through name op⟩ s ∧
      Same (machine.next ⟨_, .through name op⟩ s) (machine.next ⟨_, .through name op⟩ t) := by
  have hfacade : t.facade name = s.facade name := by rw [facade, facade, hst.handle?]
  simp only [Machine.answer, Machine.next, machine, onHost, hfacade, hst.host, true_and]
  exact ⟨rfl, hst.handle?⟩

/-- A run in which a facade is closed and opened again. -/
theorem Holds.run (hs : s.Holds name c handle) (hst : Same s t) {run run' : List (Step Action)}
    (h : Reopened name c run run') :
    machine.answersOf isOperation run' t = machine.answers run s ∧
      (∀ answer ∈ machine.answersOf (fun i => !isOperation i) run' t, answer.isOk = true) ∧
      Same (machine.after run s) (machine.after run' t) := by
  induction h generalizing s t with
  | nil => exact ⟨rfl, nofun, hst⟩
  | through op _ ih =>
    obtain ⟨hanswer, hnext⟩ := hst.through name op
    obtain ⟨hanswers, hoks, hafter⟩ := ih (hs.through op) hnext
    rw [Machine.answersOf_cons_of_pos _ rfl, Machine.answersOf_cons_of_neg _ rfl, Machine.answers,
      hanswer, hanswers]
    exact ⟨rfl, hoks, hafter⟩
  | reopen create _ ih =>
    obtain ⟨u, hopen, hsu⟩ := hs.reopen hst create
    obtain ⟨hanswers, hoks, hafter⟩ := ih hs hsu
    have hanswer : machine.answer ⟨_, .open name (c.withCreate create)⟩ (t.close name) =
        ⟨_, .ok handle.backend.name⟩ := by
      show (⟨_, ((t.close name).open name (c.withCreate create)).1.map _⟩ : Answer) = _
      rw [hopen]
      rfl
    have hnext : machine.next ⟨_, .open name (c.withCreate create)⟩ (t.close name) = u := by
      show ((t.close name).open name (c.withCreate create)).2 = u
      rw [hopen]
    have hclose : machine.next ⟨_, .close name⟩ t = t.close name := rfl
    refine ⟨?_, ?_, ?_⟩
    · rw [Machine.answersOf_cons_of_neg _ rfl, hclose, Machine.answersOf_cons_of_neg _ rfl, hnext,
        hanswers]
    · rw [Machine.answersOf_cons_of_pos _ rfl, hclose, Machine.answersOf_cons_of_pos _ rfl, hnext,
        hanswer]
      intro answer hmem
      rcases List.mem_cons.1 hmem with rfl | hmem
      · rfl
      · rcases List.mem_cons.1 hmem with rfl | hmem
        · rfl
        · exact hoks answer hmem
    · rw [Machine.after_cons, hclose, Machine.after_cons, hnext]
      exact hafter

end Session

/-- **Closing and opening again is invisible.**  Let a facade be opened, in any
    state that a session reaches, over an engine that keeps its data on files
    or on a server.  In every run of operations of the facade it can be closed
    and opened again by the same settings, at any points and as often as one
    likes, with missing things made or not: each opening succeeds, the
    operations have the answers that they have without it, and the host is the
    same in the end.  And opening anything, whatever comes of it, alters no
    keyspace and no table that exists, and takes no file from either. -/
theorem reopening_is_invisible {s : Session} (hs : s.Reachable) :
    (∀ {name : String} {c : EngineConfig} {handle : Handle} {t : Session}
        {run run' : List (Step Session.Action)},
      c.IsDurable → s.open name c = (.ok handle, t) → Session.Reopened name c run run' →
      Session.machine.answersOf Session.isOperation run' t = Session.machine.answers run t ∧
      (∀ answer ∈ Session.machine.answersOf (fun i => !Session.isOperation i) run' t,
        answer.isOk = true) ∧
      (Session.machine.after run' t).host = (Session.machine.after run t).host) ∧
    ∀ (name : String) (c : EngineConfig), let t := (s.open name c).2
      (∀ n, t.host.keyspace n = s.host.keyspace n) ∧
      (∀ n table, t.host.cells n table = s.host.cells n table) ∧
      (∀ database table rows, s.host.serverTable? database table = some rows →
        t.host.serverTable? database table = some rows) ∧
      ∀ loc content n, content.number? = some n →
        s.host.files.node? loc = some (.file content) →
          t.host.files.node? loc = some (.file content) := by
  refine ⟨fun {name c handle t run run'} hc hopen hrun => ?_, fun name c => ?_⟩
  · have hholds : t.Holds name c handle := hs.sound.holds_of_open hc hopen
    obtain ⟨hanswers, hoks, hafter⟩ := hholds.run (.refl t) hrun
    exact ⟨hanswers, hoks, hafter.host⟩
  · have hext := EngineConfig.extends_open hs.sound.fresh hs.sound.number_lt_of_table? c
    have hhost : (s.open name c).2.host = (c.open s.handles s.host).2 := by
      unfold Session.open
      split <;> next heq => rw [heq] <;> rfl
    intro t
    rw [show t.host = (c.open s.handles s.host).2 from hhost]
    exact ⟨hext.keyspace, hext.cells, fun _ _ _ => hext.server, fun _ _ _ hnumber hn =>
      hext.kept hn hnumber⟩

/-- An environment that is closed and opened again after a write, without being
    allowed to make anything. -/
theorem reopening_is_invisible_lmdb :
    let c : EngineConfig := .lmdb { path := "data" }
    let write : Step Session.Action := ⟨_, .through "db" (.set "k" (.native .bool true))⟩
    let read : Step Session.Action := ⟨_, .through "db" (.get "k" .bool)⟩
    let run' := [write, ⟨_, .close "db"⟩, ⟨_, .open "db" (c.withCreate false)⟩, read]
    Session.Reachable {} ∧ c.IsDurable ∧ Session.Reopened "db" c [write, read] run' ∧
    ∃ handle t, ({} : Session).open "db" c = (.ok handle, t) ∧
      Session.machine.answersOf Session.isOperation run' t =
        Session.machine.answers [write, read] t := by
  intro c write read run'
  have hdurable : c.IsDurable := trivial
  have hrun : Session.Reopened "db" c [write, read] run' := .through _ (.reopen false (.through _ .nil))
  have hok : (({} : Session).open "db" c).1.isOk = true := by cbv
  obtain ⟨handle, hhandle⟩ := Except.isOk_iff.1 hok
  have hopen : ({} : Session).open "db" c = (.ok handle, (({} : Session).open "db" c).2) :=
    Prod.ext hhandle rfl
  exact ⟨.start, hdurable, hrun, handle, _, hopen,
    ((reopening_is_invisible .start).1 hdurable hopen hrun).1⟩

end TypedStore
