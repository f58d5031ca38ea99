/-
  TypedStore — the states that a session can reach.

  A session begins with an empty host and without facades.  Backends are called
  through facades or below them, and other programs bring no references to
  keyspaces and databases into files that did not have them.

  * `Session.Sound`: numbers are given out once, a keyspace belongs to an
    environment or to a journaling database but not to both, and no key of an
    environment is too long;
  * `Session.Sound.next`: whatever is permitted keeps a session sound;
    `Session.Reachable.sound` says so of every state that is reached.
-/
import TypedStore.Proofs.Engines

namespace TypedStore

/-- The number of the keyspace or database that a handle works on. -/
def Handle.number? : Handle → Option Nat
  | table t => some t.number
  | journal j => some j.number
  | environment e => some e.number
  | map _ | store _ | rows _ => none

/-- A file of a name refers to the keyspace of a number. -/
def Host.Refers (h : Host) (file : String) (n : Nat) : Prop :=
  ∃ loc, h.files.node? loc = some (.file (.keyspace n)) ∧ loc.getLast? = some file

/-- No key of a keyspace is longer than an environment takes. -/
def ByteMap.IsShort (m : ByteMap) : Prop :=
  ∀ key bytes, m.get? key = some bytes → key.utf8ByteSize ≤ Environment.greatestKey

namespace Session

/-- What is permitted in a state.  Below facades only those backends are called
    that are open, or that are on no file; and files that are changed from
    outside refer to nothing that they did not refer to before. -/
def Permits (s : Session) : Step Action → Prop
  | ⟨_, .directly handle _⟩ => handle ∈ s.handles ∨ handle.number? = none
  | ⟨_, .changeFiles change⟩ => ∀ loc content n, content.number? = some n →
    (change s.host.files).node? loc = some (.file content) →
      s.host.files.node? loc = some (.file content)
  | ⟨_, .open ..⟩ | ⟨_, .openMap ..⟩ | ⟨_, .openStore ..⟩ | ⟨_, .close _⟩ | ⟨_, .take ..⟩
  | ⟨_, .through ..⟩ | ⟨_, .putImage ..⟩ | ⟨_, .wipe _⟩ | ⟨_, .putRow ..⟩ | ⟨_, .changeServer _⟩ =>
    True

/-- The states that are reached from an empty host by what is permitted. -/
inductive Reachable : Session → Prop where
  | start : Reachable {}
  | next {s : Session} (i : Step Action) : Reachable s → s.Permits i → Reachable (machine.next i s)

/-! ## Facades -/

variable {s : Session} {name other : String} {handle : Handle}

theorem handle?_hold (s : Session) (name : String) (held : Option Handle) (other : String) :
    (s.hold name held).handle? other = if other = name then held else s.handle? other := by
  simp only [handle?, hold, Entries.get?_insert]
  split_ifs <;> rfl

/-- What is held is what some facade is open on. -/
theorem mem_handles : handle ∈ s.handles ↔ ∃ name, s.handle? name = some handle := by
  simp only [handles, List.mem_filterMap, Prod.exists, handle?, Option.join_eq_some_iff]
  constructor
  · rintro ⟨name, _, hmem, rfl⟩
    exact ⟨name, (s.facades.mem_toList name _).1 hmem⟩
  · rintro ⟨name, hget⟩
    exact ⟨name, some handle, (s.facades.mem_toList name _).2 hget, rfl⟩

theorem mem_handles_hold {held : Option Handle} (h : handle ∈ (s.hold name held).handles) :
    held = some handle ∨ handle ∈ s.handles := by
  obtain ⟨other, hother⟩ := mem_handles.1 h
  rw [handle?_hold] at hother
  split_ifs at hother
  · exact Or.inl hother
  · exact Or.inr (mem_handles.2 ⟨other, hother⟩)

/-- A facade that is opened holds what its engine is opened as. -/
theorem open_eq_ok {c : EngineConfig} {t : Session} (hopen : s.open name c = (.ok handle, t)) :
    ∃ h, c.open s.handles s.host = (.ok handle, h) ∧
      t = { s with host := h }.hold name (some handle) := by
  unfold Session.open at hopen
  split at hopen
  · next handle h heq =>
    cases hopen
    exact ⟨h, heq, rfl⟩
  · cases hopen

theorem open_of_eq_ok {c : EngineConfig} {h : Host}
    (hopen : c.open s.handles s.host = (.ok handle, h)) :
    s.open name c = (.ok handle, { s with host := h }.hold name (some handle)) := by
  unfold Session.open
  rw [hopen]

theorem open_of_eq_error {c : EngineConfig} {e : StoreError} {h : Host}
    (hopen : c.open s.handles s.host = (.error e, h)) :
    s.open name c = (.error e, { s with host := h }) := by
  unfold Session.open
  rw [hopen]

/-! ## Sound sessions -/

/-- A number is that of an environment. -/
def IsEnvironment (s : Session) (n : Nat) : Prop :=
  s.host.Refers Environment.dataFile n ∨ ∃ e, .environment e ∈ s.handles ∧ e.number = n

/-- A number is that of a journaling database. -/
def IsJournal (s : Session) (n : Nat) : Prop :=
  s.host.Refers Journal.marker n ∨ ∃ j, .journal j ∈ s.handles ∧ j.number = n

/-- What holds of a session at all times. -/
structure Sound (s : Session) : Prop where
  fresh : s.host.IsFresh
  number {handle n} : handle ∈ s.handles → handle.number? = some n → n < s.host.next
  apart {n} : s.IsEnvironment n → ¬ s.IsJournal n
  short {n} : s.IsEnvironment n → (s.host.keyspace n).IsShort

theorem Sound.lt_of_isEnvironment (hs : s.Sound) {n : Nat} (h : s.IsEnvironment n) :
    n < s.host.next := by
  rcases h with ⟨loc, hn, -⟩ | ⟨e, he, rfl⟩
  · exact hs.fresh.refers hn rfl
  · exact hs.number he rfl

theorem Sound.lt_of_isJournal (hs : s.Sound) {n : Nat} (h : s.IsJournal n) : n < s.host.next := by
  rcases h with ⟨loc, hn, -⟩ | ⟨j, hj, rfl⟩
  · exact hs.fresh.refers hn rfl
  · exact hs.number hj rfl

/-- What a handle works on is there, as what it is for. -/
def Knows (s : Session) : Handle → Prop
  | .table t => t.number < s.host.next
  | .journal j => s.IsJournal j.number
  | .environment e => s.IsEnvironment e.number
  | .map _ | .store _ | .rows _ => True

theorem Sound.knows (hs : s.Sound) (hhandle : handle ∈ s.handles) : s.Knows handle := by
  cases handle with
  | table t => exact hs.number hhandle rfl
  | journal j => exact Or.inr ⟨j, hhandle, rfl⟩
  | environment e => exact Or.inr ⟨e, hhandle, rfl⟩
  | map | store | rows => trivial

/-- A session stays sound if nothing new is referred to. -/
theorem Sound.mono (hs : s.Sound) {t : Session} (hfresh : t.host.IsFresh)
    (hnext : s.host.next ≤ t.host.next) (hhandles : ∀ handle ∈ t.handles, s.Knows handle)
    (hrefers : ∀ file n, t.host.Refers file n → s.host.Refers file n)
    (hshort : ∀ n, s.IsEnvironment n → (t.host.keyspace n).IsShort) : t.Sound := by
  have henvironment {n : Nat} (h : t.IsEnvironment n) : s.IsEnvironment n := by
    rcases h with h | ⟨e, he, rfl⟩
    · exact Or.inl (hrefers _ n h)
    · exact hhandles _ he
  have hjournal {n : Nat} (h : t.IsJournal n) : s.IsJournal n := by
    rcases h with h | ⟨j, hj, rfl⟩
    · exact Or.inl (hrefers _ n h)
    · exact hhandles _ hj
  refine ⟨hfresh, fun {handle n} hmem hnumber => ?_, fun h h' => ?_, fun h => ?_⟩
  · have hknows := hhandles handle hmem
    refine lt_of_lt_of_le ?_ hnext
    cases handle with
    | table t => cases hnumber; exact hknows
    | journal j => cases hnumber; exact hs.lt_of_isJournal hknows
    | environment e => cases hnumber; exact hs.lt_of_isEnvironment hknows
    | map | store | rows => cases hnumber
  · exact hs.apart (henvironment h) (hjournal h')
  · exact hshort _ (henvironment h)

/-- The facades of a program are given up when it ends. -/
theorem Sound.alone (hs : s.Sound) : Sound { host := s.host } :=
  hs.mono hs.fresh le_rfl (fun _ hmem => nomatch hmem) (fun _ _ => id) fun _ => hs.short

/-- A facade is moved, closed, or opened on something that is there. -/
theorem Sound.hold (hs : s.Sound) {held : Option Handle}
    (hheld : ∀ handle, held = some handle → s.Knows handle) : (s.hold name held).Sound := by
  refine hs.mono hs.fresh le_rfl (fun handle hmem => ?_) (fun _ _ => id) (fun _ => hs.short)
  rcases mem_handles_hold hmem with heq | hmem
  · exact hheld handle heq
  · exact hs.knows hmem

/-- A host with the same files and keyspaces. -/
theorem Sound.of_files (hs : s.Sound) {t : Host} (hfresh : t.IsFresh)
    (hnext : t.next = s.host.next) (hfiles : t.files = s.host.files)
    (hkeyspaces : ∀ n, s.IsEnvironment n → (t.keyspace n).IsShort) :
    Sound { s with host := t } := by
  refine hs.mono hfresh hnext.ge (fun _ => hs.knows) (fun file n h => ?_) hkeyspaces
  obtain ⟨loc, hn, hlast⟩ := h
  exact ⟨loc, hfiles ▸ hn, hlast⟩

/-! ## Backends -/

end Session

/-- What succeeds in the byte store keeps `P`. -/
structure ByteStore.Preserves {σ : Type} (store : ByteStore σ) (P : σ → Prop) : Prop where
  put {key bytes s t} : store.put key bytes s = .ok t → P s → P t
  delete {key s t} : store.delete key s = .ok t → P s → P t
  truncate {s t} : store.truncate s = .ok t → P s → P t

theorem ByteStore.Preserves.packed {σ : Type} {store : ByteStore σ} {P : σ → Prop}
    (h : store.Preserves P) : store.packed.Preserves P where
  put {key v s t} ht hs := by
    have ht : store.putValue key v s = .ok t := ht
    unfold putValue at ht
    split at ht
    · exact h.put ht hs
    · exact h.delete ht hs
  remove ht hs := h.delete ht hs
  clear ht hs := h.truncate ht hs

/-! ### What calls put -/

section
variable {P : Host → Prop}

theorem ByteMap.preserves_of_put {name : String} (hput : ∀ h m, P h → P (h.putStore name m)) :
    (storeOf name).Preserves P where
  put ht hh := by
    obtain ⟨m, -, rfl⟩ := Except.map_eq_ok_iff.1 ht
    exact hput _ m hh
  delete ht hh := by
    obtain ⟨m, -, rfl⟩ := Except.map_eq_ok_iff.1 ht
    exact hput _ m hh
  truncate ht hh := by
    cases ht
    exact hput _ _ hh

theorem TableHandle.preserves_of_put {t : TableHandle}
    (hput : ∀ h rows, P h → P (h.putCells t.number t.table rows)) : t.byteStore.Preserves P := by
  have hupdate {change : CellTable → CellTable} {h u : Host} (hu : t.update change h = .ok u)
      (hh : P h) : P u := by
    unfold update at hu
    split at hu <;> cases hu
    exact hput h _ hh
  refine ⟨fun hu hh => ?_, fun hu hh => ?_, fun hu hh => ?_⟩ <;> simp only [byteStore] at hu
  · exact hupdate hu hh
  · unfold delete at hu
    split at hu
    · cases hu; exact hh
    · exact hupdate hu hh
  · exact hupdate hu hh

theorem JournalHandle.preserves_of_put {j : JournalHandle}
    (hput : ∀ h m, P h → P (h.putKeyspace j.number m)) : j.byteStore.Preserves P where
  put ht hh := by
    obtain ⟨_, -, ht⟩ := Except.bind_eq_ok_iff.1 ht
    cases ht
    exact hput _ _ hh
  delete ht hh := by
    obtain ⟨_, -, ht⟩ := Except.bind_eq_ok_iff.1 ht
    cases ht
    exact hput _ _ hh
  truncate ht hh := by
    cases ht
    exact hput _ _ hh

theorem EnvironmentHandle.preserves_of_put {e : EnvironmentHandle}
    (hput : ∀ h m, P h → P (h.putKeyspace e.number m))
    (hreach : ∀ h pages, P h → P (h.reach e.number pages)) : e.byteStore.Preserves P where
  put ht hh := by
    obtain ⟨-, -, -, rfl⟩ := put_eq_ok ht
    exact hreach _ _ (hput _ _ hh)
  delete ht hh := by
    obtain ⟨_, -, ht⟩ := Except.bind_eq_ok_iff.1 ht
    cases ht
    exact hput _ _ hh
  truncate ht hh := by
    cases ht
    exact hput _ _ hh

theorem RowHandle.preserves_of_put {t : RowHandle}
    (hput : ∀ (h : Host) server rows, h.server = some server →
      P h → P { h with server := some (server.putTable t.database t.table rows) }) :
    t.byteStore.Preserves P := by
  have hupdate {key : String} {change : RowTable → RowTable} {h u : Host}
      (hu : t.update key change h = .ok u) (hh : P h) : P u := by
    obtain ⟨⟨server, rows⟩, hreach, hu⟩ := Except.bind_eq_ok_iff.1 hu
    cases hu
    exact hput h server _ (reach_eq_ok hreach).1 hh
  refine ⟨fun hu hh => ?_, fun hu hh => ?_, fun hu hh => ?_⟩ <;>
    · simp only [byteStore] at hu
      exact hupdate hu hh

/-- What every engine keeps that puts maps, keyspaces, tables and servers. -/
theorem Handle.preserves_of_put (hmap : ∀ h name m, P h → P (h.putMap name m))
    (hstore : ∀ h name m, P h → P (h.putStore name m))
    (hcells : ∀ h n table rows, P h → P (h.putCells n table rows))
    (hkeyspace : ∀ h n m, P h → P (h.putKeyspace n m))
    (hreach : ∀ h n pages, P h → P (h.reach n pages))
    (hserver : ∀ (h : Host) server, P h → P { h with server }) (handle : Handle) :
    handle.backend.Preserves P := by
  cases handle with
  | map name =>
    have htrivial : (Backend.tagged name.backendName).Preserves fun _ => True :=
      ⟨fun _ _ => trivial, fun _ _ => trivial, fun _ _ => trivial⟩
    exact htrivial.within (fun _ _ => trivial) fun m h hh _ => hmap h name m hh
  | store name => exact (ByteMap.preserves_of_put fun h m => hstore h name m).packed
  | table t => exact (TableHandle.preserves_of_put fun h rows => hcells h _ _ rows).packed
  | journal j => exact (JournalHandle.preserves_of_put fun h m => hkeyspace h _ m).packed
  | environment e =>
    exact (EnvironmentHandle.preserves_of_put (fun h m => hkeyspace h _ m)
      fun h pages => hreach h _ pages).packed
  | rows t => exact (RowHandle.preserves_of_put fun h _ _ _ => hserver h _).packed

end

namespace Host

variable {h : Host}

theorem IsFresh.putKeyspace (hh : h.IsFresh) {n : Nat} (hn : n < h.next) (m : ByteMap) :
    (h.putKeyspace n m).IsFresh := by
  refine { hh with keyspaces := fun {k} hk => ?_ }
  have hk : h.next ≤ k := hk
  simp only [Host.putKeyspace, Entries.get?_insert, if_neg (show k ≠ n by omega)]
  exact hh.keyspaces hk

theorem IsFresh.putCells (hh : h.IsFresh) {n : Nat} (hn : n < h.next) (table : String)
    (rows : CellTable) : (h.putCells n table rows).IsFresh := by
  refine { hh with databases := fun {k} hk => ?_ }
  have hk : h.next ≤ k := hk
  simp only [Host.putCells, Entries.get?_insert, if_neg (show k ≠ n by omega)]
  exact hh.databases hk

end Host

namespace Session

variable {s : Session}

/-- A keyspace is changed, which stays short if it is that of an environment. -/
theorem Sound.putKeyspace (hs : s.Sound) {n : Nat} (hn : n < s.host.next) {m : ByteMap}
    (hm : s.IsEnvironment n → m.IsShort) : Sound { s with host := s.host.putKeyspace n m } := by
  refine hs.of_files (hs.fresh.putKeyspace hn m) rfl rfl fun k hk => ?_
  rw [Host.keyspace_putKeyspace]
  split_ifs with hkn
  · exact hm (hkn ▸ hk)
  · exact hs.short hk

theorem Sound.putCells (hs : s.Sound) {n : Nat} (hn : n < s.host.next) (table : String)
    (rows : CellTable) : Sound { s with host := s.host.putCells n table rows } :=
  hs.of_files (hs.fresh.putCells hn table rows) rfl rfl fun _ hk => hs.short hk

theorem Sound.reach (hs : s.Sound) (n pages : Nat) :
    Sound { s with host := s.host.reach n pages } := by
  unfold Host.reach
  split_ifs
  · exact hs
  · exact hs.of_files { hs.fresh with } rfl rfl fun _ hk => hs.short hk

end Session

theorem ByteMap.isShort_empty : IsShort .empty := nofun

theorem ByteMap.IsShort.erase {m : ByteMap} (h : m.IsShort) (key : String) :
    IsShort (m.erase key) := by
  intro other bytes hget
  rw [Entries.get?_erase] at hget
  split_ifs at hget
  exact h other bytes hget

theorem ByteMap.IsShort.insert {m : ByteMap} (h : m.IsShort) {key : String}
    (hkey : key.utf8ByteSize ≤ Environment.greatestKey) (bytes : ByteArray) :
    IsShort (m.insert key bytes) := by
  intro other found hget
  rw [Entries.get?_insert] at hget
  split_ifs at hget with ho
  · rw [ho]; exact hkey
  · exact h other found hget

section
variable {s : Session}

theorem ByteMap.preserves_sound (name : String) :
    (storeOf name).Preserves fun h => Session.Sound { s with host := h } :=
  preserves_of_put fun _ _ hs => hs.of_files { hs.fresh with } rfl rfl fun _ hk => hs.short hk

theorem TableHandle.preserves_sound {t : TableHandle} (ht : .table t ∈ s.handles) :
    t.byteStore.Preserves fun h => Session.Sound { s with host := h } :=
  preserves_of_put fun _ rows hs => hs.putCells (hs.number ht rfl) t.table rows

theorem JournalHandle.preserves_sound {j : JournalHandle} (hj : .journal j ∈ s.handles) :
    j.byteStore.Preserves fun h => Session.Sound { s with host := h } :=
  preserves_of_put fun _ _ hs =>
    hs.putKeyspace (hs.number hj rfl) fun he => absurd (Or.inr ⟨j, hj, rfl⟩) (hs.apart he)

theorem EnvironmentHandle.preserves_sound {e : EnvironmentHandle}
    (he : .environment e ∈ s.handles) :
    e.byteStore.Preserves fun h => Session.Sound { s with host := h } := by
  have hput {h : Host} {m : ByteMap} (hm : (h.keyspace e.number).IsShort → m.IsShort)
      (hs : Session.Sound { s with host := h }) :
      Session.Sound { s with host := h.putKeyspace e.number m } :=
    hs.putKeyspace (hs.number he rfl) fun hn => hm (hs.short hn)
  refine ⟨fun {key bytes h u} hu hs => ?_, fun hu hs => ?_, fun hu hs => ?_⟩
  · obtain ⟨-, hkey, -, rfl⟩ := put_eq_ok hu
    exact (hput (fun hm => hm.insert hkey bytes) hs).reach _ _
  · obtain ⟨_, -, hu⟩ := Except.bind_eq_ok_iff.1 hu
    cases hu
    exact hput (fun hm => hm.erase _) hs
  · cases hu
    exact hput (fun _ => ByteMap.isShort_empty) hs

theorem RowHandle.preserves_sound (t : RowHandle) :
    t.byteStore.Preserves fun h => Session.Sound { s with host := h } :=
  preserves_of_put fun _ _ _ _ hs => hs.of_files { hs.fresh with } rfl rfl fun _ hk => hs.short hk

/-- No call of an engine makes a session unsound. -/
theorem Handle.preserves_sound {handle : Handle}
    (hhandle : handle ∈ s.handles ∨ handle.number? = none) :
    handle.backend.Preserves fun h => Session.Sound { s with host := h } := by
  cases handle with
  | map name =>
    have htrivial : (Backend.tagged name.backendName).Preserves fun _ => True :=
      ⟨fun _ _ => trivial, fun _ _ => trivial, fun _ _ => trivial⟩
    refine htrivial.within (fun _ _ => trivial) fun m h hs _ => ?_
    exact hs.of_files { hs.fresh with } rfl rfl fun _ hk => hs.short hk
  | store name => exact (ByteMap.preserves_sound name).packed
  | table t => exact (TableHandle.preserves_sound (hhandle.resolve_right nofun)).packed
  | journal j => exact (JournalHandle.preserves_sound (hhandle.resolve_right nofun)).packed
  | environment e => exact (EnvironmentHandle.preserves_sound (hhandle.resolve_right nofun)).packed
  | rows t => exact t.preserves_sound.packed

end

/-! ## Opening -/

namespace TableFile

variable {h u : Host} {t t' : TableHandle} {table : String}

theorem next_ensureCells (n : Nat) (table : String) :
    (h.ensureCells n table).next = h.next := by
  unfold Host.ensureCells
  split_ifs <;> rfl

theorem number_lt_of_openTable (ht : t.number < h.next) (hopen : openTable t h = (.ok t', u)) :
    t'.number < u.next := by
  obtain ⟨rfl, rfl⟩ := openTable_eq_ok hopen
  rwa [next_ensureCells]

theorem number_lt_of_openFile (hh : h.IsFresh) {given path : String} {create writable : Bool}
    (hopen : openFile given path table create writable h = (.ok t, u)) : t.number < u.next := by
  obtain ⟨-, loc, v, number, -, hv, hopen⟩ := openFile_eq_ok hopen
  refine number_lt_of_openTable ?_ hopen
  rcases hv.made with rfl | ⟨rfl, hnext, -⟩
  · exact hh.refers hv.node rfl
  · rw [hnext]
    exact Nat.lt_succ_self h.next

theorem number_lt_of_openMemory {held : List TableHandle}
    (hheld : ∀ t ∈ held, t.number < h.next) {share : Option String} {writable : Bool}
    (hopen : openMemory held share table writable h = (.ok t, u)) : t.number < u.next := by
  obtain ⟨-, v, number, hv, hopen⟩ := openMemory_eq_ok hopen
  refine number_lt_of_openTable ?_ hopen
  rcases hv with ⟨rfl, other, hother, rfl, -⟩ | ⟨rfl, rfl, -⟩
  · exact hheld other hother
  · exact Nat.lt_succ_self h.next

theorem number_lt_of_open (hh : h.IsFresh) {held : List TableHandle}
    (hheld : ∀ t ∈ held, t.number < h.next) {path : String} {create : Bool}
    (hopen : TableFile.open held path table create h = (.ok t, u)) : t.number < u.next := by
  obtain ⟨-, target, -, hopen⟩ := open_eq_ok_iff.1 hopen
  cases target with
  | memory => exact number_lt_of_openMemory hheld hopen
  | file => exact number_lt_of_openFile hh hopen

end TableFile

namespace Session

variable {s : Session} {name : String} {handle : Handle}

theorem Sound.number_lt_of_table? (hs : s.Sound) :
    ∀ t ∈ s.handles.filterMap (·.table?), t.number < s.host.next := by
  intro t ht
  obtain ⟨handle, hmem, htable⟩ := List.mem_filterMap.1 ht
  cases handle with
  | table => cases htable; exact hs.number hmem rfl
  | map | store | journal | environment | rows => cases htable

theorem Sound.number_lt_of_journal? (hs : s.Sound) :
    ∀ j ∈ s.handles.filterMap (·.journal?), j.number < s.host.next := by
  intro j hj
  obtain ⟨handle, hmem, hjournal⟩ := List.mem_filterMap.1 hj
  cases handle with
  | journal => cases hjournal; exact hs.number hmem rfl
  | map | store | table | environment | rows => cases hjournal

/-- What is opened is there. -/
theorem Sound.knows_open (hs : s.Sound) {c : EngineConfig} {t : Host}
    (hopen : c.open s.handles s.host = (.ok handle, t)) : Knows { s with host := t } handle := by
  cases c with
  | memory => cases hopen; trivial
  | mdbx | rocksdb => cases hopen
  | lmdb d =>
    obtain ⟨e, he, rfl⟩ := Except.pair_map_eq_ok_iff.1 hopen
    obtain ⟨hisOpen, -⟩ := Environment.isOpen_of_open hs.fresh he
    exact Or.inl ⟨_, hisOpen.data, List.getLast?_concat⟩
  | fjall d =>
    obtain ⟨j, hj, rfl⟩ := Except.pair_map_eq_ok_iff.1 hopen
    obtain ⟨hisOpen, -⟩ := Journal.isOpen_of_open hs.number_lt_of_journal? hj
    exact Or.inl ⟨_, hisOpen.marker, List.getLast?_concat⟩
  | sqlite path table create =>
    obtain ⟨t, ht, rfl⟩ := Except.pair_map_eq_ok_iff.1 hopen
    exact TableFile.number_lt_of_open hs.fresh hs.number_lt_of_table? ht
  | postgres =>
    obtain ⟨t, -, rfl⟩ := Except.pair_map_eq_ok_iff.1 hopen
    trivial

/-- Opening gives out numbers that belong to nothing else. -/
theorem Sound.extends (hs : s.Sound) {c : EngineConfig} {t : Host}
    (hext : s.host.Extends c.keyspaceFile? t) : Sound { s with host := t } := by
  have hrefers {file : String} {n : Nat} (h : t.Refers file n) :
      s.host.Refers file n ∨ s.host.next ≤ n ∧ c.keyspaceFile? = some file := by
    obtain ⟨loc, hn, hlast⟩ := h
    rcases hext.made hn rfl with hn | ⟨hle, hfile⟩
    · exact Or.inl ⟨loc, hn, hlast⟩
    · exact Or.inr ⟨hle, (hfile n rfl).symm.trans hlast⟩
  have henvironment {n : Nat} (h : IsEnvironment { s with host := t } n) :
      s.IsEnvironment n ∨ s.host.next ≤ n ∧ c.keyspaceFile? = some Environment.dataFile := by
    rcases h with h | h
    · exact (hrefers h).imp Or.inl id
    · exact Or.inl (Or.inr h)
  have hjournal {n : Nat} (h : IsJournal { s with host := t } n) :
      s.IsJournal n ∨ s.host.next ≤ n ∧ c.keyspaceFile? = some Journal.marker := by
    rcases h with h | h
    · exact (hrefers h).imp Or.inl id
    · exact Or.inl (Or.inr h)
  refine ⟨hext.fresh, fun hmem hnumber => (hs.number hmem hnumber).trans_le hext.next,
    fun h h' => ?_, fun {n} h => ?_⟩
  · rcases henvironment h with he | ⟨hle, hfile⟩
    · rcases hjournal h' with hj | ⟨hle, -⟩
      · exact hs.apart he hj
      · have hlt := hs.lt_of_isEnvironment he
        omega
    · rcases hjournal h' with hj | ⟨-, hfile'⟩
      · have hlt := hs.lt_of_isJournal hj
        omega
      · have hne : Environment.dataFile ≠ Journal.marker := by decide
        exact hne (Option.some.inj (hfile.symm.trans hfile'))
  · show (t.keyspace n).IsShort
    rw [hext.keyspace n]
    rcases henvironment h with he | ⟨hle, -⟩
    · exact hs.short he
    · rw [Host.keyspace, hs.fresh.keyspaces hle]
      exact ByteMap.isShort_empty

theorem Sound.open (hs : s.Sound) (name : String) (c : EngineConfig) :
    (s.open name c).2.Sound := by
  have hext := EngineConfig.extends_open hs.fresh hs.number_lt_of_table? c
  unfold Session.open
  split
  · next handle t hopen =>
    rw [hopen] at hext
    exact (hs.extends hext).hold fun handle heq => Option.some.inj heq ▸ hs.knows_open hopen
  · next e t hopen =>
    rw [hopen] at hext
    exact hs.extends hext

/-! ## Everything that is permitted -/

/-- Files and the server are changed, without new references. -/
theorem Sound.change (hs : s.Sound) {files : FileTree} (server : Option Server)
    (hfiles : ∀ loc content n, content.number? = some n →
      files.node? loc = some (.file content) → s.host.files.node? loc = some (.file content)) :
    Sound { s with host := { s.host with files, server } } := by
  refine hs.mono ?_ le_rfl (fun _ => hs.knows) (fun file n h => ?_) (fun _ => hs.short)
  · exact {
      hs.fresh with
      refers := fun hn hnumber => hs.fresh.refers (hfiles _ _ _ hnumber hn) hnumber
      once := fun hn hn' hnumber hnumber' => hs.fresh.once (hfiles _ _ _ hnumber hn)
        (hfiles _ _ _ hnumber' hn') hnumber hnumber' }
  · obtain ⟨loc, hn, hlast⟩ := h
    exact ⟨loc, hfiles _ _ _ rfl hn, hlast⟩

/-- What is done on the host keeps a session sound if it does so when it
    succeeds. -/
theorem Sound.settle (hs : s.Sound) {result : Except StoreError Host}
    (h : ∀ t, result = .ok t → Sound { s with host := t }) :
    Sound { s with host := (settle s.host result).2 } :=
  settle_snd (P := fun h => Sound { s with host := h }) hs h

end Session

/-- Removing what an engine stores takes files away, or a database of the
    server. -/
theorem EngineConfig.exists_of_wipe (c : EngineConfig) (h : Host) : ∃ files server,
    h.files.Drops files ∧ (c.wipe h).2 = { h with files, server } := by
  cases c with
  | memory | mdbx | rocksdb => exact ⟨h.files, h.server, FileTree.Drops.refl _, rfl⟩
  | lmdb d =>
    have hdrops := FileTree.drops_removeFiles (Environment.filesOf d.path) h.files
    simp only [wipe, Environment.wipe]
    split
    · next e files hfiles =>
      rw [hfiles] at hdrops
      exact ⟨files, h.server, hdrops, rfl⟩
    · next files hfiles =>
      rw [hfiles] at hdrops
      split
      · next left hleft =>
        exact ⟨left, h.server, hdrops.trans (FileTree.drops_removeIfEmpty hleft), rfl⟩
      · exact ⟨files, h.server, hdrops, rfl⟩
  | fjall d =>
    refine ⟨(h.files.removeAll d.path).2, h.server, FileTree.drops_removeAll _ _, ?_⟩
    simp only [wipe, Journal.wipe]
    split <;> next hfiles => rw [hfiles]
  | sqlite path =>
    refine ⟨_, h.server, FileTree.drops_removeFiles (TableFile.filesOf path) h.files, ?_⟩
    simp only [wipe, TableFile.wipe]
    split <;> next hfiles => rw [hfiles]
  | postgres conninfo =>
    simp only [wipe, RowServer.wipe]
    split
    · exact ⟨h.files, h.server, FileTree.Drops.refl _, rfl⟩
    · split
      · exact ⟨h.files, h.server, FileTree.Drops.refl _, rfl⟩
      · split
        · exact ⟨h.files, h.server, FileTree.Drops.refl _, rfl⟩
        · split <;> exact ⟨h.files, _, FileTree.Drops.refl _, rfl⟩

namespace Session

variable {s : Session}

/-- Whatever is permitted keeps a session sound. -/
theorem Sound.next (hs : s.Sound) {i : Step Action} (hi : s.Permits i) :
    (machine.next i s).Sound := by
  obtain ⟨α, action⟩ := i
  cases action with
  | «open» name c => exact hs.open name c
  | openMap name map => exact hs.hold fun _ heq => by cases heq; trivial
  | openStore name store =>
    have hput : Sound { s with host := s.host.putStore store (s.host.store store) } :=
      hs.of_files { hs.fresh with } rfl rfl fun _ hk => hs.short hk
    exact hput.hold fun _ heq => by cases heq; trivial
  | close name => exact hs.hold nofun
  | take source target =>
    refine hs.mono hs.fresh le_rfl (fun handle hmem => hs.knows ?_) (fun _ _ => id)
      (fun _ => hs.short)
    rcases mem_handles_hold hmem with heq | hmem
    · exact mem_handles.2 ⟨source, heq⟩
    · exact (mem_handles_hold hmem).resolve_left nofun
  | through name op =>
    cases hh : s.handle? name with
    | none =>
      show Sound { s with host := ((s.facade name).perform op s.host).2 }
      rw [facade_of_closed hh, Facade.perform_closed]
      exact hs
    | some handle =>
      show Sound { s with host := ((s.facade name).perform op s.host).2 }
      rw [facade_of_handle? hh]
      exact (Handle.preserves_sound (Or.inl (mem_handles.2 ⟨name, hh⟩))).facade op hs
  | directly handle call => exact (Handle.preserves_sound hi).perform call hs
  | putImage store key bytes =>
    exact hs.settle fun _ ht => (ByteMap.preserves_sound store).put ht hs
  | wipe c =>
    obtain ⟨files, server, hdrops, heq⟩ := c.exists_of_wipe s.host
    show Sound { s with host := (c.wipe s.host).2 }
    rw [heq]
    exact hs.change server fun loc content n _ hn => hdrops loc _ hn
  | putRow path table key cell =>
    refine hs.settle fun t ht => ?_
    unfold Host.putRow at ht
    split at ht
    · next number hat =>
      cases ht
      unfold FileTree.at? at hat
      split at hat
      · exact hs.putCells (hs.fresh.refers hat rfl) table _
      · cases hat
    · cases ht
  | changeFiles change => exact hs.change s.host.server hi
  | changeServer change => exact hs.change (change s.host.server) fun _ _ _ _ => id

theorem sound_start : Sound {} := by
  have hfile {loc : Location} {content : Content} :
      ({} : FileTree).node? loc ≠ some (.file content) := by
    intro hn
    unfold FileTree.node? at hn
    split_ifs at hn <;> cases hn
  have hrefers {file : String} {n : Nat} : ¬ ({} : Host).Refers file n := by
    rintro ⟨_, hn, -⟩
    exact hfile hn
  have hhandles {handle : Handle} : handle ∉ ({} : Session).handles := List.not_mem_nil
  have henvironment {n : Nat} : ¬ ({} : Session).IsEnvironment n := by
    rintro (h | ⟨e, he, -⟩)
    · exact hrefers h
    · exact hhandles he
  exact {
    fresh := ⟨fun _ => rfl, fun _ => rfl, fun _ => rfl, fun hn _ => absurd hn hfile,
      fun hn _ _ _ => absurd hn hfile⟩
    number := fun h => absurd h hhandles
    apart := fun h => absurd h henvironment
    short := fun h => absurd h henvironment }

/-- **Every state that a session reaches is sound.** -/
theorem Reachable.sound (h : Reachable s) : s.Sound := by
  induction h with
  | start => exact sound_start
  | next i _ hi ih => exact ih.next hi

end Session

end TypedStore
