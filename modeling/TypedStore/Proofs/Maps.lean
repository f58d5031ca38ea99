/-
  TypedStore — the maps of the running program.

  Engines that keep their data on files or on a server leave the maps of the
  program alone, whatever is opened, written or removed.

  * `EngineConfig.maps_open`, `EngineConfig.maps_wipe`: opening makes at most a
    map of its own, and removing touches none;
  * `ByteStore.KeepsMaps`: neither does a byte store on the host;
    `Handle.keepsMaps` says so of every engine;
  * `Session.noNull_after`: no run of a session brings a null into a map.
-/
import TypedStore.Proofs.ValueMap
import TypedStore.Script

namespace TypedStore

namespace Host

variable (h : Host)

/-! ## Parts of a host -/

@[simp] theorem maps_putStore (name : String) (m : ByteMap) : (h.putStore name m).maps = h.maps := rfl

@[simp] theorem maps_putKeyspace (number : Nat) (m : ByteMap) :
    (h.putKeyspace number m).maps = h.maps := rfl

@[simp] theorem maps_growTo (number pages : Nat) : (h.growTo number pages).maps = h.maps := by
  unfold growTo
  split <;> rfl

@[simp] theorem maps_reach (number pages : Nat) : (h.reach number pages).maps = h.maps := by
  unfold reach
  split <;> rfl

@[simp] theorem maps_putNode (loc : Location) (n : Node) : (h.putNode loc n).maps = h.maps := rfl

@[simp] theorem maps_takeNumber : h.takeNumber.2.maps = h.maps := rfl

@[simp] theorem maps_putCells (number : Nat) (table : String) (rows : CellTable) :
    (h.putCells number table rows).maps = h.maps := rfl

@[simp] theorem maps_ensureCells (number : Nat) (table : String) :
    (h.ensureCells number table).maps = h.maps := by
  unfold ensureCells
  split <;> rfl

theorem maps_putRow {h t : Host} {path table key : String} {cell : Cell}
    (hput : h.putRow path table key cell = .ok t) : t.maps = h.maps := by
  unfold putRow at hput
  split at hput
  · cases hput; rfl
  · cases hput

end Host

/-! ## Opening and removing -/

namespace TableFile

variable (h : Host)

@[simp] theorem maps_openTable (t : TableHandle) : (openTable t h).2.maps = h.maps := by
  unfold openTable
  split <;> simp

@[simp] theorem maps_openContent (loc : Location) (content : Content) (table : String)
    (writable : Bool) : (openContent loc content table writable h).2.maps = h.maps := by
  unfold openContent
  split
  · simp
  · rfl
  · split
    · rfl
    · split <;> simp

@[simp] theorem maps_openFile (given path table : String) (create writable : Bool) :
    (openFile given path table create writable h).2.maps = h.maps := by
  unfold openFile
  cases locate path h.files with
  | none => rfl
  | some loc =>
    simp only
    split
    · rfl
    · split <;> simp
    · split
      · rfl
      · split <;> simp

@[simp] theorem maps_openMemory (held : List TableHandle) (share : Option String) (table : String)
    (writable : Bool) : (openMemory held share table writable h).2.maps = h.maps := by
  unfold openMemory
  split
  · rfl
  · split <;> simp

theorem maps_open (held : List TableHandle) (path table : String) (create : Bool) :
    (TableFile.open held path table create h).2.maps = h.maps := by
  unfold TableFile.open
  cases Statements.checkTableName table with
  | error e => rfl
  | ok u =>
    cases TablePath.target path create with
    | error e => rfl
    | ok target => cases target <;> simp

theorem maps_wipe (path : String) : (wipe path h).2.maps = h.maps := by
  unfold wipe
  split <;> rfl

end TableFile

namespace Journal

variable (h : Host)

@[simp] theorem maps_openAt (held : List JournalHandle) (loc : Location) :
    (openAt held loc h).2.maps = h.maps := by
  unfold openAt
  split
  · split <;> rfl
  · rfl
  · simp

theorem maps_open (held : List JournalHandle) (path : String) (create : Bool) :
    (Journal.open held path create h).2.maps = h.maps := by
  unfold Journal.open
  split
  · rfl
  · split <;> simp

theorem maps_wipe (path : String) : (wipe path h).2.maps = h.maps := by
  unfold wipe
  split <;> rfl

end Journal

namespace Environment

variable (h : Host)

@[simp] theorem maps_openNumber (loc : Location) (size number : Nat) :
    (openNumber loc size number h).2.maps = h.maps := by
  unfold openNumber
  split <;> simp

@[simp] theorem maps_openNew (loc : Location) (size : Nat) :
    (openNew loc size h).2.maps = h.maps := by
  simp only [openNew]
  split <;> simp

@[simp] theorem maps_openData (loc : Location) (size : Nat) (content : Option Content) :
    (openData loc size content h).2.maps = h.maps := by
  unfold openData
  split
  · simp
  · simp
  · rfl
  · split <;> simp

@[simp] theorem maps_openAt (loc : Location) (o : StoreOptions) :
    (openAt loc o h).2.maps = h.maps := by
  have hlock (isLocked : Bool) (n : Node) :
      (if isLocked then h else h.putNode (loc ++ [lockFile]) n).maps = h.maps := by
    cases isLocked <;> rfl
  unfold openAt
  split
  · rfl
  · simp only
    split <;> simp [hlock]

theorem maps_open (held : List EnvironmentHandle) (path : String) (o : StoreOptions)
    (create : Bool) : (Environment.open held path o create h).2.maps = h.maps := by
  unfold Environment.open
  split
  · rfl
  · simp only
    split
    · rfl
    · split
      · rfl
      · split <;> simp

theorem maps_wipe (path : String) : (wipe path h).2.maps = h.maps := by
  unfold wipe
  split
  · rfl
  · split <;> rfl

end Environment

namespace RowServer

variable (h : Host)

theorem maps_open (conninfo table : String) :
    (RowServer.open conninfo table h).2.maps = h.maps := by
  unfold RowServer.open
  split
  · rfl
  · rfl
  · split <;> rfl

theorem maps_wipe (conninfo : String) : (wipe conninfo h).2.maps = h.maps := by
  unfold wipe
  split
  · rfl
  · split
    · rfl
    · split
      · rfl
      · split <;> rfl

end RowServer

namespace EngineConfig

/-- Opening an engine leaves the maps alone, or makes an empty one. -/
theorem maps_open (held : List Handle) (c : EngineConfig) (h : Host) :
    (c.open held h).2.maps = h.maps ∨
      ∃ name, (c.open held h).2.maps = h.maps.insert name .empty := by
  cases c with
  | memory shared => exact Or.inr ⟨_, rfl⟩
  | lmdb d => exact Or.inl (Environment.maps_open h _ _ _ _)
  | mdbx | rocksdb => exact Or.inl rfl
  | fjall d => exact Or.inl (Journal.maps_open h _ _ _)
  | sqlite path table create => exact Or.inl (TableFile.maps_open h _ _ _ _)
  | postgres conninfo table => exact Or.inl (RowServer.maps_open h _ _)

/-- Removing what an engine stores leaves the maps alone. -/
theorem maps_wipe (c : EngineConfig) (h : Host) : (c.wipe h).2.maps = h.maps := by
  cases c with
  | memory | mdbx | rocksdb => rfl
  | lmdb d => exact Environment.maps_wipe h _
  | fjall d => exact Journal.maps_wipe h _
  | sqlite path => exact TableFile.maps_wipe h _
  | postgres conninfo => exact RowServer.maps_wipe h _

end EngineConfig

/-! ## Reading and writing -/

/-- What succeeds in the byte store leaves the maps alone. -/
structure ByteStore.KeepsMaps (store : ByteStore Host) : Prop where
  put {key bytes h t} : store.put key bytes h = .ok t → t.maps = h.maps
  delete {key h t} : store.delete key h = .ok t → t.maps = h.maps
  truncate {h t} : store.truncate h = .ok t → t.maps = h.maps

theorem ByteMap.keepsMaps (name : String) : (storeOf name).KeepsMaps where
  put {key bytes h t} ht := by
    simp only [storeOf, ByteStore.within] at ht
    obtain ⟨m, -, rfl⟩ := Except.map_eq_ok_iff.1 ht
    rfl
  delete {key h t} ht := by
    simp only [storeOf, ByteStore.within] at ht
    obtain ⟨m, -, rfl⟩ := Except.map_eq_ok_iff.1 ht
    rfl
  truncate ht := by cases ht; rfl

theorem TableHandle.maps_update {t : TableHandle} {change : CellTable → CellTable} {h h' : Host}
    (hh : t.update change h = .ok h') : h'.maps = h.maps := by
  unfold update at hh
  split at hh <;> cases hh
  rfl

theorem TableHandle.keepsMaps (t : TableHandle) : t.byteStore.KeepsMaps where
  put hh := by simp only [byteStore] at hh; exact maps_update hh
  delete hh := by
    simp only [byteStore, delete] at hh
    split at hh
    · cases hh; rfl
    · exact maps_update hh
  truncate hh := by simp only [byteStore] at hh; exact maps_update hh

theorem JournalHandle.keepsMaps (j : JournalHandle) : j.byteStore.KeepsMaps where
  put {key bytes h t} ht := by
    simp only [byteStore] at ht
    obtain ⟨_, -, hwrite⟩ := Except.bind_eq_ok_iff.1 ht
    cases hwrite
    rfl
  delete {key h t} ht := by
    simp only [byteStore] at ht
    obtain ⟨_, -, hwrite⟩ := Except.bind_eq_ok_iff.1 ht
    cases hwrite
    rfl
  truncate ht := by cases ht; rfl

/-- The checks of a write, and what is written. -/
theorem EnvironmentHandle.put_eq (e : EnvironmentHandle) (key : String) (bytes : ByteArray)
    (h : Host) : e.put key bytes h =
      if key = "" ∨ Environment.greatestKey < key.utf8ByteSize then
        .error (.environment .badKeySize)
      else if e.pages ≤ Environment.neededPages (h.keyspace e.number) key bytes then
        .error (.environment .mapFull)
      else .ok ((h.putKeyspace e.number ((h.keyspace e.number).insert key bytes)).reach e.number
        (Environment.entryPages ((h.keyspace e.number).insert key bytes))) := by
  unfold put Environment.checkKey
  by_cases hkey : key = ""
  · rw [if_pos hkey, if_pos (Or.inl hkey)]
    rfl
  · by_cases hsize : Environment.greatestKey < key.utf8ByteSize
    · simp only [if_neg hkey, hsize, or_true, if_true]
      rfl
    · by_cases hpages : e.pages ≤ Environment.neededPages (h.keyspace e.number) key bytes
      · simp only [hkey, hsize, if_pos hpages, or_self, if_false]
        rfl
      · simp only [hkey, hsize, if_neg hpages, or_self, if_false]
        rfl

/-- An entry that is written has passed all checks. -/
theorem EnvironmentHandle.put_eq_ok {e : EnvironmentHandle} {key : String} {bytes : ByteArray}
    {h t : Host} (ht : e.put key bytes h = .ok t) :
    key ≠ "" ∧ key.utf8ByteSize ≤ Environment.greatestKey ∧
      Environment.neededPages (h.keyspace e.number) key bytes < e.pages ∧
      t = (h.putKeyspace e.number ((h.keyspace e.number).insert key bytes)).reach e.number
        (Environment.entryPages ((h.keyspace e.number).insert key bytes)) := by
  rw [put_eq] at ht
  split_ifs at ht with hkey hpages
  cases ht
  obtain ⟨hempty, hsize⟩ := not_or.1 hkey
  exact ⟨hempty, by omega, by omega, rfl⟩

theorem EnvironmentHandle.keepsMaps (e : EnvironmentHandle) : e.byteStore.KeepsMaps where
  put {key bytes h t} ht := by
    simp only [byteStore] at ht
    rw [(put_eq_ok ht).2.2.2, Host.maps_reach]
    rfl
  delete {key h t} ht := by
    simp only [byteStore] at ht
    obtain ⟨_, -, hwrite⟩ := Except.bind_eq_ok_iff.1 ht
    cases hwrite
    rfl
  truncate ht := by cases ht; rfl

theorem RowHandle.maps_update {t : RowHandle} {key : String} {change : RowTable → RowTable}
    {h h' : Host} (hh : t.update key change h = .ok h') : h'.maps = h.maps := by
  unfold update at hh
  obtain ⟨_, -, hwrite⟩ := Except.bind_eq_ok_iff.1 hh
  cases hwrite
  rfl

theorem RowHandle.keepsMaps (t : RowHandle) : t.byteStore.KeepsMaps where
  put hh := by simp only [byteStore] at hh; exact maps_update hh
  delete hh := by simp only [byteStore] at hh; exact maps_update hh
  truncate hh := by simp only [byteStore] at hh; exact maps_update hh

/-- A handle that keeps images is a backend that packs values. -/
theorem Handle.backend_of_byteStore? {handle : Handle} {store : ByteStore Host}
    (h : handle.byteStore? = some store) : handle.backend = store.packed := by
  cases handle <;> cases h <;> rfl

theorem Handle.keepsMaps {handle : Handle} {store : ByteStore Host}
    (h : handle.byteStore? = some store) : store.KeepsMaps := by
  cases handle with
  | map => cases h
  | store name => cases h; exact ByteMap.keepsMaps name
  | table t => cases h; exact t.keepsMaps
  | journal j => cases h; exact j.keepsMaps
  | environment e => cases h; exact e.keepsMaps
  | rows t => cases h; exact t.keepsMaps

/-! ## Nulls -/

/-- No map of the program has a null. -/
def Host.NoNull (h : Host) : Prop := ∀ name key, (h.map name).get? key ≠ some .null

theorem Host.NoNull.of_maps {h t : Host} (hh : h.NoNull) (hmaps : t.maps = h.maps) : t.NoNull := by
  intro name key
  have hmap : t.map name = h.map name := by rw [map, map, hmaps]
  rw [hmap]
  exact hh name key

theorem Host.noNull_of_insert {h t : Host} (hh : h.NoNull) {name : MapName} {m : ValueMap}
    (hmaps : t.maps = h.maps.insert name m) (hm : ∀ key, m.get? key ≠ some .null) : t.NoNull := by
  intro other key
  by_cases ho : other = name
  · have hmap : t.map other = m := by rw [map, hmaps, Entries.get?_insert, if_pos ho]; rfl
    rw [hmap]
    exact hm key
  · have hmap : t.map other = h.map other := by rw [map, hmaps, Entries.get?_insert, if_neg ho, map]
    rw [hmap]
    exact hh other key

/-- A change brings no null. -/
theorem Change.apply_ne_null {c : Change} {key : String} {old : Option Value}
    (hold : old ≠ some .null) : c.apply Value.present? key old ≠ some .null := by
  by_cases hc : c.Touches key
  · rw [ne_eq, apply_eq_some_iff hc]
    rintro ⟨-, hne⟩
    exact hne rfl
  · rwa [apply_of_not_touches hc]

/-- A backend that keeps values as they are, but null, never has a null. -/
theorem Backend.Records.preserves_ne_null {σ : Type} {b : Backend σ}
    {view : σ → String → Option Value} (h : b.Records view Value.present?) :
    b.Preserves fun s => ∀ key, view s key ≠ some .null where
  put ht hs key := by rw [h.put ht key]; exact Change.apply_ne_null (hs key)
  remove ht hs key := by rw [h.remove ht key]; exact Change.apply_ne_null (hs key)
  clear ht _ key := by rw [h.clear ht key]; exact nofun

/-- What a backend preserves of a part, it preserves of the whole. -/
theorem Backend.Preserves.within {σ τ : Type} {b : Backend σ} {P : σ → Prop} {Q : τ → Prop}
    (h : b.Preserves P) {part : τ → σ} {update : σ → τ → τ} (hpart : ∀ t, Q t → P (part t))
    (hupdate : ∀ s t, Q t → P s → Q (update s t)) : (b.within part update).Preserves Q where
  put {key v s t} ht hs := by
    simp only [Backend.within] at ht
    obtain ⟨m, hput, rfl⟩ := Except.map_eq_ok_iff.1 ht
    exact hupdate m s hs (h.put hput (hpart s hs))
  remove {key s t} ht hs := by
    simp only [Backend.within] at ht
    obtain ⟨m, hremove, rfl⟩ := Except.map_eq_ok_iff.1 ht
    exact hupdate m s hs (h.remove hremove (hpart s hs))
  clear {s t} ht hs := by
    simp only [Backend.within] at ht
    obtain ⟨m, hclear, rfl⟩ := Except.map_eq_ok_iff.1 ht
    exact hupdate m s hs (h.clear hclear (hpart s hs))

theorem ByteStore.KeepsMaps.preserves_noNull {store : ByteStore Host} (h : store.KeepsMaps) :
    store.packed.Preserves Host.NoNull where
  put {key v s t} ht hs := by
    have ht : store.putValue key v s = .ok t := ht
    unfold putValue at ht
    split at ht
    · exact hs.of_maps (h.put ht)
    · exact hs.of_maps (h.delete ht)
  remove ht hs := hs.of_maps (h.delete ht)
  clear ht hs := hs.of_maps (h.truncate ht)

/-- No call of any engine brings a null into a map. -/
theorem Handle.preserves_noNull (handle : Handle) : handle.backend.Preserves Host.NoNull := by
  cases hs : handle.byteStore? with
  | some store =>
    rw [backend_of_byteStore? hs]
    exact (keepsMaps hs).preserves_noNull
  | none =>
    cases handle with
    | map name =>
      refine (Backend.records_tagged name.backendName).preserves_ne_null.within (fun h hh => hh name) ?_
      exact fun m h hh hm => Host.noNull_of_insert hh rfl hm
    | store | table | journal | environment | rows => cases hs

/-! ## Sessions -/

namespace Session

variable {s : Session} {name : String} {handle : Handle}

theorem facade_of_handle? (h : s.handle? name = some handle) :
    s.facade name = .ofBackend handle.backend := by
  simp [facade, h, Facade.ofBackend]

theorem facade_of_closed (h : s.handle? name = none) : s.facade name = ⟨none⟩ := by
  simp [facade, h]

/-- What is asked of an open facade is asked of the backend that it is open
    on. -/
theorem act_through {α : Type} (hopen : s.handle? name = some handle) (op : Operation α) :
    machine.act (.through name op) s =
      (((Facade.ofBackend handle.backend).perform op s.host).1,
        { s with host := ((Facade.ofBackend handle.backend).perform op s.host).2 }) := by
  simp only [machine, onHost, facade_of_handle? hopen]

theorem act_through_of_eq {α : Type} (hopen : s.handle? name = some handle) {op : Operation α}
    {result : Except StoreError α}
    (h : (Facade.ofBackend handle.backend).perform op s.host = (result, s.host)) :
    machine.act (.through name op) s = (result, s) := by
  rw [act_through hopen, h]

/-- Nothing that happens in a session brings a null into a map. -/
theorem noNull_next (i : Step Action) (s : Session) (hs : s.host.NoNull) :
    (machine.next i s).host.NoNull := by
  obtain ⟨α, action⟩ := i
  cases action with
  | «open» name c =>
    have hhost : (machine.next ⟨_, .open name c⟩ s).host = (c.open s.handles s.host).2 := by
      show (s.open name c).2.host = _
      unfold Session.open
      cases c.open s.handles s.host with
      | mk result h => cases result <;> rfl
    rw [hhost]
    rcases EngineConfig.maps_open s.handles c s.host with hmaps | ⟨map, hmaps⟩
    · exact hs.of_maps hmaps
    · exact Host.noNull_of_insert hs hmaps fun _ => nofun
  | openMap | close | take | changeFiles | changeServer => exact hs.of_maps rfl
  | openStore => exact hs.of_maps rfl
  | through name op =>
    show ((s.facade name).perform op s.host).2.NoNull
    cases hh : s.handle? name with
    | none =>
      -- a closed facade changes nothing
      rw [facade_of_closed hh, Facade.perform_closed]
      exact hs
    | some handle =>
      rw [facade_of_handle? hh]
      exact handle.preserves_noNull.facade op hs
  | directly handle call => exact handle.preserves_noNull.perform call hs
  | putImage store key bytes =>
    exact settle_snd hs fun _ ht => hs.of_maps ((ByteMap.keepsMaps store).put ht)
  | wipe c => exact hs.of_maps (c.maps_wipe s.host)
  | putRow => exact settle_snd hs fun _ ht => hs.of_maps (Host.maps_putRow ht)

/-- **No run of a session brings a null into a map.** -/
theorem noNull_after (run : List (Step Action)) {s : Session} (hs : s.host.NoNull) :
    (machine.after run s).host.NoNull :=
  machine.after_invariant noNull_next run hs

end Session

end TypedStore
