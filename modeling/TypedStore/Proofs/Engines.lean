/-
  TypedStore — every engine is a map that may refuse what it is asked.

  * `Handle.isMap`: an engine that keeps images is a map from keys to byte
    strings, seen through `Handle.view`, and what it refuses it refuses with an
    error of its own;
  * `ByteStore.Serves`: a key that could be written or removed can be read
    afterwards; `Handle.serves` says so of every engine.
-/
import TypedStore.Proofs.Maps
import TypedStore.Proofs.Packed
import TypedStore.Proofs.Opened

namespace TypedStore

variable {σ τ : Type}

/-- A key that has been written or removed can be read. -/
structure ByteStore.Serves (store : ByteStore σ) : Prop where
  put {key bytes s t} : store.put key bytes s = .ok t → ∃ found, store.get key t = .ok found
  delete {key s t} : store.delete key s = .ok t → ∃ found, store.get key t = .ok found

/-! ## Parts of a state -/

section
variable {store : ByteStore σ} {part : τ → σ} {update : σ → τ → τ}
  (hpart : ∀ m t, part (update m t) = m)
include hpart

/-- A map in a part of a state is one. -/
theorem ByteStore.IsMap.within {view : σ → String → Option ByteArray} (h : store.IsMap view) :
    (store.within part update).IsMap fun t key => view (part t) key where
  put {key bytes s t} ht other := by
    obtain ⟨m, hm, rfl⟩ := Except.map_eq_ok_iff.1 ht
    rw [hpart]
    exact h.put hm other
  get hget := h.get hget
  delete {key s t} ht other := by
    obtain ⟨m, hm, rfl⟩ := Except.map_eq_ok_iff.1 ht
    rw [hpart]
    exact h.delete hm other
  truncate {s t} ht other := by
    obtain ⟨m, hm, rfl⟩ := Except.map_eq_ok_iff.1 ht
    rw [hpart]
    exact h.truncate hm other
  put_error he := h.put_error (Except.map_eq_error_iff.1 he)
  get_error he := h.get_error he
  delete_error he := h.delete_error (Except.map_eq_error_iff.1 he)
  truncate_error he := h.truncate_error (Except.map_eq_error_iff.1 he)

theorem ByteStore.Serves.within (h : store.Serves) : (store.within part update).Serves where
  put {key bytes s t} ht := by
    obtain ⟨m, hm, rfl⟩ := Except.map_eq_ok_iff.1 ht
    show ∃ found, store.get key (part (update m s)) = .ok found
    rw [hpart]
    exact h.put hm
  delete {key s t} ht := by
    obtain ⟨m, hm, rfl⟩ := Except.map_eq_ok_iff.1 ht
    show ∃ found, store.get key (part (update m s)) = .ok found
    rw [hpart]
    exact h.delete hm

end

theorem ByteStore.serves_plain (name : String) (refuses : String → Bool)
    (refusal : String → StoreError) : (plain name refuses refusal).Serves where
  put {key bytes m t} ht := by
    simp only [plain] at ht ⊢
    split at ht
    · cases ht
    · next hkey => exact ⟨_, if_neg hkey⟩
  delete {key m t} ht := by
    simp only [plain] at ht ⊢
    split at ht
    · cases ht
    · next hkey => exact ⟨_, if_neg hkey⟩

namespace Host

theorem store_putStore (h : Host) (name : String) (m : ByteMap) :
    (h.putStore name m).store name = m := by
  simp only [store, putStore, Entries.get?_insert, if_true, Option.getD_some]

theorem keyspace_reach (h : Host) (n pages m : Nat) :
    (h.reach n pages).keyspace m = h.keyspace m := by
  unfold reach
  split_ifs <;> rfl

end Host

/-! ## Keyspaces -/

namespace JournalHandle

variable (j : JournalHandle) (key : String) (bytes : ByteArray) (h : Host)

theorem put_eq : j.byteStore.put key bytes h = if Journal.isKey key then
    .ok (h.putKeyspace j.number ((h.keyspace j.number).insert key bytes))
    else .error (Journal.keyError key) := by
  simp only [byteStore, Journal.checkKey]
  split_ifs <;> rfl

theorem get_eq : j.byteStore.get key h = if Journal.isKey key then
    .ok ((h.keyspace j.number).get? key) else .error (Journal.keyError key) := by
  simp only [byteStore, Journal.checkKey]
  split_ifs <;> rfl

theorem delete_eq : j.byteStore.delete key h = if Journal.isKey key then
    .ok (h.putKeyspace j.number ((h.keyspace j.number).erase key))
    else .error (Journal.keyError key) := by
  simp only [byteStore, Journal.checkKey]
  split_ifs <;> rfl

theorem isMap : j.byteStore.IsMap fun h key => (h.keyspace j.number).get? key where
  put {key bytes s t} ht other := by
    rw [put_eq] at ht
    split_ifs at ht
    cases ht
    rw [Host.keyspace_putKeyspace, if_pos rfl, Entries.get?_insert]
  get hget := by
    rw [get_eq] at hget
    split_ifs at hget
    exact (Except.ok.inj hget).symm
  delete {key s t} ht other := by
    rw [delete_eq] at ht
    split_ifs at ht
    cases ht
    rw [Host.keyspace_putKeyspace, if_pos rfl, Entries.get?_erase]
  truncate {s t} ht other := by
    cases ht
    rw [Host.keyspace_putKeyspace, if_pos rfl]
    rfl
  put_error he := by
    rw [put_eq] at he
    split_ifs at he
    cases he
    rfl
  get_error he := by
    rw [get_eq] at he
    split_ifs at he
    cases he
    rfl
  delete_error he := by
    rw [delete_eq] at he
    split_ifs at he
    cases he
    rfl
  truncate_error he := by cases he

theorem serves : j.byteStore.Serves where
  put {key bytes s t} ht := by
    rw [put_eq] at ht
    split_ifs at ht with hkey
    exact ⟨_, (get_eq j key t).trans (if_pos hkey)⟩
  delete {key s t} ht := by
    rw [delete_eq] at ht
    split_ifs at ht with hkey
    exact ⟨_, (get_eq j key t).trans (if_pos hkey)⟩

end JournalHandle

namespace EnvironmentHandle

variable (e : EnvironmentHandle) (key : String) (h : Host)

theorem get_eq : e.byteStore.get key h = if key = "" then .error (.environment .badKeySize)
    else .ok ((h.keyspace e.number).get? key) := by
  simp only [byteStore, Environment.checkKey]
  split_ifs <;> rfl

theorem delete_eq : e.byteStore.delete key h = if key = "" then .error (.environment .badKeySize)
    else .ok (h.putKeyspace e.number ((h.keyspace e.number).erase key)) := by
  simp only [byteStore, Environment.checkKey]
  split_ifs <;> rfl

theorem isMap : e.byteStore.IsMap fun h key => (h.keyspace e.number).get? key where
  put {key bytes s t} ht other := by
    obtain ⟨-, -, -, rfl⟩ := put_eq_ok ht
    rw [Host.keyspace_reach, Host.keyspace_putKeyspace, if_pos rfl, Entries.get?_insert]
  get hget := by
    rw [get_eq] at hget
    split_ifs at hget
    exact (Except.ok.inj hget).symm
  delete {key s t} ht other := by
    rw [delete_eq] at ht
    split_ifs at ht
    cases ht
    rw [Host.keyspace_putKeyspace, if_pos rfl, Entries.get?_erase]
  truncate {s t} ht other := by
    cases ht
    rw [Host.keyspace_putKeyspace, if_pos rfl]
    rfl
  put_error {key bytes s err} he := by
    have he : e.put key bytes s = .error err := he
    rw [put_eq] at he
    split_ifs at he <;> cases he <;> rfl
  get_error he := by
    rw [get_eq] at he
    split_ifs at he
    cases he
    rfl
  delete_error he := by
    rw [delete_eq] at he
    split_ifs at he
    cases he
    rfl
  truncate_error he := by cases he

theorem serves : e.byteStore.Serves where
  put {key bytes s t} ht := by
    obtain ⟨hkey, -⟩ := put_eq_ok ht
    exact ⟨_, (get_eq e key t).trans (if_neg hkey)⟩
  delete {key s t} ht := by
    rw [delete_eq] at ht
    split_ifs at ht with hkey
    exact ⟨_, (get_eq e key t).trans (if_neg hkey)⟩

end EnvironmentHandle

/-! ## Tables -/

namespace TableHandle

variable {t : TableHandle}

/-- Rows are changed if they can be written. -/
theorem update_eq_ok {change : CellTable → CellTable} {h u : Host}
    (hu : t.update change h = .ok u) : t.rows u = change (t.rows h) := by
  unfold update at hu
  split at hu <;> cases hu
  rw [rows, Host.cells_putCells, if_pos ⟨rfl, rfl⟩]

theorem class_of_update {change : CellTable → CellTable} {h : Host} {e : StoreError}
    (he : t.update change h = .error e) : e.class = .backend := by
  unfold update at he
  split at he <;> cases he
  rfl

theorem delete_eq_ok {key : String} {h u : Host} (hu : t.delete key h = .ok u) (other : String) :
    (t.rows u).get? other = if other = key then none else (t.rows h).get? other := by
  unfold delete at hu
  split at hu
  · next hkey =>
    cases hu
    split_ifs with ho
    · rw [Bool.and_eq_true] at hkey
      subst ho
      simpa [Entries.contains] using hkey.2
    · rfl
  · rw [update_eq_ok hu, Entries.get?_erase]

theorem isMap (t : TableHandle) :
    t.byteStore.IsMap fun h key => ((t.rows h).get? key).map Cell.image where
  put {key bytes s u} hu other := by
    simp only [byteStore] at hu
    rw [update_eq_ok hu, Entries.get?_insert]
    split_ifs <;> rfl
  get hget := (Except.ok.inj hget).symm
  delete {key s u} hu other := by
    rw [delete_eq_ok hu]
    split_ifs <;> rfl
  truncate {s u} hu other := by
    simp only [byteStore] at hu
    rw [update_eq_ok hu]
    rfl
  put_error he := by simp only [byteStore] at he; exact class_of_update he
  get_error he := by cases he
  delete_error he := by
    simp only [byteStore, delete] at he
    split at he
    · cases he
    · exact class_of_update he
  truncate_error he := by simp only [byteStore] at he; exact class_of_update he

theorem serves (t : TableHandle) : t.byteStore.Serves := ⟨fun _ => ⟨_, rfl⟩, fun _ => ⟨_, rfl⟩⟩

end TableHandle

namespace RowHandle

variable {t : RowHandle} {key : String} {h u : Host}

/-- A statement finds the rows of the table, if the key can be sent. -/
theorem reach_eq_ok {found : Server × RowTable} (hreach : t.reach key h = .ok found) :
    h.server = some found.1 ∧ found.1.table? t.database t.table = some found.2 ∧
      key.contains (Char.ofNat 0) = false := by
  unfold reach at hreach
  split at hreach
  · cases hreach
  · next server hserver =>
    split at hreach
    · cases hreach
    · next rows hrows =>
      split_ifs at hreach with hkey
      cases hreach
      exact ⟨hserver, hrows, by simpa using hkey⟩

theorem reach_of_ok {server : Server} {rows : RowTable} (hserver : h.server = some server)
    (hrows : server.table? t.database t.table = some rows)
    (hkey : key.contains (Char.ofNat 0) = false) : t.reach key h = .ok (server, rows) := by
  simp only [reach, hserver, hrows, hkey, Bool.false_eq_true, if_false]

theorem class_of_reach {e : StoreError} (he : t.reach key h = .error e) : e.class = .backend := by
  unfold reach at he
  split at he
  · cases he; rfl
  · split at he
    · cases he; rfl
    · split_ifs at he
      cases he
      rfl

/-- A statement that changes rows leaves the server with the changed rows. -/
theorem update_eq_ok {change : RowTable → RowTable} (hu : t.update key change h = .ok u) :
    ∃ server rows server', h.server = some server ∧
      server.table? t.database t.table = some rows ∧ key.contains (Char.ofNat 0) = false ∧
      u.server = some server' ∧ server'.table? t.database t.table = some (change rows) := by
  obtain ⟨⟨server, rows⟩, hreach, hu⟩ := Except.bind_eq_ok_iff.1 hu
  obtain ⟨hserver, hrows, hkey⟩ := reach_eq_ok hreach
  cases hu
  refine ⟨server, rows, _, hserver, hrows, hkey, rfl, RowServer.table?_putTable ?_ _⟩
  obtain ⟨tables, htables, -⟩ := Option.bind_eq_some_iff.1 hrows
  exact Option.isSome_iff_exists.2 ⟨tables, htables⟩

theorem class_of_update {change : RowTable → RowTable} {e : StoreError}
    (he : t.update key change h = .error e) : e.class = .backend := by
  rcases Except.bind_eq_error_iff.1 he with he | ⟨_, -, he⟩
  · exact class_of_reach he
  · cases he

/-- What stands under a key of the table, if there is a table. -/
def view (t : RowHandle) (h : Host) (key : String) : Option ByteArray :=
  ((h.serverTable? t.database t.table).bind (·.get? key)).map (·.getD ByteArray.empty)

theorem view_eq {server : Server} {rows : RowTable} (hserver : h.server = some server)
    (hrows : server.table? t.database t.table = some rows) (key : String) :
    t.view h key = (rows.get? key).map (·.getD ByteArray.empty) := by
  simp only [view, Host.serverTable?, hserver, Option.bind_some, hrows]

theorem isMap (t : RowHandle) : t.byteStore.IsMap t.view where
  put {key bytes s u} hu other := by
    simp only [byteStore] at hu
    obtain ⟨_, _, _, hserver, hrows, -, hserver', hrows'⟩ := update_eq_ok hu
    rw [view_eq hserver' hrows', view_eq hserver hrows, Entries.get?_insert]
    split_ifs <;> rfl
  get {key s found} hget := by
    obtain ⟨⟨server, rows⟩, hreach, hget⟩ := Except.bind_eq_ok_iff.1 hget
    obtain ⟨hserver, hrows, -⟩ := reach_eq_ok hreach
    rw [view_eq hserver hrows]
    exact (Except.ok.inj hget).symm
  delete {key s u} hu other := by
    simp only [byteStore] at hu
    obtain ⟨_, _, _, hserver, hrows, -, hserver', hrows'⟩ := update_eq_ok hu
    rw [view_eq hserver' hrows', view_eq hserver hrows, Entries.get?_erase]
    split_ifs <;> rfl
  truncate {s u} hu other := by
    simp only [byteStore] at hu
    obtain ⟨_, _, _, -, -, -, hserver', hrows'⟩ := update_eq_ok hu
    rw [view_eq hserver' hrows']
    rfl
  put_error he := by simp only [byteStore] at he; exact class_of_update he
  get_error he := by
    rcases Except.bind_eq_error_iff.1 he with he | ⟨_, -, he⟩
    · exact class_of_reach he
    · cases he
  delete_error he := by simp only [byteStore] at he; exact class_of_update he
  truncate_error he := by simp only [byteStore] at he; exact class_of_update he

theorem serves (t : RowHandle) : t.byteStore.Serves := by
  have hread {change : RowTable → RowTable} {key : String} {h u : Host}
      (hu : t.update key change h = .ok u) : ∃ found, t.byteStore.get key u = .ok found := by
    obtain ⟨_, _, _, -, -, hkey, hserver', hrows'⟩ := update_eq_ok hu
    exact ⟨_, Except.bind_eq_ok_iff.2 ⟨_, reach_of_ok hserver' hrows' hkey, rfl⟩⟩
  refine ⟨fun hu => ?_, fun hu => ?_⟩ <;>
    · simp only [byteStore] at hu
      exact hread hu

end RowHandle

/-! ## Engines -/

namespace Handle

/-- The byte string under a key of an engine that keeps images. -/
def view : Handle → Host → String → Option ByteArray
  | map _, _, _ => none
  | store name, h, key => (h.store name).get? key
  | table t, h, key => ((t.rows h).get? key).map Cell.image
  | journal j, h, key => (h.keyspace j.number).get? key
  | environment e, h, key => (h.keyspace e.number).get? key
  | rows t, h, key => t.view h key

variable {handle : Handle} {store : ByteStore Host}

/-- **Every engine that keeps images is a map that may refuse.** -/
theorem isMap (h : handle.byteStore? = some store) : store.IsMap handle.view := by
  cases handle with
  | map => cases h
  | store name =>
    cases h
    exact (ByteStore.isMap_plain "bytemap" _ _ fun _ => rfl).within fun m h => h.store_putStore name m
  | table t => cases h; exact t.isMap
  | journal j => cases h; exact j.isMap
  | environment e => cases h; exact e.isMap
  | rows t => cases h; exact t.isMap

/-- What can be written or removed under a key can be read in every engine. -/
theorem serves (h : handle.byteStore? = some store) : store.Serves := by
  cases handle with
  | map => cases h
  | store name =>
    cases h
    exact (ByteStore.serves_plain "bytemap" _ _).within fun m h => h.store_putStore name m
  | table t => cases h; exact t.serves
  | journal j => cases h; exact j.serves
  | environment e => cases h; exact e.serves
  | rows t => cases h; exact t.serves

end Handle

end TypedStore
