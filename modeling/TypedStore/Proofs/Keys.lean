/-
  TypedStore — keys that work and keys that are refused.

  * `Backend.ReadsBack`: what has been written is read back, what has been
    removed is not found, and a write fails with an error of the engine only;
    `Handle.readsBack` says so of every engine;
  * `ByteStore.IsMap.fetch_of_put`, `Handle.fetch_float_of_put`: what is fetched
    in another kind than the one that was put;
  * `JournalHandle.perform_of_not_isKey`, `JournalHandle.class_of_isKey`: the
    keys that a journaling database refuses, and that it refuses no others;
  * `EnvironmentHandle.perform_of_empty`, and what an environment does with a
    key that is too long;
  * `keys_work_or_are_refused`: all this in every state that a session reaches.
-/
import Mathlib
import TypedStore.Proofs.Engines
import TypedStore.Proofs.Image
import TypedStore.Proofs.Locality
import TypedStore.Proofs.Reachable

namespace TypedStore

variable {σ τ α : Type}

/-- What a native type writes is of the kind that it asks for, or null. -/
theorem NativeType.kind_write (t : NativeType α) {x : α} (h : t.write x ≠ .null) :
    (t.write x).kind = t.kind := by
  induction t with
  | bool | int | float | text | blob => rfl
  | domain d placeholder ih => exact ih h
  | option inner ih =>
    cases x with
    | none => exact absurd rfl h
    | some x => exact ih h

/-! ## Backends -/

/-- What has been written is read back, and what has been removed is not found;
    a write that fails is refused by the engine. -/
structure Backend.ReadsBack (b : Backend σ) : Prop where
  put {key v s t} : v ≠ .null → v.isNaN = false → b.put key v s = .ok t →
    b.fetch key v.kind t = .ok v
  put_error {key v s e} : b.put key v s = .error e → e.class = .backend
  remove {key s t} : b.remove key s = .ok t →
    ∀ kind, b.fetch key kind t = .error (.keyNotFound key)

theorem Backend.readsBack_tagged (name : String) : (tagged name).ReadsBack where
  put {key v m t} hnull _ ht := by
    cases ht
    refine (ValueMap.fetch_eq_ok_iff key _ v).2 ?_
    simp only [ValueMap.put, Value.isNull_eq_false hnull, Bool.false_eq_true, if_false,
      Entries.get?_insert, if_true]
  put_error he := by cases he
  remove {key m t} ht kind := by
    cases ht
    refine (ValueMap.fetch_eq_error_iff key _ _).2 ⟨?_, rfl⟩
    rw [Entries.get?_erase, if_pos rfl]

theorem Backend.ReadsBack.within {b : Backend σ} (h : b.ReadsBack) {part : τ → σ}
    {update : σ → τ → τ} (hpart : ∀ m t, part (update m t) = m) :
    (b.within part update).ReadsBack where
  put {key v s t} hnull hnan ht := by
    obtain ⟨m, hm, rfl⟩ := Except.map_eq_ok_iff.1 ht
    show b.fetch key v.kind (part (update m s)) = _
    rw [hpart]
    exact h.put hnull hnan hm
  put_error he := h.put_error (Except.map_eq_error_iff.1 he)
  remove {key s t} ht kind := by
    obtain ⟨m, hm, rfl⟩ := Except.map_eq_ok_iff.1 ht
    show b.fetch key kind (part (update m s)) = _
    rw [hpart]
    exact h.remove hm kind

/-- What is fetched of a value that was put is what its image is read as, in
    whatever kind. -/
theorem ByteStore.IsMap.fetch_of_put {store : ByteStore σ} {view : σ → String → Option ByteArray}
    (h : store.IsMap view) (hserves : store.Serves) {key : String} {v : Value} {s t : σ}
    (hnull : v ≠ .null) (ht : store.packed.put key v s = .ok t) :
    ∃ bytes, Image.encode v = some bytes ∧ ∀ kind, store.packed.fetch key kind t =
      (Image.decode bytes kind).mapError (.badValue key) := by
  have ht : store.putValue key v s = .ok t := ht
  unfold putValue at ht
  split at ht
  · next bytes hbytes =>
    obtain ⟨found, hget⟩ := hserves.put ht
    have hfound : found = some bytes := by
      rw [h.get hget, h.put ht key, if_pos rfl]
    rw [hfound] at hget
    exact ⟨bytes, hbytes, fun _ => fetch_of_image hget⟩
  · next hbytes => exact absurd (Image.encode_eq_none_iff.1 hbytes) hnull

/-- A store of images reads back on an engine that is a map. -/
theorem ByteStore.IsMap.readsBack {store : ByteStore σ} {view : σ → String → Option ByteArray}
    (h : store.IsMap view) (hserves : store.Serves) : store.packed.ReadsBack where
  put {key v s t} hnull hnan ht := by
    obtain ⟨bytes, hbytes, hfetch⟩ := h.fetch_of_put hserves hnull ht
    rw [hfetch, Image.decode_encode hbytes hnan]
    rfl
  put_error {key v s e} he := by
    have he : store.putValue key v s = .error e := he
    unfold putValue at he
    split at he
    · exact h.put_error he
    · exact h.delete_error he
  remove {key s t} ht kind := by
    have ht : store.delete key s = .ok t := ht
    obtain ⟨found, hget⟩ := hserves.delete ht
    have hfound : found = none := by rw [h.get hget, h.delete ht key, if_pos rfl]
    rw [hfound] at hget
    exact fetch_of_absent hget

/-- Every engine reads back what has been written. -/
theorem Handle.readsBack (handle : Handle) : handle.backend.ReadsBack := by
  cases hs : handle.byteStore? with
  | some store =>
    rw [backend_of_byteStore? hs]
    exact (isMap hs).readsBack (serves hs)
  | none =>
    cases handle with
    | map name =>
      refine (Backend.readsBack_tagged name.backendName).within fun m h => ?_
      simp only [Host.map, Host.putMap, Entries.get?_insert, if_true, Option.getD_some]
    | store | table | journal | environment | rows => cases hs

/-- A number is fetched in the precision that it was put in, whichever is asked
    for. -/
theorem Handle.fetch_float_of_put {handle : Handle} {key : String} {k : FloatKind} {x : k.Word}
    {h t : Host} (hx : k.isNaN x = false) (ht : handle.backend.put key (.float k x) h = .ok t)
    (l : FloatKind) : handle.backend.fetch key (.float l) t = .ok (.float k x) := by
  have hnull : Value.float k x ≠ .null := nofun
  cases hs : handle.byteStore? with
  | some store =>
    rw [backend_of_byteStore? hs] at ht ⊢
    obtain ⟨bytes, hbytes, hfetch⟩ := (isMap hs).fetch_of_put (serves hs) hnull ht
    cases hbytes
    rw [hfetch, Image.decode_encode_float, hx]
    rfl
  | none =>
    cases handle with
    | map name => exact (Handle.map name).readsBack.put hnull hx ht
    | store | table | journal | environment | rows => cases hs

namespace Backend.ReadsBack

variable {b : Backend σ} (h : b.ReadsBack) {key : String} {s u : σ}
include h

/-- A value that was written is read as what a type of its kind makes of it. -/
theorem get_of_set_value {t : NativeType α} {v : Value} (hnull : v ≠ .null) (hnan : v.isNaN = false)
    (hkind : v.kind = t.kind) (hset : (Facade.ofBackend b).set key v s = .ok u) :
    (Facade.ofBackend b).get key t u = (t.read v).mapError (.badValue key) := by
  rw [Facade.set_ofBackend, Value.isNull_eq_false hnull] at hset
  have hfetch := h.put hnull hnan hset
  rw [hkind] at hfetch
  rw [Facade.get_ofBackend, hfetch]
  rfl

theorem get_of_set {t : NativeType α} {x w : α} (hnull : t.write x ≠ .null)
    (hnan : (t.write x).isNaN = false) (hread : t.read (t.write x) = .ok w)
    (hset : (Facade.ofBackend b).set key (t.write x) s = .ok u) :
    (Facade.ofBackend b).get key t u = .ok w := by
  rw [h.get_of_set_value hnull hnan (t.kind_write hnull) hset, hread]
  rfl

theorem get_of_remove {t : NativeType α} (hremove : (Facade.ofBackend b).remove key s = .ok u) :
    (Facade.ofBackend b).get key t u = .error (.keyNotFound key) :=
  Facade.get_of_fetch_error (h.remove hremove t.kind)

theorem class_of_set {v : Value} {e : StoreError} (hnull : v ≠ .null)
    (hset : (Facade.ofBackend b).set key v s = .error e) : e.class = .backend := by
  rw [Facade.set_ofBackend, Value.isNull_eq_false hnull] at hset
  exact h.put_error hset

end Backend.ReadsBack

/-! ## Refusals -/

namespace ByteStore

variable {store : ByteStore σ} {key : String} {op : Operation α} {s : σ} {e : StoreError}

/-- If every call with a key is refused, so is every operation on the key. -/
theorem refuses_of_key (hput : ∀ bytes, store.put key bytes s = .error e)
    (hget : store.get key s = .error e) (hdelete : store.delete key s = .error e)
    (hop : op.key? = some key) : store.Refuses op s e := by
  cases op with
  | set _ p =>
    cases hop
    show (Image.encode p.toValue).elim _ _ = _
    cases Image.encode p.toValue with
    | none => exact hdelete
    | some bytes => exact hput bytes
  | setBytes _ bytes =>
    cases hop
    cases bytes with
    | none => exact hdelete
    | some bytes => exact hput bytes
  | remove => cases hop; exact hdelete
  | clear => cases hop
  | get | getOr | getValue => cases hop; exact hget

/-- An operation on a key that is refused makes a call with the key that is
    refused. -/
theorem call_of_refuses (hr : store.Refuses op s e) (hop : op.key? = some key) :
    (∃ bytes, store.put key bytes s = .error e) ∨ store.get key s = .error e ∨
      store.delete key s = .error e := by
  cases op with
  | set _ p =>
    cases hop
    have hr : (Image.encode p.toValue).elim (store.delete key s) (store.put key · s) = .error e := hr
    cases hb : Image.encode p.toValue with
    | none => rw [hb] at hr; exact Or.inr (Or.inr hr)
    | some bytes => rw [hb] at hr; exact Or.inl ⟨bytes, hr⟩
  | setBytes _ bytes =>
    cases hop
    cases bytes with
    | none => exact Or.inr (Or.inr hr)
    | some bytes => exact Or.inl ⟨bytes, hr⟩
  | remove => cases hop; exact Or.inr (Or.inr hr)
  | clear => cases hop
  | get | getOr | getValue => cases hop; exact Or.inr (Or.inl hr)

/-- An operation that the engine refuses fails with its error and does
    nothing. -/
theorem IsMap.perform_refused {view : σ → String → Option ByteArray} (h : store.IsMap view)
    (hr : store.Refuses op s e) :
    (Facade.ofBackend store.packed).perform op s = (.error e, s) := by
  have hanswer := perform_of_refuses h hr
  have hstate := Facade.perform_of_not_isOk (Facade.ofBackend store.packed) op s
    (by rw [hanswer]; rfl)
  exact Prod.ext hanswer hstate

end ByteStore

namespace JournalHandle

variable {j : JournalHandle} {key : String} {op : Operation α} {h : Host}

theorem isKey_eq_false_iff : Journal.isKey key = false ↔
    key.utf8ByteSize = 0 ∨ Journal.greatestKey < key.utf8ByteSize := by
  simp only [Journal.isKey, Bool.and_eq_false_iff, decide_eq_false_iff_not]
  omega

theorem keyError_eq (key : String) : Journal.keyError key =
    .backend "fjall" ("key length " ++ key.utf8ByteSize.repr ++ " is outside 1..=65535 bytes") := by
  have hrange : " is outside 1..=" ++ (Journal.greatestKey.repr ++ " bytes") =
      " is outside 1..=65535 bytes" := rfl
  simp only [Journal.keyError, String.append_assoc, hrange]

/-- A key of a wrong length is refused by every operation. -/
theorem perform_of_not_isKey (hkey : Journal.isKey key = false) (hop : op.key? = some key) :
    (Facade.ofBackend j.byteStore.packed).perform op h = (.error (Journal.keyError key), h) := by
  have hkey : ¬ Journal.isKey key = true := by simp [hkey]
  refine j.isMap.perform_refused (ByteStore.refuses_of_key (fun bytes => ?_) ?_ ?_ hop)
  · rw [put_eq, if_neg hkey]
  · rw [get_eq, if_neg hkey]
  · rw [delete_eq, if_neg hkey]

/-- No operation with another key is refused. -/
theorem class_of_isKey (hkey : Journal.isKey key = true) (hop : op.key? = some key)
    {e : StoreError} (he : ((Facade.ofBackend j.byteStore.packed).perform op h).1 = .error e) :
    e.class ≠ .backend := by
  rcases ByteStore.perform_eq_error he with hr | ⟨_, -, rfl | ⟨c, rfl⟩⟩
  · rcases ByteStore.call_of_refuses hr hop with ⟨bytes, hput⟩ | hget | hdelete
    · rw [put_eq, if_pos hkey] at hput; cases hput
    · rw [get_eq, if_pos hkey] at hget; cases hget
    · rw [delete_eq, if_pos hkey] at hdelete; cases hdelete
  · exact nofun
  · exact nofun

end JournalHandle

namespace EnvironmentHandle

variable {e : EnvironmentHandle} {key : String} {op : Operation α} {h : Host}

/-- The empty key is refused by every operation. -/
theorem perform_of_empty (hop : op.key? = some "") :
    (Facade.ofBackend e.byteStore.packed).perform op h =
      (.error (.environment .badKeySize), h) := by
  refine e.isMap.perform_refused (ByteStore.refuses_of_key (fun bytes => ?_) ?_ ?_ hop)
  · exact (e.put_eq "" bytes h).trans (if_pos (Or.inl rfl))
  · rw [get_eq, if_pos rfl]
  · rw [delete_eq, if_pos rfl]

section
variable (hkey : Environment.greatestKey < key.utf8ByteSize)
include hkey

theorem ne_empty_of_long : key ≠ "" := by
  rintro rfl
  exact absurd hkey (by decide)

/-- Nothing is written under a key that is too long. -/
theorem perform_of_long {v : Value} (hv : v ≠ .null)
    (hop : op.change? = some (.put key v)) :
    (Facade.ofBackend e.byteStore.packed).perform op h =
      (.error (.environment .badKeySize), h) := by
  refine e.isMap.perform_refused ?_
  have hput (bytes : ByteArray) : e.byteStore.put key bytes h = .error (.environment .badKeySize) :=
    (e.put_eq key bytes h).trans (if_pos (Or.inr hkey))
  cases op with
  | set _ p =>
    cases hop
    show (Image.encode p.toValue).elim _ _ = _
    cases hb : Image.encode p.toValue with
    | none => exact absurd (Image.encode_eq_none_iff.1 hb) hv
    | some bytes => exact hput bytes
  | setBytes _ bytes =>
    cases hop
    cases bytes with
    | none => exact absurd rfl hv
    | some bytes => exact hput bytes
  | remove | clear | get | getOr | getValue => cases hop

/-- A key that is too long is removed without an error. -/
theorem isOk_of_long
    (hop : op.change? = some (.remove key) ∨ op.change? = some (.put key .null)) :
    ((Facade.ofBackend e.byteStore.packed).perform op h).1.isOk = true := by
  obtain ⟨u, hu⟩ : ∃ u, e.byteStore.delete key h = .ok u :=
    ⟨_, (e.delete_eq key h).trans (if_neg (ne_empty_of_long hkey))⟩
  have hsettle : (settle h (e.byteStore.delete key h)).1.isOk = true := by rw [hu]; rfl
  cases op with
  | set other p =>
    obtain ⟨rfl, hp⟩ : other = key ∧ p.toValue = .null := by
      rcases hop with hop | hop
      · cases hop
      · exact Change.put.inj (Option.some.inj hop)
    show (settle h ((Facade.ofBackend e.byteStore.packed).set other p.toValue h)).1.isOk = true
    rw [hp]
    exact hsettle
  | setBytes other bytes =>
    obtain ⟨rfl, rfl⟩ : other = key ∧ bytes = none := by
      rcases hop with hop | hop
      · cases hop
      · cases bytes <;> cases hop
        exact ⟨rfl, rfl⟩
    exact hsettle
  | remove =>
    rcases hop with hop | hop <;> cases hop
    exact hsettle
  | clear | get | getOr | getValue => rcases hop with hop | hop <;> cases hop

/-- Nothing is found under a key that is too long. -/
theorem fetch_of_long (hshort : (h.keyspace e.number).IsShort) (kind : Kind) :
    e.byteStore.packed.fetch key kind h = .error (.keyNotFound key) := by
  refine ByteStore.fetch_of_absent ?_
  rw [get_eq, if_neg (ne_empty_of_long hkey)]
  cases hget : (h.keyspace e.number).get? key with
  | none => rfl
  | some bytes => exact absurd (hshort key bytes hget) (by omega)

end

end EnvironmentHandle

/-! ## Sessions -/

namespace Session

variable {s : Session} {name : String} {handle : Handle}

/-- A change through a facade, by what the backend makes of it. -/
theorem settle_of_act_through (hopen : s.handle? name = some handle) {op : Operation Unit}
    {changed : Except StoreError Host}
    (hchanged : (Facade.ofBackend handle.backend).perform op s.host = settle s.host changed)
    {answer : Except StoreError Unit} {u : Session}
    (h : machine.act (.through name op) s = (answer, u)) :
    (∃ t, changed = .ok t ∧ answer = .ok () ∧ u = { s with host := t }) ∨
      ∃ e, changed = .error e ∧ answer = .error e ∧ u = s := by
  rw [act_through hopen, hchanged] at h
  obtain ⟨rfl, rfl⟩ := Prod.mk.inj h
  cases changed with
  | ok t => exact Or.inl ⟨t, rfl, rfl, rfl⟩
  | error e => exact Or.inr ⟨e, rfl, rfl, rfl⟩

end Session

/-- **Every key works or is refused cleanly.**  In every state that a session
    reaches and under every key, of an open facade over any engine: a value
    that is no null and no NaN and that its type reads is read back after it
    has been written, and no longer found after it has been removed; if it
    cannot be written, the error is one of the engine and nothing has changed.

    A journaling database refuses the keys of no bytes or of more than 65535,
    in every operation and with an error that tells the length, and no others.
    An environment refuses the empty key in every operation; under a key of
    more than 511 bytes nothing is written, nothing is found, and removing
    succeeds. -/
theorem keys_work_or_are_refused {s : Session} (hs : s.Reachable) {name : String} {handle : Handle}
    (hopen : s.handle? name = some handle) (key : String) :
    (∀ {α : Type} (t : NativeType α) (x w : α), t.write x ≠ .null → (t.write x).isNaN = false →
      t.read (t.write x) = .ok w →
      (∀ u, Session.machine.act (.through name (.set key (.native t x))) s = (.ok (), u) →
        Session.machine.act (.through name (.get key t)) u = (.ok w, u) ∧
        ∀ v, Session.machine.act (.through name (.remove key)) u = (.ok (), v) →
          Session.machine.act (.through name (.get key t)) v = (.error (.keyNotFound key), v)) ∧
      ∀ e u, Session.machine.act (.through name (.set key (.native t x))) s = (.error e, u) →
        e.class = .backend ∧ u = s) ∧
    (∀ j, handle = .journal j → ∀ {α : Type} (op : Operation α), op.key? = some key →
      (key.utf8ByteSize = 0 ∨ 65535 < key.utf8ByteSize →
        Session.machine.act (.through name op) s = (.error (.backend "fjall" ("key length " ++
          key.utf8ByteSize.repr ++ " is outside 1..=65535 bytes")), s)) ∧
      (¬ (key.utf8ByteSize = 0 ∨ 65535 < key.utf8ByteSize) →
        ∀ e, (Session.machine.act (.through name op) s).1 = .error e → e.class ≠ .backend)) ∧
    (∀ e, handle = .environment e →
      (key = "" → ∀ {α : Type} (op : Operation α), op.key? = some key →
        Session.machine.act (.through name op) s = (.error (.environment .badKeySize), s)) ∧
      (511 < key.utf8ByteSize →
        (∀ {α : Type} (op : Operation α) v, v ≠ .null → op.change? = some (.put key v) →
          Session.machine.act (.through name op) s = (.error (.environment .badKeySize), s)) ∧
        (∀ {α : Type} (t : NativeType α),
          Session.machine.act (.through name (.get key t)) s = (.error (.keyNotFound key), s) ∧
          ∀ default,
            Session.machine.act (.through name (.getOr key t default)) s = (.ok default, s)) ∧
        (∀ kind, Session.machine.act (.through name (.getValue key kind)) s =
          (.error (.keyNotFound key), s)) ∧
        ∀ {α : Type} (op : Operation α),
          op.change? = some (.remove key) ∨ op.change? = some (.put key .null) →
            (Session.machine.act (.through name op) s).1.isOk = true)) := by
  refine ⟨fun t x w hnull hnan hread => ⟨fun u hset => ?_, fun e u hset => ?_⟩, ?_, ?_⟩
  · obtain ⟨h, hput, -, rfl⟩ | ⟨_, -, heq, -⟩ := Session.settle_of_act_through hopen rfl hset
    · have hget := handle.readsBack.get_of_set hnull hnan hread hput
      have hopen' : Session.handle? { s with host := h } name = some handle := hopen
      refine ⟨Session.act_through_of_eq hopen' (Prod.ext hget rfl), fun v hremove => ?_⟩
      obtain ⟨h', hdelete, -, rfl⟩ | ⟨_, -, heq, -⟩ :=
        Session.settle_of_act_through hopen' rfl hremove
      · have hgone := handle.readsBack.get_of_remove (t := t) hdelete
        have hopen'' : Session.handle? { s with host := h' } name = some handle := hopen
        exact Session.act_through_of_eq hopen'' (Prod.ext hgone rfl)
      · cases heq
    · cases heq
  · obtain ⟨_, -, heq, -⟩ | ⟨_, hput, heq, rfl⟩ := Session.settle_of_act_through hopen rfl hset
    · cases heq
    · cases heq
      exact ⟨handle.readsBack.class_of_set hnull hput, rfl⟩
  · rintro j rfl α op hop
    have hkey : (key.utf8ByteSize = 0 ∨ 65535 < key.utf8ByteSize) ↔ Journal.isKey key = false :=
      JournalHandle.isKey_eq_false_iff.symm
    refine ⟨fun h => ?_, fun h e he => ?_⟩
    · rw [← JournalHandle.keyError_eq]
      exact Session.act_through_of_eq hopen (JournalHandle.perform_of_not_isKey (hkey.1 h) hop)
    · rw [hkey, Bool.not_eq_false] at h
      rw [Session.act_through hopen] at he
      exact JournalHandle.class_of_isKey h hop he
  · rintro e rfl
    have hshort := hs.sound.short (Or.inr ⟨e, Session.mem_handles.2 ⟨name, hopen⟩, rfl⟩)
    refine ⟨?_, fun hkey => ⟨?_, fun t => ?_, fun kind => ?_, ?_⟩⟩
    · rintro rfl α op hop
      exact Session.act_through_of_eq hopen (EnvironmentHandle.perform_of_empty hop)
    · intro α op v hv hop
      exact Session.act_through_of_eq hopen (EnvironmentHandle.perform_of_long hkey hv hop)
    · have hget := Facade.get_of_fetch_error (EnvironmentHandle.fetch_of_long hkey hshort t.kind)
      refine ⟨Session.act_through_of_eq hopen (Prod.ext hget rfl), fun default => ?_⟩
      have hgetOr := Facade.getOr_of_get_error hget nofun default
      exact Session.act_through_of_eq hopen (Prod.ext hgetOr rfl)
    · have hget := Facade.getValue_of_fetch_error (EnvironmentHandle.fetch_of_long hkey hshort kind)
      exact Session.act_through_of_eq hopen (Prod.ext hget rfl)
    · intro α op hop
      rw [Session.act_through hopen]
      exact EnvironmentHandle.isOk_of_long hkey hop

/-- An environment, and a key of one byte too many. -/
theorem keys_work_or_are_refused_lmdb :
    let c : EngineConfig := .lmdb { path := "data" }
    let s := Session.machine.next ⟨_, .open "db" c⟩ {}
    let e : EnvironmentHandle := ⟨0, ["tmp", "work", "data"], 262144⟩
    let key := String.ofList (List.replicate 512 'k')
    s.Reachable ∧ s.handle? "db" = some (.environment e) ∧ 511 < key.utf8ByteSize ∧
      Session.machine.act (.through "db" (.set key (.native .bool true))) s =
        (.error (.environment .badKeySize), s) ∧
      Session.machine.act (.through "db" (.getOr key .bool true)) s = (.ok true, s) := by
  intro c s e key
  have hs : s.Reachable := .next _ .start trivial
  have hopen : s.handle? "db" = some (.environment e) := by
    show (Session.machine.next ⟨_, .open "db" (.lmdb { path := "data" })⟩ {}).handle? "db" =
      some (.environment ⟨0, ["tmp", "work", "data"], 262144⟩)
    cbv
  have hkey : 511 < key.utf8ByteSize := by decide +kernel
  obtain ⟨hput, hget, -⟩ := ((keys_work_or_are_refused hs hopen key).2.2 e rfl).2 hkey
  exact ⟨hs, hopen, hkey, hput _ (.bool true) (fun h => by cases h) rfl, (hget .bool).2 true⟩

end TypedStore
