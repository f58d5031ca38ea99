/-
  TypedStore — text that may be ill-formed, written and read.

  Byte strings that are meant as text are stored as text if they are, and else
  as bytes; paths are stored as text, in which ill-formed parts are replaced.

  * `Backend.ReadsStrings`: text and bytes are read as each other, from a value
    that was kept as from its image; `Handle.readsStrings` says so of every
    engine;
  * `Facade.KeepsText`: what is read of a byte string, and of a path, that was
    written;
  * `Path.ofText_text_iff`: the paths that are read as they were written;
  * `ill_formed_text_is_kept_or_marked`: all this, and what the text of a path
    is.
-/
import TypedStore.Proofs.Lossy
import TypedStore.Proofs.RoundTrip

namespace TypedStore

variable {σ τ : Type}

/-! ## Byte strings and their images -/

/-- A kind of byte strings: text, or any bytes. -/
def Kind.IsString (kind : Kind) : Prop := kind = .text ∨ kind = .blob

/-- Text and bytes have something in common. -/
theorem Value.coerce_ne_mismatch {v : Value} {kind : Kind} (hv : v.kind.IsString)
    (hkind : kind.IsString) : v.coerce kind ≠ .error (.mismatch kind v.kind) := by
  intro h
  obtain ⟨hno, hrefusal⟩ := coerce_eq_error_iff.1 h
  rcases hv with hv | hv <;> rcases hkind with rfl | rfl
  · exact hno (hv ▸ .own)
  · exact hno (.bytes hv)
  · rw [refusal, if_pos ⟨hv, rfl⟩] at hrefusal
    cases hrefusal
  · exact hno (hv ▸ .own)

/-- The image of a byte string is read, as text or as bytes, like the value
    itself. -/
theorem Image.read_of_isString {α : Type} {v : Value} {bytes : ByteArray} {t : NativeType α}
    (hv : v.kind.IsString) (ht : t.kind.IsString) (hbytes : encode v = some bytes) :
    (decode bytes t.kind).bind t.read = t.read v := by
  have hnull : v ≠ .null := by
    rintro rfl
    cases hbytes
  rcases decode_coerce hbytes t.kind with ⟨u, hu, hcoerce⟩ | ⟨c, -, hc, hd⟩ | ⟨f, w, rfl, -⟩ | hc
  · have hne : u ≠ .null := by
      rintro rfl
      exact decode_ne_null bytes t.kind hu
    rw [hu]
    exact t.read_congr hne hnull hcoerce
  · rw [hd, t.read_of_coerce_error hnull hc]
    rfl
  · rcases hv with hv | hv <;> cases hv
  · exact absurd hc (Value.coerce_ne_mismatch hv ht)

theorem Value.ne_null_of_isString {v : Value} (hv : v.kind.IsString) : v ≠ .null := by
  rintro rfl
  rcases hv with hv | hv <;> cases hv

theorem Value.isNaN_of_isString {v : Value} (hv : v.kind.IsString) : v.isNaN = false := by
  cases v with
  | float => rcases hv with hv | hv <;> cases hv
  | null | bool | int | text | blob => rfl

/-! ## Byte strings that are meant as text -/

namespace Value

theorem ofTextBytes_toByteArray (s : String) : ofTextBytes s.toByteArray = .text s := by
  rw [ofTextBytes, Utf8.decode?_toByteArray]

theorem ofTextBytes_of_illFormed {bytes : ByteArray} (h : ¬ Utf8.IsWellFormed bytes.data.toList) :
    ofTextBytes bytes = .blob bytes := by
  unfold ofTextBytes
  split
  · next s hs => exact absurd (Utf8.isWellFormed_iff.2 ⟨s, Utf8.decode?_eq_some_iff.1 hs⟩) h
  · rfl

theorem isString_ofTextBytes (bytes : ByteArray) : (ofTextBytes bytes).kind.IsString := by
  unfold ofTextBytes
  split
  · exact Or.inl rfl
  · exact Or.inr rfl

/-- However it is stored, it is read as its bytes. -/
theorem read_blob_ofTextBytes (bytes : ByteArray) :
    NativeType.blob.read (ofTextBytes bytes) = .ok bytes := by
  by_cases h : Utf8.IsWellFormed bytes.data.toList
  · obtain ⟨s, rfl⟩ := Utf8.isWellFormed_iff.1 h
    rw [ofTextBytes_toByteArray]
    rfl
  · rw [ofTextBytes_of_illFormed h]
    rfl

/-- Bytes that are no text are not read as one. -/
theorem read_text_of_illFormed {bytes : ByteArray} (h : ¬ Utf8.IsWellFormed bytes.data.toList) :
    NativeType.text.read (blob bytes) = .error .invalidUtf8 := by
  refine NativeType.text.read_of_coerce_error nofun (coerce_eq_error_iff.2 ⟨?_, rfl⟩)
  intro hcoercible
  cases hcoercible with
  | text hbytes hwell =>
    cases hbytes
    exact h hwell

end Value

/-! ## Backends -/

/-- What has been written of text or bytes is read as either, like the value
    itself. -/
structure Backend.ReadsStrings (b : Backend σ) : Prop where
  get {α : Type} {t : NativeType α} {key : String} {v : Value} {s u : σ} :
    (Facade.ofBackend b).set key v s = .ok u → v.kind.IsString → t.kind.IsString →
      (Facade.ofBackend b).get key t u = (t.read v).mapError (.badValue key)

namespace Backend

theorem readsStrings_tagged (name : String) : (tagged name).ReadsStrings where
  get {α t key v m u} hset hv _ := by
    have hnull := Value.ne_null_of_isString hv
    rw [Facade.set_ofBackend, Value.isNull_eq_false hnull] at hset
    have hfetch := (readsBack_tagged name).put hnull (Value.isNaN_of_isString hv) hset
    -- a map does not look at the kind that is asked for
    have hkind : (tagged name).fetch key t.kind u = .ok v := hfetch
    rw [Facade.get_ofBackend, hkind]
    rfl

theorem ReadsStrings.within {b : Backend σ} (h : b.ReadsStrings) {part : τ → σ}
    {update : σ → τ → τ} (hpart : ∀ m t, part (update m t) = m) :
    (b.within part update).ReadsStrings where
  get {α t key v s u} hset hv ht := by
    have hpartly : ((Facade.ofBackend b).set key v (part s)).map (update · s) = .ok u := by
      rw [← hset]
      cases v <;> rfl
    obtain ⟨m, hm, rfl⟩ := Except.map_eq_ok_iff.1 hpartly
    show (Facade.ofBackend b).get key t (part (update m s)) = _
    rw [hpart]
    exact h.get hm hv ht

end Backend

/-- A store of images reads byte strings on an engine that is a map. -/
theorem ByteStore.IsMap.readsStrings {store : ByteStore σ} {view : σ → String → Option ByteArray}
    (h : store.IsMap view) (hserves : store.Serves) : store.packed.ReadsStrings where
  get {α t key v s u} hset hv ht := by
    have hnull := Value.ne_null_of_isString hv
    rw [Facade.set_ofBackend, Value.isNull_eq_false hnull] at hset
    obtain ⟨bytes, hbytes, hfetch⟩ := h.fetch_of_put hserves hnull hset
    rw [Facade.get_ofBackend, hfetch, ← Image.read_of_isString hv ht hbytes]
    cases Image.decode bytes t.kind <;> rfl

/-- Every engine reads byte strings. -/
theorem Handle.readsStrings (handle : Handle) : handle.backend.ReadsStrings := by
  cases hs : handle.byteStore? with
  | some store =>
    rw [backend_of_byteStore? hs]
    exact (isMap hs).readsStrings (serves hs)
  | none =>
    cases handle with
    | map name =>
      refine (Backend.readsStrings_tagged name.backendName).within fun m h => ?_
      simp only [Host.map, Host.putMap, Entries.get?_insert, if_true, Option.getD_some]
    | store | table | journal | environment | rows => cases hs

/-! ## Paths -/

/-- The paths that are read as they were written are those that are text. -/
theorem Path.ofText_text_iff {p : Path} :
    ofText p.text = p ↔ Utf8.IsWellFormed p.bytes.data.toList := by
  refine ⟨fun h => ?_, ofText_text⟩
  rw [Utf8.isWellFormed_iff]
  exact ⟨p.text, congrArg Path.bytes h⟩

theorem Path.text_ofText (s : String) : (ofText s).text = s := Utf8.decodeLossy_toByteArray s

/-! ## Facades -/

/-- What is read of a byte string that is meant as text, and of a path, after
    it was written. -/
structure Facade.KeepsText (db : Facade σ) : Prop where
  /-- The bytes are kept. -/
  blob {key : String} {bytes : ByteArray} {s u : σ} :
    db.set key (.ofTextBytes bytes) s = .ok u → db.get key .blob u = .ok bytes
  /-- They are the text that they encode, if there is one. -/
  text {key : String} {bytes : ByteArray} {s u : σ} :
    db.set key (.ofTextBytes bytes) s = .ok u → Utf8.IsWellFormed bytes.data.toList →
      ∃ text : String, text.toByteArray = bytes ∧ db.get key .text u = .ok text
  illFormed {key : String} {bytes : ByteArray} {s u : σ} :
    db.set key (.ofTextBytes bytes) s = .ok u → ¬ Utf8.IsWellFormed bytes.data.toList →
      db.get key .text u = .error (.badValue key .invalidUtf8)
  /-- A path is read, as itself if it is text, and is stored again as it was. -/
  path {key : String} {p : Path} {s u : σ} : db.set key (.ofPath p) s = .ok u →
    ∃ q, db.get key .path u = .ok q ∧ (q = p ↔ Utf8.IsWellFormed p.bytes.data.toList) ∧
      Value.ofPath q = Value.ofPath p

/-- A backend that reads byte strings keeps text. -/
theorem Backend.ReadsStrings.keepsText {b : Backend σ} (h : b.ReadsStrings) :
    (Facade.ofBackend b).KeepsText where
  blob {key bytes s u} hset := by
    rw [h.get hset (Value.isString_ofTextBytes bytes) (Or.inr rfl), Value.read_blob_ofTextBytes]
    rfl
  text {key bytes s u} hset hbytes := by
    obtain ⟨text, rfl⟩ := Utf8.isWellFormed_iff.1 hbytes
    refine ⟨text, rfl, ?_⟩
    rw [Value.ofTextBytes_toByteArray] at hset
    exact h.get hset (Or.inl rfl) (Or.inl rfl)
  illFormed {key bytes s u} hset hbytes := by
    rw [Value.ofTextBytes_of_illFormed hbytes] at hset
    rw [h.get hset (Or.inr rfl) (Or.inl rfl), Value.read_text_of_illFormed hbytes]
    rfl
  path {key p s u} hset := by
    refine ⟨Path.ofText p.text, h.get hset (Or.inl rfl) (Or.inl rfl), Path.ofText_text_iff, ?_⟩
    rw [Value.ofPath, Path.text_ofText]
    rfl

/-- **Ill-formed text is kept, or it is marked.**  Over every engine, over a map
    of values and over every byte store that is a map, a byte string that is
    meant as text is read as exactly its bytes; it is read as the text that it
    encodes, and as invalid if it encodes none.  A map of values takes all
    that is written.

    A path is stored as the same text whether it is owned or not: in this text
    every character is kept and every maximal ill-formed part is one
    replacement character, and no other text is so.  It can always be read as
    a path, which is the path that was written exactly if that is text, and
    which is stored as the same text again. -/
theorem ill_formed_text_is_kept_or_marked :
    (∀ handle : Handle, (Facade.ofBackend handle.backend).KeepsText) ∧
    (∀ name, (Facade.ofBackend (Backend.tagged name)).KeepsText ∧
      ∀ key v m, ∃ u, (Facade.ofBackend (Backend.tagged name)).set key v m = .ok u) ∧
    (∀ {σ : Type} (store : ByteStore σ) (view : σ → String → Option ByteArray),
      store.IsMap view → store.Serves → (Facade.ofBackend store.packed).KeepsText) ∧
    ∀ p : Path, NativeType.path.write p = .ofPath p ∧ Value.ofPath p = .text p.text ∧
      ∀ text : String, Utf8.LossyText p.bytes.data.toList text.toList ↔ text = p.text := by
  refine ⟨fun handle => handle.readsStrings.keepsText,
    fun name => ⟨(Backend.readsStrings_tagged name).keepsText, fun key v m => ?_⟩,
    fun store view h hserves => (h.readsStrings hserves).keepsText, fun p => ⟨rfl, rfl, fun text => ?_⟩⟩
  · rw [Facade.set_ofBackend]
    cases v.isNull <;> exact ⟨_, rfl⟩
  · rw [Utf8.lossyText_iff, Path.text, Utf8.decodeLossy, ← String.toList_inj, String.toList_ofList,
      eq_comm]

/-- A character that is broken off, in a byte store. -/
theorem ill_formed_text_is_kept_or_marked_truncated :
    let db := Facade.ofBackend ByteMap.byteStore.packed
    let bytes : ByteArray := ⟨#[0x61, 0xE2, 0x82, 0x62]⟩
    ByteMap.byteStore.IsMap (fun m key => m.get? key) ∧ ByteMap.byteStore.Serves ∧
      ¬ Utf8.IsWellFormed bytes.data.toList ∧
      Utf8.LossyText bytes.data.toList ['a', Char.ofNat 0xFFFD, 'b'] ∧
      ∃ m, db.set "k" (.ofTextBytes bytes) .empty = .ok m ∧ db.get "k" .blob m = .ok bytes ∧
        db.get "k" .text m = .error (.badValue "k" .invalidUtf8) ∧
        ∃ n q, db.set "p" (.ofPath ⟨bytes⟩) m = .ok n ∧ db.get "p" .path n = .ok q ∧ q ≠ ⟨bytes⟩ := by
  intro db bytes
  have hmap : ByteMap.byteStore.IsMap (fun m key => m.get? key) :=
    ByteStore.isMap_plain _ _ _ fun _ => rfl
  have hserves : ByteMap.byteStore.Serves := ByteStore.serves_plain _ _ _
  have hill : ¬ Utf8.IsWellFormed bytes.data.toList := by
    rw [Utf8.isWellFormed_iff]
    rintro ⟨s, hs⟩
    have hdecode : Utf8.decode? bytes = none := by decide +kernel
    rw [Utf8.decode?_eq_some_iff.2 hs] at hdecode
    cases hdecode
  have hkeeps := ill_formed_text_is_kept_or_marked.2.2.1 _ _ hmap hserves
  have hlossy := ((ill_formed_text_is_kept_or_marked.2.2.2 ⟨bytes⟩).2.2 (Path.text ⟨bytes⟩)).2 rfl
  have htext : Utf8.lossyChars bytes.data.toList = ['a', Char.ofNat 0xFFFD, 'b'] := by
    decide +kernel
  rw [Path.text, Utf8.decodeLossy, String.toList_ofList, htext] at hlossy
  obtain ⟨m, hset⟩ : ∃ m, db.set "k" (.ofTextBytes bytes) .empty = .ok m := by
    rw [Value.ofTextBytes_of_illFormed hill]
    exact ⟨_, rfl⟩
  obtain ⟨n, hpath⟩ : ∃ n, db.set "p" (.ofPath ⟨bytes⟩) m = .ok n := ⟨_, rfl⟩
  obtain ⟨q, hq, hsame, -⟩ := hkeeps.path hpath
  exact ⟨hmap, hserves, hill, hlossy, m, hset, hkeeps.blob hset, hkeeps.illFormed hset hill,
    n, q, hpath, hq, fun h => hill (hsame.1 h)⟩

end TypedStore
