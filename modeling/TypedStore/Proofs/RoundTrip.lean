/-
  TypedStore — what is written is read back, type by type.

  * `NativeType.Keeps`: the elements that their types give back; domain types
    keep an element if their placeholder does, and if it is read as the element
    that it was made of;
  * `NativeType.Keeps.read_write`, `NativeType.Keeps.read_image`: they are read
    back from the value that is stored, and from its image;
  * `NativeType.read_domain_of_none`, `Facade.get_domain_of_none`: what stands
    for no element of a domain type is refused with the name of the type;
  * `native_types_round_trip`: all this, and which texts and numbers stand for
    no identifier, digest or member.
-/
import TypedStore.Native.Domain
import TypedStore.Proofs.ReadPaths
import TypedStore.Proofs.Uuid

namespace TypedStore

variable {σ α π : Type}

/-! ## Domain types -/

theorem Path.ofText_text {p : Path} (h : Utf8.IsWellFormed p.bytes.data.toList) :
    Path.ofText p.text = p := by
  obtain ⟨bytes⟩ := p
  obtain ⟨s, rfl⟩ := Utf8.isWellFormed_iff.1 h
  rw [Path.text, Utf8.decodeLossy_toByteArray]
  rfl

namespace DomainType

theorem ofPlaceholder_uuid (u : Uuid) : uuid.ofPlaceholder (uuid.toPlaceholder u) = some u := by
  simp only [uuid, u.ofText?_text]

/-- The members of an enumeration are found by their numbers. -/
theorem ofPlaceholder_enumeration {name : String} {number : α → IntKind.u8.Word} {members : List α}
    {x : α} (hmem : x ∈ members) (hnumber : ∀ y ∈ members, number y = number x → y = x) :
    (enumeration name number members).ofPlaceholder (number x) = some x := by
  show members.find? (number · == number x) = some x
  cases hfind : members.find? (number · == number x) with
  | none =>
    have hx := List.find?_eq_none.1 hfind x hmem
    simp at hx
  | some y =>
    have hy := List.find?_some hfind
    rw [hnumber y (List.mem_of_find?_eq_some hfind) (by simpa using hy)]

/-- Other numbers are refused. -/
theorem ofPlaceholder_enumeration_eq_none_iff {name : String} {number : α → IntKind.u8.Word}
    {members : List α} {w : IntKind.u8.Word} :
    (enumeration name number members).ofPlaceholder w = none ↔ ∀ x ∈ members, number x ≠ w := by
  show members.find? (number · == w) = none ↔ _
  simp [List.find?_eq_none]

end DomainType

namespace NativeType

/-- The elements that their types give back. -/
inductive Keeps : {α : Type} → NativeType α → α → Prop where
  | bool (b : Bool) : Keeps .bool b
  | int (k : IntKind) (w : k.Word) : Keeps (.int k) w
  | float (k : FloatKind) (w : k.Word) : Keeps (.float k) w
  | text (s : String) : Keeps .text s
  | blob (bytes : ByteArray) : Keeps .blob bytes
  /-- Paths that are text. -/
  | path {p : Path} : Utf8.IsWellFormed p.bytes.data.toList → Keeps .path p
  | uuid (u : Uuid) : Keeps .uuid u
  | digest (d : Digest) : Keeps .digest d
  /-- Enumerations of which no two members have one number. -/
  | enumeration {α : Type} (name : String) {number : α → IntKind.u8.Word} {members : List α} {x : α} :
    x ∈ members → (∀ y ∈ members, number y = number x → y = x) →
      Keeps (.domain (.enumeration name number members) (.int .u8)) x
  /-- Domain types that read every placeholder as what it was made of. -/
  | domain {π α : Type} {d : DomainType π α} {placeholder : NativeType π} {x : α} :
    (∀ y, d.ofPlaceholder (d.toPlaceholder y) = some y) → Keeps placeholder (d.toPlaceholder x) →
      Keeps (.domain d placeholder) x
  /-- What is present of an optional type. -/
  | option {α : Type} {t : NativeType α} {x : α} : Keeps t x → Keeps (.option t) (some x)

variable {t : NativeType α} {x : α} {d : DomainType π α} {placeholder : NativeType π}

/-- A placeholder that stands for an element is read as it. -/
theorem read_domain_of_some {v : Value} {p : π} (hread : placeholder.read v = .ok p)
    (hp : d.ofPlaceholder p = some x) : (domain d placeholder).read v = .ok x := by
  simp only [read, hread, bind, Except.bind, hp]
  rfl

/-- What a domain type undoes itself, it reads back if its placeholder does. -/
theorem read_write_domain
    (hread : placeholder.read (placeholder.write (d.toPlaceholder x)) = .ok (d.toPlaceholder x))
    (hx : d.ofPlaceholder (d.toPlaceholder x) = some x) :
    (domain d placeholder).read ((domain d placeholder).write x) = .ok x :=
  read_domain_of_some hread hx

/-- A placeholder that stands for no element is refused. -/
theorem read_domain_of_none {v : Value} {p : π} (hread : placeholder.read v = .ok p)
    (hp : d.ofPlaceholder p = none) : (domain d placeholder).read v = .error (.malformed d.name) := by
  simp only [read, hread, bind, Except.bind, hp]
  rfl

namespace Keeps

theorem write_ne_null (h : t.Keeps x) : t.write x ≠ .null := by
  induction h with
  | bool | int | float | text | blob | path | uuid | digest | enumeration => exact nofun
  | domain _ _ ih => exact ih
  | option _ ih => exact ih

theorem kind_write (h : t.Keeps x) : (t.write x).kind = t.kind :=
  t.kind_write h.write_ne_null

/-- **What is kept is read back from the value that is stored.** -/
theorem read_write (h : t.Keeps x) : t.read (t.write x) = .ok x := by
  induction h with
  | bool b => exact IsScalar.read_write (t := .bool) trivial b
  | int k w => exact IsScalar.read_write (t := .int k) trivial w
  | float k w => exact IsScalar.read_write (t := .float k) trivial w
  | text s => exact IsScalar.read_write (t := .text) trivial s
  | blob bytes => exact IsScalar.read_write (t := .blob) trivial bytes
  | path hp => exact read_write_domain rfl (congrArg some (Path.ofText_text hp))
  | uuid u => exact read_write_domain rfl (DomainType.ofPlaceholder_uuid u)
  | digest d => exact read_write_domain rfl d.ofHex?_hex
  | enumeration name hmem hnumber =>
    exact read_write_domain rfl (DomainType.ofPlaceholder_enumeration hmem hnumber)
  | domain hlaw _ ih => exact read_write_domain ih (hlaw _)
  | @option β inner y h ih =>
    show (NativeType.option inner).read (inner.write y) = .ok (some y)
    rw [inner.read_option h.write_ne_null, ih]
    rfl

/-- **What is kept is read back from its image**, unless it is not a number. -/
theorem read_image (h : t.Keeps x) (hnan : (t.write x).isNaN = false) :
    ∃ bytes v, Image.encode (t.write x) = some bytes ∧ Image.decode bytes t.kind = .ok v ∧
      t.read v = .ok x := by
  obtain ⟨bytes, hbytes⟩ := Option.ne_none_iff_exists'.1 (mt Image.encode_eq_none_iff.1 h.write_ne_null)
  have hdecode := Image.decode_encode hbytes hnan
  rw [h.kind_write] at hdecode
  exact ⟨bytes, _, hbytes, hdecode, h.read_write⟩

end Keeps

end NativeType

/-! ## Facades -/

namespace Facade

variable {db : Facade σ} {key : String} {s : σ} {d : DomainType π α} {placeholder : NativeType π}
  {p : π}

/-- A placeholder that stands for no element is a bad value under its key. -/
theorem get_domain_of_none (hget : db.get key placeholder s = .ok p)
    (hp : d.ofPlaceholder p = none) :
    db.get key (.domain d placeholder) s = .error (.badValue key (.malformed d.name)) := by
  obtain ⟨backend⟩ := db
  cases backend with
  | none => cases hget
  | some b =>
    obtain ⟨v, hv, hread⟩ := get_eq_ok_iff.1 hget
    show (ofBackend b).get key (.domain d placeholder) s = _
    rw [get_ofBackend, NativeType.kind, hv]
    show ((NativeType.domain d placeholder).read v).mapError (StoreError.badValue key) = _
    rw [NativeType.read_domain_of_none hread hp]
    rfl

end Facade

/-- **Native types round-trip.**  A scalar, a path that is text, an identifier,
    a digest, a member of an enumeration, an element of a domain type that
    undoes its own placeholders, or something present of an optional type, is
    read back from the value that it is stored as, which is of the kind that
    the type asks for; and from the image of that value, unless it is not a
    number.

    A placeholder that stands for no element of a domain type is malformed: a
    facade reports it as a bad value under its key, with the name of the type,
    and goes on with a default; so it does after the placeholder was written
    over any engine.  A text stands for no identifier unless it is one of its
    forms when its letters are lowered, and for no digest unless it is the
    digits of exactly 32 bytes; a number stands for no member unless it is the
    number of one. -/
theorem native_types_round_trip :
    (∀ {α : Type} (t : NativeType α) (x : α), t.Keeps x →
      t.read (t.write x) = .ok x ∧ (t.write x).kind = t.kind ∧
      ((t.write x).isNaN = false → ∃ bytes v, Image.encode (t.write x) = some bytes ∧
        Image.decode bytes t.kind = .ok v ∧ t.read v = .ok x)) ∧
    (∀ {π α : Type} (d : DomainType π α) (placeholder : NativeType π) (p : π),
      d.ofPlaceholder p = none →
      (∀ v, placeholder.read v = .ok p →
        (NativeType.domain d placeholder).read v = .error (.malformed d.name)) ∧
      (∀ {σ : Type} (db : Facade σ) (key : String) (s : σ), db.get key placeholder s = .ok p →
        db.get key (.domain d placeholder) s = .error (.badValue key (.malformed d.name)) ∧
        ∀ default, db.getOr key (.domain d placeholder) default s = .ok default) ∧
      ∀ (handle : Handle) (key : String) (h u : Host), placeholder.Keeps p →
        (placeholder.write p).isNaN = false →
        (Facade.ofBackend handle.backend).set key (placeholder.write p) h = .ok u →
        (Facade.ofBackend handle.backend).get key (.domain d placeholder) u =
          .error (.badValue key (.malformed d.name)) ∧
        ∀ default, (Facade.ofBackend handle.backend).getOr key (.domain d placeholder) default u =
          .ok default) ∧
    (∀ text : String, DomainType.uuid.ofPlaceholder text = none ↔
      ∀ u : Uuid, ¬ u.Spells (text.toList.map Char.toLower)) ∧
    (∀ text : String, DomainType.digest.ofPlaceholder text = none ↔
      ∀ bytes, text.toList.map Char.toLower = Hex.digits bytes → bytes.length ≠ 32) ∧
    ∀ {α : Type} (name : String) (number : α → IntKind.u8.Word) (members : List α) w,
      (DomainType.enumeration name number members).ofPlaceholder w = none ↔
        ∀ x ∈ members, number x ≠ w := by
  have hmalformed {π α σ : Type} {d : DomainType π α} {placeholder : NativeType π} {p : π}
      {db : Facade σ} {key : String} {s : σ} (hp : d.ofPlaceholder p = none)
      (hget : db.get key placeholder s = .ok p) :
      db.get key (.domain d placeholder) s = .error (.badValue key (.malformed d.name)) ∧
        ∀ default, db.getOr key (.domain d placeholder) default s = .ok default := by
    have hbad := Facade.get_domain_of_none hget hp
    exact ⟨hbad, Facade.getOr_of_get_error hbad nofun⟩
  refine ⟨fun t x h => ⟨h.read_write, h.kind_write, h.read_image⟩,
    fun d placeholder p hp => ⟨fun v hv => NativeType.read_domain_of_none hv hp,
      fun db key s hget => hmalformed hp hget, fun handle key h u hkeeps hnan hset => ?_⟩,
    fun text => Uuid.ofText?_eq_none_iff, fun text => Block.ofHex?_eq_none_iff,
    fun name number members w => DomainType.ofPlaceholder_enumeration_eq_none_iff⟩
  exact hmalformed hp
    (handle.readsBack.get_of_set hkeeps.write_ne_null hnan hkeeps.read_write hset)

/-- An identifier that is present, and a text that is none in a byte store. -/
theorem native_types_round_trip_uuid :
    let u : Uuid := ⟨[0x67, 0xE5, 0x50, 0x44, 0x10, 0xB1, 0x42, 0x6F,
      0x92, 0x47, 0xBB, 0x68, 0x0E, 0x5F, 0xE0, 0xC8], rfl⟩
    let t : NativeType (Option Uuid) := .option .uuid
    let db := Facade.ofBackend (Handle.store "s").backend
    t.Keeps (some u) ∧ (t.write (some u)).isNaN = false ∧ t.read (t.write (some u)) = .ok (some u) ∧
      (∃ bytes v, Image.encode (t.write (some u)) = some bytes ∧
        Image.decode bytes t.kind = .ok v ∧ t.read v = .ok (some u)) ∧
      NativeType.text.Keeps "not a uuid" ∧ DomainType.uuid.ofPlaceholder "not a uuid" = none ∧
      ∃ h, db.set "id" (NativeType.text.write "not a uuid") {} = .ok h ∧
        db.get "id" .uuid h = .error (.badValue "id" (.malformed "uuid")) ∧
        db.getOr "id" .uuid u h = .ok u := by
  intro u t db
  have hkeeps : t.Keeps (some u) := .option (.uuid u)
  obtain ⟨hread, -, himage⟩ := native_types_round_trip.1 t (some u) hkeeps
  have htext : NativeType.text.Keeps "not a uuid" := .text _
  have hnone : DomainType.uuid.ofPlaceholder "not a uuid" = none := rfl
  obtain ⟨-, -, hengine⟩ := native_types_round_trip.2.1 .uuid .text "not a uuid" hnone
  obtain ⟨hget, hgetOr⟩ := hengine (.store "s") "id" {} _ htext rfl rfl
  exact ⟨hkeeps, rfl, hread, himage rfl, htext, hnone, _, rfl, hget, hgetOr u⟩

end TypedStore
