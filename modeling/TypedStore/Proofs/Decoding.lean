/-
  TypedStore — what an image is read as, by the kind that is asked for.

  Nothing in an image tells which kind was written.  What is read is decided by
  the length of the image and the kind, and for some kinds by the bytes.

  * `decode_of_width_ne`: a fixed width that is not the length of the image;
  * `decode_int_int`: an integer in another type of its width, the same modulo
    what its bytes can hold;
  * `decode_bool_byte`, `decode_text_eq_ok_iff`: which bytes are a boolean, and
    which are text;
  * `images_are_read_by_kind`: all this of the image of a value.
-/
import TypedStore.Proofs.Image
import TypedStore.Proofs.Words

namespace TypedStore

/-! ## Text -/

theorem Utf8.decode?_eq_some_iff {bytes : ByteArray} {s : String} :
    decode? bytes = some s ↔ s.toByteArray = bytes := by
  constructor
  · intro h
    simp only [decode?, String.fromUTF8?] at h
    split_ifs at h
    cases h
    rfl
  · rintro rfl
    exact decode?_toByteArray s

namespace Image

variable {bytes : ByteArray}

theorem decode_text_eq_ok_iff {s : String} :
    decode bytes .text = .ok (.text s) ↔ s.toByteArray = bytes := by
  rw [← Utf8.decode?_eq_some_iff, decode]
  cases Utf8.decode? bytes <;> simp

theorem decode_text_of_not_text (h : ∀ s : String, s.toByteArray ≠ bytes) :
    decode bytes .text = .error .invalidUtf8 := by
  rw [decode]
  cases hs : Utf8.decode? bytes with
  | none => rfl
  | some s => exact absurd (Utf8.decode?_eq_some_iff.1 hs) (h s)

/-! ## Numbers -/

/-- An image of another length is refused, with both lengths. -/
theorem decode_of_width_ne {kind : Kind} {n : Nat} (hwidth : kind.width = some n)
    (hfloat : kind.isFloat = false) (hn : n ≠ bytes.size) :
    decode bytes kind = .error (.width n bytes.size) := by
  cases kind with
  | null | text | blob => cases hwidth
  | bool =>
    obtain rfl : 1 = n := Option.some.inj hwidth
    simp only [decode, checkWidth, if_neg hn.symm]
    rfl
  | int k =>
    obtain rfl : k.bytes = n := Option.some.inj ((Kind.width_int k).symm.trans hwidth)
    simp only [decode, checkWidth, if_neg hn.symm]
    rfl
  | float k => cases hfloat

/-- A single byte is a boolean if it is `0` or `1`. -/
theorem decode_bool_byte (byte : UInt8) : decode ⟨#[byte]⟩ .bool =
    if byte = 0 then .ok (.bool false) else if byte = 1 then .ok (.bool true)
    else .error (.invalidBool byte) := by
  have hnumber : toNumber ⟨#[byte]⟩ = byte.toNat := by simp [toNumber, numberOf]
  have hdecode : decode ⟨#[byte]⟩ .bool = decodeBool ⟨#[byte]⟩ := rfl
  rw [hdecode, decodeBool, hnumber]
  split_ifs with hzero hone
  · rw [hzero]; rfl
  · rw [hone]; rfl
  · have hne : byte.toNat ≠ 0 := fun h => hzero (UInt8.toNat_inj.1 h)
    have hne' : byte.toNat ≠ 1 := fun h => hone (UInt8.toNat_inj.1 h)
    split
    · next h => exact absurd h hne
    · next h => exact absurd h hne'
    · rw [UInt8.ofNat_toNat]

/-- An integer is read in another type of its width as the number of that type
    that is the same modulo what its bytes can hold. -/
theorem decode_int_int {k l : IntKind} (h : k.bytes = l.bytes) (w : k.Word) : ∃ u : l.Word,
    decode (ofWord k.bytes w.toNat) (.int l) = .ok (.int l u) ∧ l.holds (l.toInt u) = true ∧
      l.toInt u ≡ k.toInt w [ZMOD 2 ^ (8 * k.bytes)] := by
  have hbits : k.bits = l.bits := congrArg (8 * ·) h
  have hword : (w.cast hbits).toNat = w.toNat := BitVec.toNat_cast hbits w
  refine ⟨w.cast hbits, ?_, l.holds_toInt _, ?_⟩
  · have hdecode := decode_int l (w.cast hbits)
    rwa [hword, ← h] at hdecode
  · have hpow : (2 : Int) ^ (8 * k.bytes) = 2 ^ l.bits := congrArg (2 ^ ·) hbits
    calc l.toInt (w.cast hbits)
        ≡ (w.cast hbits).toNat [ZMOD 2 ^ (8 * k.bytes)] := hpow ▸ l.toInt_modEq (w.cast hbits)
      _ = w.toNat := congrArg Nat.cast hword
      _ ≡ k.toInt w [ZMOD 2 ^ (8 * k.bytes)] := (k.toInt_modEq w).symm

/-! ## Values -/

theorem size_of_encode {v : Value} (h : encode v = some bytes) {n : Nat}
    (hn : v.kind.width = some n) : bytes.size = n := by
  cases v with
  | null | text | blob => cases hn
  | bool b =>
    cases h
    obtain rfl : 1 = n := Option.some.inj hn
    exact size_ofWord _ _
  | int k w =>
    cases h
    rw [size_ofWord, Option.some.inj ((Kind.width_int k).symm.trans hn)]
  | float k w =>
    cases h
    rw [size_ofWord, Option.some.inj ((Kind.width_float k).symm.trans hn)]

/-- What the image of a value is read as, by the kind that is asked for. -/
structure ReadByKind (v : Value) (bytes : ByteArray) : Prop where
  /-- The image has the width of the kind, if that is fixed. -/
  size {n} : v.kind.width = some n → bytes.size = n
  /-- In its own kind the value is read back, bit for bit. -/
  own : v.isNaN = false → decode bytes v.kind = .ok v
  /-- What is not a number is refused in both floating-point kinds. -/
  nan {k w} : v = .float k w → k.isNaN w = true → ∀ l, decode bytes (.float l) = .error (.nan k)
  /-- A floating-point number is read in the type it was stored in. -/
  float {k w} : v = .float k w → k.isNaN w = false → ∀ l, decode bytes (.float l) = .ok v
  width {kind n} : kind.width = some n → kind.isFloat = false → n ≠ bytes.size →
    decode bytes kind = .error (.width n bytes.size)
  int {k l w} : v = .int k w → k.bytes = l.bytes → ∃ u : l.Word,
    decode bytes (.int l) = .ok (.int l u) ∧ l.holds (l.toInt u) = true ∧
      l.toInt u ≡ k.toInt w [ZMOD 2 ^ (8 * k.bytes)]
  bool {byte} : bytes = ⟨#[byte]⟩ → decode bytes .bool =
    if byte = 0 then .ok (.bool false) else if byte = 1 then .ok (.bool true)
    else .error (.invalidBool byte)
  blob : decode bytes .blob = .ok (.blob bytes)
  text {s} : decode bytes .text = .ok (.text s) ↔ s.toByteArray = bytes
  notText : (∀ s : String, s.toByteArray ≠ bytes) → decode bytes .text = .error .invalidUtf8

/-- **Every value but null has an image, and the image is read back, or as a
    foreign kind by the rules of that kind.** -/
theorem images_are_read_by_kind {v : Value} (hv : v ≠ .null) :
    ∃ bytes, encode v = some bytes ∧ ReadByKind v bytes := by
  obtain ⟨bytes, hbytes⟩ := Option.ne_none_iff_exists'.1 (mt encode_eq_none_iff.1 hv)
  refine ⟨bytes, hbytes, ?_⟩
  exact {
    size := size_of_encode hbytes
    own := decode_encode hbytes
    nan := by
      rintro k w rfl hnan l
      cases hbytes
      rw [decode_encode_float, if_pos hnan]
    float := by
      rintro k w rfl hnan l
      cases hbytes
      rw [decode_encode_float, if_neg (by simp [hnan])]
    width := decode_of_width_ne
    int := by
      rintro k l w rfl h
      cases hbytes
      exact decode_int_int h w
    bool := by
      rintro byte rfl
      exact decode_bool_byte byte
    blob := rfl
    text := decode_text_eq_ok_iff
    notText := decode_text_of_not_text }

/-- A negative number of two bytes. -/
theorem images_are_read_by_kind_i16 :
    let v : Value := .int .i16 (IntKind.i16.ofInt (-2))
    v ≠ .null ∧ ∃ bytes, encode v = some bytes ∧ bytes.size = 2 ∧ decode bytes (.int .i16) = .ok v ∧
      decode bytes .bool = .error (.width 1 2) ∧
      ∃ u, decode bytes (.int .u16) = .ok (.int .u16 u) ∧ IntKind.u16.toInt u ≡ -2 [ZMOD 2 ^ 16] := by
  intro v
  have hv : v ≠ .null := nofun
  obtain ⟨bytes, hbytes, hread⟩ := images_are_read_by_kind hv
  have hsize : bytes.size = 2 := hread.size rfl
  have hbool : decode bytes .bool = .error (.width 1 bytes.size) :=
    hread.width rfl rfl (by rw [hsize]; decide)
  rw [hsize] at hbool
  obtain ⟨u, hu, -, hmod⟩ := hread.int (l := .u16) rfl rfl
  exact ⟨hv, bytes, hbytes, hsize, hread.own rfl, hbool, u, hu, hmod⟩

end Image

end TypedStore
