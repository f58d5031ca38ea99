/-
  TypedStore — the images that a kind accepts.

  Every byte string is an image of some values and of no others.  Which kinds
  read it is decided by its length first and by its bytes then; what is read has
  the byte string for its image, so that nothing of it is lost.

  * `Accepts`, `Refuses`: what is read as a kind, and why the rest is not;
  * `decode_accepts`, `decode_refuses`: an image that is accepted is read, and
    one that is refused fails for that reason, so that these are all cases;
  * `images_are_accepted_or_refused`: this, and that an image is given back by
    what is read of it.
-/
import TypedStore.Proofs.Decoding
import TypedStore.Proofs.Utf8

namespace TypedStore.Image

/-! ## Words -/

theorem numberOf_lt (bytes : List UInt8) : numberOf bytes < 256 ^ bytes.length := by
  induction bytes with
  | nil => simp [numberOf]
  | cons b rest ih =>
    have hb : b.toNat < 256 := b.toNat_lt
    rw [numberOf, List.length_cons, Nat.pow_succ]
    omega

theorem bytesOf_numberOf (bytes : List UInt8) : bytesOf bytes.length (numberOf bytes) = bytes := by
  induction bytes with
  | nil => rfl
  | cons b rest ih =>
    have hb : b.toNat < 256 := b.toNat_lt
    have hlow : (b.toNat + 256 * numberOf rest) % 256 = b.toNat := by omega
    have hhigh : (b.toNat + 256 * numberOf rest) / 256 = numberOf rest := by omega
    rw [List.length_cons, numberOf, bytesOf, hlow, hhigh, ih, UInt8.ofNat_toNat]

/-- The word of an image of its size gives the image back. -/
theorem ofWord_toNumber {bytes : ByteArray} {n : Nat} (h : bytes.size = n) :
    ofWord n (BitVec.ofNat (8 * n) (toNumber bytes)).toNat = bytes := by
  subst h
  have hlt : toNumber bytes < 2 ^ (8 * bytes.size) := by
    rw [← pow_bits]
    exact numberOf_lt bytes.data.toList
  rw [BitVec.toNat_ofNat, Nat.mod_eq_of_lt hlt]
  exact ByteArray.ext (Array.toList_inj.1 (bytesOf_numberOf bytes.data.toList))

/-! ## Acceptance -/

/-- The word of a floating-point image. -/
def floatOf (f : FloatKind) (bytes : ByteArray) : f.Word := BitVec.ofNat f.bits (toNumber bytes)

/-- What can be read as a kind: any byte string as a blob, well-formed text, the
    width of an integer, a byte `0` or `1`, and either width of a floating-point
    number that is a number. -/
inductive Accepts (bytes : ByteArray) : Kind → Prop where
  | blob : Accepts bytes .blob
  | text : Utf8.IsWellFormed bytes.data.toList → Accepts bytes .text
  | int {k : IntKind} : bytes.size = k.bytes → Accepts bytes (.int k)
  | bool {byte : UInt8} : bytes = ⟨#[byte]⟩ → byte = 0 ∨ byte = 1 → Accepts bytes .bool
  | float {k f : FloatKind} : bytes.size = f.bytes → f.isNaN (floatOf f bytes) = false →
      Accepts bytes (.float k)

/-- Why a byte string cannot be read as a kind. -/
inductive Refuses (bytes : ByteArray) : Kind → CastError → Prop where
  | null : Refuses bytes .null (.unsupported .null)
  | notText : ¬ Utf8.IsWellFormed bytes.data.toList → Refuses bytes .text .invalidUtf8
  | intWidth {k : IntKind} : bytes.size ≠ k.bytes →
      Refuses bytes (.int k) (.width k.bytes bytes.size)
  | boolWidth : bytes.size ≠ 1 → Refuses bytes .bool (.width 1 bytes.size)
  | invalidBool {byte : UInt8} : bytes = ⟨#[byte]⟩ → byte ≠ 0 → byte ≠ 1 →
      Refuses bytes .bool (.invalidBool byte)
  | floatWidth {k : FloatKind} : (∀ f : FloatKind, bytes.size ≠ f.bytes) →
      Refuses bytes (.float k) (.width k.bytes bytes.size)
  | nan {k f : FloatKind} : bytes.size = f.bytes → f.isNaN (floatOf f bytes) = true →
      Refuses bytes (.float k) (.nan f)

/-- The kind of what is read as a kind: a floating-point number keeps the width
    that was stored. -/
def ReadKind (bytes : ByteArray) (asked found : Kind) : Prop :=
  if asked.isFloat then ∃ f : FloatKind, found = .float f ∧ bytes.size = f.bytes
  else found = asked

variable {bytes : ByteArray}

theorem exists_byte (h : bytes.size = 1) : ∃ byte, bytes = ⟨#[byte]⟩ := by
  obtain ⟨byte, hbyte⟩ := Array.size_eq_one_iff.1 h
  exact ⟨byte, ByteArray.ext hbyte⟩

theorem decode_float (k : FloatKind) {f : FloatKind} (hsize : bytes.size = f.bytes) :
    decode bytes (.float k) = decodeFloat f bytes := by
  cases f with
  | f32 => rw [decode, if_pos hsize]
  | f64 => rw [decode, if_neg (by rw [hsize]; decide), if_pos hsize]

/-- What is accepted is read, as something that has the byte string for its
    image. -/
theorem decode_accepts {kind : Kind} (h : Accepts bytes kind) :
    ∃ v, decode bytes kind = .ok v ∧ encode v = some bytes ∧ ReadKind bytes kind v.kind := by
  cases h with
  | blob => exact ⟨.blob bytes, rfl, rfl, rfl⟩
  | text htext =>
    obtain ⟨s, rfl⟩ := Utf8.isWellFormed_iff.1 htext
    exact ⟨.text s, decode_text s, rfl, rfl⟩
  | @int k hsize =>
    refine ⟨.int k (BitVec.ofNat k.bits (toNumber bytes)), ?_, ?_, rfl⟩
    · simp only [decode, checkWidth, if_pos hsize]
      rfl
    · exact congrArg some (ofWord_toNumber hsize)
  | @bool byte hbytes hbyte =>
    subst hbytes
    rw [decode_bool_byte]
    rcases hbyte with rfl | rfl
    · exact ⟨.bool false, rfl, rfl, rfl⟩
    · exact ⟨.bool true, rfl, rfl, rfl⟩
  | @float k f hsize hnan =>
    refine ⟨.float f (floatOf f bytes), ?_, congrArg some (ofWord_toNumber hsize), f, rfl, hsize⟩
    rw [decode_float k hsize]
    exact if_neg (by rw [floatOf] at hnan; simp [hnan])

/-- What is refused fails for that reason. -/
theorem decode_refuses {kind : Kind} {c : CastError} (h : Refuses bytes kind c) :
    decode bytes kind = .error c := by
  cases h with
  | null => rfl
  | notText htext =>
    exact decode_text_of_not_text fun s hs => htext (Utf8.isWellFormed_iff.2 ⟨s, hs⟩)
  | @intWidth k hsize => exact decode_of_width_ne (Kind.width_int k) rfl hsize.symm
  | boolWidth hsize => exact decode_of_width_ne rfl rfl hsize.symm
  | @invalidBool byte hbytes hzero hone =>
    rw [hbytes, decode_bool_byte, if_neg hzero, if_neg hone]
  | @floatWidth k hsize => rw [decode, if_neg (hsize .f32), if_neg (hsize .f64)]
  | @nan k f hsize hnan =>
    rw [decode_float k hsize]
    exact if_pos hnan

/-- There is no other case. -/
theorem accepts_or_refuses (bytes : ByteArray) (kind : Kind) :
    Accepts bytes kind ∨ ∃ c, Refuses bytes kind c := by
  cases kind with
  | null => exact Or.inr ⟨_, .null⟩
  | blob => exact Or.inl .blob
  | text =>
    by_cases htext : Utf8.IsWellFormed bytes.data.toList
    · exact Or.inl (.text htext)
    · exact Or.inr ⟨_, .notText htext⟩
  | int k =>
    by_cases hsize : bytes.size = k.bytes
    · exact Or.inl (.int hsize)
    · exact Or.inr ⟨_, .intWidth hsize⟩
  | bool =>
    by_cases hsize : bytes.size = 1
    · obtain ⟨byte, hbytes⟩ := exists_byte hsize
      by_cases hbyte : byte = 0 ∨ byte = 1
      · exact Or.inl (.bool hbytes hbyte)
      · rw [not_or] at hbyte
        exact Or.inr ⟨_, .invalidBool hbytes hbyte.1 hbyte.2⟩
    · exact Or.inr ⟨_, .boolWidth hsize⟩
  | float k =>
    by_cases hsize : ∃ f : FloatKind, bytes.size = f.bytes
    · obtain ⟨f, hf⟩ := hsize
      cases hnan : f.isNaN (floatOf f bytes) with
      | false => exact Or.inl (.float hf hnan)
      | true => exact Or.inr ⟨_, .nan hf hnan⟩
    · exact Or.inr ⟨_, .floatWidth (not_exists.1 hsize)⟩

/-! ## Reading -/

theorem decode_isOk_iff {kind : Kind} : (∃ v, decode bytes kind = .ok v) ↔ Accepts bytes kind := by
  constructor
  · rintro ⟨v, hv⟩
    rcases accepts_or_refuses bytes kind with h | ⟨c, hc⟩
    · exact h
    · rw [decode_refuses hc] at hv
      cases hv
  · intro h
    obtain ⟨v, hv, -⟩ := decode_accepts h
    exact ⟨v, hv⟩

theorem decode_eq_error_iff {kind : Kind} {c : CastError} :
    decode bytes kind = .error c ↔ Refuses bytes kind c := by
  refine ⟨fun h => ?_, decode_refuses⟩
  rcases accepts_or_refuses bytes kind with hok | ⟨c', hc'⟩
  · obtain ⟨v, hv, -⟩ := decode_accepts hok
    rw [hv] at h
    cases h
  · rw [decode_refuses hc'] at h
    cases h
    exact hc'

/-- What is read has the byte string for its image. -/
theorem encode_of_decode {kind : Kind} {v : Value} (h : decode bytes kind = .ok v) :
    encode v = some bytes ∧ ReadKind bytes kind v.kind := by
  obtain ⟨w, hw, hencode, hkind⟩ := decode_accepts (decode_isOk_iff.1 ⟨v, h⟩)
  cases hw.symm.trans h
  exact ⟨hencode, hkind⟩

/-- **A byte string is read as exactly the kinds that accept it, and nothing of
    it is lost.**  What is read is encoded as the byte string again, so that no
    two byte strings are read as one value; it is of the kind that was asked
    for, or of the floating-point type that was stored.  What is not accepted
    fails, and the error says why: lengths are reported whatever the bytes
    are. -/
theorem images_are_accepted_or_refused (bytes : ByteArray) (kind : Kind) :
    ((∃ v, decode bytes kind = .ok v) ↔ Accepts bytes kind) ∧
    (∀ v, decode bytes kind = .ok v → encode v = some bytes ∧ ReadKind bytes kind v.kind) ∧
    (∀ other v, decode bytes kind = .ok v → decode other kind = .ok v → other = bytes) ∧
    ∀ c, decode bytes kind = .error c ↔ Refuses bytes kind c := by
  refine ⟨decode_isOk_iff, fun v => encode_of_decode, fun other v h hother => ?_,
    fun c => decode_eq_error_iff⟩
  have heq : some other = some bytes := (encode_of_decode hother).1.symm.trans (encode_of_decode h).1
  exact Option.some.inj heq

/-- A number of single precision that is asked for in double precision, a
    pattern that is no number, a length that is of neither precision, and an
    overlong form in a text. -/
theorem images_are_accepted_or_refused_float :
    let half : ByteArray := ⟨#[0, 0, 0, 0x3f]⟩
    let nan : ByteArray := ⟨#[0, 0, 0xc0, 0x7f]⟩
    let v : Value := .float .f32 0x3f000000#32
    decode half (.float .f64) = .ok v ∧ encode v = some half ∧ ReadKind half (.float .f64) v.kind ∧
    (∀ other, decode other (.float .f64) = .ok v → other = half) ∧
    decode nan (.float .f64) = .error (.nan .f32) ∧
    decode ⟨#[0, 0, 0]⟩ (.float .f64) = .error (.width 8 3) ∧
    Refuses ⟨#[0xc0, 0x80]⟩ .text .invalidUtf8 := by
  intro half nan v
  have hhalf : decode half (.float .f64) = .ok v := rfl
  obtain ⟨-, hlossless, hinjective, -⟩ := images_are_accepted_or_refused half (.float .f64)
  obtain ⟨hencode, hkind⟩ := hlossless v hhalf
  have hnan : Refuses nan (.float .f64) (.nan .f32) := .nan rfl rfl
  have hwidth : Refuses ⟨#[0, 0, 0]⟩ (.float .f64) (.width 8 3) :=
    .floatWidth fun f => by cases f <;> decide
  have htext : decode ⟨#[0xc0, 0x80]⟩ .text = .error .invalidUtf8 := rfl
  exact ⟨hhalf, hencode, hkind, fun other => hinjective other v hhalf,
    ((images_are_accepted_or_refused nan (.float .f64)).2.2.2 _).2 hnan,
    ((images_are_accepted_or_refused ⟨#[0, 0, 0]⟩ (.float .f64)).2.2.2 _).2 hwidth,
    ((images_are_accepted_or_refused ⟨#[0xc0, 0x80]⟩ .text).2.2.2 _).1 htext⟩

end TypedStore.Image
