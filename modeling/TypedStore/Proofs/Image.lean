/-
  TypedStore — images read back.

  * `toNumber_ofWord`: the image of a number is read as the number modulo what
    its bytes can hold;
  * `decode_encode`: the image of a value that is a number, if it is of a
    floating-point type, is read as that value in its own kind;
    `decode_encode_float` says the same of either floating-point kind;
  * `decode_ne_null`: no image is read as null.
-/
import Mathlib.Algebra.Group.Nat.Defs
import TypedStore.Image

namespace TypedStore

/-! ## Text -/

theorem Utf8.decode?_toByteArray (s : String) : decode? s.toByteArray = some s := by
  have hvalid : s.toByteArray.IsValidUTF8 := s.isValidUTF8
  simp [decode?, String.fromUTF8?, String.fromUTF8, hvalid]

namespace Image

/-! ## Words -/

theorem length_bytesOf (n m : Nat) : (bytesOf n m).length = n := by
  induction n generalizing m with
  | zero => rfl
  | succ n ih => simp [bytesOf, ih]

theorem numberOf_bytesOf (n m : Nat) : numberOf (bytesOf n m) = m % 256 ^ n := by
  induction n generalizing m with
  | zero => simp [bytesOf, numberOf, Nat.mod_one]
  | succ n ih =>
    have hlow : (UInt8.ofNat (m % 256)).toNat = m % 256 := by
      simp [UInt8.toNat_ofNat']
    rw [bytesOf, numberOf, hlow, ih, Nat.pow_succ', Nat.mod_mul]

theorem size_ofWord (n m : Nat) : (ofWord n m).size = n := length_bytesOf n m

theorem toNumber_ofWord (n m : Nat) : toNumber (ofWord n m) = m % 256 ^ n := numberOf_bytesOf n m

theorem pow_bits (n : Nat) : 256 ^ n = 2 ^ (8 * n) := (Nat.pow_mul 2 8 n).symm

/-- A word is read back from its image. -/
theorem ofNat_toNumber_ofWord (n : Nat) (w : BitVec (8 * n)) :
    BitVec.ofNat (8 * n) (toNumber (ofWord n w.toNat)) = w := by
  have hlt : w.toNat < 256 ^ n := by rw [pow_bits]; exact w.isLt
  rw [toNumber_ofWord, Nat.mod_eq_of_lt hlt, BitVec.ofNat_toNat, BitVec.setWidth_eq]

/-! ## Values -/

theorem encode_eq_none_iff {v : Value} : encode v = none ↔ v = .null := by
  cases v <;> simp [encode]

theorem decode_bool (b : Bool) : decode (ofWord 1 b.toNat) .bool = .ok (.bool b) := by
  cases b <;> rfl

theorem decode_int (k : IntKind) (w : k.Word) :
    decode (ofWord k.bytes w.toNat) (.int k) = .ok (.int k w) := by
  have hw : BitVec.ofNat k.bits (toNumber (ofWord k.bytes w.toNat)) = w :=
    ofNat_toNumber_ofWord k.bytes w
  simp only [decode, checkWidth, size_ofWord, if_true, hw]
  rfl

/-- Either floating-point kind reads the number in the type it was stored in. -/
theorem decode_encode_float (k l : FloatKind) (w : k.Word) :
    decode (ofWord k.bytes w.toNat) (.float l) =
      if k.isNaN w then .error (.nan k) else .ok (.float k w) := by
  have hw : BitVec.ofNat k.bits (toNumber (ofWord k.bytes w.toNat)) = w :=
    ofNat_toNumber_ofWord k.bytes w
  have hfloat : decode (ofWord k.bytes w.toNat) (.float l) =
      decodeFloat k (ofWord k.bytes w.toNat) := by
    cases k with
    | f32 => rw [decode, if_pos (size_ofWord _ _)]
    | f64 => rw [decode, if_neg (by rw [size_ofWord]; decide), if_pos (size_ofWord _ _)]
  rw [hfloat, decodeFloat, hw]

theorem decode_text (s : String) : decode s.toByteArray .text = .ok (.text s) := by
  simp only [decode, Utf8.decode?_toByteArray]

/-- **A value is read back from its image**, unless it is a floating-point
    pattern that is not a number. -/
theorem decode_encode {v : Value} {bytes : ByteArray} (h : encode v = some bytes)
    (hv : v.isNaN = false) : decode bytes v.kind = .ok v := by
  cases v with
  | null => cases h
  | bool b => cases h; exact decode_bool b
  | int k w => cases h; exact decode_int k w
  | float k w =>
    cases h
    have hv : k.isNaN w = false := hv
    rw [Value.kind, decode_encode_float, hv]
    rfl
  | text s => cases h; exact decode_text s
  | blob b => cases h; rfl

theorem decodeBool_ne_null (bytes : ByteArray) : decodeBool bytes ≠ .ok .null := by
  unfold decodeBool
  split <;> simp

/-- No image is read as null. -/
theorem decode_ne_null (bytes : ByteArray) (kind : Kind) : decode bytes kind ≠ .ok .null := by
  cases kind with
  | null => simp [decode]
  | bool =>
    simp only [decode, checkWidth]
    split
    · exact decodeBool_ne_null bytes
    · exact fun h => nomatch h
  | int k =>
    simp only [decode, checkWidth]
    split <;> exact fun h => nomatch h
  | float k =>
    simp only [decode, decodeFloat]
    split
    · split <;> simp
    · split
      · split <;> simp
      · simp
  | text =>
    simp only [decode]
    split <;> simp
  | blob => simp [decode]

end Image

end TypedStore
