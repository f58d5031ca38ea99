/-
  TypedStore — byte images of values.

  A scalar is stored as exactly the bytes of its type, the least significant
  first; text and blobs are stored as they are.  Nothing in an image tells
  which kind was written, so that a reader gives the kind it expects.

  * `Image.encode` has no image for null alone;
  * `Image.decode` checks the length against the kind first, then the
    contents: a boolean is a byte `0` or `1`, a floating-point image is never
    a pattern that is not a number, and text is well-formed;
  * a floating-point kind takes an image of either precision and gives the
    value in the precision that was stored.
-/
import TypedStore.Value

namespace TypedStore.Image

/-! ## Words -/

/-- The `n` low bytes of a number, the least significant first. -/
def bytesOf : Nat → Nat → List UInt8
  | 0, _ => []
  | n + 1, m => UInt8.ofNat (m % 256) :: bytesOf n (m / 256)

/-- The number of a list of bytes, the least significant first. -/
def numberOf : List UInt8 → Nat
  | [] => 0
  | b :: rest => b.toNat + 256 * numberOf rest

/-- The image of a word of `n` bytes. -/
def ofWord (n : Nat) (m : Nat) : ByteArray := ⟨(bytesOf n m).toArray⟩

/-- The number an image stands for. -/
def toNumber (bytes : ByteArray) : Nat := numberOf bytes.data.toList

/-! ## Images of values -/

/-- The image of a value; null has none. -/
def encode : Value → Option ByteArray
  | .null => none
  | .bool b => some (ofWord 1 b.toNat)
  | .int k w => some (ofWord k.bytes w.toNat)
  | .float k w => some (ofWord k.bytes w.toNat)
  | .text s => some s.toByteArray
  | .blob b => some b

/-- Fails unless an image has `expected` bytes. -/
def checkWidth (expected : Nat) (bytes : ByteArray) : Except CastError Unit :=
  if bytes.size = expected then .ok () else .error (.width expected bytes.size)

/-- Reads a floating-point number of the precision `k`. -/
def decodeFloat (k : FloatKind) (bytes : ByteArray) : Except CastError Value :=
  let w : k.Word := BitVec.ofNat k.bits (toNumber bytes)
  if k.isNaN w then .error (.nan k) else .ok (.float k w)

/-- Reads a boolean. -/
def decodeBool (bytes : ByteArray) : Except CastError Value :=
  match toNumber bytes with
  | 0 => .ok (.bool false)
  | 1 => .ok (.bool true)
  | other => .error (.invalidBool (UInt8.ofNat other))

/-- Reads an image as the kind that is expected. -/
def decode (bytes : ByteArray) : Kind → Except CastError Value
  | .null => .error (.unsupported .null)
  | .bool => do
    checkWidth 1 bytes
    decodeBool bytes
  | .int k => do
    checkWidth k.bytes bytes
    return .int k (BitVec.ofNat k.bits (toNumber bytes))
  | .float k =>
    if bytes.size = FloatKind.f32.bytes then decodeFloat .f32 bytes
    else if bytes.size = FloatKind.f64.bytes then decodeFloat .f64 bytes
    else .error (.width k.bytes bytes.size)
  | .text =>
    match Utf8.decode? bytes with
    | some s => .ok (.text s)
    | none => .error .invalidUtf8
  | .blob => .ok (.blob bytes)

end TypedStore.Image
