/-
  TypedStore — values.

  A value is what a native type becomes on its way to a store: null, or a
  scalar tagged with its kind.  Integers and floating-point numbers are kept
  as words, so that two values are the same exactly if their bits are.

  * `Value.coerce` changes the kind of a value where that loses no meaning:
    between the two floating-point types, from text to its bytes, and from
    bytes that are text;
  * `Value.equal` is the comparison of numbers, in which the two zeros are
    equal and what is not a number equals nothing.
-/
import TypedStore.Binary.Rounding
import TypedStore.Text.Utf8

namespace TypedStore

/-! ## Casts that fail -/

/-- Why a value or an image cannot be read as what was asked for. -/
inductive CastError where
  | mismatch (expected found : Kind)
  | width (expected found : Nat)
  | nan (stored : FloatKind)
  | invalidBool (byte : UInt8)
  | invalidUtf8
  | malformed (domain : String)
  | unsupported (kind : Kind)
  deriving DecidableEq, Repr

/-- The message of a failed cast. -/
def CastError.message : CastError → String
  | mismatch expected found =>
    "Type mismatch: expected " ++ expected.name ++ ", got " ++ found.name
  | width expected found =>
    "Width mismatch: expected " ++ expected.repr ++ " bytes, got " ++ found.repr
  | nan stored => "Stored " ++ stored.name ++ " value is NaN"
  | invalidBool byte => "Invalid bool value: " ++ byte.toNat.repr
  | invalidUtf8 => "Invalid UTF-8 in text value"
  | malformed domain => "Malformed " ++ domain ++ " value"
  | unsupported kind => "Unsupported read type: " ++ kind.name

/-! ## Values -/

/-- Byte strings are compared as the core library does, also where another
    library is at hand. -/
instance (priority := high) decidableEqByteArray : DecidableEq ByteArray :=
  ByteArray.instDecidableEq

/-- A value on its way to or from a store. -/
inductive Value where
  | null
  | bool (b : Bool)
  | int (k : IntKind) (w : k.Word)
  | float (k : FloatKind) (w : k.Word)
  | text (s : String)
  | blob (bytes : ByteArray)
  deriving DecidableEq

namespace Value

/-- The kind of a value. -/
def kind : Value → Kind
  | null => .null
  | bool _ => .bool
  | int k _ => .int k
  | float k _ => .float k
  | text _ => .text
  | blob _ => .blob

/-- Whether a value is null. -/
def isNull : Value → Bool
  | null => true
  | _ => false

/-- Whether two values have one kind and equal contents, numbers compared as
    numbers. -/
def equal : Value → Value → Bool
  | float k v, float l w => if h : k = l then l.numEq (h ▸ v) w else false
  | v, w => v == w

/-- Whether a value is a floating-point pattern that is not a number. -/
def isNaN : Value → Bool
  | float k w => k.isNaN w
  | _ => false

/-- The value in another kind.  Kinds that share a width but not a meaning,
    such as two integer types, are not exchanged. -/
def coerce (v : Value) (kind : Kind) : Except CastError Value :=
  if v.kind = kind then .ok v else
  match v, kind with
  | float k w, .float l => .ok (float l (k.convert l w))
  | text s, .blob => .ok (blob s.toByteArray)
  | blob b, .text =>
    match Utf8.decode? b with
    | some s => .ok (text s)
    | none => .error .invalidUtf8
  | _, _ => .error (.mismatch kind v.kind)

end Value

end TypedStore
