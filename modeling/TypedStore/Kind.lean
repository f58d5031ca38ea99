/-
  TypedStore — the kinds of a stored value and their storage affinities.

  A kind names one shape that a value can take: null, a boolean, one of eight
  integer types, one of two binary floating-point types, text, or a blob.  An
  affinity is the coarser class a kind is stored under; it has a width where
  its image has one.

  * `Kind.name` and `Affinity.name` are the words messages use;
  * `Kind.affinity` is undefined only at `null`;
  * `Kind.width` is the number of bytes of an image of that kind, if fixed.
-/

namespace TypedStore

/-! ## Integer and floating-point types -/

/-- The integer types: signed or not, of one, two, four or eight bytes. -/
inductive IntKind where
  | i8 | i16 | i32 | i64 | u8 | u16 | u32 | u64
  deriving DecidableEq, Repr

namespace IntKind

/-- Whether the type is read in two's complement. -/
def signed : IntKind → Bool
  | i8 | i16 | i32 | i64 => true
  | u8 | u16 | u32 | u64 => false

/-- The number of bytes of the type. -/
def bytes : IntKind → Nat
  | i8 | u8 => 1
  | i16 | u16 => 2
  | i32 | u32 => 4
  | i64 | u64 => 8

/-- The number of bits of the type. -/
def bits (k : IntKind) : Nat := 8 * k.bytes

/-- A word of the type. -/
abbrev Word (k : IntKind) : Type := BitVec k.bits

/-- The least number of the type. -/
def least (k : IntKind) : Int := if k.signed then -(Nat.pow 2 (k.bits - 1)) else 0

/-- The greatest number of the type. -/
def greatest (k : IntKind) : Int :=
  if k.signed then Nat.pow 2 (k.bits - 1) - 1 else Nat.pow 2 k.bits - 1

/-- The number a word of the type stands for. -/
def toInt (k : IntKind) (w : k.Word) : Int := if k.signed then w.toInt else w.toNat

/-- The word that stands for `n` modulo the size of the type. -/
def ofInt (k : IntKind) (n : Int) : k.Word := BitVec.ofInt k.bits n

/-- Whether `n` is a number of the type. -/
def holds (k : IntKind) (n : Int) : Bool := k.least ≤ n && n ≤ k.greatest

/-- The word for messages. -/
def name : IntKind → String
  | i8 => "i8" | i16 => "i16" | i32 => "i32" | i64 => "i64"
  | u8 => "u8" | u16 => "u16" | u32 => "u32" | u64 => "u64"

/-- Every integer type. -/
def all : List IntKind := [i8, i16, i32, i64, u8, u16, u32, u64]

end IntKind

/-- The binary floating-point types, single and double precision. -/
inductive FloatKind where
  | f32 | f64
  deriving DecidableEq, Repr

namespace FloatKind

/-- The number of bytes of the type. -/
def bytes : FloatKind → Nat
  | f32 => 4
  | f64 => 8

/-- The number of bits of the type. -/
def bits (k : FloatKind) : Nat := 8 * k.bytes

/-- The bit pattern of a number of the type. -/
abbrev Word (k : FloatKind) : Type := BitVec k.bits

/-- The word for messages. -/
def name : FloatKind → String
  | f32 => "f32" | f64 => "f64"

/-- Every floating-point type. -/
def all : List FloatKind := [f32, f64]

end FloatKind

/-! ## Affinities -/

/-- The class a value is stored under. -/
inductive Affinity where
  | boolean
  | integer (width : UInt8)
  | float
  | double
  | text
  | blob
  deriving DecidableEq, Repr

namespace Affinity

/-- The number of bytes of an image of this affinity, if it is fixed. -/
def width : Affinity → Option Nat
  | boolean => some 1
  | integer w => some w.toNat
  | float => some 4
  | double => some 8
  | text | blob => none

/-- The word for messages; an integer affinity is named by its bits. -/
def name : Affinity → String
  | boolean => "boolean"
  | integer w => "integer-" ++ (8 * w.toNat).repr
  | float => "float"
  | double => "double"
  | text => "text"
  | blob => "blob"

end Affinity

/-! ## Kinds -/

/-- The shape of a value. -/
inductive Kind where
  | null
  | bool
  | int (k : IntKind)
  | float (k : FloatKind)
  | text
  | blob
  deriving DecidableEq, Repr

namespace Kind

/-- The word for messages. -/
def name : Kind → String
  | null => "null"
  | bool => "bool"
  | int k => k.name
  | float k => k.name
  | text => "text"
  | blob => "blob"

/-- The affinity a value of this kind is stored under; null is not stored. -/
def affinity : Kind → Option Affinity
  | null => none
  | bool => some .boolean
  | int k => some (.integer (UInt8.ofNat k.bytes))
  | float .f32 => some .float
  | float .f64 => some .double
  | text => some .text
  | blob => some .blob

/-- The number of bytes of an image of this kind, if it is fixed. -/
def width (k : Kind) : Option Nat := k.affinity.bind Affinity.width

/-- Whether the kind is a floating-point type. -/
def isFloat : Kind → Bool
  | float _ => true
  | _ => false

/-- The kinds that can be stored, which are all but null. -/
def storable : List Kind :=
  bool :: IntKind.all.map int ++ FloatKind.all.map float ++ [text, blob]

/-- The storable kind of a name. -/
def ofName? (name : String) : Option Kind := storable.find? (·.name == name)

theorem width_int (k : IntKind) : (int k).width = some k.bytes := by cases k <;> rfl

theorem width_float (k : FloatKind) : (float k).width = some k.bytes := by cases k <;> rfl

end Kind

end TypedStore
