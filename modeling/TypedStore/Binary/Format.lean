/-
  TypedStore — binary floating-point formats on bit patterns.

  A format has a number of fraction bits and of exponent bits.  A pattern is a
  sign and a rank: the rest of the bits, read as one number.  Ranks are in the
  order of the magnitudes they stand for, so that rank `0` is zero, the next
  one the least subnormal, and the finite ranks end where `infinity` begins;
  ranks above it are not numbers.

  Every finite magnitude is a multiple of one quantum, the least subnormal.
  `units r` is that multiple, and `scale` quanta make one.
-/
import TypedStore.Kind

namespace TypedStore

/-- The layout of a binary floating-point format. -/
structure Format where
  fraction : Nat
  exponent : Nat
  deriving DecidableEq, Repr

namespace Format

variable (f : Format)

/-- The number of bits of a pattern. -/
def bits : Nat := f.fraction + f.exponent + 1

/-- The rank of infinity; greater ranks are not numbers. -/
def infinity : Nat := (Nat.pow 2 f.exponent - 1) * Nat.pow 2 f.fraction

/-- The rank of the quiet pattern that is no number. -/
def quiet : Nat := f.infinity + Nat.pow 2 (f.fraction - 1)

/-- The exponent offset. -/
def bias : Nat := Nat.pow 2 (f.exponent - 1) - 1

/-- The number of quanta in one. -/
def scale : Nat := Nat.pow 2 (f.bias + f.fraction - 1)

/-- The magnitude of a rank, in quanta. -/
def units (rank : Nat) : Nat :=
  let hidden := Nat.pow 2 f.fraction
  if rank < 2 * hidden then rank else (hidden + rank % hidden) * Nat.pow 2 (rank / hidden - 1)

/-- The rank of a pattern: its bits without the sign. -/
def rank (word : Nat) : Nat := word % Nat.pow 2 (f.bits - 1)

/-- Whether a pattern has its sign bit set. -/
def negative (word : Nat) : Bool := word / Nat.pow 2 (f.bits - 1) % 2 = 1

/-- The pattern of a sign and a rank. -/
def word (negative : Bool) (rank : Nat) : Nat :=
  (if negative then Nat.pow 2 (f.bits - 1) else 0) + rank

/-- Whether a pattern is not a number. -/
def isNaN (word : Nat) : Bool := f.infinity < f.rank word

end Format

/-- The layout of a floating-point type. -/
def FloatKind.format : FloatKind → Format
  | .f32 => ⟨23, 8⟩
  | .f64 => ⟨52, 11⟩

namespace FloatKind

theorem bits_format (k : FloatKind) : k.format.bits = k.bits := by cases k <;> rfl

/-- Whether a pattern of the type is not a number. -/
def isNaN (k : FloatKind) (w : k.Word) : Bool := k.format.isNaN w.toNat

/-- Whether two patterns compare as equal numbers: the two zeros do, and a
    pattern that is not a number equals nothing. -/
def numEq (k : FloatKind) (v w : k.Word) : Bool :=
  !k.isNaN v && !k.isNaN w &&
    (v == w || (k.format.rank v.toNat == 0 && k.format.rank w.toNat == 0))

end FloatKind

end TypedStore
