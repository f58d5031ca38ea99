/-
  TypedStore — native types and their storage shapes.

  A native type is a scalar of one of the storable kinds, a domain type stored
  through a placeholder, or an optional type.  `NativeType α` describes how
  the elements of `α` become values and how they are read back.

  * a scalar reads every value that coerces to its kind;
  * a domain type reads what its placeholder reads, and then refuses the
    placeholders that stand for none of its elements;
  * an optional type writes an absent element as null and reads null as
    absent.
-/
import TypedStore.Value

namespace TypedStore

/-! ## Domain types -/

/-- A type `α` stored through the placeholder type `π`. -/
structure DomainType (π α : Type) where
  /-- The name in messages. -/
  name : String
  /-- The placeholder an element is stored as. -/
  toPlaceholder : α → π
  /-- The element a placeholder stands for. -/
  ofPlaceholder : π → Option α

/-! ## Native types -/

/-- How the elements of a type are stored and read. -/
inductive NativeType : Type → Type 1 where
  | bool : NativeType Bool
  | int (k : IntKind) : NativeType k.Word
  | float (k : FloatKind) : NativeType k.Word
  | text : NativeType String
  | blob : NativeType ByteArray
  | domain {π α : Type} (d : DomainType π α) (placeholder : NativeType π) : NativeType α
  | option {α : Type} (inner : NativeType α) : NativeType (Option α)

namespace NativeType

/-- The kind a store is asked for on behalf of the type. -/
def kind {α : Type} : NativeType α → Kind
  | bool => .bool
  | int k => .int k
  | float k => .float k
  | text => .text
  | blob => .blob
  | domain _ placeholder => placeholder.kind
  | option inner => inner.kind

/-- The affinity of the type. -/
def affinity {α : Type} (t : NativeType α) : Option Affinity := t.kind.affinity

/-- The value an element is stored as. -/
def write {α : Type} : NativeType α → α → Value
  | bool, b => .bool b
  | int k, w => .int k w
  | float k, w => .float k w
  | text, s => .text s
  | blob, b => .blob b
  | domain d placeholder, x => placeholder.write (d.toPlaceholder x)
  | option inner, some x => inner.write x
  | option _, none => .null

/-- Reads a boolean. -/
def readBool (v : Value) : Except CastError Bool := do
  match ← v.coerce .bool with
  | .bool b => return b
  | other => throw (.mismatch .bool other.kind)

/-- Reads an integer of the type `k`. -/
def readInt (k : IntKind) (v : Value) : Except CastError k.Word := do
  match ← v.coerce (.int k) with
  | .int l w => if h : l = k then return h ▸ w else throw (.mismatch (.int k) (.int l))
  | other => throw (.mismatch (.int k) other.kind)

/-- Reads a floating-point number of the type `k`. -/
def readFloat (k : FloatKind) (v : Value) : Except CastError k.Word := do
  match ← v.coerce (.float k) with
  | .float l w => if h : l = k then return h ▸ w else throw (.mismatch (.float k) (.float l))
  | other => throw (.mismatch (.float k) other.kind)

/-- Reads a text. -/
def readText (v : Value) : Except CastError String := do
  match ← v.coerce .text with
  | .text s => return s
  | other => throw (.mismatch .text other.kind)

/-- Reads a blob. -/
def readBlob (v : Value) : Except CastError ByteArray := do
  match ← v.coerce .blob with
  | .blob b => return b
  | other => throw (.mismatch .blob other.kind)

/-- The element that a value is read as. -/
def read {α : Type} : NativeType α → Value → Except CastError α
  | bool, v => readBool v
  | int k, v => readInt k v
  | float k, v => readFloat k v
  | text, v => readText v
  | blob, v => readBlob v
  | domain d placeholder, v => do
    match d.ofPlaceholder (← placeholder.read v) with
    | some x => return x
    | none => throw (.malformed d.name)
  | option _, .null => return none
  | option inner, v => some <$> inner.read v

end NativeType

/-! ## Types that are written only -/

namespace Value

/-- The value of an optional element, given how a present one is stored. -/
def ofOption {α : Type} (write : α → Value) : Option α → Value
  | some x => write x
  | none => null

/-- A byte string that is meant as text: it is stored as text if it is
    well-formed, and else as a blob. -/
def ofTextBytes (bytes : ByteArray) : Value :=
  match Utf8.decode? bytes with
  | some s => text s
  | none => blob bytes

end Value

end TypedStore
