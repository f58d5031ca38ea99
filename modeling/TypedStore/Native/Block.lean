/-
  TypedStore — byte blocks of a fixed size, and their text forms.

  A UUID is a block of 16 bytes, written as five groups of lowercase digits
  with hyphens between them.  It is read in four forms: the plain digits, the
  groups, the groups in braces, and the groups after `urn:uuid:`; letters may
  have either case.  A digest is a block of 32 bytes, written and read as
  plain digits.
-/
import TypedStore.Text.Hex

namespace TypedStore

/-- A block of `n` bytes. -/
structure Block (n : Nat) where
  bytes : List UInt8
  length_eq : bytes.length = n := by rfl
  deriving DecidableEq

namespace Block

variable {n : Nat}

/-- The block of a list of bytes, if it has the right length. -/
def ofList? (bytes : List UInt8) : Option (Block n) :=
  if h : bytes.length = n then some ⟨bytes, h⟩ else none

/-- The block of zeros. -/
def zero : Block n := ⟨List.replicate n 0, List.length_replicate ..⟩

instance : Inhabited (Block n) := ⟨zero⟩

/-- The digits of a block. -/
def hex (b : Block n) : String := String.ofList (Hex.digits b.bytes)

/-- The block that a text of plain digits stands for. -/
def ofHex? (text : String) : Option (Block n) :=
  match Hex.decodeCodes text.toByteArray.data.toList with
  | .ok bytes => ofList? bytes
  | .error _ => none

end Block

/-- A universally unique identifier. -/
abbrev Uuid : Type := Block 16

namespace Uuid

/-- Puts a hyphen after each group of the given sizes but the last. -/
def group : List Nat → List Char → List Char
  | [], cs | [_], cs => cs
  | n :: sizes, cs => cs.take n ++ '-' :: group sizes (cs.drop n)

/-- Takes the hyphens out again; they must stand exactly between groups of the
    given sizes. -/
def ungroup : List Nat → List Char → Option (List Char)
  | [], _ => none
  | [n], cs => if cs.length = n then some cs else none
  | n :: sizes, cs =>
    match cs.drop n with
    | '-' :: rest => (ungroup sizes rest).map (cs.take n ++ ·)
    | _ => none

/-- The sizes of the groups, in digits. -/
def groups : List Nat := [8, 4, 4, 4, 12]

/-- The hyphenated text of an identifier. -/
def text (u : Uuid) : String := String.ofList (group groups (Hex.digits u.bytes))

/-- The identifier of a hyphenated list of digits. -/
def ofGroups? (cs : List Char) : Option Uuid :=
  (ungroup groups cs).bind fun digits => Block.ofHex? (String.ofList digits)

/-- The name of the space that identifiers belong to. -/
def urn : List Char := "urn:uuid:".toList

/-- The identifier that a text stands for. -/
def ofText? (text : String) : Option Uuid :=
  let cs := text.toList
  if cs.length = 32 then Block.ofHex? text
  else if cs.head? = some '\x7b' ∧ cs.getLast? = some '\x7d' then ofGroups? (cs.drop 1).dropLast
  else if (cs.take urn.length).map Char.toLower = urn then ofGroups? (cs.drop urn.length)
  else ofGroups? cs

end Uuid

/-- A digest of 256 bits. -/
abbrev Digest : Type := Block 32

end TypedStore
