/-
  TypedStore — the domain types of the library.

  Paths, identifiers and digests are stored as text, instants as whole
  milliseconds, and enumerations as the number of the element.
-/
import TypedStore.Native.Type
import TypedStore.Native.Block
import TypedStore.Native.Timestamp

namespace TypedStore

/-- The path of a file: any byte string, usually text. -/
structure Path where
  bytes : ByteArray
  deriving DecidableEq

/-- The path of a text. -/
def Path.ofText (s : String) : Path := ⟨s.toByteArray⟩

/-- The text of a path, ill-formed parts replaced. -/
def Path.text (p : Path) : String := Utf8.decodeLossy p.bytes

instance : Inhabited Path := ⟨⟨ByteArray.empty⟩⟩

/-- The value of a path that is written without being owned. -/
def Value.ofPath (p : Path) : Value := .text p.text

/-- An enumeration of two levels. -/
inductive Level where
  | low | high
  deriving DecidableEq, Repr

instance : Inhabited Level := ⟨.low⟩

namespace DomainType

/-- Paths are stored as text; ill-formed parts are lost. -/
def path : DomainType String Path := ⟨"path", Path.text, some ∘ Path.ofText⟩

/-- Identifiers are stored in their hyphenated form. -/
def uuid : DomainType String Uuid := ⟨"uuid", Uuid.text, Uuid.ofText?⟩

/-- Digests are stored as digits. -/
def digest : DomainType String Digest := ⟨"sha256 digest", Block.hex, Block.ofHex?⟩

/-- Instants are stored as milliseconds, under the name of their clock. -/
def timestamp (name : String) : DomainType IntKind.i64.Word Timestamp where
  name := name
  toPlaceholder t := IntKind.i64.ofInt t.millis
  ofPlaceholder w := Timestamp.ofMillis? (IntKind.i64.toInt w)

/-- An enumeration is stored as the number of the element. -/
def enumeration {α : Type} (name : String) (number : α → IntKind.u8.Word) (members : List α) :
    DomainType IntKind.u8.Word α where
  name := name
  toPlaceholder := number
  ofPlaceholder w := members.find? (number · == w)

/-- Levels count from one. -/
def level : DomainType IntKind.u8.Word Level :=
  enumeration "level" (fun | .low => 1#8 | .high => 2#8) [.low, .high]

end DomainType

namespace NativeType

/-- Paths. -/
def path : NativeType Path := domain .path text

/-- Identifiers. -/
def uuid : NativeType Uuid := domain .uuid text

/-- Digests. -/
def digest : NativeType Digest := domain .digest text

/-- Instants by universal time. -/
def utc : NativeType Timestamp := domain (.timestamp "utc timestamp") (int .i64)

/-- Instants by local time. -/
def localTime : NativeType Timestamp := domain (.timestamp "local timestamp") (int .i64)

/-- Levels. -/
def level : NativeType Level := domain .level (int .u8)

end NativeType

end TypedStore
