/-
  TypedStore — the facade over a backend.

  A facade holds a backend while it is open and nothing once it is closed; a
  closed facade refuses every operation.  Native values are written through
  their storage shape and read back through their type, and a cast that fails
  names the key.

  * writing an absent or null value removes the key;
  * `getOr` goes on with a default after a recoverable error only;
  * `report` always gives a value, and tells an error in a slot.
-/
import TypedStore.Backend
import TypedStore.Native.Type

namespace TypedStore

/-- A facade, open on a backend or closed. -/
structure Facade (σ : Type) where
  backend : Option (Backend σ) := none

namespace Facade

variable {σ : Type} (db : Facade σ)

/-- The facade open on a backend. -/
def ofBackend (b : Backend σ) : Facade σ := ⟨some b⟩

/-- The backend of an open facade. -/
def opened : Except StoreError (Backend σ) :=
  match db.backend with
  | some b => .ok b
  | none => .error .closed

/-- Whether the facade is open. -/
def isOpen : Bool := db.backend.isSome

/-- The name of the backend of an open facade. -/
def backendName : Option String := db.backend.map (·.name)

/-- The closed facade. -/
def close (_ : Facade σ) : Facade σ := ⟨none⟩

/-- The facade as it is shown to a programmer. -/
def debug : String :=
  "KvDatabase \x7b backend: " ++
    (match db.backendName with
     | some name => "Some(" ++ Text.quoted name ++ ")"
     | none => "None") ++ " \x7d"

/-! ## Writing -/

/-- Writes a value under a key; null removes the key. -/
def set (key : String) (v : Value) (s : σ) : Except StoreError σ := do
  let b ← db.opened
  match v with
  | .null => b.remove key s
  | v => b.put key v s

/-- Writes bytes under a key; no bytes remove the key. -/
def setBytes (key : String) (bytes : Option ByteArray) (s : σ) : Except StoreError σ :=
  db.set key (Value.ofOption .blob bytes) s

/-- Removes a key. -/
def remove (key : String) (s : σ) : Except StoreError σ := do
  (← db.opened).remove key s

/-- Removes every key. -/
def clear (s : σ) : Except StoreError σ := do
  (← db.opened).clear s

/-! ## Reading -/

/-- Reads the value under a key as a native type. -/
def get {α : Type} (key : String) (t : NativeType α) (s : σ) : Except StoreError α := do
  let v ← (← db.opened).fetch key t.kind s
  (t.read v).mapError (.badValue key)

/-- Reads the value under a key as a native type, with a default for an absent
    key and for a value that does not fit. -/
def getOr {α : Type} (key : String) (t : NativeType α) (default : α) (s : σ) :
    Except StoreError α :=
  match db.get key t s with
  | .ok x => .ok x
  | .error e => if e.isRecoverable then .ok default else .error e

/-- Reads the value under a key in the given kind. -/
def getValue (key : String) (kind : Kind) (s : σ) : Except StoreError Value := do
  let v ← (← db.opened).fetch key kind s
  (v.coerce kind).mapError (.badValue key)

/-- A result without its error, which goes to a slot: a success leaves the
    slot alone, a failure fills it and gives the default of the type. -/
def report {α : Type} [Inhabited α] (result : Except StoreError α) (slot : Option StoreError) :
    α × Option StoreError :=
  match result with
  | .ok x => (x, slot)
  | .error e => (default, some e)

end Facade

end TypedStore
