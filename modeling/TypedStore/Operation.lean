/-
  TypedStore — operations as data.

  An operation is what is asked of a facade: to write, to remove, to clear or
  to read.  The type of an operation is that of its result, so that one run
  can mix reads of many types.  A call is the same for a backend, below any
  facade.

  * `Payload.toValue`: of a payload only the value that it is stored as
    counts, and an absent payload is stored as null;
  * `Facade.perform` and `Backend.perform` carry an operation out; what fails
    leaves the state as it was; `Facade.machine` runs operations on a facade;
  * `Operation.change?` and `Backend.Call.change?`: the change of contents
    that is asked for, whatever becomes of it.
-/
import TypedStore.Facade
import TypedStore.Machine

namespace TypedStore

/-! ## Payloads -/

/-- What can be written under a key. -/
inductive Payload : Type 1 where
  | value (v : Value)
  | native {α : Type} (t : NativeType α) (x : α)
  /-- A byte string that is meant as text. -/
  | textBytes (bytes : ByteArray)
  | absent
  | present (p : Payload)

/-- The value a payload is stored as. -/
def Payload.toValue : Payload → Value
  | value v => v
  | native t x => t.write x
  | textBytes bytes => .ofTextBytes bytes
  | absent => .null
  | present p => p.toValue

/-! ## Changes of contents -/

/-- A change of what is stored: of one key, where null takes away the value,
    or of all keys. -/
inductive Change where
  | put (key : String) (v : Value)
  | remove (key : String)
  | clear
  deriving DecidableEq

/-- The result of a change, with the state after it. -/
def settle {σ : Type} (s : σ) : Except StoreError σ → Except StoreError Unit × σ
  | .ok t => (.ok (), t)
  | .error e => (.error e, s)

/-! ## Operations of a facade -/

/-- What is asked of a facade, by the type of the result. -/
inductive Operation : Type → Type 1 where
  | set (key : String) (p : Payload) : Operation Unit
  | setBytes (key : String) (bytes : Option ByteArray) : Operation Unit
  | remove (key : String) : Operation Unit
  | clear : Operation Unit
  | get {α : Type} (key : String) (t : NativeType α) : Operation α
  | getOr {α : Type} (key : String) (t : NativeType α) (default : α) : Operation α
  | getValue (key : String) (kind : Kind) : Operation Value

/-- The change that an operation asks for; a read asks for none. -/
def Operation.change? {α : Type} : Operation α → Option Change
  | set key p => some (.put key p.toValue)
  | setBytes key bytes => some (.put key (.ofOption .blob bytes))
  | remove key => some (.remove key)
  | clear => some .clear
  | get .. | getOr .. | getValue .. => none

/-- Carries out an operation. -/
def Facade.perform {σ α : Type} (db : Facade σ) (op : Operation α) (s : σ) :
    Except StoreError α × σ :=
  match op with
  | .set key p => settle s (db.set key p.toValue s)
  | .setBytes key bytes => settle s (db.setBytes key bytes s)
  | .remove key => settle s (db.remove key s)
  | .clear => settle s (db.clear s)
  | .get key t => (db.get key t s, s)
  | .getOr key t default => (db.getOr key t default s, s)
  | .getValue key kind => (db.getValue key kind s, s)

/-- What operations do on one facade. -/
def Facade.machine {σ : Type} (db : Facade σ) : Machine Operation σ where
  act op s := db.perform op s

/-! ## Calls of a backend -/

/-- What is asked of a backend, by the type of the result. -/
inductive Backend.Call : Type → Type where
  | put (key : String) (v : Value) : Call Unit
  | fetch (key : String) (kind : Kind) : Call Value
  | remove (key : String) : Call Unit
  | clear : Call Unit

/-- The change that a call asks for. -/
def Backend.Call.change? {α : Type} : Backend.Call α → Option Change
  | put key v => some (.put key v)
  | fetch .. => none
  | remove key => some (.remove key)
  | clear => some .clear

/-- Carries out a call. -/
def Backend.perform {σ α : Type} (b : Backend σ) (call : Backend.Call α) (s : σ) :
    Except StoreError α × σ :=
  match call with
  | .put key v => settle s (b.put key v s)
  | .fetch key kind => (b.fetch key kind s, s)
  | .remove key => settle s (b.remove key s)
  | .clear => settle s (b.clear s)

end TypedStore
