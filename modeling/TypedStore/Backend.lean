/-
  TypedStore — backends and byte stores.

  A backend keeps values under keys in some ambient state `σ`: the contents of
  a map, or a world of files and servers.  An operation that succeeds answers
  the state after it; one that fails has no effect.  A byte store is the
  narrower form of an engine that knows bytes only, and `ByteStore.packed`
  makes a backend of it by storing images.

  * writing null is removing, in every backend of this module;
  * `Backend.tagged` keeps values as they are, so that their kind survives;
  * `Backend.within` lets a backend work on a part of a larger state.
-/
import TypedStore.Image
import TypedStore.Entries
import TypedStore.Error

namespace TypedStore

/-- A store of values under keys, in an ambient state. -/
structure Backend (σ : Type) where
  name : String
  put : String → Value → σ → Except StoreError σ
  fetch : String → Kind → σ → Except StoreError Value
  remove : String → σ → Except StoreError σ
  clear : σ → Except StoreError σ

/-- A store of byte strings under keys, in an ambient state. -/
structure ByteStore (σ : Type) where
  name : String
  put : String → ByteArray → σ → Except StoreError σ
  get : String → σ → Except StoreError (Option ByteArray)
  delete : String → σ → Except StoreError σ
  truncate : σ → Except StoreError σ

/-! ## Images in a byte store -/

namespace ByteStore

variable {σ : Type} (store : ByteStore σ)

/-- Stores the image of a value; null has none and removes the key. -/
def putValue (key : String) (v : Value) (s : σ) : Except StoreError σ :=
  match Image.encode v with
  | some bytes => store.put key bytes s
  | none => store.delete key s

/-- Reads the image under a key as the kind that is expected. -/
def fetchValue (key : String) (kind : Kind) (s : σ) : Except StoreError Value := do
  match ← store.get key s with
  | none => throw (.keyNotFound key)
  | some bytes => (Image.decode bytes kind).mapError (.badValue key)

/-- The backend that keeps images in a byte store. -/
def packed : Backend σ where
  name := store.name
  put := store.putValue
  fetch := store.fetchValue
  remove := store.delete
  clear := store.truncate

end ByteStore

/-! ## Maps -/

/-- The contents of a map of values. -/
abbrev ValueMap : Type := Entries String Value

/-- The contents of a map of byte strings. -/
abbrev ByteMap : Type := Entries String ByteArray

namespace ValueMap

/-- Puts a value under a key; null removes the key. -/
def put (key : String) (v : Value) (m : ValueMap) : ValueMap :=
  if v.isNull then m.erase key else m.insert key v

/-- The value under a key, whatever its kind. -/
def fetch (key : String) (m : ValueMap) : Except StoreError Value :=
  match m.get? key with
  | some v => .ok v
  | none => .error (.keyNotFound key)

end ValueMap

/-- The backend that keeps values as they are.  It never fails but for an
    absent key, and it does not look at the kind that is expected. -/
def Backend.tagged (name : String) : Backend ValueMap where
  name := name
  put key v m := .ok (ValueMap.put key v m)
  fetch key _ m := ValueMap.fetch key m
  remove key m := .ok (m.erase key)
  clear _ := .ok .empty

/-- The byte store that is a plain map, except that it refuses some keys with
    the error given for the operation. -/
def ByteStore.plain (name : String) (refuses : String → Bool) (refusal : String → StoreError) :
    ByteStore ByteMap where
  name := name
  put key bytes m := if refuses key then .error (refusal "put") else .ok (m.insert key bytes)
  get key m := if refuses key then .error (refusal "get") else .ok (m.get? key)
  delete key m := if refuses key then .error (refusal "delete") else .ok (m.erase key)
  truncate _ := .ok .empty

/-! ## Parts of a state -/

/-- The backend working on the part of a larger state that `part` takes out
    and `update` puts back. -/
def Backend.within {σ τ : Type} (b : Backend σ) (part : τ → σ) (update : σ → τ → τ) :
    Backend τ where
  name := b.name
  put key v t := (b.put key v (part t)).map (update · t)
  fetch key kind t := b.fetch key kind (part t)
  remove key t := (b.remove key (part t)).map (update · t)
  clear t := (b.clear (part t)).map (update · t)

/-- The byte store working on the part of a larger state that `part` takes out
    and `update` puts back. -/
def ByteStore.within {σ τ : Type} (b : ByteStore σ) (part : τ → σ) (update : σ → τ → τ) :
    ByteStore τ where
  name := b.name
  put key bytes t := (b.put key bytes (part t)).map (update · t)
  get key t := b.get key (part t)
  delete key t := (b.delete key (part t)).map (update · t)
  truncate t := (b.truncate (part t)).map (update · t)

end TypedStore
