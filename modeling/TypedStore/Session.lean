/-
  TypedStore — facades over one host.

  A session is a host together with the facades of a program, by name.  A
  facade is opened on a handle, moved, and closed; what it stores is on the
  host and not in the facade.

  * opening replaces a facade only after it has succeeded, so that the old one
    still holds its database meanwhile;
  * taking moves a facade and leaves a closed one behind.
-/
import TypedStore.Engine.Handle
import TypedStore.Facade

namespace TypedStore

/-- The facades of a program and the host they work on. -/
structure Session where
  host : Host := {}
  /-- What each facade is open on; none if it is closed. -/
  facades : Entries String (Option Handle) := .empty

namespace Session

variable (s : Session)

/-- What the facade of a name is open on. -/
def handle? (name : String) : Option Handle := (s.facades.get? name).join

/-- The facade of a name. -/
def facade (name : String) : Facade Host := ⟨(s.handle? name).map Handle.backend⟩

/-- Everything that facades have open. -/
def handles : List Handle := s.facades.toList.filterMap Prod.snd

/-- Puts a facade under a name. -/
def hold (name : String) (handle : Option Handle) : Session :=
  { s with facades := s.facades.insert name handle }

/-- Closes a facade. -/
def close (name : String) : Session := s.hold name none

/-- Moves a facade; a closed one stays behind. -/
def take (source target : String) : Session :=
  (s.close source).hold target (s.handle? source)

/-- Opens an engine and puts the facade over it under a name. -/
def «open» (name : String) (c : EngineConfig) : Except StoreError Handle × Session :=
  match c.open s.handles s.host with
  | (.ok handle, host) => (.ok handle, { s with host }.hold name (some handle))
  | (.error e, host) => (.error e, { s with host })

/-- Removes what an engine stores. -/
def wipe (c : EngineConfig) : Except StoreError Unit × Session :=
  let (result, host) := c.wipe s.host
  (result, { s with host })

/-- Writes through a facade; a write that fails changes nothing. -/
def write (name : String) (act : Facade Host → Host → Except StoreError Host) :
    Except StoreError Unit × Session :=
  match act (s.facade name) s.host with
  | .ok host => (.ok (), { s with host })
  | .error e => (.error e, s)

/-! ## Named maps and byte stores -/

/-- Puts a facade over the map of a name. -/
def openMap (name map : String) : Session := s.hold name (some (.map (.named map)))

/-- Puts a facade over the byte store of a name. -/
def openStore (name store : String) : Session :=
  { s with host := s.host.putStore store (s.host.store store) }.hold name (some (.store store))

/-- The backend of a name below any facade: the byte store if there is one,
    and else the map. -/
def backend (name : String) : Backend Host :=
  if s.host.stores.contains name then (ByteMap.storeOf name).packed
  else (MapName.named name).backend

/-- Whether an open facade works on the byte store of a name. -/
def usesStore (name : String) : Bool := s.handles.contains (.store name)

/-- The images in the byte store of a name in the order of their keys, unless
    an open facade works on it. -/
def unpack (name : String) : Option (List (String × ByteArray)) :=
  if s.usesStore name then none
  else some ((s.host.store name).toList.mergeSort fun a b => a.1 ≤ b.1)

end Session

end TypedStore
