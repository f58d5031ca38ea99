/-
  TypedStore — what can happen in a session.

  Programs open, move and close facades, work through them or call backends
  below them, and remove what engines store.  Other programs change the files,
  the rows and the server meanwhile.
-/
import TypedStore.Machine
import TypedStore.Operation
import TypedStore.Session

namespace TypedStore.Session

/-- Carries out something on the host alone. -/
def onHost {α : Type} (s : Session) (act : Host → Except StoreError α × Host) :
    Except StoreError α × Session :=
  ((act s.host).1, { s with host := (act s.host).2 })

/-- What can happen in a session, by the type of the result. -/
inductive Action : Type → Type 1 where
  /-- Opens an engine; the result is the name of the backend. -/
  | «open» (name : String) (c : EngineConfig) : Action String
  | openMap (name map : String) : Action Unit
  | openStore (name store : String) : Action Unit
  | close (name : String) : Action Unit
  | take (source target : String) : Action Unit
  | through {α : Type} (name : String) (op : Operation α) : Action α
  /-- Calls the backend of a handle below any facade. -/
  | directly {α : Type} (handle : Handle) (call : Backend.Call α) : Action α
  | putImage (store key : String) (bytes : ByteArray) : Action Unit
  | wipe (c : EngineConfig) : Action Unit
  /-- Another program writes a row of a database file. -/
  | putRow (path table key : String) (cell : Cell) : Action Unit
  | changeFiles (change : FileTree → FileTree) : Action Unit
  | changeServer (change : Option Server → Option Server) : Action Unit

/-- What the actions of a session do. -/
def machine : Machine Action Session where
  act action s :=
    match action with
    | .open name c => ((s.open name c).1.map (·.backend.name), (s.open name c).2)
    | .openMap name map => (.ok (), s.openMap name map)
    | .openStore name store => (.ok (), s.openStore name store)
    | .close name => (.ok (), s.close name)
    | .take source target => (.ok (), s.take source target)
    | .through name op => s.onHost ((s.facade name).perform op)
    | .directly handle call => s.onHost (handle.backend.perform call)
    | .putImage store key bytes =>
      s.onHost fun h => settle h ((ByteMap.storeOf store).put key bytes h)
    | .wipe c => s.wipe c
    | .putRow path table key cell => s.onHost fun h => settle h (h.putRow path table key cell)
    | .changeFiles change => (.ok (), { s with host := { s.host with files := change s.host.files } })
    | .changeServer change =>
      (.ok (), { s with host := { s.host with server := change s.host.server } })

end TypedStore.Session
