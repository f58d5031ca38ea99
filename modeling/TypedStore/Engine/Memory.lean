/-
  TypedStore — the engines that keep their data in the running program.

  A map keeps values with their kinds; it is private to one facade or shared
  under a name.  The byte store keeps images, and refuses one key, so that
  failures of an engine can be seen.
-/
import TypedStore.Engine.Host

namespace TypedStore

namespace MapName

/-- The name of the backend on a map, by whether it may be shared. -/
def backendName : MapName → String
  | named _ | anonymous _ true => "shared-memory"
  | anonymous _ false => "memory"

/-- The backend on a map. -/
def backend (name : MapName) : Backend Host :=
  (Backend.tagged name.backendName).within (·.map name) (fun m h => h.putMap name m)

end MapName

namespace Host

/-- Makes an empty private map. -/
def newMap (h : Host) (shared : Bool) : MapName × Host :=
  let (number, h) := h.takeNumber
  (.anonymous number shared, h.putMap (.anonymous number shared) .empty)

end Host

namespace ByteMap

/-- The key that the byte store refuses. -/
def refusedKey : String := "!fail"

/-- The error of a refused operation. -/
def refusal (operation : String) : StoreError :=
  .backend "bytemap" ("injected " ++ operation ++ " failure")

/-- The byte store on a map of byte strings. -/
def byteStore : ByteStore ByteMap := .plain "bytemap" (· == refusedKey) refusal

/-- The byte store of a name. -/
def storeOf (name : String) : ByteStore Host :=
  byteStore.within (·.store name) (fun m h => h.putStore name m)

end ByteMap

end TypedStore
