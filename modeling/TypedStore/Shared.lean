/-
  TypedStore — a backend that facades share.

  Any number of facades may work on one backend, and the backend can be called
  below them as well.  The state is that of the store, and which facades, by
  name, are open on the backend; at first none is.
-/
import TypedStore.Machine
import TypedStore.Operation

namespace TypedStore

/-- A store, and the facades that are open on its backend. -/
structure Shared (σ : Type) where
  store : σ
  isOpen : String → Bool := fun _ => false

namespace Shared

variable {σ : Type}

/-- The facade of a name. -/
def facade (b : Backend σ) (s : Shared σ) (name : String) : Facade σ :=
  ⟨if s.isOpen name then some b else none⟩

/-- Opens the facade of a name, or closes it. -/
def hold (s : Shared σ) (name : String) (isOpen : Bool) : Shared σ :=
  { s with isOpen := fun other => if other = name then isOpen else s.isOpen other }

/-- Carries out something on the store alone. -/
def onStore {α : Type} (s : Shared σ) (act : σ → Except StoreError α × σ) :
    Except StoreError α × Shared σ :=
  ((act s.store).1, { s with store := (act s.store).2 })

/-- What can happen to a shared backend. -/
inductive Action : Type → Type 1 where
  /-- A facade is opened on the backend, in place of the one of that name. -/
  | join (name : String) : Action Unit
  | close (name : String) : Action Unit
  /-- A facade is moved; a closed one stays behind. -/
  | take (source target : String) : Action Unit
  | through {α : Type} (name : String) (op : Operation α) : Action α
  /-- The backend is called below any facade. -/
  | directly {α : Type} (call : Backend.Call α) : Action α

/-- The change of contents that an action asks for. -/
def Action.change? {α : Type} : Action α → Option Change
  | join _ | close _ | take .. => none
  | through _ op => op.change?
  | directly call => call.change?

/-- What the actions on one backend do. -/
def machine (b : Backend σ) : Machine Action (Shared σ) where
  act action s :=
    match action with
    | .join name => (.ok (), s.hold name true)
    | .close name => (.ok (), s.hold name false)
    | .take source target => (.ok (), (s.hold source false).hold target (s.isOpen source))
    | .through name op => s.onStore ((s.facade b name).perform op)
    | .directly call => s.onStore (b.perform call)

end Shared

end TypedStore
