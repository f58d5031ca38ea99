/-
  TypedStore — facades that own one backend together.

  A backend can be reached through counted references, and each facade of a
  program owns one.  A facade is plain, or made so that several threads can
  use it at once, and the latter can be turned into a plain one.  What is
  stored belongs to the backend and not to any of them.

  * `Backend.counted`: a reference passes every call on;
  * `Owners.machine`: facades are made on references, turned into plain ones,
    moved, closed and worked with.  An operation makes one call of the
    backend, so that it is one step.
-/
import TypedStore.Machine
import TypedStore.Operation

namespace TypedStore

/-- The backend behind a counted reference: every call is passed on. -/
def Backend.counted {σ : Type} (b : Backend σ) : Backend σ where
  name := b.name
  put key v s := b.put key v s
  fetch key kind s := b.fetch key kind s
  remove key s := b.remove key s
  clear s := b.clear s

/-! ## Facades of a program -/

/-- A facade of a program, by who may use it. -/
inductive Owner (σ : Type) where
  /-- For one thread at a time, over any backend. -/
  | plain (db : Facade σ)
  /-- For several threads at once. -/
  | sync (db : Facade σ)

namespace Owner

variable {σ : Type}

/-- The facade itself. -/
def facade : Owner σ → Facade σ
  | plain db | sync db => db

/-- Makes a facade on a backend. -/
def ofBackend (b : Backend σ) (isSync : Bool) : Owner σ :=
  if isSync then sync (.ofBackend b) else plain (.ofBackend b)

/-- A plain facade with the same backend. -/
def toPlain : Owner σ → Owner σ
  | plain db => plain db
  | sync db => plain ⟨db.backend⟩

/-- The closed facade of the same form. -/
def close : Owner σ → Owner σ
  | plain db => plain db.close
  | sync db => sync db.close

end Owner

/-! ## What owners do -/

/-- A store, and the facades of a program by name; at first all are closed. -/
structure Owners (σ : Type) where
  store : σ
  owner : String → Owner σ := fun _ => .plain {}

namespace Owners

variable {σ : Type}

/-- Puts a facade under a name. -/
def hold (s : Owners σ) (name : String) (o : Owner σ) : Owners σ :=
  { s with owner := fun other => if other = name then o else s.owner other }

/-- What the owners of a backend can do. -/
inductive Action : Type → Type 1 where
  /-- A facade is made on a reference of its own, in place of the one of that
      name. -/
  | own (name : String) (isSync : Bool) : Action Unit
  | toPlain (name : String) : Action Unit
  | close (name : String) : Action Unit
  /-- A facade is moved; a closed one of its form stays behind. -/
  | take (source target : String) : Action Unit
  | through {α : Type} (name : String) (op : Operation α) : Action α

/-- Whether an action is on the facade of a name. -/
def concerns (name : String) : Step Action → Bool
  | ⟨_, .own other _⟩ | ⟨_, .toPlain other⟩ | ⟨_, .close other⟩ | ⟨_, .through other _⟩ =>
    other = name
  | ⟨_, .take source target⟩ => source = name || target = name

/-- What the actions of the owners of a backend do. -/
def machine (b : Backend σ) : Machine Action (Owners σ) where
  act action s :=
    match action with
    | .own name isSync => (.ok (), s.hold name (.ofBackend b.counted isSync))
    | .toPlain name => (.ok (), s.hold name (s.owner name).toPlain)
    | .close name => (.ok (), s.hold name (s.owner name).close)
    | .take source target =>
      (.ok (), (s.hold source (s.owner source).close).hold target (s.owner source))
    | .through name op =>
      (((s.owner name).facade.perform op s.store).1,
        { s with store := ((s.owner name).facade.perform op s.store).2 })

end Owners

end TypedStore
