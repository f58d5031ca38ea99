/-
  TypedStore — facades that hold engines.

  A program opens engines by their settings, and each is held by one facade.
  The constructor of an engine that can serve several threads makes a facade
  for several threads, which can be turned into a plain one; a configuration
  always gives a plain one.

  * what is opened has a number, which tells it from all else that is ever
    opened;
  * opening replaces a facade only after it has succeeded;
  * taking moves what a facade holds, and leaves a closed facade of its form
    behind.
-/
import TypedStore.Engine.Handle
import TypedStore.Machine
import TypedStore.Operation

namespace TypedStore

/-- Whether the constructor of an engine makes a facade for several threads. -/
def EngineConfig.isSync : EngineConfig → Bool
  | memory shared => shared
  | lmdb _ | mdbx _ | rocksdb _ | fjall _ => true
  | sqlite .. | postgres .. => false

/-- What has been opened, and by which settings. -/
structure Opened where
  number : Nat
  config : EngineConfig
  handle : Handle
  deriving DecidableEq

/-- A facade with what it holds, by who may use it. -/
inductive Holder where
  /-- For one thread at a time. -/
  | plain (held : Option Opened)
  /-- For several threads at once. -/
  | sync (held : Option Opened)
  deriving DecidableEq

namespace Holder

/-- What a facade holds; none if it is closed. -/
def held : Holder → Option Opened
  | plain held | sync held => held

/-- The facade itself. -/
def facade (o : Holder) : Facade Host := ⟨o.held.map fun x => x.handle.backend⟩

/-- Makes a facade of a form. -/
def make (isSync : Bool) (held : Option Opened) : Holder :=
  if isSync then sync held else plain held

/-- A plain facade that holds the same. -/
def toPlain (o : Holder) : Holder := plain o.held

/-- The closed facade of the same form. -/
def close : Holder → Holder
  | plain _ => plain none
  | sync _ => sync none

end Holder

/-- A host, and the facades of a program by name. -/
structure Holders where
  host : Host := {}
  holders : Entries String Holder := .empty
  /-- The number of what is opened next. -/
  next : Nat := 0

namespace Holders

variable (s : Holders)

/-- The facade of a name; at first all are closed. -/
def holder (name : String) : Holder := (s.holders.get? name).getD (.plain none)

/-- What the facade of a name holds. -/
def held? (name : String) : Option Opened := (s.holder name).held

/-- The facade of a name. -/
def facade (name : String) : Facade Host := (s.holder name).facade

/-- Everything that facades have open. -/
def handles : List Handle := s.holders.toList.filterMap fun e => e.2.held.map Opened.handle

/-- Puts a facade under a name, in place of the one of that name. -/
def hold (name : String) (o : Holder) : Holders :=
  { s with holders := s.holders.insert name o }

/-- Opens an engine and puts the facade over it under a name. -/
def «open» (name : String) (c : EngineConfig) (byConfig : Bool) :
    Except StoreError Handle × Holders :=
  match c.open s.handles s.host with
  | (.ok handle, host) =>
    (.ok handle, { s with host, next := s.next + 1 }.hold name
      (.make (c.isSync && !byConfig) (some ⟨s.next, c, handle⟩)))
  | (.error e, host) => (.error e, { s with host })

/-- What holders of engines can do, by the type of the result. -/
inductive Action : Type → Type 1 where
  /-- Opens an engine by its own constructor or by a configuration; the result
      is the name of the backend. -/
  | «open» (name : String) (c : EngineConfig) (byConfig : Bool) : Action String
  /-- Makes a facade that holds nothing. -/
  | default (name : String) (isSync : Bool) : Action Unit
  | toPlain (name : String) : Action Unit
  | close (name : String) : Action Unit
  | take (source target : String) : Action Unit
  | through {α : Type} (name : String) (op : Operation α) : Action α

/-- What the actions of holders do. -/
def machine : Machine Action Holders where
  act action s :=
    match action with
    | .open name c byConfig =>
      ((s.open name c byConfig).1.map (·.backend.name), (s.open name c byConfig).2)
    | .default name isSync => (.ok (), s.hold name (.make isSync none))
    | .toPlain name => (.ok (), s.hold name (s.holder name).toPlain)
    | .close name => (.ok (), s.hold name (s.holder name).close)
    | .take source target =>
      (.ok (), (s.hold source (s.holder source).close).hold target (s.holder source))
    | .through name op =>
      (((s.facade name).perform op s.host).1,
        { s with host := ((s.facade name).perform op s.host).2 })

end Holders

end TypedStore
