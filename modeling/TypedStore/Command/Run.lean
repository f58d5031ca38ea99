/-
  TypedStore — running a command.

  A command reads its configuration and checks the log filter, and then either
  removes what the engine stores or opens the engine and works on it once.
  Nothing is open before or after it.
-/
import TypedStore.Command.Line
import TypedStore.Command.Report
import TypedStore.Facade

namespace TypedStore

/-- What a program gives when it ends. -/
structure Outcome where
  code : Nat
  /-- What it has printed. -/
  output : String := ""
  /-- What it says about its failure. -/
  failure : Option String := none
  deriving DecidableEq, Repr

namespace CommandLine

/-- Works with an open store: what is printed, and the host after it. -/
def work (db : Facade Host) (c : Command) (h : Host) : Except CommandError (String × Host) :=
  match c with
  | .set key value kind =>
    match Value.parse kind value with
    | .error fault => .error (.literal value kind fault)
    | .ok v => ((db.set key v h).map ("", ·)).mapError .store
  | .get key kind => ((db.getValue key kind h).map fun v => (v.print ++ "\n", h)).mapError .store
  | .remove key => ((db.remove key h).map ("", ·)).mapError .store
  | .clear => ((db.clear h).map ("", ·)).mapError .store
  | .wipe => .ok ("", h)

/-- Runs a command on the engine of a configuration. -/
def runOn (c : EngineConfig) (command : Command) (h : Host) : Except CommandError String × Host :=
  if command = .wipe then
    let (result, h) := c.wipe h
    ((result.map fun _ => "").mapError .store, h)
  else
    match c.open [] h with
    | (.error e, h) => (.error (.store e), h)
    | (.ok handle, h) =>
      match work (.ofBackend handle.backend) command h with
      | .ok (output, h) => (.ok output, h)
      | .error e => (.error e, h)

/-- Runs an invocation. -/
def runInvocation (i : Invocation) (h : Host) : Except CommandError String × Host :=
  match Config.ofFile i.config h.files with
  | .error fault => (.error (.config fault), h)
  | .ok config =>
    match LogFilter.check config.logging.level with
    | .error fault => (.error (.filter fault), h)
    | .ok _ => runOn config.database i.command h

/-- Runs a program with the given arguments. -/
def run (args : List String) (h : Host) : Outcome × Host :=
  match read args with
  | .error fault => ({ code := fault.exitCode }, h)
  | .ok i =>
    match runInvocation i h with
    | (.ok output, h) => ({ code := 0, output }, h)
    | (.error e, h) => ({ code := 1, failure := some ("Error: " ++ e.structured) }, h)

end CommandLine

end TypedStore
