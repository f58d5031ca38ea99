/-
  TypedStore — the program.

  The program reads its configuration file from the disk; everything else it
  keeps on a host of its own, which it starts without data and gives up when
  it ends.
-/
import TypedStore.Command.Run

namespace TypedStore.Program

/-- What the program prints when it is asked for help. -/
def usage : String :=
  "Typed key-value access over LMDB, MDBX, RocksDB, fjall, SQLite and PostgreSQL\n\n" ++
    "Usage: unikv [-c FILE] set KEY VALUE [-t TYPE]\n" ++
    "       unikv [-c FILE] get KEY [-t TYPE]\n" ++
    "       unikv [-c FILE] remove KEY\n" ++
    "       unikv [-c FILE] clear\n" ++
    "       unikv [-c FILE] wipe\n"

/-- A host with one file, in the directories that lead to it. -/
def hostWith (path : String) (content : ByteArray) : Except FileError Host := do
  let empty : FileTree := {}
  let directories ← empty.makeDirectories ("/".intercalate (path.splitOn "/").dropLast)
  return { files := ← directories.write path (.bytes content) }

/-- The host of an invocation: the configuration file is on it if it can be
    read. -/
def hostOf (i : CommandLine.Invocation) : IO Host := do
  try
    let content ← IO.FS.readBinFile i.config
    match hostWith i.config content with
    | .ok h => return h
    | .error _ => return {}
  catch _ => return {}

/-- Runs the program and gives its exit code. -/
def run (args : List String) : IO UInt32 := do
  let h ← match CommandLine.read args with
    | .ok i => hostOf i
    | .error .help => do
      IO.print usage
      return 0
    | .error fault => do
      IO.eprint usage
      return UInt32.ofNat fault.exitCode
  let (outcome, _) := CommandLine.run args h
  IO.print outcome.output
  if let some failure := outcome.failure then IO.eprintln failure
  return UInt32.ofNat outcome.code

end TypedStore.Program

/-- The entry point. -/
def main (args : List String) : IO UInt32 := TypedStore.Program.run args
