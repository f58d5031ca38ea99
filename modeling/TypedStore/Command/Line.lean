/-
  TypedStore — reading a command line.

      [-c FILE] set KEY VALUE [-t TYPE]
      [-c FILE] get KEY [-t TYPE]
      [-c FILE] remove KEY
      [-c FILE] clear
      [-c FILE] wipe

  The file can be given before or after the verb, and the later one wins.  An
  option has its value after it, or attached to it by `=`; the short form also
  takes it without.  After `--` everything is an operand.

  The variable `UNIKV_CONFIG` of the environment could name the file as well,
  where no option does.  It is taken to be unset.

  Faults are reported in the order in which they are met.  The value of an
  option is looked at only when the next option or operand is complete, so
  that an unknown option in between is the first fault.
-/
import TypedStore.Kind

namespace TypedStore.CommandLine

/-! ## Commands -/

/-- What to do with a store. -/
inductive Command where
  | set (key value : String) (kind : Kind)
  | get (key : String) (kind : Kind)
  | remove (key : String)
  | clear
  | wipe
  deriving DecidableEq, Repr

/-- A command and the file that says which store it is for. -/
structure Invocation where
  config : String
  command : Command
  deriving DecidableEq, Repr

/-- The file that is read if none is named, on the command line or by the
    variable `UNIKV_CONFIG`, which is taken to be unset. -/
def defaultConfig : String := "unikv.toml"

/-- The kind of a value that is not told another. -/
def defaultKind : Kind := .text

/-- Why a command line cannot be followed. -/
inductive Fault where
  /-- There is nothing on it. -/
  | empty
  /-- It asks for help. -/
  | help
  | noVerb
  | unknownVerb
  | unknownArgument
  | missingOperand
  | invalidValue
  | repeatedOption
  | unexpectedValue
  deriving DecidableEq, Repr

/-- The exit code of a fault; to ask for help is none. -/
def Fault.exitCode : Fault → Nat
  | help => 0
  | _ => 2

/-- The verbs. -/
inductive Verb where
  | set | get | remove | clear | wipe
  deriving DecidableEq, Repr

namespace Verb

/-- The word for a verb. -/
def name : Verb → String
  | set => "set" | get => "get" | remove => "remove" | clear => "clear" | wipe => "wipe"

/-- The number of operands. -/
def operands : Verb → Nat
  | set => 2
  | get | remove => 1
  | clear | wipe => 0

/-- Whether a verb takes the kind of a value. -/
def takesKind : Verb → Bool
  | set | get => true
  | remove | clear | wipe => false

/-- The verb of a word. -/
def ofName? (word : String) : Option Verb :=
  [set, get, remove, clear, wipe].find? (·.name == word)

end Verb

/-! ## Options -/

/-- The options that take a value. -/
inductive Opt where
  | config
  | kind
  deriving DecidableEq, Repr

/-- What has been read of a part of the command line: before the verb, where
    there is none yet, or after it. -/
structure Part where
  verb : Option Verb := none
  config : Option String := none
  kind : Option Kind := none
  operands : List String := []
  /-- The option whose value is not looked at yet. -/
  pending : Option (Opt × Option String) := none

namespace Part

variable (p : Part)

/-- Whether an option takes its value from the next argument. -/
def awaits : Bool :=
  match p.pending with
  | some (_, none) => true
  | _ => false

/-- Whether the option for the kind of a value can be used. -/
def takesKind : Bool := p.verb.any Verb.takesKind

/-- Looks at the value of an option. -/
def store (o : Opt) (value : Option String) : Except Fault Part :=
  match o, value with
  | _, none => .error .invalidValue
  | .config, some path =>
    if p.config.isSome then .error .repeatedOption
    else if path = "" then .error .invalidValue
    else .ok { p with config := some path }
  | .kind, some name =>
    if p.kind.isSome then .error .repeatedOption
    else
      match Kind.ofName? name with
      | some kind => .ok { p with kind := some kind }
      | none => .error .invalidValue

/-- Looks at the value of the option that is pending, if there is one. -/
def settle : Except Fault Part :=
  match p.pending with
  | none => .ok p
  | some (o, value) => { p with pending := none }.store o value

/-- Takes an option; its value is attached to it, or comes with the next
    argument. -/
def take (o : Opt) (attached : Option String) : Except Fault Part := do
  let p ← p.settle
  match attached with
  | some value => p.store o (some value)
  | none => return { p with pending := some (o, none) }

/-- Gives the option that awaits one its value. -/
def give (value : String) : Part :=
  { p with pending := p.pending.map fun (o, _) => (o, some value) }

/-- Asks for help. -/
def help : Except Fault Part := do
  let _ ← p.settle
  throw .help

/-- Takes an option in its long form, without the hyphens. -/
def long (name : List Char) (attached : Option String) : Except Fault Part :=
  match String.ofList name with
  | "config" => p.take .config attached
  | "type" => if p.takesKind then p.take .kind attached else .error .unknownArgument
  | "help" => if attached.isSome then .error .unexpectedValue else p.help
  | _ => .error .unknownArgument

/-- The value that is attached to a short option; an `=` before it does not
    belong to it. -/
def attachedTo : List Char → Option String
  | [] => none
  | '=' :: value => some (String.ofList value)
  | value => some (String.ofList value)

/-- Takes an option in its short form, without the hyphen. -/
def short : List Char → Except Fault Part
  | 'c' :: value => p.take .config (attachedTo value)
  | 't' :: value => if p.takesKind then p.take .kind (attachedTo value) else .error .unknownArgument
  | 'h' :: _ => p.help
  | _ => .error .unknownArgument

/-- Takes an argument that begins with a hyphen. -/
def option (arg : List Char) : Except Fault Part :=
  match arg with
  | '-' :: '-' :: name =>
    match name.dropWhile (· ≠ '=') with
    | _ :: value => p.long (name.takeWhile (· ≠ '=')) (some (String.ofList value))
    | [] => p.long name none
  | _ => p.short (arg.drop 1)

/-- Takes an operand; the verb may take no more of them. -/
def operand (arg : String) : Except Fault Part :=
  match p.verb with
  | some v =>
    if p.operands.length < v.operands then do
      let p ← p.settle
      return { p with operands := p.operands ++ [arg] }
    else .error .unknownArgument
  | none => .error .unknownArgument

end Part

/-- Whether an argument is read as an option: it begins with a hyphen and has
    something after it. -/
def isOption (arg : String) : Bool := arg.startsWith "-" && arg ≠ "-"

/-! ## The part after the verb -/

/-- Reads the arguments after a verb. -/
def readRest (p : Part) : List String → Except Fault Part
  | [] => p.settle
  | arg :: rest =>
    if arg = "--" then do (← rest.foldlM Part.operand p).settle
    else if isOption arg then do readRest (← p.option arg.toList) rest
    else if p.awaits then readRest (p.give arg) rest
    else do readRest (← p.operand arg) rest

/-- The command that a verb and what is read after it make. -/
def commandOf (p : Part) : Except Fault Command :=
  let kind := p.kind.getD defaultKind
  match p.verb, p.operands with
  | some .set, [key, value] => .ok (.set key value kind)
  | some .get, [key] => .ok (.get key kind)
  | some .remove, [key] => .ok (.remove key)
  | some .clear, [] => .ok .clear
  | some .wipe, [] => .ok .wipe
  | _, _ => .error .missingOperand

/-! ## The part before the verb -/

/-- The word that asks for help on a verb. -/
def helpWord : String := "help"

/-- Whether a word stands in the place of a verb. -/
def isVerb (word : String) : Bool := word = helpWord || (Verb.ofName? word).isSome

/-- What asking for help on words answers: only one verb can be named. -/
def helpOn : List String → Fault
  | [] => .help
  | [word] => if isVerb word then .help else .unknownVerb
  | _ => .unknownVerb

/-- Reads what follows a verb, given what stands before it. -/
def readVerb (p : Part) (v : Verb) (rest : List String) : Except Fault Invocation := do
  let q ← readRest { verb := some v } rest
  let command ← commandOf q
  let p ← p.settle
  return ⟨(q.config.or p.config).getD defaultConfig, command⟩

/-- The fault of a command line that ends without a verb. -/
def withoutVerb (p : Part) : Except Fault Invocation := do
  let p ← p.settle
  throw (if p.config.isSome then .noVerb else .empty)

/-- Reads the arguments up to the verb and what follows it. -/
def readFrom (p : Part) : List String → Except Fault Invocation
  | [] => withoutVerb p
  | arg :: rest =>
    if p.awaits && !isOption arg then readFrom (p.give arg) rest
    else if arg = "--" then
      match rest with
      | [] => withoutVerb p
      | word :: _ => .error (if isVerb word then .unknownArgument else .unknownVerb)
    else if isOption arg then do readFrom (← p.option arg.toList) rest
    else if arg = helpWord then .error (helpOn rest)
    else
      match Verb.ofName? arg with
      | some v => readVerb p v rest
      | none => .error .unknownVerb

/-- Reads a command line. -/
def read (args : List String) : Except Fault Invocation := readFrom {} args

end TypedStore.CommandLine
