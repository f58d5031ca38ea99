/-
  TypedStore — log filters.

  A filter is a list of directives with commas between them:

      target[span{field=value}]=level

  Every part may be missing, but a directive is not blank.  A word by itself
  is a level if it is the name of one, and else a target.  Only whether a
  filter can be used matters here.
-/
import TypedStore.Text.Alphanumeric
import TypedStore.Text.Blank
import TypedStore.Text.Numeral

namespace TypedStore.LogFilter

/-- Why a filter cannot be used. -/
inductive Fault where
  | directive
  | level
  deriving DecidableEq, Repr

/-- The message of a fault. -/
def Fault.message : Fault → String
  | directive => "invalid filter directive"
  | level =>
    "error parsing level filter: expected one of \"off\", \"error\", \"warn\", \"info\", " ++
      "\"debug\", \"trace\", or a number 0-5"

/-- The names of the levels. -/
def levels : List String := ["off", "error", "warn", "info", "debug", "trace"]

/-- Whether a text stands for a level: a name in any case, a number up to five,
    or nothing. -/
def isLevel (text : String) : Bool :=
  text = "" || text.map Char.toLower ∈ levels ||
    match Numeral.read .u64 text with
    | .ok n => n ≤ 5
    | .error _ => false

/-- Where the reader of a directive is. -/
inductive Spot where
  | name
  | span
  | field (isEmpty : Bool)
  | fields
  | target
  deriving DecidableEq, Repr

/-- Where the reader is after a character; none if the character does not
    belong there. -/
def Spot.next : Spot → Char → Option Spot
  | name, c => some (if c = '[' then span else name)
  | span, c => some (if c = ']' then target else if c = '\x7b' then field true else span)
  | field isEmpty, c => if c = '\x7d' then (if isEmpty then none else some fields) else some (field false)
  | fields, c => if c = ']' then some target else none
  | target, _ => none

/-- Whether a level may follow at a spot. -/
def Spot.takesLevel : Spot → Bool
  | name | target => true
  | span | field _ | fields => false

/-- Reads on in a directive; gives the text of the level, if there is one. -/
def readFrom (s : Spot) : List Char → Except Fault (Option (List Char))
  | [] => if s.takesLevel then .ok none else .error .directive
  | c :: rest =>
    if c = '=' && s.takesLevel then .ok (some rest)
    else
      match s.next c with
      | some s => readFrom s rest
      | none => .error .directive

/-- Whether a character may begin the name of a target. -/
def startsName (c : Char) : Bool := c = '-' || c = ':' || c = '_' || Text.isLetterOrNumeral c

/-- The text of the level of a directive. -/
def levelOf (cs : List Char) : Except Fault (Option (List Char)) :=
  match cs with
  | [] => .error .directive
  | c :: rest =>
    if c = '[' then readFrom .span rest
    else if startsName c then readFrom .name rest
    else .error .directive

/-- Checks a directive.  Blanks around it belong to no name, but a level must
    not have any. -/
def checkDirective (cs : List Char) : Except Fault Unit := do
  let inner := cs.dropWhile Text.isBlank
  let blanks := (inner.reverse.takeWhile Text.isBlank).reverse
  match ← levelOf (inner.take (inner.length - blanks.length)) with
  | none => return ()
  | some level =>
    if inner.length = cs.length && isLevel (String.ofList (level ++ blanks)) then return ()
    else throw .level

/-- Checks a filter. -/
def check (filter : String) : Except Fault Unit :=
  ((filter.toList.splitOn ',').filter (!·.isEmpty)).forM checkDirective

end TypedStore.LogFilter
