/-
  TypedStore — the scalars of a TOML document.

  Strings are basic, with escapes, or literal, without, and either kind may
  extend over lines.  All other scalars are words: booleans, integers to base
  10, 16, 8 or 2, floating-point numbers, dates and times.

  A reader takes the text from the point where a scalar begins and gives the
  rest of it.
-/
import TypedStore.Toml.Datum
import TypedStore.Binary.Literal
import TypedStore.Text.Address

namespace TypedStore.Toml

open Numeral (digit? ofDigits)
open Address (isHexDigit)

/-- A reader of the front of a text. -/
abbrev Reader (α : Type) : Type := List Char → Option (α × List Char)

/-! ## Strings -/

/-- Whether a character may stand in a string or a comment as it is. -/
def isPlain (c : Char) : Bool := c = '\t' || (0x20 ≤ c.toNat && c.toNat ≠ 0x7F)

/-- The number of a list of hexadecimal digits. -/
def ofHexDigits (cs : List Char) : Nat :=
  cs.foldl (fun n c => 16 * n + ((Hex.value? (UInt8.ofNat c.toNat)).getD 0).toNat) 0

/-- The character that `n` hexadecimal digits stand for, and how many
    characters the escape has after its mark. -/
def escapeOf (n : Nat) (cs : List Char) : Option (Char × Nat) :=
  let digits := cs.take n
  let code := ofHexDigits digits
  if digits.length = n ∧ digits.all isHexDigit ∧ code.isValidChar then some (Char.ofNat code, n + 1)
  else none

/-- The character of an escape after its mark, and how many characters the
    escape has there. -/
def escape? : List Char → Option (Char × Nat)
  | 'b' :: _ => some (Char.ofNat 8, 1)
  | 't' :: _ => some ('\t', 1)
  | 'n' :: _ => some ('\n', 1)
  | 'f' :: _ => some (Char.ofNat 12, 1)
  | 'r' :: _ => some ('\r', 1)
  | 'e' :: _ => some (Char.ofNat 27, 1)
  | '"' :: _ => some ('"', 1)
  | '\\' :: _ => some ('\\', 1)
  | 'x' :: cs => escapeOf 2 cs
  | 'u' :: cs => escapeOf 4 cs
  | 'U' :: cs => escapeOf 8 cs
  | _ => none

/-- Puts a character in front of what is read. -/
def before (c : Char) (r : Option (List Char × List Char)) : Option (List Char × List Char) :=
  r.map fun (cs, rest) => (c :: cs, rest)

/-- Reads a string on one line up to its closing quote. -/
def readLine (escapes : Bool) (quote : Char) : Reader (List Char)
  | [] => none
  | c :: rest =>
    if c = quote then some ([], rest)
    else if escapes ∧ c = '\\' then
      match escape? rest with
      | some (e, n) => before e (readLine escapes quote (rest.drop n))
      | none => none
    else if isPlain c then before c (readLine escapes quote rest)
    else none
  termination_by cs => cs.length
  decreasing_by all_goals simp only [List.length_drop, List.length_cons]; omega

/-- Whether a text begins with a line end. -/
def startsLine : List Char → Bool
  | '\n' :: _ | '\r' :: '\n' :: _ => true
  | _ => false

/-- Drops a line end at the front of a text. -/
def dropLine : List Char → List Char
  | '\n' :: rest | '\r' :: '\n' :: rest => rest
  | cs => cs

/-- How many characters at the front of a text are blanks or belong to line
    ends. -/
def countSpace : List Char → Nat
  | '\r' :: '\n' :: rest => countSpace rest + 2
  | c :: rest => if c = ' ' ∨ c = '\t' ∨ c = '\n' then countSpace rest + 1 else 0
  | [] => 0

/-- How many blanks and line ends follow a mark that joins lines: there must
    be a line end before any other character. -/
def joined? (cs : List Char) : Option Nat :=
  if startsLine (cs.dropWhile fun c => c = ' ' || c = '\t') then some (countSpace cs) else none

/-- Reads a string over several lines up to its three closing quotes, of which
    up to two more may be part of the string. -/
def readLines (escapes : Bool) (quote : Char) : Reader (List Char)
  | [] => none
  | c :: rest =>
    if c = quote then
      let run := (rest.takeWhile (· = quote)).length + 1
      if run < 3 then before c (readLines escapes quote rest)
      else
        let inside := min (run - 3) 2
        some (List.replicate inside quote, rest.drop (inside + 2))
    else if escapes ∧ c = '\\' then
      match joined? rest, escape? rest with
      | some n, _ => readLines escapes quote (rest.drop n)
      | none, some (e, n) => before e (readLines escapes quote (rest.drop n))
      | none, none => none
    else if isPlain c ∨ startsLine (c :: rest) then
      before c (readLines escapes quote rest)
    else none
  termination_by cs => cs.length
  decreasing_by all_goals simp only [List.length_drop, List.length_cons]; omega

/-- Reads a string on one line. -/
def readPlainString : Reader String
  | '"' :: rest => (readLine true '"' rest).map fun (cs, rest) => (String.ofList cs, rest)
  | '\'' :: rest => (readLine false '\'' rest).map fun (cs, rest) => (String.ofList cs, rest)
  | _ => none

/-- Reads a string. -/
def readString : Reader String
  | '"' :: '"' :: '"' :: rest =>
    (readLines true '"' (dropLine rest)).map fun (cs, rest) => (String.ofList cs, rest)
  | '\'' :: '\'' :: '\'' :: rest =>
    (readLines false '\'' (dropLine rest)).map fun (cs, rest) => (String.ofList cs, rest)
  | cs => readPlainString cs

/-! ## Numbers -/

/-- Whether a character is a decimal digit. -/
def isDigit (c : Char) : Bool := (digit? c).isSome

/-- The digits of a number without the separators, which must stand between
    two digits. -/
def digits? (p : Char → Bool) (cs : List Char) : Option (List Char) :=
  let groups := cs.splitOn '_'
  if groups.all fun g => !g.isEmpty && g.all p then some groups.flatten else none

/-- Takes a sign off a number. -/
def splitSign : List Char → Bool × List Char
  | '-' :: cs => (true, cs)
  | '+' :: cs => (false, cs)
  | cs => (false, cs)

/-- A number with its sign. -/
def signed (negative : Bool) (n : Nat) : Int := if negative then -n else n

/-- The digits of the whole part of a decimal number, which has no leading
    zeros. -/
def whole? (cs : List Char) : Option (List Char) := do
  let ds ← digits? isDigit cs
  if 1 < ds.length ∧ ds.head? = some '0' then none else some ds

/-- An integer. -/
def integer? (cs : List Char) : Option Int :=
  match cs with
  | '0' :: 'x' :: ds => (digits? isHexDigit ds).map fun ds => (ofHexDigits ds : Nat)
  | '0' :: 'o' :: ds =>
    (digits? (fun c => '0' ≤ c ∧ c ≤ '7') ds).map fun ds =>
      (ds.foldl (fun n c => 8 * n + (digit? c).getD 0) 0 : Nat)
  | '0' :: 'b' :: ds =>
    (digits? (fun c => c = '0' ∨ c = '1') ds).map fun ds =>
      (ds.foldl (fun n c => 2 * n + (digit? c).getD 0) 0 : Nat)
  | _ =>
    let (negative, ds) := splitSign cs
    (whole? ds).map fun ds => signed negative (ofDigits 0 ds)

/-- The exponent of a floating-point number after its mark. -/
def exponent? (cs : List Char) : Option Int :=
  let (negative, ds) := splitSign cs
  (digits? isDigit ds).map fun ds => signed negative (ofDigits 0 ds)

/-- A decimal number with a point or an exponent. -/
def decimal? (cs : List Char) : Option Decimal := do
  let isMark (c : Char) : Bool := c = 'e' || c = 'E'
  let mantissa := cs.takeWhile (!isMark ·)
  let e ← match cs.dropWhile (!isMark ·) with
    | _ :: ds => exponent? ds
    | [] => if cs.contains '.' then some 0 else none
  let head ← whole? (mantissa.takeWhile (· ≠ '.'))
  let places ← match mantissa.dropWhile (· ≠ '.') with
    | _ :: ds => digits? isDigit ds
    | [] => some []
  return ⟨ofDigits 0 (head ++ places), e - places.length⟩

/-- A floating-point number; a decimal that is rounded to infinity has no
    value. -/
def float? (cs : List Char) : Option (Option FloatKind.f64.Word) :=
  let f := FloatKind.f64.format
  let (negative, ds) := splitSign cs
  let word (rank : Nat) : FloatKind.f64.Word := BitVec.ofNat _ (f.word negative rank)
  match String.ofList ds with
  | "inf" => some (some (word f.infinity))
  | "nan" => some (some (word f.quiet))
  | _ => (decimal? ds).map fun d =>
    let rank := f.ofDecimal d
    if rank = f.infinity then none else some (word rank)

/-! ## Dates and times -/

/-- The number of `n` digits at the front of a text. -/
def number? (n : Nat) : Reader Nat := fun cs =>
  if (cs.take n).length = n ∧ (cs.take n).all isDigit then some (ofDigits 0 (cs.take n), cs.drop n)
  else none

/-- The rest of a text after a character. -/
def after? (c : Char) : List Char → Option (List Char)
  | d :: rest => if d = c then some rest else none
  | [] => none

/-- The number of days of a month. -/
def daysOf (year month : Nat) : Nat :=
  if month = 2 then
    if year % 4 = 0 ∧ (year % 100 ≠ 0 ∨ year % 400 = 0) then 29 else 28
  else if month = 4 ∨ month = 6 ∨ month = 9 ∨ month = 11 then 30
  else 31

/-- Reads a date. -/
def readDate : Reader Unit := fun cs => do
  let (year, cs) ← number? 4 cs
  let (month, cs) ← number? 2 (← after? '-' cs)
  let (day, cs) ← number? 2 (← after? '-' cs)
  if 1 ≤ month ∧ month ≤ 12 ∧ 1 ≤ day ∧ day ≤ daysOf year month then some ((), cs) else none

/-- Reads hours and minutes. -/
def readMinutes : Reader Unit := fun cs => do
  let (hour, cs) ← number? 2 cs
  let (minute, cs) ← number? 2 (← after? ':' cs)
  if hour < 24 ∧ minute < 60 then some ((), cs) else none

/-- Reads the places of a second, of which there is at least one. -/
def readPlaces : Reader Unit := fun cs =>
  match cs with
  | '.' :: rest =>
    let places := rest.takeWhile isDigit
    if places.isEmpty then none else some ((), rest.drop places.length)
  | _ => some ((), cs)

/-- Reads a time; the seconds may be missing, and one more than usual is
    possible. -/
def readTime : Reader Unit := fun cs => do
  let (_, cs) ← readMinutes cs
  match cs with
  | ':' :: rest =>
    let (second, cs) ← number? 2 rest
    if second ≤ 60 then readPlaces cs else none
  | _ => some ((), cs)

/-- Whether a text is the offset of a clock, if there is one. -/
def isOffset : List Char → Bool
  | [] | ['Z'] | ['z'] => true
  | sign :: cs => (sign = '+' || sign = '-') && readMinutes cs = some ((), [])

/-- Whether a text is a date, a time, or both. -/
def isDatetime (cs : List Char) : Bool :=
  match readDate cs with
  | some (_, []) => true
  | some (_, mark :: rest) =>
    (mark = 'T' || mark = 't' || mark = ' ') &&
      match readTime rest with
      | some (_, offset) => isOffset offset
      | none => false
  | none => readTime cs = some ((), [])

/-! ## Words -/

/-- The scalar that a word stands for. -/
def word? (cs : List Char) : Option Datum :=
  match String.ofList cs with
  | "true" => some (.boolean true)
  | "false" => some (.boolean false)
  | _ =>
    match integer? cs, float? cs with
    | some n, _ => some (.integer n)
    | none, some w => some (.float w)
    | none, none => if isDatetime cs then some .datetime else none

/-- Whether a character can be part of a word. -/
def isWordChar (c : Char) : Bool :=
  c.isAlphanum || c = '+' || c = '-' || c = '_' || c = '.' || c = ':'

/-- Reads a word.  A date may have its time after a blank. -/
def readWord : Reader Datum := fun cs =>
  let word := cs.takeWhile isWordChar
  match cs.dropWhile isWordChar with
  | ' ' :: rest =>
    let time := rest.takeWhile isWordChar
    if readDate word = some ((), []) ∧ (time.head?.map isDigit) = some true then
      (word? (word ++ ' ' :: time)).map (·, rest.drop time.length)
    else (word? word).map (·, ' ' :: rest)
  | rest => (word? word).map (·, rest)

end TypedStore.Toml
