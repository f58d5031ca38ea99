/-
  TypedStore — reading floating-point literals.

  A literal is an optional sign followed by `inf`, `infinity` or `nan` in any
  case, or by decimal digits with an optional point, at least one digit on
  either side of it, and an optional exponent.  Its value is rounded to the
  nearest number of the type, ties to even, however many digits it has.
-/
import TypedStore.Binary.Shortest
import TypedStore.Binary.Rounding
import TypedStore.Text.Numeral

namespace TypedStore

namespace Format

variable (f : Format)

/-- The rank nearest to a decimal.  Decimals far outside the range of the
    format are decided by their number of digits alone. -/
def ofDecimal (d : Decimal) : Nat :=
  let places : Int := d.digits.repr.length + d.exponent
  if d.digits = 0 then 0
  else if f.topExponent < places then f.infinity
  else if places < -(f.bias + f.fraction : Int) then 0
  else f.round (d.digits * Nat.pow 10 d.exponent.toNat) (Nat.pow 10 (-d.exponent).toNat)

end Format

namespace FloatLiteral

open Numeral (digit? ofDigits)

/-- Why a text is not a floating-point literal. -/
inductive Fault where
  | empty
  | invalid
  deriving DecidableEq, Repr

/-- The message of a fault. -/
def Fault.message : Fault → String
  | empty => "cannot parse float from empty string"
  | invalid => "invalid float literal"

/-- The digits at the front of a text and the rest. -/
def splitDigits (cs : List Char) : List Char × List Char :=
  (cs.takeWhile (digit? · |>.isSome), cs.dropWhile (digit? · |>.isSome))

/-- The exponent of a literal after its mark: an optional sign and digits. -/
def readExponent (cs : List Char) : Option Int :=
  let (negative, digits) := match cs with
    | '-' :: rest => (true, rest)
    | '+' :: rest => (false, rest)
    | _ => (false, cs)
  if digits.isEmpty || !digits.all (digit? · |>.isSome) then none
  else
    let n : Int := ofDigits 0 digits
    some (if negative then -n else n)

/-- A decimal without sign. -/
def readDecimal (cs : List Char) : Option Decimal :=
  let (whole, afterWhole) := splitDigits cs
  let (places, rest) := match afterWhole with
    | '.' :: more => splitDigits more
    | _ => ([], afterWhole)
  if whole.isEmpty && places.isEmpty then none
  else
    let digits := ofDigits 0 (whole ++ places)
    match rest with
    | [] => some ⟨digits, -places.length⟩
    | mark :: more =>
      if mark = 'e' ∨ mark = 'E' then
        (readExponent more).map fun e => ⟨digits, e - places.length⟩
      else none

/-- The rank of a literal without sign. -/
def readRank (f : Format) (cs : List Char) : Option Nat :=
  match String.ofList (cs.map Char.toLower) with
  | "inf" | "infinity" => some f.infinity
  | "nan" => some f.quiet
  | _ => (readDecimal cs).map f.ofDecimal

/-- The pattern of a literal. -/
def readWord (f : Format) (cs : List Char) : Option Nat :=
  match cs with
  | '-' :: rest => (readRank f rest).map (f.word true)
  | '+' :: rest => (readRank f rest).map (f.word false)
  | _ => (readRank f cs).map (f.word false)

/-- The number of a floating-point literal. -/
def read (k : FloatKind) (text : String) : Except Fault k.Word :=
  if text.isEmpty then .error .empty
  else
    match readWord k.format text.toList with
    | some word => .ok (BitVec.ofNat k.bits word)
    | none => .error .invalid

end FloatLiteral

end TypedStore
