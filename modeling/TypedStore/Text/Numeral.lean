/-
  TypedStore — decimal numerals of integers.

  A numeral of an integer type is an optional sign followed by one or more
  digits; only a signed type takes a minus.  Digits are read from the left,
  and the first one that is no digit or that takes the number out of the
  type's range decides the fault.
-/
import TypedStore.Kind

namespace TypedStore.Numeral

/-- The number of a decimal digit. -/
def digit? (c : Char) : Option Nat :=
  if '0' ≤ c ∧ c ≤ '9' then some (c.toNat - '0'.toNat) else none

/-- The number of a list of digits that goes on from `acc`; a character that
    is no digit counts as zero. -/
def ofDigits (acc : Nat) : List Char → Nat
  | [] => acc
  | c :: rest => ofDigits (10 * acc + (digit? c).getD 0) rest

/-- Why a text is not a numeral of an integer type. -/
inductive Fault where
  | empty
  | invalidDigit
  | aboveRange
  | belowRange
  deriving DecidableEq, Repr

/-- The message of a fault. -/
def Fault.message : Fault → String
  | empty => "cannot parse integer from empty string"
  | invalidDigit => "invalid digit found in string"
  | aboveRange => "number too large to fit in target type"
  | belowRange => "number too small to fit in target type"

/-- Reads digits on from `acc`, counting down if the number is negative. -/
def readDigits (k : IntKind) (negative : Bool) (acc : Int) : List Char → Except Fault Int
  | [] => .ok acc
  | c :: rest =>
    match digit? c with
    | none => .error .invalidDigit
    | some d =>
      let next := if negative then 10 * acc - d else 10 * acc + d
      if k.holds next then readDigits k negative next rest
      else .error (if negative then .belowRange else .aboveRange)

/-- Reads a numeral of an integer type. -/
def readChars (k : IntKind) : List Char → Except Fault Int
  | [] => .error .empty
  | ['+'] | ['-'] => .error .invalidDigit
  | '+' :: digits => readDigits k false 0 digits
  | '-' :: digits =>
    if k.signed then readDigits k true 0 digits else .error .invalidDigit
  | digits => readDigits k false 0 digits

/-- The number of a numeral of an integer type. -/
def read (k : IntKind) (text : String) : Except Fault Int := readChars k text.toList

/-- The text of an integer: its digits, after a minus if it is negative. -/
def write (n : Int) : String := if n < 0 then "-" ++ n.natAbs.repr else n.natAbs.repr

end TypedStore.Numeral
