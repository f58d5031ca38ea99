/-
  TypedStore — hexadecimal text of byte strings.

  A byte is written as two lowercase digits.  Reading takes digits of either
  case in pairs; it reports an odd number of characters before it looks at
  any of them, and else the first character that is no digit.  Lengths and
  positions count bytes of the text.
-/

namespace TypedStore.Hex

/-- The digit of a number below sixteen. -/
def digit (n : Nat) : Char := if n < 10 then Char.ofNat (48 + n) else Char.ofNat (87 + n)

/-- The two digits of a byte. -/
def pair (b : UInt8) : List Char := [digit (b.toNat / 16), digit (b.toNat % 16)]

/-- The digits of a list of bytes. -/
def digits (bs : List UInt8) : List Char := bs.flatMap pair

/-- The text of a byte string. -/
def encode (bytes : ByteArray) : String := String.ofList (digits bytes.data.toList)

/-- The number of a digit, given by its code. -/
def value? (code : UInt8) : Option UInt8 :=
  if 48 ≤ code ∧ code ≤ 57 then some (code - 48)
  else if 65 ≤ code ∧ code ≤ 70 then some (code - 55)
  else if 97 ≤ code ∧ code ≤ 102 then some (code - 87)
  else none

/-- Why a text is not the hexadecimal form of a byte string. -/
inductive Fault where
  | oddLength
  | badDigit (code : UInt8) (position : Nat)
  deriving DecidableEq, Repr

/-- Reads pairs of digits; `position` is the index of the first one. -/
def readPairs (position : Nat) : List UInt8 → Except Fault (List UInt8)
  | [] => .ok []
  | [_] => .error .oddLength
  | high :: low :: rest =>
    match value? high, value? low with
    | none, _ => .error (.badDigit high position)
    | some _, none => .error (.badDigit low (position + 1))
    | some h, some l => (readPairs (position + 2) rest).map ((16 * h + l) :: ·)

/-- Reads the codes of a text. -/
def decodeCodes (codes : List UInt8) : Except Fault (List UInt8) :=
  if codes.length % 2 = 1 then .error .oddLength else readPairs 0 codes

/-- The byte string that a text stands for. -/
def decode (text : String) : Except Fault ByteArray :=
  (decodeCodes text.toByteArray.data.toList).map fun bs => ⟨bs.toArray⟩

end TypedStore.Hex
