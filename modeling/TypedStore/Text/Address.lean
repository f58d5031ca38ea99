/-
  TypedStore — numeric network addresses.

  An address of version 4 is four decimal numbers below 256 without leading
  zeros, with points between them.  One of version 6 is eight groups of up to
  four hexadecimal digits with colons between them; two colons once stand for
  one or more groups of zeros, and the last two groups may be written as an
  address of version 4.
-/
import TypedStore.Text.Numeral
import TypedStore.Text.Hex

namespace TypedStore.Address

/-- Whether a text is one of the four numbers. -/
def isOctet (cs : List Char) : Bool :=
  !cs.isEmpty && cs.length ≤ 3 && cs.all (Numeral.digit? · |>.isSome) &&
    (cs.length = 1 || cs.head? ≠ some '0') && Numeral.ofDigits 0 cs < 256

/-- Whether a text is an address of version 4. -/
def isVersion4 (cs : List Char) : Bool :=
  (cs.splitOn '.').length = 4 && (cs.splitOn '.').all isOctet

/-- Whether a character is a hexadecimal digit. -/
def isHexDigit (c : Char) : Bool := c.toNat < 128 && (Hex.value? (UInt8.ofNat c.toNat)).isSome

/-- Whether a text is a group. -/
def isGroup (cs : List Char) : Bool := !cs.isEmpty && cs.length ≤ 4 && cs.all isHexDigit

/-- The number of groups that parts between colons stand for. -/
def countGroups : List (List Char) → Option Nat
  | [] => some 0
  | [part] => if isGroup part then some 1 else if isVersion4 part then some 2 else none
  | part :: rest => if isGroup part then (countGroups rest).map (· + 1) else none

/-- The number of groups of a text, which may be empty. -/
def groupsOf (cs : List Char) : Option Nat :=
  if cs.isEmpty then some 0 else countGroups (cs.splitOn ':')

/-- The text before two colons and the text after them. -/
def cutColons : List Char → Option (List Char × List Char)
  | ':' :: ':' :: rest => some ([], rest)
  | c :: rest => (cutColons rest).map fun (before, after) => (c :: before, after)
  | [] => none

/-- Whether a text is an address of version 6. -/
def isVersion6 (cs : List Char) : Bool :=
  match cutColons cs with
  | none => groupsOf cs = some 8
  | some (before, after) =>
    match groupsOf before, groupsOf after with
    | some m, some n => m + n ≤ 7 && !before.contains '.'
    | _, _ => false

/-- Whether a text is a numeric address. -/
def isNumeric (text : String) : Bool := isVersion4 text.toList || isVersion6 text.toList

end TypedStore.Address
