/-
  TypedStore — reading bytes as UTF-8 text.

  Strict reading accepts exactly the well-formed byte strings.  Lossy reading
  accepts everything: it keeps each well-formed stretch and puts one
  replacement character for each maximal ill-formed part, that is, for the
  longest run of bytes that begins some well-formed character without ending
  one, or for a single byte that begins none.
-/

namespace TypedStore.Utf8

/-- The text whose encoding the byte string is. -/
def decode? (bytes : ByteArray) : Option String := String.fromUTF8? bytes

/-- Whether a byte may continue a character. -/
def isTail (b : UInt8) : Bool := 0x80 ≤ b && b ≤ 0xBF

/-- Whether `b` may be the second byte of a character whose first byte is
    `lead`: the ranges leave out overlong forms, surrogates and everything
    past the last code point. -/
def isSecond (lead b : UInt8) : Bool :=
  if lead = 0xE0 then 0xA0 ≤ b && b ≤ 0xBF
  else if lead = 0xED then 0x80 ≤ b && b ≤ 0x9F
  else if lead = 0xF0 then 0x90 ≤ b && b ≤ 0xBF
  else if lead = 0xF4 then 0x80 ≤ b && b ≤ 0x8F
  else isTail b

/-- The number of bytes after a first byte, or none if it begins no
    character. -/
def tails (lead : UInt8) : Option Nat :=
  if lead < 0x80 then some 0
  else if 0xC2 ≤ lead && lead ≤ 0xDF then some 1
  else if 0xE0 ≤ lead && lead ≤ 0xEF then some 2
  else if 0xF0 ≤ lead && lead ≤ 0xF4 then some 3
  else none

/-- The code point put together from a first byte and the bytes after it. -/
def codePoint (lead : UInt8) : List UInt8 → Nat
  | [] => lead.toNat
  | [b] => (lead.toNat - 0xC0) * 64 + (b.toNat - 0x80)
  | [b, c] => (lead.toNat - 0xE0) * 4096 + (b.toNat - 0x80) * 64 + (c.toNat - 0x80)
  | b :: c :: d :: _ =>
    (lead.toNat - 0xF0) * 262144 + (b.toNat - 0x80) * 4096 + (c.toNat - 0x80) * 64 +
      (d.toNat - 0x80)

/-- The number of bytes, of the `n` expected ones, that continue the
    character begun by `lead`. -/
def continued (lead : UInt8) (n : Nat) (rest : List UInt8) : Nat :=
  match n, rest with
  | 0, _ | _, [] => 0
  | n + 1, b :: more =>
    if isSecond lead b then 1 + ((more.take n).takeWhile isTail).length else 0

/-- The replacement character. -/
def replacement : Char := Char.ofNat 0xFFFD

/-- The first character of a nonempty byte string, or the replacement
    character for its first maximal ill-formed part, and how many bytes after
    the first one it takes. -/
def first (lead : UInt8) (rest : List UInt8) : Char × Nat :=
  match tails lead with
  | none => (replacement, 0)
  | some n =>
    let taken := continued lead n rest
    if taken = n then (Char.ofNat (codePoint lead (rest.take n)), n) else (replacement, taken)

/-- The characters of a byte string, ill-formed parts replaced. -/
def lossyChars : List UInt8 → List Char
  | [] => []
  | lead :: rest => (first lead rest).1 :: lossyChars (rest.drop (first lead rest).2)
  termination_by bytes => bytes.length
  decreasing_by simp only [List.length_drop, List.length_cons]; omega

/-- The text of a byte string, ill-formed parts replaced. -/
def decodeLossy (bytes : ByteArray) : String := String.ofList (lossyChars bytes.data.toList)

end TypedStore.Utf8
