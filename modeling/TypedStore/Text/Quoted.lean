/-
  TypedStore — quoted text in messages.

  A text in double quotes shows a quote and a backslash after a backslash, the
  usual control characters by a letter, and every other character without a
  picture by its code in braces.  A single character stands in single quotes,
  and it is the single quote that is then escaped.
-/
import TypedStore.Text.Hidden
import TypedStore.Text.Hex

namespace TypedStore.Text

/-- The code of a character in braces. -/
def codeEscape (c : Char) : List Char :=
  '\\' :: 'u' :: '\x7b' :: Nat.toDigits 16 c.toNat ++ ['\x7d']

/-- A character as it is shown between two `quote` characters. -/
def escape (quote c : Char) : List Char :=
  if c = Char.ofNat 0 then ['\\', '0']
  else if c = '\t' then ['\\', 't']
  else if c = '\r' then ['\\', 'r']
  else if c = '\n' then ['\\', 'n']
  else if c = '\\' ∨ c = quote then ['\\', c]
  else if isHidden c then codeEscape c
  else [c]

/-- A text in double quotes. -/
def quoted (s : String) : String :=
  String.ofList ('"' :: s.toList.flatMap (escape '"') ++ ['"'])

/-- A character in single quotes. -/
def quotedChar (c : Char) : String :=
  String.ofList ('\'' :: escape '\'' c ++ ['\''])

end TypedStore.Text

namespace TypedStore.Hex

/-- The message of a fault; the offending byte is shown as the character of
    that code. -/
def Fault.message : Fault → String
  | oddLength => "Odd number of digits"
  | badDigit code position =>
    "Invalid character " ++ Text.quotedChar (Char.ofNat code.toNat) ++ " at position " ++
      position.repr

end TypedStore.Hex
