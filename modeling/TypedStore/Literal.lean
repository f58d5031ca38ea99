/-
  TypedStore — values as text.

  A value is printed without its kind: null and booleans as words, numbers as
  numerals, text as it is, and a blob in hexadecimal.  Reading takes the kind
  from the caller and accepts the numerals of that kind; null has no literal.
-/
import TypedStore.Image
import TypedStore.Binary.Literal
import TypedStore.Text.Quoted

namespace TypedStore

/-- The printed text of a value. -/
def Value.print : Value → String
  | .null => "null"
  | .bool true => "true"
  | .bool false => "false"
  | .int k w => Numeral.write (k.toInt w)
  | .float k w => k.text w
  | .text s => s
  | .blob bytes => Hex.encode bytes

/-- Why a text is not the literal of a value. -/
inductive LiteralFault where
  | bool
  | int (fault : Numeral.Fault)
  | float (fault : FloatLiteral.Fault)
  | blob (fault : Hex.Fault)
  | noLiteral
  deriving DecidableEq, Repr

/-- The message of a fault. -/
def LiteralFault.message : LiteralFault → String
  | bool => "provided string was not `true` or `false`"
  | int fault => fault.message
  | float fault => fault.message
  | blob fault => fault.message
  | noLiteral => "null has no literal"

/-- Reads the literal of a value of the given kind. -/
def Value.parse (kind : Kind) (input : String) : Except LiteralFault Value :=
  match kind with
  | .null => .error .noLiteral
  | .bool =>
    if input = "true" then .ok (.bool true)
    else if input = "false" then .ok (.bool false)
    else .error .bool
  | .int k =>
    match Numeral.read k input with
    | .ok n => .ok (.int k (k.ofInt n))
    | .error fault => .error (.int fault)
  | .float k =>
    match FloatLiteral.read k input with
    | .ok w => .ok (.float k w)
    | .error fault => .error (.float fault)
  | .text => .ok (.text input)
  | .blob =>
    match Hex.decode input with
    | .ok bytes => .ok (.blob bytes)
    | .error fault => .error (.blob fault)

end TypedStore
