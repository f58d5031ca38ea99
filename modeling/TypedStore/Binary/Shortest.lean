/-
  TypedStore — the decimal text of a floating-point number.

  A finite number is written with the fewest digits that identify it: of the
  decimals that round to it, those with a last place as far left as possible,
  and of these the nearest (the upper one of two that are equally near).  The
  notation is positional, without exponent, and a whole number has no point.

  The decimals that round to a rank lie between the midpoints to its two
  neighbours, which belong to it if the rank is even.  On the grid of the
  multiples of a power of ten only the two neighbours of the number itself
  need a test: if any point of the grid lies in the interval, one of these
  does.
-/
import TypedStore.Binary.Format

namespace TypedStore

/-- The decimal `digits · 10 ^ exponent`. -/
structure Decimal where
  digits : Nat
  exponent : Int
  deriving DecidableEq, Repr

namespace Format

variable (f : Format)

/-- Whether `num / den` quanta round to a rank: they lie between the
    midpoints to its neighbours, which are taken if the rank is even. -/
def roundsTo (rank num den : Nat) : Bool :=
  let low := (f.units (rank - 1) + f.units rank) * den
  let high := (f.units rank + f.units (rank + 1)) * den
  if rank % 2 = 0 then low ≤ 2 * num && 2 * num ≤ high else low < 2 * num && 2 * num < high

/-- The multiple of `10 ^ exponent` that stands for a rank, if one does: the
    nearer of its two neighbours on that grid, as far as they round to it. -/
def onGrid? (rank : Nat) (exponent : Int) : Option Nat :=
  -- in units of the grid, the number is `num / den`
  let num := f.units rank * Nat.pow 10 (-exponent).toNat
  let den := f.scale * Nat.pow 10 exponent.toNat
  let below := num / den
  let hits (c : Nat) : Bool :=
    f.roundsTo rank (c * Nat.pow 10 exponent.toNat * f.scale) (Nat.pow 10 (-exponent).toNat)
  match hits below, hits (below + 1) with
  | true, true => some (if 2 * (num % den) < den then below else below + 1)
  | true, false => some below
  | false, true => some (below + 1)
  | false, false => none

/-- The first decimal found on the grids `10 ^ exponent`, `10 ^ (exponent - 1)`
    and so on, of which `fuel` are tried. -/
def searchGrids (rank : Nat) : Nat → Int → Option Decimal
  | 0, _ => none
  | fuel + 1, exponent =>
    match f.onGrid? rank exponent with
    | some digits => some ⟨digits, exponent⟩
    | none => searchGrids rank fuel (exponent - 1)

/-- A decimal exponent above every finite number of the format. -/
def topExponent : Nat := Nat.pow 2 (f.exponent - 1) / 3 + 1

/-- The shortest decimal that rounds to a finite rank other than zero.  The
    quantum itself has fewer decimal places than binary ones, which bounds the
    search. -/
def shortest (rank : Nat) : Decimal :=
  (f.searchGrids rank (f.topExponent + f.bias + f.fraction + 1) f.topExponent).getD ⟨0, 0⟩

end Format

namespace Decimal

/-- The positional notation of a decimal. -/
def chars (d : Decimal) : List Char :=
  let digits := Nat.toDigits 10 d.digits
  if 0 ≤ d.exponent then digits ++ List.replicate d.exponent.toNat '0'
  else
    let places := (-d.exponent).toNat
    if places < digits.length then
      let whole := digits.length - places
      digits.take whole ++ '.' :: digits.drop whole
    else '0' :: '.' :: List.replicate (places - digits.length) '0' ++ digits

end Decimal

namespace Format

variable (f : Format)

/-- The notation of a magnitude. -/
def magnitudeChars (rank : Nat) : List Char :=
  if rank = 0 then ['0']
  else if rank = f.infinity then ['i', 'n', 'f']
  else (f.shortest rank).chars

/-- The notation of a pattern. -/
def chars (word : Nat) : List Char :=
  if f.isNaN word then ['N', 'a', 'N']
  else if f.negative word then '-' :: f.magnitudeChars (f.rank word)
  else f.magnitudeChars (f.rank word)

end Format

/-- The text of a floating-point number. -/
def FloatKind.text (k : FloatKind) (w : k.Word) : String :=
  String.ofList (k.format.chars w.toNat)

end TypedStore
