/-
  TypedStore — rounding to a binary floating-point format.

  A nonnegative fraction is rounded to the nearest rank, and to the even one
  of two that are equally near; from half a step past the greatest finite
  magnitude on it becomes infinity.  Conversion between formats keeps the sign
  and rounds the magnitude; to a wider format it is exact.  What is not a
  number stays so, made quiet, with as many of its leading fraction bits as
  the target holds.
-/
import TypedStore.Binary.Format

namespace TypedStore

/-- `num / den` rounded to the nearest whole number, ties to even. -/
def roundHalfEven (num den : Nat) : Nat :=
  let quotient := num / den
  let twice := 2 * (num % den)
  if twice < den then quotient
  else if den < twice then quotient + 1
  else quotient + quotient % 2

namespace Format

variable (f : Format)

/-- By how many binary places the magnitude `quanta`, in whole quanta, goes
    beyond the least normal step. -/
def shift (quanta : Nat) : Nat := quanta.log2 - f.fraction

/-- The rank nearest to the magnitude `num / den`. -/
def round (num den : Nat) : Nat :=
  let s := f.shift (num * f.scale / den)
  min f.infinity (s * Nat.pow 2 f.fraction + roundHalfEven (num * f.scale) (den * Nat.pow 2 s))

/-- The rank, in the format `g`, of what a rank of this format stands for. -/
def convertRank (g : Format) (rank : Nat) : Nat :=
  if rank = f.infinity then g.infinity
  else if f.infinity < rank then
    let payload := rank - f.infinity
    let kept := if f.fraction ≤ g.fraction then payload * Nat.pow 2 (g.fraction - f.fraction)
      else payload / Nat.pow 2 (f.fraction - g.fraction)
    g.infinity + (kept ||| Nat.pow 2 (g.fraction - 1))
  else g.round (f.units rank) f.scale

/-- The pattern, in the format `g`, of what a pattern of this format stands
    for. -/
def convert (g : Format) (word : Nat) : Nat :=
  g.word (f.negative word) (f.convertRank g (f.rank word))

end Format

/-- The number of one floating-point type as one of another. -/
def FloatKind.convert (k l : FloatKind) (w : k.Word) : l.Word :=
  BitVec.ofNat l.bits (k.format.convert l.format w.toNat)

end TypedStore
