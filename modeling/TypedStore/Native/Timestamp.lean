/-
  TypedStore — instants of time.

  An instant is a number of seconds since the epoch, possibly negative, and
  of nanoseconds after it, which reach into a second second where a leap
  second is inserted.  The calendar covers the years -262143 to 262142.

  An instant is stored as its whole milliseconds, rounded down.
-/

namespace TypedStore

/-- An instant of time. -/
structure Timestamp where
  seconds : Int
  nanoseconds : Nat
  first_le : -8334601228800 ≤ seconds
  le_last : seconds ≤ 8210266876799
  nanoseconds_lt : nanoseconds < 2000000000
  deriving DecidableEq

namespace Timestamp

/-- The instant of the given seconds and nanoseconds, if the calendar covers
    it. -/
def mk? (seconds : Int) (nanoseconds : Nat) : Option Timestamp :=
  if h : (-8334601228800 ≤ seconds ∧ seconds ≤ 8210266876799) ∧ nanoseconds < 2000000000 then
    some ⟨seconds, nanoseconds, h.1.1, h.1.2, h.2⟩
  else none

/-- The epoch. -/
def epoch : Timestamp := ⟨0, 0, by decide, by decide, by decide⟩

instance : Inhabited Timestamp := ⟨epoch⟩

/-- The whole milliseconds since the epoch. -/
def millis (t : Timestamp) : Int := 1000 * t.seconds + t.nanoseconds / 1000000

/-- The instant of a number of milliseconds, if the calendar covers it. -/
def ofMillis? (m : Int) : Option Timestamp :=
  mk? (m.fdiv 1000) ((m.fmod 1000).toNat * 1000000)

end Timestamp

end TypedStore
