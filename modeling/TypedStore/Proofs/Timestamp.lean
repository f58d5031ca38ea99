/-
  TypedStore — instants are kept up to the millisecond.

  * `Timestamp.millis_eq_nanos_ediv`: what is stored of an instant is its time
    rounded down, also before the epoch and in a leap second;
  * `Timestamp.ofMillis?_eq_some_iff`, `Timestamp.ofMillis?_eq_none_iff`: a number
    of milliseconds stands for the instant of that time, unless the calendar does
    not cover it;
  * `Timestamp.IsLast`: the leap second after the last second of the calendar is
    an instant that rounds to none;
  * `instants_keep_milliseconds`: writing and reading, for both clocks and over
    all engines.
-/
import TypedStore.Proofs.RoundTrip
import TypedStore.Proofs.Words

namespace TypedStore

/-! ## Words -/

namespace IntKind

theorem holds_i64_iff {n : Int} : i64.holds n = true ↔ -2 ^ 63 ≤ n ∧ n < 2 ^ 63 := by
  have hbits : i64.bits - 1 = 63 := rfl
  rw [holds_iff_of_signed rfl, hbits]

/-- The word of a number that the type holds stands for it. -/
theorem toInt_ofInt_i64 {n : Int} (h : i64.holds n = true) : i64.toInt (i64.ofInt n) = n :=
  toInt_ofInt h

end IntKind

namespace Timestamp

/-! ## Time -/

/-- The nanoseconds since the epoch. -/
def nanos (x : Timestamp) : Int := 1000000000 * x.seconds + x.nanoseconds

/-- Whether an instant is a whole number of milliseconds and no leap second. -/
structure IsWhole (x : Timestamp) : Prop where
  dvd : 1000000 ∣ x.nanoseconds
  lt : x.nanoseconds < 1000000000

/-- Whether an instant is the leap second after the last second of the
    calendar. -/
structure IsLast (x : Timestamp) : Prop where
  seconds : x.seconds = 8210266876799
  le : 1000000000 ≤ x.nanoseconds

/-- The milliseconds that the calendar covers. -/
def Covers (m : Int) : Prop := -8334601228800000 ≤ m ∧ m ≤ 8210266876799999

variable {x y : Timestamp} {m : Int}

/-- Instants are rounded down to milliseconds, also before the epoch. -/
theorem millis_eq_nanos_ediv (x : Timestamp) : x.millis = x.nanos / 1000000 := by
  unfold millis nanos
  omega

/-- The calendar covers what is stored of an instant, but for the last one. -/
theorem covers_millis_iff : Covers x.millis ↔ ¬ x.IsLast := by
  have hfirst := x.first_le
  have hlast := x.le_last
  have hlt := x.nanoseconds_lt
  unfold Covers millis
  constructor
  · rintro ⟨-, hm⟩ ⟨hseconds, hle⟩
    omega
  · intro h
    refine ⟨by omega, ?_⟩
    by_contra hm
    exact h ⟨by omega, by omega⟩

theorem holds_millis (x : Timestamp) : IntKind.i64.holds x.millis = true := by
  have hfirst := x.first_le
  have hlast := x.le_last
  have hlt := x.nanoseconds_lt
  rw [IntKind.holds_i64_iff, millis]
  omega

theorem mk?_eq_some_iff {seconds : Int} {nanoseconds : Nat} : mk? seconds nanoseconds = some y ↔
    y.seconds = seconds ∧ y.nanoseconds = nanoseconds := by
  obtain ⟨seconds', nanoseconds', hfirst, hlast, hlt⟩ := y
  unfold mk?
  split_ifs with h
  · simp [eq_comm]
  · refine ⟨nofun, ?_⟩
    rintro ⟨rfl, rfl⟩
    exact absurd ⟨⟨hfirst, hlast⟩, hlt⟩ h

/-- A number of milliseconds stands for the instant of that time. -/
theorem ofMillis?_eq_some_iff : ofMillis? m = some y ↔ y.IsWhole ∧ y.nanos = 1000000 * m := by
  rw [ofMillis?, mk?_eq_some_iff, Int.fdiv_eq_ediv_of_nonneg _ (by decide),
    Int.fmod_eq_emod_of_nonneg _ (by decide)]
  unfold nanos
  constructor
  · rintro ⟨hseconds, hnanoseconds⟩
    exact ⟨⟨⟨_, by rw [hnanoseconds, Nat.mul_comm]⟩, by omega⟩, by omega⟩
  · rintro ⟨⟨⟨count, hdvd⟩, hlt⟩, hnanos⟩
    omega

theorem ofMillis?_eq_none_iff : ofMillis? m = none ↔ ¬ Covers m := by
  rw [ofMillis?, mk?, Int.fdiv_eq_ediv_of_nonneg _ (by decide),
    Int.fmod_eq_emod_of_nonneg _ (by decide)]
  unfold Covers
  split_ifs <;> simp <;> omega

theorem exists_of_covers (h : Covers m) : ∃ y, ofMillis? m = some y :=
  Option.ne_none_iff_exists'.1 fun hnone => ofMillis?_eq_none_iff.1 hnone h

/-- What stands for an instant is what is stored of it. -/
theorem millis_of_ofMillis? (h : ofMillis? m = some y) : y.millis = m := by
  obtain ⟨-, hnanos⟩ := ofMillis?_eq_some_iff.1 h
  rw [millis_eq_nanos_ediv, hnanos, Int.mul_ediv_cancel_left _ (by decide)]

theorem IsWhole.ofMillis?_millis (h : x.IsWhole) : ofMillis? x.millis = some x := by
  refine ofMillis?_eq_some_iff.2 ⟨h, ?_⟩
  obtain ⟨⟨count, hdvd⟩, -⟩ := h
  rw [millis_eq_nanos_ediv]
  unfold nanos
  omega

end Timestamp

/-! ## Storage -/

/-- The types of instants, with the names of their clocks. -/
inductive NativeType.IsClock : NativeType Timestamp → String → Prop
  | utc : IsClock .utc "utc timestamp"
  | localTime : IsClock .localTime "local timestamp"

namespace NativeType.IsClock

variable {t : NativeType Timestamp} {name : String} (h : t.IsClock name)
include h

theorem kind_eq : t.kind = .int .i64 := by cases h <;> rfl

theorem write_eq (x : Timestamp) : t.write x = .int .i64 (IntKind.i64.ofInt x.millis) := by
  cases h <;> rfl

/-- A stored number is read as the instant that it stands for, and is malformed
    if there is none. -/
theorem read_eq (w : IntKind.i64.Word) : t.read (.int .i64 w) =
    (Timestamp.ofMillis? (IntKind.i64.toInt w)).elim (.error (.malformed name)) .ok := by
  cases hy : Timestamp.ofMillis? (IntKind.i64.toInt w) with
  | none => cases h <;> exact read_domain_of_none rfl hy
  | some y => cases h <;> exact read_domain_of_some rfl hy

/-- What is stored in the range of the calendar is read as the instant of that
    time, which is stored as the same. -/
theorem read_of_covers {w : IntKind.i64.Word} (hw : Timestamp.Covers (IntKind.i64.toInt w)) :
    ∃ y, t.read (.int .i64 w) = .ok y ∧ y.IsWhole ∧ y.nanos = 1000000 * IntKind.i64.toInt w ∧
      t.write y = .int .i64 w := by
  obtain ⟨y, hy⟩ := Timestamp.exists_of_covers hw
  obtain ⟨hwhole, hnanos⟩ := Timestamp.ofMillis?_eq_some_iff.1 hy
  refine ⟨y, by rw [h.read_eq, hy]; rfl, hwhole, hnanos, ?_⟩
  rw [h.write_eq, Timestamp.millis_of_ofMillis? hy, IntKind.ofInt_toInt]

/-- What is stored out of it is malformed. -/
theorem read_of_not_covers {w : IntKind.i64.Word}
    (hw : ¬ Timestamp.Covers (IntKind.i64.toInt w)) :
    t.read (.int .i64 w) = .error (.malformed name) := by
  rw [h.read_eq, Timestamp.ofMillis?_eq_none_iff.2 hw]
  rfl

/-- The last instant is stored, but not read back. -/
theorem read_write_of_isLast {x : Timestamp} (hx : x.IsLast) :
    t.read (t.write x) = .error (.malformed name) := by
  rw [h.write_eq, h.read_of_not_covers]
  rw [IntKind.toInt_ofInt_i64 x.holds_millis, Timestamp.covers_millis_iff]
  exact not_not_intro hx

end NativeType.IsClock

/-- **Instants are kept up to the millisecond**, on both clocks.

    The word that is stored of an instant stands for its whole milliseconds,
    rounded down.  It is read back as the instant of that time, which is the
    one that was written if that was a whole number of milliseconds, and is
    stored as the same word.  Only the leap second after the last second of the
    calendar rounds to a time that the calendar does not cover, and is malformed
    when it is read.

    Every word is read as the instant of exactly its time, and written back as
    itself, or is malformed if the calendar does not cover its time.  Over every
    engine a facade reads a word that was written in this way, and what is
    malformed is a bad value under its key. -/
theorem instants_keep_milliseconds {t : NativeType Timestamp} {name : String}
    (hclock : t.IsClock name) :
    (∀ x : Timestamp, ∃ w, t.write x = .int .i64 w ∧
      IntKind.i64.toInt w = 1000 * x.seconds + x.nanoseconds / 1000000 ∧
      (¬ x.IsLast → ∃ y, t.read (t.write x) = .ok y ∧ y.IsWhole ∧
        y.nanos = 1000000 * (x.nanos / 1000000) ∧ (x.IsWhole → y = x) ∧ t.write y = t.write x) ∧
      (x.IsLast → t.read (t.write x) = .error (.malformed name))) ∧
    (∀ w : IntKind.i64.Word,
      (Timestamp.Covers (IntKind.i64.toInt w) → ∃ y, t.read (.int .i64 w) = .ok y ∧
        y.IsWhole ∧ y.nanos = 1000000 * IntKind.i64.toInt w ∧ t.write y = .int .i64 w) ∧
      (¬ Timestamp.Covers (IntKind.i64.toInt w) →
        t.read (.int .i64 w) = .error (.malformed name))) ∧
    ∀ (handle : Handle) (key : String) (w : IntKind.i64.Word) (h u : Host),
      (Facade.ofBackend handle.backend).set key (.int .i64 w) h = .ok u →
        (Facade.ofBackend handle.backend).get key t u =
          (t.read (.int .i64 w)).mapError (.badValue key) := by
  refine ⟨fun x => ?_, fun w => ⟨hclock.read_of_covers, hclock.read_of_not_covers⟩,
    fun handle key w h u hset => ?_⟩
  · have hword := IntKind.toInt_ofInt_i64 x.holds_millis
    refine ⟨_, hclock.write_eq x, hword, fun hx => ?_, hclock.read_write_of_isLast⟩
    have hcovers := Timestamp.covers_millis_iff.2 hx
    rw [← hword] at hcovers
    obtain ⟨y, hread, hwhole, hnanos, hwrite⟩ := hclock.read_of_covers hcovers
    rw [hword] at hnanos
    refine ⟨y, by rw [hclock.write_eq, hread], hwhole, by rw [hnanos, x.millis_eq_nanos_ediv],
      fun hx => ?_, by rw [hwrite, hclock.write_eq]⟩
    have hsome := Timestamp.ofMillis?_eq_some_iff.2 ⟨hwhole, hnanos⟩
    exact Option.some.inj (hsome.symm.trans hx.ofMillis?_millis)
  · exact handle.readsBack.get_of_set_value nofun rfl hclock.kind_eq.symm hset

/-- The millisecond before the epoch is kept, and what is within it is rounded
    down to it. -/
theorem instants_keep_milliseconds_before_epoch :
    let x : Timestamp := ⟨-1, 999999999, by decide, by decide, by decide⟩
    NativeType.utc.IsClock "utc timestamp" ∧ ¬ x.IsLast ∧
      ∃ y, NativeType.utc.read (NativeType.utc.write x) = .ok y ∧ y.nanos = -1000000 ∧
        NativeType.utc.write y = NativeType.utc.write x := by
  intro x
  have hclock : NativeType.utc.IsClock "utc timestamp" := .utc
  have hx : ¬ x.IsLast := fun h => absurd h.seconds (by decide)
  obtain ⟨w, -, -, hread, -⟩ := (instants_keep_milliseconds hclock).1 x
  obtain ⟨y, hy, -, hnanos, -, hwrite⟩ := hread hx
  exact ⟨hclock, hx, y, hy, hnanos, hwrite⟩

/-- The leap second after the last second of the calendar can be written, and
    is malformed when it is read. -/
theorem calendar_ends_before_its_leap_second :
    let x : Timestamp := ⟨8210266876799, 1000000000, by decide, by decide, by decide⟩
    let db := Facade.ofBackend (Handle.store "s").backend
    ∃ u, db.set "k" (NativeType.utc.write x) {} = .ok u ∧
      db.get "k" .utc u = .error (.badValue "k" (.malformed "utc timestamp")) := by
  intro x db
  have hclock : NativeType.utc.IsClock "utc timestamp" := .utc
  have hnull : NativeType.utc.write x ≠ .null := nofun
  have hset : db.set "k" (NativeType.utc.write x) {} = .ok _ := rfl
  have hget := (Handle.store "s").readsBack.get_of_set_value hnull rfl hclock.kind_eq.symm hset
  rw [hclock.read_write_of_isLast ⟨rfl, le_refl _⟩] at hget
  exact ⟨_, hset, hget⟩

end TypedStore
