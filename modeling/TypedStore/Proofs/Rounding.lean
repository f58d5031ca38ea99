/-
  TypedStore — conversion between floating-point formats.

  The finite magnitudes of a format are the products of a significand, of one
  bit more than the fraction, and a power of two in the range of the exponents.
  Rounding gives back what a rank stands for, in the units of any format.

  * `round_units`: what is the magnitude of a rank is rounded to that rank;
  * `exists_units`: which magnitudes are those of a rank;
  * `Widens`: a format has room for every magnitude of another; then
    `units_convertRank` says that conversion is exact, and
    `convertRank_convertRank` that it is undone by the conversion back;
  * `FloatKind.convert_convert`: so it is for single and double precision.
-/
import Mathlib.Algebra.Order.Ring.Nat
import Mathlib.Tactic.Ring
import TypedStore.Binary.Rounding

namespace TypedStore

/-- A whole number is rounded to itself. -/
theorem roundHalfEven_mul (n : Nat) {den : Nat} (hden : 0 < den) :
    roundHalfEven (n * den) den = n := by
  have hrest : n * den % den = 0 := Nat.mul_mod_left n den
  simp only [roundHalfEven, hrest, Nat.mul_zero, hden, if_true, Nat.mul_div_cancel n hden]

namespace Format

variable {f g : Format}

/-! ## Ranks and their magnitudes -/

theorem scale_eq (f : Format) : f.scale = 2 ^ (f.bias + f.fraction - 1) := rfl

theorem scale_eq_mul {d : Nat} (h : g.bias + g.fraction - 1 = f.bias + f.fraction - 1 + d) :
    g.scale = f.scale * 2 ^ d := by
  rw [scale_eq, scale_eq, h, Nat.pow_add]

theorem scale_pos (f : Format) : 0 < f.scale := Nat.two_pow_pos _

theorem infinity_eq (f : Format) : f.infinity = (2 ^ f.exponent - 1) * 2 ^ f.fraction := rfl

theorem units_eq (f : Format) (r : Nat) : f.units r = if r < 2 * 2 ^ f.fraction then r
    else (2 ^ f.fraction + r % 2 ^ f.fraction) * 2 ^ (r / 2 ^ f.fraction - 1) := rfl

theorem units_subnormal {r : Nat} (hr : r < 2 ^ f.fraction) : f.units r = r :=
  if_pos (show r < 2 * 2 ^ f.fraction by omega)

/-- A normal rank is the number of a binade and a fraction. -/
theorem units_normal (e : Nat) {m : Nat} (hm : m < 2 ^ f.fraction) :
    f.units ((e + 1) * 2 ^ f.fraction + m) = (2 ^ f.fraction + m) * 2 ^ e := by
  cases e with
  | zero =>
    have hsmall : (0 + 1) * 2 ^ f.fraction + m < 2 * 2 ^ f.fraction := by omega
    rw [units_eq, if_pos hsmall]
    ring
  | succ e =>
    have hhidden : 0 < 2 ^ f.fraction := Nat.two_pow_pos _
    have hlarge : ¬ (e + 1 + 1) * 2 ^ f.fraction + m < 2 * 2 ^ f.fraction :=
      Nat.not_lt.2 (le_trans (Nat.mul_le_mul_right _ (by omega)) (Nat.le_add_right _ _))
    have hmod : ((e + 1 + 1) * 2 ^ f.fraction + m) % 2 ^ f.fraction = m := by
      rw [Nat.mul_add_mod_self_right, Nat.mod_eq_of_lt hm]
    have hdiv : ((e + 1 + 1) * 2 ^ f.fraction + m) / 2 ^ f.fraction = e + 1 + 1 := by
      rw [Nat.add_comm, Nat.add_mul_div_right _ _ hhidden, Nat.div_eq_of_lt hm, Nat.zero_add]
    rw [units_eq, if_neg hlarge, hmod, hdiv, Nat.add_sub_cancel]

/-- There are no other ranks. -/
theorem rank_cases (f : Format) (r : Nat) : r < 2 ^ f.fraction ∨
    ∃ e m, m < 2 ^ f.fraction ∧ r = (e + 1) * 2 ^ f.fraction + m := by
  by_cases hr : r < 2 ^ f.fraction
  · exact Or.inl hr
  · have hhidden : 0 < 2 ^ f.fraction := Nat.two_pow_pos _
    obtain ⟨e, he⟩ := Nat.exists_eq_add_of_le' ((Nat.le_div_iff_mul_le hhidden).2
      (show 1 * 2 ^ f.fraction ≤ r by omega))
    refine Or.inr ⟨e, r % 2 ^ f.fraction, Nat.mod_lt _ hhidden, ?_⟩
    rw [← he, Nat.mul_comm, Nat.div_add_mod]

theorem shift_subnormal {q : Nat} (hq : q < 2 ^ f.fraction) : f.shift q = 0 := by
  by_cases hzero : q = 0
  · simp [shift, hzero]
  · have hlog : q.log2 < f.fraction := (Nat.log2_lt hzero).2 hq
    rw [shift]
    omega

theorem shift_normal (e : Nat) {m : Nat} (hm : m < 2 ^ f.fraction) :
    f.shift ((2 ^ f.fraction + m) * 2 ^ e) = e := by
  have hhidden : 0 < 2 ^ f.fraction := Nat.two_pow_pos _
  have hpos : 0 < 2 ^ e := Nat.two_pow_pos e
  have hlog : ((2 ^ f.fraction + m) * 2 ^ e).log2 = f.fraction + e := by
    refine (Nat.log2_eq_iff (Nat.mul_pos (by omega) hpos).ne').2 ⟨?_, ?_⟩
    · rw [Nat.pow_add]
      exact Nat.mul_le_mul_right _ (by omega)
    · calc (2 ^ f.fraction + m) * 2 ^ e
          < (2 * 2 ^ f.fraction) * 2 ^ e := Nat.mul_lt_mul_of_pos_right (by omega) hpos
        _ = 2 ^ (f.fraction + e + 1) := by ring
  rw [shift, hlog]
  omega

/-! ## Rounding -/

theorem round_le_infinity (f : Format) (num den : Nat) : f.round num den ≤ f.infinity :=
  Nat.min_le_left _ _

/-- **The magnitude of a finite rank is rounded to that rank.** -/
theorem round_units {r num den : Nat} (hr : r < f.infinity) (hden : 0 < den)
    (h : num * f.scale = f.units r * den) : f.round num den = r := by
  have hquotient : num * f.scale / den = f.units r := by rw [h, Nat.mul_div_cancel _ hden]
  have hround : f.round num den = min f.infinity (f.shift (f.units r) * 2 ^ f.fraction +
      roundHalfEven (f.units r * den) (den * 2 ^ f.shift (f.units r))) := by
    rw [← h, ← hquotient]
    rfl
  rw [hround]
  rcases f.rank_cases r with hsmall | ⟨e, m, hm, rfl⟩
  · rw [units_subnormal hsmall, shift_subnormal hsmall, Nat.pow_zero, Nat.mul_one,
      roundHalfEven_mul r hden, Nat.zero_mul, Nat.zero_add, Nat.min_eq_right hr.le]
  · have hnum : (2 ^ f.fraction + m) * 2 ^ e * den = (2 ^ f.fraction + m) * (den * 2 ^ e) := by ring
    have hrank : e * 2 ^ f.fraction + (2 ^ f.fraction + m) = (e + 1) * 2 ^ f.fraction + m := by ring
    rw [units_normal e hm, shift_normal e hm, hnum,
      roundHalfEven_mul _ (Nat.mul_pos hden (Nat.two_pow_pos e)), hrank, Nat.min_eq_right hr.le]

/-! ## Wider formats -/

/-- A finite rank ends below the binade of infinity. -/
theorem lt_infinity_iff {e m : Nat} (hm : m < 2 ^ f.fraction) :
    (e + 1) * 2 ^ f.fraction + m < f.infinity ↔ e + 3 ≤ 2 ^ f.exponent := by
  have hhidden : 0 < 2 ^ f.fraction := Nat.two_pow_pos _
  rw [infinity_eq]
  constructor
  · intro h
    have hlt : (e + 1) * 2 ^ f.fraction < (2 ^ f.exponent - 1) * 2 ^ f.fraction := by omega
    have he := Nat.lt_of_mul_lt_mul_right hlt
    omega
  · intro h
    calc (e + 1) * 2 ^ f.fraction + m < (e + 2) * 2 ^ f.fraction := by
          rw [show (e + 2) * 2 ^ f.fraction = (e + 1) * 2 ^ f.fraction + 2 ^ f.fraction by ring]
          omega
      _ ≤ (2 ^ f.exponent - 1) * 2 ^ f.fraction := Nat.mul_le_mul_right _ (by omega)

/-- A significand and a power of two in the range of the exponents are those of
    a finite rank. -/
theorem exists_units (e : Nat) {m : Nat} (hm : m < 2 * 2 ^ f.fraction)
    (he : e + 3 ≤ 2 ^ f.exponent) : ∃ r < f.infinity, f.units r = m * 2 ^ e := by
  have hhidden : 0 < 2 ^ f.fraction := Nat.two_pow_pos _
  by_cases hfull : 2 ^ f.fraction ≤ m
  · -- the leading bit of the significand is the hidden one
    obtain ⟨n, rfl⟩ := Nat.exists_eq_add_of_le hfull
    have hn : n < 2 ^ f.fraction := by omega
    exact ⟨_, (lt_infinity_iff hn).2 he, units_normal e hn⟩
  · -- the significand is made longer, until it is full or the exponent least
    induction e generalizing m with
    | zero =>
      have hinfinity : 2 * 2 ^ f.fraction ≤ f.infinity := by
        rw [infinity_eq]; exact Nat.mul_le_mul_right _ (by omega)
      exact ⟨m, by omega, by rw [units_subnormal (by omega), Nat.pow_zero, Nat.mul_one]⟩
    | succ e ih =>
      have hdouble : 2 * m * 2 ^ e = m * 2 ^ (e + 1) := by ring
      by_cases hnext : 2 ^ f.fraction ≤ 2 * m
      · obtain ⟨n, hn⟩ := Nat.exists_eq_add_of_le hnext
        have hlt : n < 2 ^ f.fraction := by omega
        refine ⟨_, (lt_infinity_iff hlt).2 (by omega : e + 3 ≤ _), ?_⟩
        rw [units_normal e hlt, ← hn, hdouble]
      · rw [← hdouble]
        exact ih (by omega) (by omega) hnext

/-- The magnitude of a finite rank is made of such. -/
theorem exists_significand {r : Nat} (hr : r < f.infinity) (hexponent : 3 ≤ 2 ^ f.exponent) :
    ∃ m e, m < 2 * 2 ^ f.fraction ∧ e + 3 ≤ 2 ^ f.exponent ∧ f.units r = m * 2 ^ e := by
  rcases f.rank_cases r with hsmall | ⟨e, m, hm, rfl⟩
  · exact ⟨r, 0, by omega, by omega, by rw [units_subnormal hsmall, Nat.pow_zero, Nat.mul_one]⟩
  · exact ⟨2 ^ f.fraction + m, e, by omega, (lt_infinity_iff hm).1 hr, units_normal e hm⟩

/-- The format `g` has room for every finite magnitude of `f`: for its
    significands, and for its exponents, which begin `d` steps higher. -/
structure Widens (f g : Format) (d : Nat) : Prop where
  fraction : f.fraction ≤ g.fraction
  scale : g.scale = f.scale * 2 ^ d
  exponent : 3 ≤ 2 ^ f.exponent
  room : 2 ^ f.exponent + d ≤ 2 ^ g.exponent

section
variable {d : Nat} (h : f.Widens g d)
include h

/-- **Conversion to a wider format is exact.** -/
theorem units_convertRank {r : Nat} (hr : r < f.infinity) : f.convertRank g r < g.infinity ∧
    g.units (f.convertRank g r) = f.units r * 2 ^ d := by
  obtain ⟨m, e, hm, he, hunits⟩ := exists_significand hr h.exponent
  have hfraction : 2 ^ f.fraction ≤ 2 ^ g.fraction := Nat.pow_le_pow_right (by omega) h.fraction
  have hroom := h.room
  obtain ⟨r', hr', hunits'⟩ := g.exists_units (e + d) (m := m) (by omega) (by omega)
  have hmagnitude : g.units r' = f.units r * 2 ^ d := by rw [hunits', hunits, Nat.pow_add]; ring
  have hexact : f.units r * g.scale = g.units r' * f.scale := by rw [hmagnitude, h.scale]; ring
  have hconvert : f.convertRank g r = r' := by
    rw [convertRank, if_neg hr.ne, if_neg (Nat.not_lt.2 hr.le)]
    exact round_units hr' f.scale_pos hexact
  rw [hconvert]
  exact ⟨hr', hmagnitude⟩

/-- The conversion back undoes it. -/
theorem convertRank_convertRank {r : Nat} (hr : r ≤ f.infinity) :
    g.convertRank f (f.convertRank g r) = r := by
  rcases hr.eq_or_lt with rfl | hr
  · rw [convertRank, convertRank, if_pos rfl, if_pos rfl]
  · obtain ⟨hlt, hunits⟩ := units_convertRank h hr
    rw [convertRank, if_neg hlt.ne, if_neg (Nat.not_lt.2 hlt.le)]
    refine round_units hr g.scale_pos ?_
    rw [hunits, h.scale]
    ring

end

theorem convertRank_le_infinity {r : Nat} (hr : r ≤ f.infinity) (g : Format) :
    f.convertRank g r ≤ g.infinity := by
  rcases hr.eq_or_lt with rfl | hr
  · rw [convertRank, if_pos rfl]
  · rw [convertRank, if_neg hr.ne, if_neg (Nat.not_lt.2 hr.le)]
    exact g.round_le_infinity _ _

/-! ## Patterns -/

theorem infinity_lt (f : Format) : f.infinity < 2 ^ (f.bits - 1) := by
  have hexponent : 0 < 2 ^ f.exponent := Nat.two_pow_pos _
  have hhidden : 0 < 2 ^ f.fraction := Nat.two_pow_pos _
  rw [infinity_eq, bits, Nat.add_sub_cancel, Nat.pow_add, Nat.mul_comm (2 ^ f.fraction)]
  exact Nat.mul_lt_mul_of_pos_right (by omega) hhidden

variable {negative : Bool} {r : Nat}

theorem rank_word (hr : r < 2 ^ (f.bits - 1)) : f.rank (f.word negative r) = r := by
  cases negative <;> simp [rank, word, Nat.mod_eq_of_lt hr]

theorem negative_word (hr : r < 2 ^ (f.bits - 1)) : f.negative (f.word negative r) = negative := by
  have hpos : 0 < 2 ^ (f.bits - 1) := Nat.two_pow_pos _
  cases negative <;> simp [Format.negative, word, Nat.div_eq_of_lt hr, Nat.add_div_left _ hpos]

theorem word_lt (hr : r < 2 ^ (f.bits - 1)) : f.word negative r < 2 ^ f.bits := by
  have hbits : 2 ^ f.bits = 2 * 2 ^ (f.bits - 1) := by rw [← Nat.pow_succ']; rfl
  cases negative <;> simp [word] <;> omega

/-- A pattern is its sign and its rank. -/
theorem word_rank {w : Nat} (hw : w < 2 ^ f.bits) : f.word (f.negative w) (f.rank w) = w := by
  have hbits : 2 ^ f.bits = 2 * 2 ^ (f.bits - 1) := by rw [← Nat.pow_succ']; rfl
  have hpos : 0 < 2 ^ (f.bits - 1) := Nat.two_pow_pos _
  by_cases hsign : w < 2 ^ (f.bits - 1)
  · simp [Format.negative, rank, word, Nat.div_eq_of_lt hsign, Nat.mod_eq_of_lt hsign]
  · obtain ⟨r, rfl⟩ := Nat.exists_eq_add_of_le (Nat.not_lt.1 hsign)
    have hr : r < 2 ^ (f.bits - 1) := by omega
    simp [Format.negative, rank, word, Nat.add_div_left _ hpos, Nat.div_eq_of_lt hr,
      Nat.mod_eq_of_lt hr]

/-- What stands for a number is converted by its sign and its rank. -/
theorem convert_word (g : Format) (hr : r ≤ f.infinity) :
    f.convert g (f.word negative r) = g.word negative (f.convertRank g r) := by
  have hlt : r < 2 ^ (f.bits - 1) := lt_of_le_of_lt hr f.infinity_lt
  rw [convert, negative_word hlt, rank_word hlt]

/-- **A number of a format is the same number in a wider one**, and is given
    back by the conversion back. -/
theorem convert_convert {d : Nat} (h : f.Widens g d) {w : Nat} (hw : w < 2 ^ f.bits)
    (hnumber : f.isNaN w = false) : g.convert f (f.convert g w) = w := by
  have hr : f.rank w ≤ f.infinity := by simpa [isNaN] using hnumber
  rw [← word_rank hw, convert_word g hr, convert_word f (convertRank_le_infinity hr g),
    convertRank_convertRank h hr]

end Format

/-! ## Single and double precision -/

namespace FloatKind

variable {k l : FloatKind}

/-- Two patterns stand for one number: they have one sign, and both are
    infinite or have one magnitude, each in the quanta of its format. -/
def SameNumber (w : k.Word) (x : l.Word) : Prop :=
  k.format.negative w.toNat = l.format.negative x.toNat ∧
    (k.format.rank w.toNat = k.format.infinity ∧ l.format.rank x.toNat = l.format.infinity ∨
      k.format.rank w.toNat < k.format.infinity ∧ l.format.rank x.toNat < l.format.infinity ∧
        k.format.units (k.format.rank w.toNat) * l.format.scale =
          l.format.units (l.format.rank x.toNat) * k.format.scale)

theorem toNat_lt (w : k.Word) : w.toNat < 2 ^ k.format.bits := by
  rw [bits_format]
  exact w.isLt

theorem rank_le_infinity {w : k.Word} (hw : k.isNaN w = false) :
    k.format.rank w.toNat ≤ k.format.infinity := by
  simpa [isNaN, Format.isNaN] using hw

theorem toNat_convert (l : FloatKind) {w : k.Word} (hw : k.isNaN w = false) :
    (k.convert l w).toNat = k.format.convert l.format w.toNat := by
  have hr := k.format.convertRank_le_infinity (rank_le_infinity hw) l.format
  have hlt : k.format.convert l.format w.toNat < 2 ^ l.format.bits :=
    Format.word_lt (lt_of_le_of_lt hr l.format.infinity_lt)
  rw [bits_format] at hlt
  rw [convert, BitVec.toNat_ofNat, Nat.mod_eq_of_lt hlt]

/-- A number is converted to a number. -/
theorem isNaN_convert (l : FloatKind) {w : k.Word} (hw : k.isNaN w = false) :
    l.isNaN (k.convert l w) = false := by
  have hr := k.format.convertRank_le_infinity (rank_le_infinity hw) l.format
  have hlt := lt_of_le_of_lt hr l.format.infinity_lt
  rw [isNaN, Format.isNaN, toNat_convert l hw, Format.convert, Format.rank_word hlt]
  simpa using hr

/-- Double precision has room for every number of single precision. -/
theorem widens_f64 : FloatKind.f32.format.Widens FloatKind.f64.format 925 where
  fraction := by decide
  scale := Format.scale_eq_mul (by decide)
  exponent := by decide
  room := by decide

/-- **A number of single precision is the same number in double precision.** -/
theorem sameNumber_convert {w : FloatKind.f32.Word} (hw : FloatKind.f32.isNaN w = false) :
    SameNumber w (FloatKind.f32.convert .f64 w) := by
  have hr := rank_le_infinity hw
  have hr' := Format.convertRank_le_infinity hr FloatKind.f64.format
  have hlt := lt_of_le_of_lt hr' FloatKind.f64.format.infinity_lt
  rw [SameNumber, toNat_convert .f64 hw, Format.convert, Format.negative_word hlt,
    Format.rank_word hlt]
  refine ⟨rfl, ?_⟩
  rcases hr.eq_or_lt with heq | hfinite
  · refine Or.inl ⟨heq, ?_⟩
    rw [heq, Format.convertRank, if_pos rfl]
  · obtain ⟨hfinite', hunits⟩ := Format.units_convertRank widens_f64 hfinite
    refine Or.inr ⟨hfinite, hfinite', ?_⟩
    rw [hunits, widens_f64.scale, Nat.mul_assoc, Nat.mul_comm FloatKind.f32.format.scale]

/-- **The conversion back gives the pattern back.** -/
theorem convert_convert {w : FloatKind.f32.Word} (hw : FloatKind.f32.isNaN w = false) :
    FloatKind.f64.convert .f32 (FloatKind.f32.convert .f64 w) = w := by
  refine BitVec.eq_of_toNat_eq ?_
  rw [toNat_convert .f32 (isNaN_convert .f64 hw), toNat_convert .f64 hw]
  exact Format.convert_convert widens_f64 (toNat_lt w) hw

end FloatKind

end TypedStore
