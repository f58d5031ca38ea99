/-
  TypedStore — the rational numbers that patterns stand for.

  A pattern has a sign, an exponent and a fraction.  Unless it is infinite or no
  number it stands for a rational number, and rounding is a matter of distances
  between these.

  * `magnitude_eq`: the magnitude of a rank, by its exponent and fraction, is a
    whole number of quanta;
  * `abs_magnitude_round_sub_le`, `even_of_tie`: nothing is nearer to a fraction
    than what it is rounded to, and of two numbers that are equally near the even
    one is taken;
  * `round_eq_infinity_iff`, `round_eq_zero_iff`: from where on there is
    infinity, and down to where there is zero;
  * `FloatKind.number`: the extended number that a pattern stands for, and
    `FloatKind.number_mono` that what is increasing on ranks is so on numbers.
-/
import Mathlib
import TypedStore.Proofs.Nearest

namespace TypedStore

namespace Format

variable {f : Format} {r s num den : Nat}

/-! ## Magnitudes -/

/-- The magnitude of a rank: subnormal if its exponent is zero, and else with a
    leading bit before the fraction. -/
def magnitude (f : Format) (r : Nat) : ℚ :=
  let exponent := r / 2 ^ f.fraction
  let fraction : ℚ := (r % 2 ^ f.fraction : Nat) / 2 ^ f.fraction
  if exponent = 0 then fraction * 2 ^ (1 - f.bias : ℤ)
  else (1 + fraction) * 2 ^ (exponent - f.bias : ℤ)

/-- It is a whole number of quanta. -/
theorem magnitude_eq (hf : 0 < f.fraction) (r : Nat) : f.magnitude r = f.units r / f.scale := by
  have hhidden : (0 : ℚ) < 2 ^ f.fraction := by positivity
  have hscale : (f.scale : ℚ) = 2 ^ f.fraction * 2 ^ (f.bias - 1 : ℤ) := by
    rw [scale_eq, Nat.cast_pow, Nat.cast_two, ← zpow_natCast, ← zpow_natCast,
      ← zpow_add₀ two_ne_zero]
    congr 1
    omega
  rcases f.rank_cases r with hsmall | ⟨e, m, hm, rfl⟩
  · rw [magnitude, Nat.div_eq_of_lt hsmall, if_pos rfl, Nat.mod_eq_of_lt hsmall,
      units_subnormal hsmall, hscale, ← div_div, div_eq_mul_inv _ ((2 : ℚ) ^ (_ : ℤ)), ← zpow_neg,
      neg_sub]
  · have hdiv : ((e + 1) * 2 ^ f.fraction + m) / 2 ^ f.fraction = e + 1 := by
      rw [Nat.add_comm, Nat.add_mul_div_right _ _ (Nat.two_pow_pos _), Nat.div_eq_of_lt hm,
        Nat.zero_add]
    have hmod : ((e + 1) * 2 ^ f.fraction + m) % 2 ^ f.fraction = m := by
      rw [Nat.mul_add_mod_self_right, Nat.mod_eq_of_lt hm]
    have hexponent : ((e + 1 : Nat) : ℤ) - f.bias = e - (f.bias - 1 : ℤ) := by push_cast; ring
    rw [magnitude, hdiv, if_neg (Nat.succ_ne_zero e), hmod, units_normal e hm, hscale, hexponent,
      zpow_sub₀ two_ne_zero, zpow_natCast]
    push_cast
    field_simp

section
variable (hf : 0 < f.fraction)
include hf

theorem strictMono_magnitude : StrictMono f.magnitude := by
  intro r s h
  have hscale : (0 : ℚ) < f.scale := by exact_mod_cast f.scale_pos
  rw [magnitude_eq hf, magnitude_eq hf]
  exact div_lt_div_of_pos_right (by exact_mod_cast f.strictMono_units h) hscale

theorem magnitude_zero : f.magnitude 0 = 0 := by
  rw [magnitude_eq hf, units_zero, Nat.cast_zero, zero_div]

theorem magnitude_nonneg (r : Nat) : 0 ≤ f.magnitude r := by
  rw [magnitude_eq hf]
  positivity

theorem abs_magnitude_zero_sub (num den : Nat) :
    |f.magnitude 0 - (num / den : ℚ)| = num / den := by
  rw [magnitude_zero hf, zero_sub, abs_neg, abs_of_nonneg (by positivity)]

/-! ## Rounding by distances -/

/-- What is passed, by magnitudes. -/
theorem passes_iff (hden : 0 < den) : f.Passes r (num * f.scale) den ↔
    f.magnitude r + f.magnitude (r + 1) < 2 * (num / den) ∨
      f.magnitude r + f.magnitude (r + 1) = 2 * (num / den) ∧ r % 2 = 1 := by
  have hscale : (0 : ℚ) < f.scale := by exact_mod_cast f.scale_pos
  have hpos : (0 : ℚ) < den := by exact_mod_cast hden
  have hmiddle :
      f.magnitude r + f.magnitude (r + 1) = (f.middle r * den : Nat) / (f.scale * den) := by
    rw [magnitude_eq hf, magnitude_eq hf, middle]
    push_cast
    field_simp
  have hfraction : (2 * (num / den) : ℚ) = (2 * (num * f.scale) : Nat) / (f.scale * den) := by
    push_cast
    field_simp
  rw [Passes, hmiddle, hfraction, div_lt_div_iff_of_pos_right (by positivity), Nat.cast_lt,
    div_left_inj' (by positivity), Nat.cast_inj]

end

/-- Of two numbers the lower one is nearer to what is not beyond their middle. -/
theorem abs_sub_le_of_le {a b x : ℚ} (hab : a ≤ b) (h : 2 * x ≤ a + b) : |a - x| ≤ |b - x| := by
  rw [abs_of_nonneg (show 0 ≤ b - x by linarith), abs_le]
  constructor <;> linarith

/-- The upper one is nearer to what is not before it. -/
theorem abs_sub_le_of_ge {a b x : ℚ} (hab : a ≤ b) (h : a + b ≤ 2 * x) : |b - x| ≤ |a - x| := by
  rw [abs_of_nonpos (show a - x ≤ 0 by linarith), abs_le]
  constructor <;> linarith

/-- Only the middle is equally near. -/
theorem add_eq_of_abs_sub_eq {a b x : ℚ} (hab : a ≠ b) (h : |a - x| = |b - x|) : a + b = 2 * x := by
  rcases abs_eq_abs.1 h with h | h
  · exact absurd (sub_left_inj.1 h) hab
  · linarith

section
variable (hf : 0 < f.fraction) (hden : 0 < den) (hfinite : f.round num den < f.infinity)
include hf hden hfinite

/-- What is rounded to a finite rank is not beyond the middle above it, and on it
    only if the rank is even. -/
theorem le_middle_of_round : 2 * (num / den : ℚ) ≤
    f.magnitude (f.round num den) + f.magnitude (f.round num den + 1) ∧
      (f.magnitude (f.round num den) + f.magnitude (f.round num den + 1) = 2 * (num / den) →
        f.round num den % 2 = 0) := by
  have hnot : ¬ f.Passes (f.round num den) (num * f.scale) den := fun h =>
    lt_irrefl _ ((lt_round_iff hf hden).2 ⟨hfinite, h⟩)
  rw [passes_iff hf hden, not_or, not_lt, not_and] at hnot
  exact ⟨hnot.1, fun h => Nat.mod_two_ne_one.1 (hnot.2 h)⟩

omit hfinite in
/-- It is not before the middle below it, and on it only if the rank is even. -/
theorem middle_le_of_round (hs : s < f.round num den) :
    f.magnitude s + f.magnitude (s + 1) ≤ 2 * (num / den : ℚ) ∧
      (f.magnitude s + f.magnitude (s + 1) = 2 * (num / den) → s % 2 = 1) := by
  have hpasses := ((lt_round_iff hf hden).1 hs).2
  rw [passes_iff hf hden] at hpasses
  rcases hpasses with h | ⟨h, hodd⟩
  · exact ⟨h.le, fun heq => absurd heq h.ne⟩
  · exact ⟨h.le, fun _ => hodd⟩

/-- **No magnitude is nearer to a fraction than the one that it is rounded to.** -/
theorem abs_magnitude_round_sub_le (s : Nat) :
    |f.magnitude (f.round num den) - num / den| ≤ |f.magnitude s - num / den| := by
  have hmono := (strictMono_magnitude hf).monotone
  obtain ⟨habove, -⟩ := le_middle_of_round hf hden hfinite
  rcases lt_trichotomy s (f.round num den) with hs | rfl | hs
  · obtain ⟨r, hr⟩ : ∃ r, f.round num den = r + 1 := ⟨f.round num den - 1, by omega⟩
    obtain ⟨hbelow, -⟩ := middle_le_of_round hf hden (show r < f.round num den by omega)
    have hle := hmono (show s ≤ r by omega)
    rw [hr] at hs ⊢
    exact abs_sub_le_of_ge (hmono hs.le) (by linarith)
  · exact le_rfl
  · have hsucc := hmono (show f.round num den + 1 ≤ s from hs)
    exact abs_sub_le_of_le (hmono hs.le) (by linarith)

/-- Zero is no nearer. -/
theorem abs_magnitude_round_sub_le_self :
    |f.magnitude (f.round num den) - num / den| ≤ (num / den : ℚ) := by
  have hzero := abs_magnitude_round_sub_le hf hden hfinite 0
  rwa [abs_magnitude_zero_sub hf] at hzero

/-- **Of two magnitudes that are equally near the even one is taken.** -/
theorem even_of_tie (hs : s ≠ f.round num den)
    (h : |f.magnitude (f.round num den) - num / den| = |f.magnitude s - num / den|) :
    f.round num den % 2 = 0 := by
  have hmono := (strictMono_magnitude hf).monotone
  obtain ⟨habove, heven⟩ := le_middle_of_round hf hden hfinite
  have hne := (strictMono_magnitude hf).injective.ne hs.symm
  have htie := add_eq_of_abs_sub_eq hne h
  rcases hs.lt_or_gt with hs | hs
  · obtain ⟨r, hr⟩ : ∃ r, f.round num den = r + 1 := ⟨f.round num den - 1, by omega⟩
    obtain ⟨hbelow, hodd⟩ := middle_le_of_round hf hden (show r < f.round num den by omega)
    have hle := hmono (show s ≤ r by omega)
    rw [hr] at htie ⊢
    have hrest := hodd (by linarith)
    omega
  · have hle := hmono (show f.round num den + 1 ≤ s from hs)
    exact heven (by linarith)

end

/-! ## Overflow and underflow -/

section
variable (hf : 0 < f.fraction) (he : 0 < f.exponent)
include he

theorem infinity_pos : 0 < f.infinity := by
  have hexponent : 1 < 2 ^ f.exponent := Nat.one_lt_two_pow he.ne'
  rw [infinity_eq]
  exact Nat.mul_pos (by omega) (Nat.two_pow_pos _)

include hf

/-- There is infinity from the middle below it on, for its own rank is even. -/
theorem round_eq_infinity_iff (hden : 0 < den) : f.round num den = f.infinity ↔
    f.magnitude (f.infinity - 1) + f.magnitude f.infinity ≤ 2 * (num / den : ℚ) := by
  have hpos := infinity_pos he
  have heven : f.infinity % 2 = 0 := by
    obtain ⟨n, hn⟩ := Nat.exists_eq_add_of_lt hf
    rw [infinity_eq, hn, Nat.zero_add, Nat.pow_succ, ← Nat.mul_assoc, Nat.mul_mod_left]
  have hle := f.round_le_infinity num den
  have hlt : f.round num den = f.infinity ↔ f.infinity - 1 < f.round num den := by omega
  have hodd : (f.infinity - 1) % 2 = 1 := by omega
  rw [hlt, lt_round_iff hf hden, passes_iff hf hden, Nat.sub_add_cancel hpos,
    and_iff_right (by omega), and_iff_left hodd, ← le_iff_lt_or_eq]

/-- There is zero up to half a quantum. -/
theorem round_eq_zero_iff (hden : 0 < den) :
    f.round num den = 0 ↔ 2 * (num / den : ℚ) ≤ f.magnitude 1 := by
  have hnot : f.round num den = 0 ↔ ¬ 0 < f.round num den := by omega
  rw [hnot, lt_round_iff hf hden, passes_iff hf hden, and_iff_right (infinity_pos he),
    magnitude_zero hf, Nat.zero_add, zero_add, Nat.zero_mod, or_iff_left (by simp), not_lt]

end

end Format

/-! ## Signs -/

namespace Format

variable {f g : Format} {r s r' s' : Nat} {a b : Bool}

/-- The magnitude of a rank, also if that is infinity. -/
noncomputable def extended (f : Format) (r : Nat) : EReal :=
  if r = f.infinity then ⊤ else ((f.magnitude r : ℝ) : EReal)

/-- The number of a sign and a rank. -/
noncomputable def signed (f : Format) (negative : Bool) (r : Nat) : EReal :=
  if negative then -f.extended r else f.extended r

theorem extended_le_iff (hf : 0 < f.fraction) (hr : r ≤ f.infinity) (hs : s ≤ f.infinity) :
    f.extended r ≤ f.extended s ↔ r ≤ s := by
  unfold extended
  split_ifs with hinfinity hinfinity' hinfinity'
  · exact iff_of_true le_rfl (by omega)
  · exact iff_of_false (not_le.2 (EReal.coe_lt_top _)) (by omega)
  · exact iff_of_true le_top (by omega)
  · rw [EReal.coe_le_coe_iff, Rat.cast_le, (strictMono_magnitude hf).le_iff_le]

theorem extended_zero (hf : 0 < f.fraction) (he : 0 < f.exponent) : f.extended 0 = 0 := by
  rw [extended, if_neg (infinity_pos he).ne, magnitude_zero hf, Rat.cast_zero, EReal.coe_zero]

theorem extended_nonneg (hf : 0 < f.fraction) (he : 0 < f.exponent) (hr : r ≤ f.infinity) :
    0 ≤ f.extended r := by
  rw [← extended_zero hf he]
  exact (extended_le_iff hf (Nat.zero_le _) hr).2 (Nat.zero_le r)

/-- The order of numbers by their signs and ranks, in which the zeros are
    equal. -/
def SignedLe : Bool → Nat → Bool → Nat → Prop
  | false, r, false, s => r ≤ s
  | true, r, true, s => s ≤ r
  | true, _, false, _ => True
  | false, r, true, s => r = 0 ∧ s = 0

theorem signed_le_signed_iff (hf : 0 < f.fraction) (he : 0 < f.exponent) (hr : r ≤ f.infinity)
    (hs : s ≤ f.infinity) : f.signed a r ≤ f.signed b s ↔ SignedLe a r b s := by
  have hzero {n : Nat} (hn : n ≤ f.infinity) : f.extended n ≤ 0 ↔ n = 0 := by
    rw [← extended_zero hf he, extended_le_iff hf hn (Nat.zero_le _), Nat.le_zero]
  have hnonneg := extended_nonneg hf he hr
  have hnonneg' := extended_nonneg hf he hs
  cases a <;> cases b <;> simp only [signed, SignedLe, if_true, if_false, Bool.false_eq_true]
  · exact extended_le_iff hf hr hs
  · rw [← hzero hr, ← hzero hs]
    constructor
    · intro h
      exact ⟨h.trans (EReal.neg_le_zero.2 hnonneg'), EReal.neg_nonneg.1 (hnonneg.trans h)⟩
    · rintro ⟨hr, hs⟩
      exact hr.trans (EReal.neg_nonneg.2 hs)
  · exact iff_of_true ((EReal.neg_le_zero.2 hnonneg).trans hnonneg') trivial
  · rw [EReal.neg_le_neg_iff, extended_le_iff hf hs hr]

/-- What is increasing on the ranks and leaves zero alone is increasing on the
    numbers. -/
theorem SignedLe.map {convert : Nat → Nat} (hzero : convert 0 = 0)
    (hmono : ∀ r s, r ≤ s → s ≤ f.infinity → convert r ≤ convert s) (hr : r ≤ f.infinity)
    (hs : s ≤ f.infinity) (h : SignedLe a r b s) : SignedLe a (convert r) b (convert s) := by
  cases a <;> cases b
  · exact hmono _ _ h hs
  · obtain ⟨rfl, rfl⟩ := h
    exact ⟨hzero, hzero⟩
  · trivial
  · exact hmono _ _ h hr

end Format

/-! ## Patterns -/

namespace FloatKind

variable {k l : FloatKind} {v w : k.Word}

/-- A pattern stands for an infinity. -/
def IsInfinite (k : FloatKind) (w : k.Word) : Prop := k.format.rank w.toNat = k.format.infinity

/-- A pattern stands for a rational number. -/
def IsFinite (k : FloatKind) (w : k.Word) : Prop := k.format.rank w.toNat < k.format.infinity

/-- The rational number that a finite pattern stands for. -/
def toRat (k : FloatKind) (w : k.Word) : ℚ :=
  (if k.format.negative w.toNat then -1 else 1) * k.format.magnitude (k.format.rank w.toNat)

/-- What a pattern stands for, be it infinite. -/
noncomputable def number (k : FloatKind) (w : k.Word) : EReal :=
  k.format.signed (k.format.negative w.toNat) (k.format.rank w.toNat)

theorem number_of_isFinite (h : k.IsFinite w) : k.number w = ((k.toRat w : ℝ) : EReal) := by
  rw [number, Format.signed, Format.extended, if_neg (ne_of_lt h), toRat]
  split_ifs
  · rw [neg_one_mul, Rat.cast_neg, EReal.coe_neg]
  · rw [one_mul]

theorem number_of_isInfinite (h : k.IsInfinite w) :
    k.number w = if k.format.negative w.toNat then ⊥ else ⊤ := by
  rw [number, Format.signed, Format.extended, show k.format.rank w.toNat = _ from h, if_pos rfl,
    EReal.neg_top]

end FloatKind

end TypedStore
