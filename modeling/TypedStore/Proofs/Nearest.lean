/-
  TypedStore — rounding to the nearest number of a format.

  A magnitude passes a rank if it is beyond the middle between this rank and
  the next one, or on the middle if the rank is odd.  What is rounded goes up
  past all ranks that it passes, and stops at the first that it does not.

  * `strictMono_units`: the magnitudes of the ranks are in the order of the
    ranks;
  * `lt_round_iff`: rounding by what is passed;
  * `round_mono`: rounding keeps the order of magnitudes;
  * `IsNearest`: what lies between the middles below and above a rank is rounded
    to it (`round_eq_of_isNearest`), and is what printing looks for
    (`roundsTo_iff`).
-/
import Mathlib
import TypedStore.Binary.Shortest
import TypedStore.Proofs.Rounding

namespace TypedStore

/-- Rounding to whole numbers, by what lies beyond the middle. -/
theorem lt_roundHalfEven_iff {num den n : Nat} (hden : 0 < den) : n < roundHalfEven num den ↔
    (2 * n + 1) * den < 2 * num ∨ (2 * n + 1) * den = 2 * num ∧ n % 2 = 1 := by
  have hrest := Nat.mod_lt num hden
  have hnum := Nat.div_add_mod num den
  simp only [roundHalfEven]
  generalize num / den = q, num % den = rest at hrest hnum ⊢
  subst hnum
  rcases lt_trichotomy n q with hn | rfl | hn
  · have hbelow : (2 * n + 1) * den < 2 * (den * q + rest) := by
      calc (2 * n + 1) * den < 2 * (n + 1) * den := Nat.mul_lt_mul_of_pos_right (by omega) hden
        _ ≤ 2 * q * den := Nat.mul_le_mul_right _ (by omega)
        _ ≤ 2 * (den * q + rest) := by rw [Nat.mul_comm den]; nlinarith
    refine iff_of_true ?_ (Or.inl hbelow)
    split_ifs <;> omega
  · have hmiddle : 2 * (den * n + rest) = (2 * n + 1) * den + (2 * rest) - den := by
      rw [show (2 * n + 1) * den + 2 * rest = 2 * (den * n + rest) + den by ring,
        Nat.add_sub_cancel]
    rw [hmiddle]
    have hpos : den ≤ (2 * n + 1) * den := Nat.le_mul_of_pos_left _ (by omega)
    split_ifs <;> omega
  · have habove : 2 * (den * q + rest) < (2 * n + 1) * den := by
      calc 2 * (den * q + rest) < 2 * (q + 1) * den := by nlinarith
        _ ≤ (2 * n + 1) * den := Nat.mul_le_mul_right _ (by omega)
    refine iff_of_false ?_ (by omega)
    split_ifs <;> omega

namespace Format

variable {f : Format} {num den r : Nat}

/-! ## The order of ranks -/

/-- The ranks from the beginning of a binade to the beginning of the next one
    are a whole number of its steps; below the first binade the steps are the
    same. -/
theorem units_binade {s n : Nat} (hlow : s = 0 ∨ 2 ^ f.fraction ≤ n)
    (hhigh : n ≤ 2 * 2 ^ f.fraction) : f.units (s * 2 ^ f.fraction + n) = n * 2 ^ s := by
  rcases hhigh.lt_or_eq with hlt | rfl
  · by_cases hn : 2 ^ f.fraction ≤ n
    · obtain ⟨m, rfl⟩ := Nat.exists_eq_add_of_le hn
      rw [← Nat.add_assoc, ← Nat.succ_mul, units_normal s (by omega)]
    · obtain rfl := hlow.resolve_right hn
      rw [Nat.zero_mul, Nat.zero_add, units_subnormal (by omega), Nat.pow_zero, Nat.mul_one]
  · have hrank :
        s * 2 ^ f.fraction + 2 * 2 ^ f.fraction = (s + 1 + 1) * 2 ^ f.fraction + 0 := by ring
    rw [hrank, units_normal (s + 1) (Nat.two_pow_pos _)]
    ring

theorem units_zero (f : Format) : f.units 0 = 0 := units_subnormal (Nat.two_pow_pos _)

/-- **The magnitudes of ranks are in the order of the ranks.** -/
theorem strictMono_units (f : Format) : StrictMono f.units := by
  refine strictMono_nat_of_lt_succ fun r => ?_
  -- a rank and the next one are whole numbers of steps of one binade
  obtain ⟨s, n, hlow, hhigh, rfl⟩ : ∃ s n, (s = 0 ∨ 2 ^ f.fraction ≤ n) ∧
      n < 2 * 2 ^ f.fraction ∧ r = s * 2 ^ f.fraction + n := by
    rcases f.rank_cases r with hsmall | ⟨e, m, hm, rfl⟩
    · exact ⟨0, r, Or.inl rfl, by omega, by omega⟩
    · exact ⟨e, 2 ^ f.fraction + m, Or.inr (by omega), by omega, by ring⟩
  have hnext : n + 1 ≤ 2 * 2 ^ f.fraction := hhigh
  rw [units_binade hlow hhigh.le, Nat.add_assoc,
    units_binade (hlow.imp_right fun h => by omega) hnext]
  exact Nat.mul_lt_mul_of_pos_right (Nat.lt_succ_self n) (Nat.two_pow_pos s)

/-! ## Rounding by what is passed -/

/-- The middle between a rank and the next one, in half quanta. -/
def middle (f : Format) (r : Nat) : Nat := f.units r + f.units (r + 1)

/-- `num / den` quanta are beyond the middle between a rank and the next one,
    or on the middle, and the rank is odd. -/
def Passes (f : Format) (r num den : Nat) : Prop :=
  f.middle r * den < 2 * num ∨ f.middle r * den = 2 * num ∧ r % 2 = 1

theorem middle_binade {s n : Nat} (hlow : s = 0 ∨ 2 ^ f.fraction ≤ n)
    (hhigh : n < 2 * 2 ^ f.fraction) :
    f.middle (s * 2 ^ f.fraction + n) = (2 * n + 1) * 2 ^ s := by
  have hnext : n + 1 ≤ 2 * 2 ^ f.fraction := hhigh
  rw [middle, Nat.add_assoc, units_binade hlow hhigh.le,
    units_binade (hlow.imp_right fun h => by omega) hnext]
  ring

theorem middle_lt {r r' : Nat} (h : r < r') : f.middle r < 2 * f.units r' := by
  have hlow := f.strictMono_units h
  have hhigh : f.units (r + 1) ≤ f.units r' := f.strictMono_units.monotone h
  rw [middle]
  omega

theorem lt_middle {r r' : Nat} (h : r' ≤ r) : 2 * f.units r' < f.middle r := by
  have hlow := f.strictMono_units.monotone h
  have hhigh : f.units r' < f.units (r + 1) := f.strictMono_units (Nat.lt_succ_of_le h)
  rw [middle]
  omega

/-- The quanta that are rounded are within the binade of their shift. -/
theorem bounds_of_shift (num : Nat) (hden : 0 < den) : let s := f.shift (num / den)
    num < 2 * 2 ^ f.fraction * (den * 2 ^ s) ∧ (s = 0 ∨ 2 ^ f.fraction * (den * 2 ^ s) ≤ num) := by
  intro s
  have hs : s = (num / den).log2 - f.fraction := rfl
  constructor
  · have hlt : num / den < 2 ^ (f.fraction + s + 1) :=
      lt_of_lt_of_le Nat.lt_log2_self (Nat.pow_le_pow_right (by omega) (by omega))
    calc num < 2 ^ (f.fraction + s + 1) * den := (Nat.div_lt_iff_lt_mul hden).1 hlt
      _ = 2 * 2 ^ f.fraction * (den * 2 ^ s) := by ring
  · by_cases hzero : s = 0
    · exact Or.inl hzero
    · have hquotient : num / den ≠ 0 := by
        intro h
        rw [h] at hs
        simp at hs
        omega
      have hle : 2 ^ (f.fraction + s) ≤ num / den := by
        rw [hs, Nat.add_sub_cancel' (by omega)]
        exact Nat.log2_self_le hquotient
      refine Or.inr ?_
      calc 2 ^ f.fraction * (den * 2 ^ s) = 2 ^ (f.fraction + s) * den := by ring
        _ ≤ num := (Nat.le_div_iff_mul_le hden).1 hle

section
variable {s quanta : Nat} (hden : 0 < den)
include hden

/-- Within a binade what is rounded in its steps goes up past what it passes. -/
theorem lt_binade_iff (hf : 0 < f.fraction) {n : Nat} (hlow : s = 0 ∨ 2 ^ f.fraction ≤ n)
    (hhigh : n < 2 * 2 ^ f.fraction) :
    s * 2 ^ f.fraction + n < s * 2 ^ f.fraction + roundHalfEven quanta (den * 2 ^ s) ↔
      f.Passes (s * 2 ^ f.fraction + n) quanta den := by
  have hparity : (s * 2 ^ f.fraction + n) % 2 = n % 2 := by
    obtain ⟨k, hk⟩ := Nat.exists_eq_add_of_lt hf
    rw [hk, Nat.zero_add, Nat.pow_succ, ← Nat.mul_assoc, Nat.mul_add_mod_self_right]
  have hscaled : (2 * n + 1) * 2 ^ s * den = (2 * n + 1) * (den * 2 ^ s) := by ring
  rw [Nat.add_lt_add_iff_left, lt_roundHalfEven_iff (Nat.mul_pos hden (Nat.two_pow_pos s)),
    Passes, middle_binade hlow hhigh, hscaled, hparity]

/-- What is not below the binade passes all ranks that are, and goes up past
    them. -/
theorem passes_below_binade (hle : 2 ^ f.fraction * (den * 2 ^ s) ≤ quanta)
    (hr : r < s * 2 ^ f.fraction + 2 ^ f.fraction) :
    r < s * 2 ^ f.fraction + roundHalfEven quanta (den * 2 ^ s) ∧ f.Passes r quanta den := by
  have hhidden : 0 < 2 ^ f.fraction := Nat.two_pow_pos _
  have hstep : 0 < den * 2 ^ s := Nat.mul_pos hden (Nat.two_pow_pos s)
  constructor
  · have hup : 2 ^ f.fraction - 1 < roundHalfEven quanta (den * 2 ^ s) := by
      refine (lt_roundHalfEven_iff hstep).2 (Or.inl ?_)
      calc (2 * (2 ^ f.fraction - 1) + 1) * (den * 2 ^ s)
          < (2 * 2 ^ f.fraction) * (den * 2 ^ s) := Nat.mul_lt_mul_of_pos_right (by omega) hstep
        _ ≤ 2 * quanta := by rw [Nat.mul_assoc]; exact Nat.mul_le_mul_left 2 hle
    omega
  · have hunits := units_binade (f := f) (s := s) (Or.inr le_rfl) (by omega)
    refine Or.inl ?_
    calc f.middle r * den < 2 * (2 ^ f.fraction * 2 ^ s) * den := by
          rw [← hunits]; exact Nat.mul_lt_mul_of_pos_right (middle_lt hr) hden
      _ = 2 * (2 ^ f.fraction * (den * 2 ^ s)) := by ring
      _ ≤ 2 * quanta := Nat.mul_le_mul_left 2 hle

/-- What is not beyond the binade passes no rank that is, and does not go up past
    it. -/
theorem not_passes_beyond_binade (hlt : quanta < 2 * 2 ^ f.fraction * (den * 2 ^ s))
    (hr : s * 2 ^ f.fraction + 2 * 2 ^ f.fraction ≤ r) :
    ¬ r < s * 2 ^ f.fraction + roundHalfEven quanta (den * 2 ^ s) ∧ ¬ f.Passes r quanta den := by
  have hhidden : 0 < 2 ^ f.fraction := Nat.two_pow_pos _
  have hstep : 0 < den * 2 ^ s := Nat.mul_pos hden (Nat.two_pow_pos s)
  constructor
  · have hstay : ¬ 2 * 2 ^ f.fraction < roundHalfEven quanta (den * 2 ^ s) := by
      have hgrid : 2 * quanta < (2 * (2 * 2 ^ f.fraction) + 1) * (den * 2 ^ s) := by
        calc 2 * quanta < 2 * (2 * 2 ^ f.fraction) * (den * 2 ^ s) := by
              rw [Nat.mul_assoc]; omega
          _ ≤ (2 * (2 * 2 ^ f.fraction) + 1) * (den * 2 ^ s) :=
              Nat.mul_le_mul_right _ (Nat.le_succ _)
      rw [lt_roundHalfEven_iff hstep]
      omega
    omega
  · have hunits := units_binade (f := f) (s := s) (n := 2 * 2 ^ f.fraction)
      (Or.inr (by omega)) le_rfl
    have hmiddle : 2 * quanta < f.middle r * den := by
      calc 2 * quanta < 2 * (2 * 2 ^ f.fraction * (den * 2 ^ s)) := by omega
        _ = 2 * (2 * 2 ^ f.fraction * 2 ^ s) * den := by ring
        _ ≤ f.middle r * den := by
            rw [← hunits]
            exact Nat.mul_le_mul_right _ (lt_middle hr).le
    rw [Passes]
    omega

end

/-- **What is rounded goes up past every rank that it passes.** -/
theorem lt_round_iff (hf : 0 < f.fraction) (hden : 0 < den) :
    r < f.round num den ↔ r < f.infinity ∧ f.Passes r (num * f.scale) den := by
  refine lt_min_iff.trans (and_congr_right fun _ => ?_)
  obtain ⟨hhigh, hlow⟩ := bounds_of_shift (f := f) (num * f.scale) hden
  show r < f.shift (num * f.scale / den) * 2 ^ f.fraction +
    roundHalfEven (num * f.scale) (den * 2 ^ f.shift (num * f.scale / den)) ↔ _
  generalize num * f.scale = quanta at hhigh hlow ⊢
  generalize f.shift (quanta / den) = s at hhigh hlow ⊢
  by_cases hbelow : s ≠ 0 ∧ r < s * 2 ^ f.fraction + 2 ^ f.fraction
  · obtain ⟨hup, hpasses⟩ := passes_below_binade hden (hlow.resolve_left hbelow.1) hbelow.2
    exact iff_of_true hup hpasses
  rcases Nat.lt_or_ge r (s * 2 ^ f.fraction + 2 * 2 ^ f.fraction) with hin | hbeyond
  · have hstart : s * 2 ^ f.fraction ≤ r := by
      by_cases hs : s = 0
      · rw [hs, Nat.zero_mul]
        exact Nat.zero_le r
      · omega
    obtain ⟨n, rfl⟩ := Nat.exists_eq_add_of_le hstart
    exact lt_binade_iff hden hf (by omega) (by omega)
  · obtain ⟨hstay, hpasses⟩ := not_passes_beyond_binade hden hhigh hbeyond
    exact iff_of_false hstay hpasses

/-- What is passed by a magnitude is passed by every greater one. -/
theorem Passes.mono {num' den' : Nat} (hden : 0 < den) (hden' : 0 < den')
    (hle : num * den' ≤ num' * den) (h : f.Passes r num den) : f.Passes r num' den' := by
  have hscale : f.middle r * den' * den = f.middle r * den * den' := by ring
  have hlower : 2 * num * den' ≤ 2 * num' * den := by
    rw [Nat.mul_assoc, Nat.mul_assoc]
    exact Nat.mul_le_mul_left 2 hle
  rcases h with h | ⟨h, hodd⟩
  · refine Or.inl (Nat.lt_of_mul_lt_mul_right (a := den) ?_)
    rw [hscale]
    exact lt_of_lt_of_le (Nat.mul_lt_mul_of_pos_right h hden') hlower
  · rw [← h, ← hscale] at hlower
    rcases (Nat.le_of_mul_le_mul_right hlower hden).lt_or_eq with hlt | heq
    · exact Or.inl hlt
    · exact Or.inr ⟨heq, hodd⟩

/-- The order of magnitudes is that of their quanta. -/
theorem quanta_le {num' den' : Nat} (hle : num * den' ≤ num' * den) :
    num * f.scale * den' ≤ num' * f.scale * den := by
  calc num * f.scale * den' = num * den' * f.scale := by ring
    _ ≤ num' * den * f.scale := Nat.mul_le_mul_right _ hle
    _ = num' * f.scale * den := by ring

/-- **Rounding keeps the order of magnitudes.** -/
theorem round_mono (hf : 0 < f.fraction) {num' den' : Nat} (hden : 0 < den) (hden' : 0 < den')
    (hle : num * den' ≤ num' * den) : f.round num den ≤ f.round num' den' := by
  refine le_of_forall_lt fun r hr => ?_
  rw [lt_round_iff hf hden] at hr
  exact (lt_round_iff hf hden').2 ⟨hr.1, hr.2.mono hden hden' (quanta_le hle)⟩

/-- With a rank all ranks below it are passed. -/
theorem Passes.of_le {s : Nat} (hden : 0 < den) (hle : s ≤ r) (h : f.Passes r num den) :
    f.Passes s num den := by
  rcases hle.lt_or_eq with hlt | rfl
  · have hmiddle : f.middle s * den < f.middle r * den := by
      refine Nat.mul_lt_mul_of_pos_right (lt_trans (middle_lt (f := f) hlt) (lt_middle le_rfl)) hden
    refine Or.inl (lt_of_lt_of_le hmiddle ?_)
    rcases h with h | h
    · exact h.le
    · exact h.1.le
  · exact h

/-- `num / den` quanta pass all ranks below a rank, and not the rank. -/
structure IsNearest (f : Format) (r num den : Nat) : Prop where
  below {s} : s < r → f.Passes s num den
  above : ¬ f.Passes r num den

/-- What is nearest to a finite rank is rounded to it. -/
theorem round_eq_of_isNearest (hf : 0 < f.fraction) (hden : 0 < den) (hr : r < f.infinity)
    (h : f.IsNearest r (num * f.scale) den) : f.round num den = r := by
  refine le_antisymm (not_lt.1 fun hlt => h.above ((lt_round_iff hf hden).1 hlt).2) ?_
  refine le_of_forall_lt fun s hs => (lt_round_iff hf hden).2 ⟨lt_trans hs hr, h.below hs⟩

/-- What lies between magnitudes that are nearest to a rank is so, too. -/
theorem IsNearest.between {num₁ den₁ num₂ den₂ : Nat} (h₁ : f.IsNearest r num₁ den₁)
    (h₂ : f.IsNearest r num₂ den₂) (hden₁ : 0 < den₁) (hden₂ : 0 < den₂) (hden : 0 < den)
    (hlow : num₁ * den ≤ num * den₁) (hhigh : num * den₂ ≤ num₂ * den) :
    f.IsNearest r num den where
  below hs := (h₁.below hs).mono hden₁ hden hlow
  above h := h₂.above (h.mono hden hden₂ hhigh)

/-- The magnitude of a rank is nearest to it. -/
theorem isNearest_units (f : Format) (r : Nat) : f.IsNearest r (f.units r) 1 where
  below hs := Or.inl (by rw [Nat.mul_one]; exact middle_lt hs)
  above h := by
    have hlt := lt_middle (f := f) (le_refl r)
    rw [Passes, Nat.mul_one] at h
    omega

/-- What rounds to a rank is what is nearest to it. -/
theorem roundsTo_iff (hden : 0 < den) (hr : 0 < r) :
    f.roundsTo r num den = true ↔ f.IsNearest r num den := by
  obtain ⟨s, rfl⟩ : ∃ s, r = s + 1 := ⟨r - 1, by omega⟩
  have hnearest : f.IsNearest (s + 1) num den ↔
      f.Passes s num den ∧ ¬ f.Passes (s + 1) num den :=
    ⟨fun h => ⟨h.below (Nat.lt_succ_self _), h.above⟩,
      fun h => ⟨fun ht => h.1.of_le hden (Nat.le_of_lt_succ ht), h.2⟩⟩
  rw [hnearest]
  simp only [roundsTo, Passes, middle, Nat.add_sub_cancel]
  split_ifs with heven <;> simp only [Bool.and_eq_true, decide_eq_true_eq] <;> omega

end Format

theorem FloatKind.fraction_pos (k : FloatKind) : 0 < k.format.fraction := by cases k <;> decide

theorem FloatKind.exponent_pos (k : FloatKind) : 0 < k.format.exponent := by cases k <;> decide

end TypedStore
