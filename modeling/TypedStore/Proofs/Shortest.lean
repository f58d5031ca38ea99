/-
  TypedStore — the shortest decimal of a number, and reading it.

  A decimal identifies a rank if it is nearest to it.  The decimals of one
  exponent form a grid.  If any point of a grid identifies a rank, one of the
  two neighbours of the number does, and the search tries grid after grid until
  there is one.

  * `identifies_shortest`: the search comes to an end, and what it finds
    identifies the rank;
  * `ofDecimal_of_identifies`: a decimal that identifies a finite rank is read
    as that rank, whatever its length;
  * `length_shortest_le`: no decimal with fewer digits identifies the rank;
  * `isShortest_shortest`: so no decimal with fewer digits is read as it.
-/
import Mathlib
import TypedStore.Binary.Literal
import TypedStore.Proofs.Nearest

namespace TypedStore

namespace Decimal

/-- A decimal is the fraction of `num` and `den`. -/
def num (d : Decimal) : Nat := d.digits * 10 ^ d.exponent.toNat

/-- The denominator of a decimal. -/
def den (d : Decimal) : Nat := 10 ^ (-d.exponent).toNat

theorem den_pos (d : Decimal) : 0 < d.den := Nat.pow_pos (by decide)

/-- Two decimals with a common denominator. -/
theorem exists_common (d d' : Decimal) (h : d.exponent ≤ d'.exponent) :
    ∃ m, d.num * d'.den = d.digits * m ∧
      d'.num * d.den = d'.digits * 10 ^ (d'.exponent - d.exponent).toNat * m := by
  refine ⟨10 ^ (d.exponent.toNat + (-d'.exponent).toNat), ?_, ?_⟩
  · rw [num, den, Nat.mul_assoc, Nat.pow_add]
  · rw [num, den, Nat.mul_assoc, ← Nat.pow_add, Nat.mul_assoc, ← Nat.pow_add]
    congr 2
    omega

end Decimal

namespace Format

variable {f : Format} {r c : Nat} {d : Decimal} {e : Int}

/-- A decimal is nearest to a rank. -/
def Identifies (f : Format) (r : Nat) (d : Decimal) : Prop :=
  f.IsNearest r (d.num * f.scale) d.den

/-- What lies between decimals that are nearest to a rank is so, too. -/
theorem Identifies.between {d' p : Decimal} (h : f.Identifies r d) (h' : f.Identifies r d')
    (hlow : d.num * p.den ≤ p.num * d.den) (hhigh : p.num * d'.den ≤ d'.num * p.den) :
    f.Identifies r p :=
  IsNearest.between h h' d.den_pos d'.den_pos p.den_pos (quanta_le hlow) (quanta_le hhigh)

/-! ## Grids -/

/-- What is found on a grid identifies the rank. -/
theorem identifies_of_onGrid? (hr : 0 < r) (h : f.onGrid? r e = some c) :
    f.Identifies r ⟨c, e⟩ := by
  have hits (c : Nat) : f.roundsTo r (c * Nat.pow 10 e.toNat * f.scale) (Nat.pow 10 (-e).toNat) =
      true → f.Identifies r ⟨c, e⟩ := (roundsTo_iff (Decimal.den_pos ⟨c, e⟩) hr).1
  simp only [onGrid?] at h
  split at h
  · next hbelow habove =>
    split_ifs at h
    · exact Option.some.inj h ▸ hits _ hbelow
    · exact Option.some.inj h ▸ hits _ habove
  · next hbelow _ => exact Option.some.inj h ▸ hits _ hbelow
  · next _ habove => exact Option.some.inj h ▸ hits _ habove
  · cases h

/-- **If a point of a grid identifies a rank, something is found on it.** -/
theorem not_identifies_of_onGrid? (hr : 0 < r) (h : f.onGrid? r e = none) (c : Nat) :
    ¬ f.Identifies r ⟨c, e⟩ := by
  intro hc
  have hden (c : Nat) : 0 < (Decimal.mk c e).den := Decimal.den_pos _
  have hmiss (c : Nat) : f.roundsTo r (c * Nat.pow 10 e.toNat * f.scale) (Nat.pow 10 (-e).toNat) =
      false → ¬ f.Identifies r ⟨c, e⟩ := fun hfalse hc => by
    have htrue := (roundsTo_iff (hden c) hr).2 hc
    exact absurd (hfalse.symm.trans htrue) nofun
  have hunits := f.isNearest_units r
  simp only [onGrid?] at h
  split at h
  · split_ifs at h
  · cases h
  · cases h
  · next hbelow habove =>
    -- both neighbours of the number are missed, but one is between it and the point
    set num := f.units r * Nat.pow 10 (-e).toNat with hnum
    set den := f.scale * Nat.pow 10 e.toNat with hdenom
    have hpos : 0 < den := Nat.mul_pos f.scale_pos (Nat.pow_pos (by decide))
    have hgrid (c : Nat) : (Decimal.mk c e).num * f.scale = c * den := by
      rw [Decimal.num, hdenom]
      show c * 10 ^ e.toNat * f.scale = c * (f.scale * 10 ^ e.toNat)
      ring
    rcases Nat.lt_or_ge (num / den) c with hlt | hle
    · refine hmiss _ habove (hunits.between hc Nat.one_pos (hden c) (hden _) ?_ ?_)
      · rw [hgrid, Nat.mul_one]
        exact (Nat.lt_mul_of_div_lt (Nat.lt_succ_self _) hpos).le
      · rw [hgrid, hgrid]
        exact Nat.mul_le_mul_right _ (Nat.mul_le_mul_right _ hlt)
    · refine hmiss _ hbelow (IsNearest.between hc hunits (hden c) Nat.one_pos (hden _) ?_ ?_)
      · rw [hgrid, hgrid]
        exact Nat.mul_le_mul_right _ (Nat.mul_le_mul_right _ hle)
      · rw [hgrid, Nat.mul_one]
        exact Nat.div_mul_le_self num den

/-! ## The search -/

/-- The search ends on the first grid on which something is found. -/
theorem searchGrids_eq_some {fuel : Nat} (h : f.searchGrids r fuel e = some d) :
    f.onGrid? r d.exponent = some d.digits ∧
      ∀ e', d.exponent < e' → e' ≤ e → f.onGrid? r e' = none := by
  induction fuel generalizing e with
  | zero => cases h
  | succ fuel ih =>
    rw [searchGrids] at h
    cases hgrid : f.onGrid? r e with
    | some c =>
      simp only [hgrid] at h
      cases h
      exact ⟨hgrid, fun e' hlow hhigh => absurd hlow (not_lt.2 hhigh)⟩
    | none =>
      simp only [hgrid] at h
      obtain ⟨hfound, hnone⟩ := ih h
      refine ⟨hfound, fun e' hlow hhigh => ?_⟩
      rcases hhigh.lt_or_eq with hlt | rfl
      · exact hnone e' hlow (by omega)
      · exact hgrid

theorem searchGrids_eq_none {fuel : Nat} (h : f.searchGrids r fuel e = none) :
    ∀ e', e - fuel < e' → e' ≤ e → f.onGrid? r e' = none := by
  induction fuel generalizing e with
  | zero =>
    intro e' hlow hhigh
    omega
  | succ fuel ih =>
    intro e' hlow hhigh
    rw [searchGrids] at h
    cases hgrid : f.onGrid? r e with
    | some c =>
      simp only [hgrid] at h
      cases h
    | none =>
      simp only [hgrid] at h
      rcases hhigh.lt_or_eq with hlt | rfl
      · exact ih h e' (by push_cast at hlow; omega) (by omega)
      · exact hgrid

/-- The number itself is on the last grid that is tried. -/
theorem exists_identifies (f : Format) (r : Nat) :
    ∃ c, f.Identifies r ⟨c, -(f.bias + f.fraction : Nat)⟩ := by
  have hdvd : f.scale ∣ 10 ^ (f.bias + f.fraction) := by
    rw [scale_eq]
    exact (pow_dvd_pow 2 (Nat.sub_le _ _)).trans (pow_dvd_pow_of_dvd (by decide) _)
  obtain ⟨n, hn⟩ := hdvd
  refine ⟨f.units r * n, ?_⟩
  have hnum : (Decimal.mk (f.units r * n) (-(f.bias + f.fraction : Nat))).num * f.scale =
      f.units r * 10 ^ (f.bias + f.fraction) := by
    rw [Decimal.num, hn]
    have hexponent : (-(f.bias + f.fraction : Nat) : Int).toNat = 0 := by omega
    rw [hexponent]
    ring
  have hden : (Decimal.mk (f.units r * n) (-(f.bias + f.fraction : Nat))).den =
      10 ^ (f.bias + f.fraction) := by
    rw [Decimal.den, neg_neg, Int.toNat_natCast]
  have hunits := f.isNearest_units r
  have hpos : 0 < 10 ^ (f.bias + f.fraction) := Nat.pow_pos (by decide)
  rw [Identifies, hnum, hden]
  exact hunits.between hunits Nat.one_pos Nat.one_pos hpos (Nat.mul_one _).ge (Nat.mul_one _).le

/-- The shortest decimal is on the first grid on which something is found. -/
theorem onGrid?_shortest (hr : 0 < r) :
    f.onGrid? r (f.shortest r).exponent = some (f.shortest r).digits ∧
      ∀ e', (f.shortest r).exponent < e' → e' ≤ f.topExponent → f.onGrid? r e' = none := by
  unfold shortest
  cases h : f.searchGrids r (f.topExponent + f.bias + f.fraction + 1) f.topExponent with
  | some d => exact searchGrids_eq_some h
  | none =>
    obtain ⟨c, hc⟩ := f.exists_identifies r
    have hnone :=
      searchGrids_eq_none h (-(f.bias + f.fraction : Nat)) (by push_cast; omega) (by omega)
    exact absurd hc (not_identifies_of_onGrid? hr hnone c)

/-- **The shortest decimal of a rank identifies it.** -/
theorem identifies_shortest (hr : 0 < r) : f.Identifies r (f.shortest r) :=
  identifies_of_onGrid? hr (onGrid?_shortest hr).1

/-! ## The range of a format -/

section
variable (hf : 0 < f.fraction) (he : 0 < f.exponent)
include hf he

/-- Infinity takes the place of the next power of two. -/
theorem units_infinity : f.units f.infinity = f.scale * 2 ^ 2 ^ (f.exponent - 1) := by
  have hexponent : 2 ^ f.exponent = 2 * 2 ^ (f.exponent - 1) := by
    rw [← Nat.pow_succ', Nat.succ_eq_add_one, Nat.sub_add_cancel he]
  have hpos : 0 < 2 ^ (f.exponent - 1) := Nat.two_pow_pos _
  have hbias : f.bias = 2 ^ (f.exponent - 1) - 1 := rfl
  have hinfinity : f.infinity = (2 ^ f.exponent - 2 + 1) * 2 ^ f.fraction + 0 := by
    rw [infinity_eq, Nat.add_zero]
    congr 1
    omega
  rw [hinfinity, units_normal _ (Nat.two_pow_pos _), Nat.add_zero, scale_eq, ← Nat.pow_add,
    ← Nat.pow_add]
  congr 1
  omega

/-- The decimals of finite ranks are below a power of ten. -/
theorem num_lt_of_identifies (hr : r < f.infinity) (h : f.Identifies r d) :
    d.num < 10 ^ f.topExponent * d.den := by
  have hpower : 2 ^ 2 ^ (f.exponent - 1) ≤ 10 ^ f.topExponent := by
    calc 2 ^ 2 ^ (f.exponent - 1) ≤ 2 ^ (3 * (2 ^ (f.exponent - 1) / 3 + 1)) :=
          Nat.pow_le_pow_right (by decide) (by omega)
      _ = 8 ^ f.topExponent := Nat.pow_mul 2 3 _
      _ ≤ 10 ^ f.topExponent := Nat.pow_le_pow_left (by decide) _
  have hmiddle : 2 * (d.num * f.scale) ≤ f.middle r * d.den := by
    by_contra hlt
    exact h.above (Or.inl (not_le.1 hlt))
  have hbelow : 2 * (d.num * f.scale) < 2 * (f.scale * 2 ^ 2 ^ (f.exponent - 1)) * d.den := by
    refine lt_of_le_of_lt hmiddle (Nat.mul_lt_mul_of_pos_right ?_ d.den_pos)
    rw [← units_infinity hf he]
    exact middle_lt hr
  refine Nat.lt_of_mul_lt_mul_right (a := 2 * f.scale) ?_
  calc d.num * (2 * f.scale) = 2 * (d.num * f.scale) := by ring
    _ < 2 * (f.scale * 2 ^ 2 ^ (f.exponent - 1)) * d.den := hbelow
    _ = 2 ^ 2 ^ (f.exponent - 1) * d.den * (2 * f.scale) := by ring
    _ ≤ 10 ^ f.topExponent * d.den * (2 * f.scale) :=
        Nat.mul_le_mul_right _ (Nat.mul_le_mul_right _ hpower)

end

/-- The decimals of ranks other than zero are half a quantum or more. -/
theorem den_le_of_identifies (hf : 0 < f.fraction) (hr : 0 < r) (h : f.Identifies r d) :
    d.den ≤ d.num * 2 ^ (f.bias + f.fraction) := by
  have hmiddle : f.middle 0 * d.den ≤ 2 * (d.num * f.scale) := by
    rcases h.below hr with hlt | ⟨heq, -⟩
    · exact hlt.le
    · exact heq.le
  have hone : 1 ≤ f.middle 0 := lt_of_le_of_lt (Nat.zero_le _) (lt_middle le_rfl)
  have hscale : 2 * f.scale = 2 ^ (f.bias + f.fraction) := by
    rw [scale_eq, ← Nat.pow_succ', Nat.succ_eq_add_one, Nat.sub_add_cancel (by omega)]
  calc d.den ≤ f.middle 0 * d.den := Nat.le_mul_of_pos_left _ hone
    _ ≤ 2 * (d.num * f.scale) := hmiddle
    _ = d.num * 2 ^ (f.bias + f.fraction) := by rw [← hscale]; ring

theorem digits_ne_zero_of_identifies (hf : 0 < f.fraction) (hr : 0 < r) (h : f.Identifies r d) :
    d.digits ≠ 0 := by
  intro hzero
  have hden := den_le_of_identifies hf hr h
  have hpos := d.den_pos
  rw [Decimal.num, hzero, Nat.zero_mul, Nat.zero_mul] at hden
  omega

end Format

/-! ## The number of digits -/

theorem lt_pow_length_repr (n : Nat) : n < 10 ^ n.repr.length :=
  (Nat.length_repr_le_iff Nat.length_repr_pos).1 le_rfl

theorem pow_length_repr_le {n : Nat} (hn : n ≠ 0) : 10 ^ (n.repr.length - 1) ≤ n := by
  by_cases hone : n.repr.length - 1 = 0
  · rw [hone]
    exact Nat.one_le_iff_ne_zero.2 hn
  · by_contra hlt
    have hle := (Nat.length_repr_le_iff (Nat.pos_of_ne_zero hone)).2 (not_le.1 hlt)
    omega

namespace Format

variable {f : Format} {r : Nat} {d : Decimal}

/-- **A decimal that identifies a finite rank is read as that rank.** -/
theorem ofDecimal_of_identifies (hf : 0 < f.fraction) (he : 0 < f.exponent) (hr : 0 < r)
    (hfinite : r < f.infinity) (h : f.Identifies r d) : f.ofDecimal d = r := by
  have hdigits := digits_ne_zero_of_identifies hf hr h
  have hlow := pow_length_repr_le hdigits
  have hhigh := lt_pow_length_repr d.digits
  have hlength : 0 < d.digits.repr.length := Nat.length_repr_pos
  -- by its number of digits alone it is within the range of the format
  have hbelow :
      d.digits.repr.length - 1 + d.exponent.toNat < f.topExponent + (-d.exponent).toNat := by
    refine (Nat.pow_lt_pow_iff_right (a := 10) (by decide)).1 ?_
    rw [Nat.pow_add, Nat.pow_add]
    exact lt_of_le_of_lt (Nat.mul_le_mul_right _ hlow) (num_lt_of_identifies hf he hfinite h)
  have habove : (-d.exponent).toNat < d.digits.repr.length + d.exponent.toNat +
      (f.bias + f.fraction) := by
    refine (Nat.pow_lt_pow_iff_right (a := 10) (by decide)).1 ?_
    rw [Nat.pow_add, Nat.pow_add]
    calc d.den ≤ d.num * 2 ^ (f.bias + f.fraction) := den_le_of_identifies hf hr h
      _ ≤ d.num * 10 ^ (f.bias + f.fraction) :=
          Nat.mul_le_mul_left _ (Nat.pow_le_pow_left (by decide) _)
      _ < 10 ^ d.digits.repr.length * 10 ^ d.exponent.toNat * 10 ^ (f.bias + f.fraction) :=
          Nat.mul_lt_mul_of_pos_right (Nat.mul_lt_mul_of_pos_right hhigh (Nat.pow_pos (by decide)))
            (Nat.pow_pos (by decide))
  have htop : ¬ (f.topExponent : Int) < d.digits.repr.length + d.exponent := by omega
  have hbottom : ¬ (d.digits.repr.length + d.exponent : Int) < -(f.bias + f.fraction : Int) := by
    omega
  simp only [ofDecimal, if_neg hdigits, if_neg htop, if_neg hbottom]
  exact round_eq_of_isNearest hf d.den_pos hfinite h

/-- A decimal that is read as a finite rank other than zero identifies it. -/
theorem identifies_of_ofDecimal (hf : 0 < f.fraction) (hr : 0 < r) (hfinite : r < f.infinity)
    (h : f.ofDecimal d = r) : f.Identifies r d := by
  simp only [ofDecimal] at h
  split_ifs at h with hdigits htop hbottom
  · omega
  · omega
  · omega
  · have hround : f.round d.num d.den = r := h
    refine ⟨fun hs => ?_, fun hpasses => ?_⟩
    · rw [← hround, lt_round_iff hf d.den_pos] at hs
      exact hs.2
    · have hlt := (lt_round_iff hf d.den_pos).2 ⟨hfinite, hpasses⟩
      omega

/-! ## Shortness -/

/-- A decimal is read as a rank, and no decimal with fewer digits is. -/
structure IsShortest (f : Format) (r : Nat) (d : Decimal) : Prop where
  reads : f.ofDecimal d = r
  length_le {d' : Decimal} : f.ofDecimal d' = r → d.digits.repr.length ≤ d'.digits.repr.length

section
variable (hf : 0 < f.fraction) (he : 0 < f.exponent) (hr : 0 < r) (hfinite : r < f.infinity)
include hf he hr hfinite

/-- No decimal on a coarser grid than the shortest one identifies the rank. -/
theorem exponent_le_of_identifies (h : f.Identifies r d) :
    d.exponent ≤ (f.shortest r).exponent := by
  by_contra hlt
  obtain ⟨-, hnone⟩ := onGrid?_shortest (f := f) hr
  rcases lt_or_ge (f.topExponent : Int) d.exponent with htop | htop
  · -- beyond the first grid there is nothing but zero
    have hdigits := Nat.pos_of_ne_zero (digits_ne_zero_of_identifies hf hr h)
    have hden : d.den = 1 := by
      rw [Decimal.den, show (-d.exponent).toNat = 0 by omega, Nat.pow_zero]
    have hnum := num_lt_of_identifies hf he hfinite h
    rw [hden, Nat.mul_one] at hnum
    have hpower : 10 ^ f.topExponent ≤ 10 ^ d.exponent.toNat :=
      Nat.pow_le_pow_right (by decide) (by omega)
    exact absurd hnum (not_lt.2 (hpower.trans (Nat.le_mul_of_pos_left _ hdigits)))
  · exact not_identifies_of_onGrid? hr (hnone _ (not_le.1 hlt) htop) d.digits h

/-- **No decimal with fewer digits than the shortest one identifies the rank.** -/
theorem length_shortest_le (h : f.Identifies r d) :
    (f.shortest r).digits.repr.length ≤ d.digits.repr.length := by
  have hs := identifies_shortest (f := f) hr
  by_contra hlt
  have hpos : 0 < d.digits.repr.length := Nat.length_repr_pos
  set l := (f.shortest r).digits.repr.length - 1 with hl
  have hlow : 10 ^ l ≤ (f.shortest r).digits :=
    pow_length_repr_le (digits_ne_zero_of_identifies hf hr hs)
  have hhigh : d.digits < 10 ^ l :=
    lt_of_lt_of_le (lt_pow_length_repr _) (Nat.pow_le_pow_right (by decide) (by omega))
  -- the power of ten between the two is on a coarser grid
  let p : Decimal := ⟨1, (f.shortest r).exponent + l⟩
  have hexponent := exponent_le_of_identifies hf he hr hfinite h
  obtain ⟨m, hd, hp⟩ := d.exists_common p (show d.exponent ≤ _ + _ by omega)
  obtain ⟨n, hs', hp'⟩ := (f.shortest r).exists_common p (show _ ≤ _ + _ by omega)
  have hbetween : f.Identifies r p := by
    refine h.between hs ?_ ?_
    · rw [hd, hp, Nat.one_mul]
      refine Nat.mul_le_mul_right _ (hhigh.le.trans (Nat.pow_le_pow_right (by decide) ?_))
      show l ≤ ((f.shortest r).exponent + l - d.exponent).toNat
      omega
    · rw [hs', hp', Nat.one_mul]
      refine Nat.mul_le_mul_right _ (le_trans (Nat.pow_le_pow_right (by decide) ?_) hlow)
      show ((f.shortest r).exponent + l - (f.shortest r).exponent).toNat ≤ l
      omega
  have hcoarse : (f.shortest r).exponent + l ≤ (f.shortest r).exponent :=
    exponent_le_of_identifies hf he hr hfinite hbetween
  omega

/-- **The shortest decimal is the shortest** of those that are read as the
    rank. -/
theorem isShortest_shortest : f.IsShortest r (f.shortest r) where
  reads := ofDecimal_of_identifies hf he hr hfinite (identifies_shortest hr)
  length_le h := length_shortest_le hf he hr hfinite (identifies_of_ofDecimal hf hr hfinite h)

end

end Format

end TypedStore
