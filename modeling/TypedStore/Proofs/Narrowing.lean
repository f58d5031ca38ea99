/-
  TypedStore — numbers that are read in the other precision.

  In double precision a number of single precision is read as itself.  In single
  precision a number of double precision is read as the nearest one, so that
  the order of numbers is kept.

  * `convertRank_le_convertRank`: conversion keeps the order of the ranks, and
    `FloatKind.number_convert_le` that of the numbers;
  * `FloatKind.number_convert`: widening keeps the number;
  * `FloatKind.NarrowsTo`: a number is rounded to single precision, as
    `FloatKind.narrowsTo_convert` says that it is;
  * `cross_reads_keep_the_number`: all this of what is read through a facade.
-/
import Mathlib
import TypedStore.Proofs.Coercion
import TypedStore.Proofs.Magnitudes

namespace TypedStore

/-! ## Ranks -/

namespace Format

variable {f g : Format} {r s : Nat}

theorem convertRank_of_lt (g : Format) (hr : r < f.infinity) :
    f.convertRank g r = g.round (f.units r) f.scale := by
  rw [convertRank, if_neg hr.ne, if_neg (Nat.not_lt.2 hr.le)]

theorem convertRank_infinity (f g : Format) : f.convertRank g f.infinity = g.infinity := if_pos rfl

theorem convertRank_zero (he : 0 < f.exponent) (hge : 0 < g.exponent) : f.convertRank g 0 = 0 := by
  rw [convertRank_of_lt g (infinity_pos he)]
  refine round_units (infinity_pos hge) f.scale_pos ?_
  rw [units_zero, units_zero, Nat.zero_mul, Nat.zero_mul]

/-- **Conversion keeps the order of the ranks.** -/
theorem convertRank_le_convertRank (hg : 0 < g.fraction) (hrs : r ≤ s) (hs : s ≤ f.infinity) :
    f.convertRank g r ≤ f.convertRank g s := by
  rcases hs.lt_or_eq with hlt | rfl
  · rw [convertRank_of_lt g (lt_of_le_of_lt hrs hlt), convertRank_of_lt g hlt]
    exact round_mono hg f.scale_pos f.scale_pos
      (Nat.mul_le_mul_right _ (f.strictMono_units.monotone hrs))
  · rw [convertRank_infinity]
    exact convertRank_le_infinity hrs g

end Format

/-! ## Patterns -/

namespace FloatKind

variable {k l : FloatKind} {v w : k.Word}

theorem negative_convert (l : FloatKind) (hw : k.isNaN w = false) :
    l.format.negative (k.convert l w).toNat = k.format.negative w.toNat := by
  have hr := Format.convertRank_le_infinity (rank_le_infinity hw) l.format
  rw [toNat_convert l hw, Format.convert,
    Format.negative_word (lt_of_le_of_lt hr l.format.infinity_lt)]

theorem rank_convert (l : FloatKind) (hw : k.isNaN w = false) :
    l.format.rank (k.convert l w).toNat =
      k.format.convertRank l.format (k.format.rank w.toNat) := by
  have hr := Format.convertRank_le_infinity (rank_le_infinity hw) l.format
  rw [toNat_convert l hw, Format.convert, Format.rank_word (lt_of_le_of_lt hr l.format.infinity_lt)]

/-- **Conversion keeps the order of numbers.** -/
theorem number_convert_le (l : FloatKind) (hv : k.isNaN v = false) (hw : k.isNaN w = false)
    (h : k.number v ≤ k.number w) : l.number (k.convert l v) ≤ l.number (k.convert l w) := by
  have hr := rank_le_infinity hv
  have hs := rank_le_infinity hw
  rw [number, number, Format.signed_le_signed_iff k.fraction_pos k.exponent_pos hr hs] at h
  rw [number, number, negative_convert l hv, negative_convert l hw, rank_convert l hv,
    rank_convert l hw, Format.signed_le_signed_iff l.fraction_pos l.exponent_pos
      (Format.convertRank_le_infinity hr _) (Format.convertRank_le_infinity hs _)]
  exact h.map (Format.convertRank_zero k.exponent_pos l.exponent_pos)
    (fun r s => Format.convertRank_le_convertRank l.fraction_pos) hr hs

/-! ## Widening -/

/-- Patterns that stand for one number have the same number. -/
theorem SameNumber.number_eq {w : k.Word} {x : l.Word} (h : SameNumber w x) :
    l.number x = k.number w := by
  obtain ⟨hsign, ⟨hw, hx⟩ | ⟨hw, hx, hunits⟩⟩ := h
  · rw [number_of_isInfinite hw, number_of_isInfinite hx, hsign]
  · have hscale : (k.format.scale : ℚ) ≠ 0 := by exact_mod_cast k.format.scale_pos.ne'
    have hscale' : (l.format.scale : ℚ) ≠ 0 := by exact_mod_cast l.format.scale_pos.ne'
    have hmagnitude : l.format.magnitude (l.format.rank x.toNat) =
        k.format.magnitude (k.format.rank w.toNat) := by
      rw [Format.magnitude_eq l.fraction_pos, Format.magnitude_eq k.fraction_pos,
        div_eq_div_iff hscale' hscale]
      exact_mod_cast hunits.symm
    rw [number_of_isFinite hw, number_of_isFinite hx, toRat, toRat, hmagnitude, hsign]

/-! ## Narrowing -/

/-- The last bit of a pattern is that of its rank. -/
theorem rank_mod_two (w : k.Word) : k.format.rank w.toNat % 2 = w.toNat % 2 := by
  have hbits : 2 ∣ 2 ^ (k.format.bits - 1) := dvd_pow_self 2 (by cases k <;> decide)
  exact Nat.mod_mod_of_dvd _ hbits

theorem abs_toRat (w : k.Word) : |k.toRat w| = k.format.magnitude (k.format.rank w.toNat) := by
  have hnonneg := Format.magnitude_nonneg k.fraction_pos (k.format.rank w.toNat)
  rw [toRat]
  split_ifs
  · rw [neg_one_mul, abs_neg, abs_of_nonneg hnonneg]
  · rw [one_mul, abs_of_nonneg hnonneg]

/-- The distance of numbers of one sign is that of their magnitudes. -/
theorem abs_toRat_sub {v : k.Word} {w : l.Word}
    (h : k.format.negative v.toNat = l.format.negative w.toNat) :
    |k.toRat v - l.toRat w| =
      |k.format.magnitude (k.format.rank v.toNat) -
        l.format.magnitude (l.format.rank w.toNat)| := by
  rw [toRat, toRat, h, ← mul_sub, abs_mul]
  split_ifs
  · rw [abs_neg, abs_one, one_mul]
  · rw [abs_one, one_mul]

/-- That of numbers of two signs is the sum of their magnitudes. -/
theorem abs_toRat_sub_of_ne {v : k.Word} {w : l.Word}
    (h : k.format.negative v.toNat ≠ l.format.negative w.toNat) : |k.toRat v - l.toRat w| =
      k.format.magnitude (k.format.rank v.toNat) + l.format.magnitude (l.format.rank w.toNat) := by
  have hv := Format.magnitude_nonneg k.fraction_pos (k.format.rank v.toNat)
  have hw := Format.magnitude_nonneg l.fraction_pos (l.format.rank w.toNat)
  rw [toRat, toRat, Bool.eq_not.2 h]
  cases l.format.negative w.toNat
  · rw [Bool.not_false, if_pos rfl, if_neg Bool.false_ne_true, abs_of_nonpos (by linarith)]
    ring
  · rw [Bool.not_true, if_neg Bool.false_ne_true, if_pos rfl, abs_of_nonneg (by linarith)]
    ring

theorem toRat_eq_zero_iff (w : k.Word) : k.toRat w = 0 ↔ k.format.rank w.toNat = 0 := by
  rw [← abs_eq_zero, abs_toRat, ← Format.magnitude_zero k.fraction_pos]
  exact (Format.strictMono_magnitude k.fraction_pos).injective.eq_iff

/-- A number of single precision is what one of double precision is rounded to:
    it has the sign, and no finite number is nearer; of two that are equally near
    it is the even one. -/
structure NarrowsTo (y : FloatKind.f64.Word) (z : FloatKind.f32.Word) : Prop where
  number : FloatKind.f32.isNaN z = false
  sign : FloatKind.f32.format.negative z.toNat = FloatKind.f64.format.negative y.toNat
  infinite : FloatKind.f32.IsInfinite z ↔
    FloatKind.f64.IsInfinite y ∨ 2 ^ 128 - 2 ^ 103 ≤ |FloatKind.f64.toRat y|
  zero : FloatKind.f64.IsFinite y →
    (FloatKind.f32.toRat z = 0 ↔ |FloatKind.f64.toRat y| ≤ 1 / 2 ^ 150)
  nearest {x} : FloatKind.f32.IsFinite z → FloatKind.f32.IsFinite x →
    |FloatKind.f32.toRat z - FloatKind.f64.toRat y| ≤
      |FloatKind.f32.toRat x - FloatKind.f64.toRat y|
  even {x} : FloatKind.f32.IsFinite z → FloatKind.f32.IsFinite x →
    FloatKind.f32.toRat x ≠ FloatKind.f32.toRat z →
    |FloatKind.f32.toRat z - FloatKind.f64.toRat y| =
      |FloatKind.f32.toRat x - FloatKind.f64.toRat y| → z.toNat % 2 = 0

/-- The greatest number of single precision and the next power of two. -/
theorem magnitude_top : FloatKind.f32.format.magnitude (FloatKind.f32.format.infinity - 1) +
    FloatKind.f32.format.magnitude FloatKind.f32.format.infinity = 2 * (2 ^ 128 - 2 ^ 103) := by
  norm_num [Format.magnitude, Format.infinity, Format.bias, FloatKind.format]

/-- The least number of single precision above zero. -/
theorem magnitude_one : FloatKind.f32.format.magnitude 1 = 2 * (1 / 2 ^ 150) := by
  norm_num [Format.magnitude, Format.bias, FloatKind.format]

section
variable {y : FloatKind.f64.Word} (hy : FloatKind.f64.isNaN y = false)
include hy

/-- What a finite number is converted to is its magnitude, rounded. -/
theorem rank_convert_of_isFinite (hfinite : FloatKind.f64.IsFinite y) :
    ∃ num den : Nat, 0 < den ∧ |FloatKind.f64.toRat y| = (num / den : ℚ) ∧
      FloatKind.f32.format.rank (FloatKind.f64.convert .f32 y).toNat =
        FloatKind.f32.format.round num den := by
  refine ⟨FloatKind.f64.format.units (FloatKind.f64.format.rank y.toNat), _,
    FloatKind.f64.format.scale_pos, ?_, ?_⟩
  · rw [abs_toRat, Format.magnitude_eq FloatKind.f64.fraction_pos]
  · rw [rank_convert .f32 hy, Format.convertRank_of_lt _ hfinite]

theorem isInfinite_convert_iff : FloatKind.f32.IsInfinite (FloatKind.f64.convert .f32 y) ↔
    FloatKind.f64.IsInfinite y ∨ 2 ^ 128 - 2 ^ 103 ≤ |FloatKind.f64.toRat y| := by
  rcases (rank_le_infinity hy).lt_or_eq with hfinite | hinfinite
  · obtain ⟨num, den, hden, habs, hrank⟩ := rank_convert_of_isFinite hy hfinite
    rw [IsInfinite, IsInfinite, or_iff_right hfinite.ne, hrank,
      Format.round_eq_infinity_iff FloatKind.f32.fraction_pos FloatKind.f32.exponent_pos hden,
      magnitude_top, habs, mul_le_mul_iff_of_pos_left two_pos]
  · refine iff_of_true ?_ (Or.inl hinfinite)
    rw [IsInfinite, rank_convert .f32 hy, hinfinite, Format.convertRank_infinity]

theorem isFinite_of_convert (h : FloatKind.f32.IsFinite (FloatKind.f64.convert .f32 y)) :
    FloatKind.f64.IsFinite y :=
  lt_of_le_of_ne (rank_le_infinity hy) fun hinfinite =>
    h.ne ((isInfinite_convert_iff hy).2 (Or.inl hinfinite))

/-- **No finite number is nearer.** -/
theorem abs_toRat_convert_sub_le {x : FloatKind.f32.Word}
    (h : FloatKind.f32.IsFinite (FloatKind.f64.convert .f32 y)) :
    |FloatKind.f32.toRat (FloatKind.f64.convert .f32 y) - FloatKind.f64.toRat y| ≤
      |FloatKind.f32.toRat x - FloatKind.f64.toRat y| := by
  have hf := FloatKind.f32.fraction_pos
  obtain ⟨num, den, hden, habs, hrank⟩ := rank_convert_of_isFinite hy (isFinite_of_convert hy h)
  rw [IsFinite, hrank] at h
  rw [abs_toRat] at habs
  rw [abs_toRat_sub (negative_convert .f32 hy), hrank, habs]
  by_cases hsign : FloatKind.f32.format.negative x.toNat = FloatKind.f64.format.negative y.toNat
  · rw [abs_toRat_sub hsign, habs]
    exact Format.abs_magnitude_round_sub_le hf hden h _
  · -- with the other sign zero is nearer
    have hx := Format.magnitude_nonneg hf (FloatKind.f32.format.rank x.toNat)
    rw [abs_toRat_sub_of_ne hsign, habs]
    exact (Format.abs_magnitude_round_sub_le_self hf hden h).trans (le_add_of_nonneg_left hx)

/-- **Of two that are equally near the even one is taken.** -/
theorem even_convert_of_tie {x : FloatKind.f32.Word}
    (h : FloatKind.f32.IsFinite (FloatKind.f64.convert .f32 y))
    (hne : FloatKind.f32.toRat x ≠ FloatKind.f32.toRat (FloatKind.f64.convert .f32 y))
    (htie : |FloatKind.f32.toRat (FloatKind.f64.convert .f32 y) - FloatKind.f64.toRat y| =
      |FloatKind.f32.toRat x - FloatKind.f64.toRat y|) :
    (FloatKind.f64.convert .f32 y).toNat % 2 = 0 := by
  have hf := FloatKind.f32.fraction_pos
  have hconvert := negative_convert .f32 hy
  obtain ⟨num, den, hden, habs, hrank⟩ := rank_convert_of_isFinite hy (isFinite_of_convert hy h)
  rw [IsFinite, hrank] at h
  rw [abs_toRat] at habs
  rw [abs_toRat_sub hconvert, hrank, habs] at htie
  rw [← rank_mod_two, hrank]
  by_cases hsign : FloatKind.f32.format.negative x.toNat = FloatKind.f64.format.negative y.toNat
  · rw [abs_toRat_sub hsign, habs] at htie
    have hother : FloatKind.f32.format.rank x.toNat ≠ FloatKind.f32.format.round num den := by
      intro hsame
      exact hne (by rw [toRat, toRat, hsign, hconvert, hsame, hrank])
    exact Format.even_of_tie hf hden h hother htie
  · -- with the other sign only zero is as near, and it has both
    have hzero := Format.abs_magnitude_round_sub_le_self hf hden h
    have hx := Format.magnitude_nonneg hf (FloatKind.f32.format.rank x.toNat)
    rw [abs_toRat_sub_of_ne hsign, habs] at htie
    rw [htie, add_le_iff_nonpos_left] at hzero
    have hxzero := le_antisymm hzero hx
    have hother : 0 ≠ FloatKind.f32.format.round num den := by
      intro hsame
      rw [← abs_toRat, abs_eq_zero] at hxzero
      rw [hxzero, ne_comm, Ne, toRat_eq_zero_iff, hrank] at hne
      exact hne hsame.symm
    refine Format.even_of_tie hf hden h hother ?_
    rw [htie, Format.abs_magnitude_zero_sub hf, hxzero, zero_add]

/-- **A number is rounded to single precision.** -/
theorem narrowsTo_convert : NarrowsTo y (FloatKind.f64.convert .f32 y) where
  number := isNaN_convert .f32 hy
  sign := negative_convert .f32 hy
  infinite := isInfinite_convert_iff hy
  zero hfinite := by
    obtain ⟨num, den, hden, habs, hrank⟩ := rank_convert_of_isFinite hy hfinite
    rw [toRat_eq_zero_iff, hrank, habs,
      Format.round_eq_zero_iff FloatKind.f32.fraction_pos FloatKind.f32.exponent_pos hden,
      magnitude_one, mul_le_mul_iff_of_pos_left two_pos]
  nearest h _ := abs_toRat_convert_sub_le hy h
  even h _ hne htie := even_convert_of_tie hy h hne htie

end

end FloatKind

/-! ## Through a facade -/

/-- **Reads in the other precision keep the number.**  On every engine and under
    every key that takes it, a number of single precision that was set is read in
    double precision as the same number: the same rational, infinity of the same
    sign, or zero of the same sign.

    A number of double precision that was set is read in single precision, and
    never as a NaN.  What is read has its sign and is the nearest number, the
    even one if two are equally near; it is infinite if the number is, or from
    the middle between the greatest number of single precision and the next power
    of two on, and zero up to half the least number above zero.  So of two
    numbers, set wherever, the lower one is not read as the greater. -/
theorem cross_reads_keep_the_number (handle : Handle) (key : String) (h t : Host) :
    (∀ x : FloatKind.f32.Word, FloatKind.f32.isNaN x = false →
      (Facade.ofBackend handle.backend).set key ((NativeType.float .f32).write x) h = .ok t →
      ∃ z, (Facade.ofBackend handle.backend).get key (.float .f64) t = .ok z ∧
        FloatKind.f64.isNaN z = false ∧
        FloatKind.f64.format.negative z.toNat = FloatKind.f32.format.negative x.toNat ∧
        FloatKind.f64.number z = FloatKind.f32.number x) ∧
    ∀ y : FloatKind.f64.Word, FloatKind.f64.isNaN y = false →
      (Facade.ofBackend handle.backend).set key ((NativeType.float .f64).write y) h = .ok t →
      ∃ z, (Facade.ofBackend handle.backend).get key (.float .f32) t = .ok z ∧
        FloatKind.NarrowsTo y z ∧
        ∀ (handle' : Handle) (key' : String) (h' t' : Host) (y' : FloatKind.f64.Word),
          FloatKind.f64.isNaN y' = false →
          (Facade.ofBackend handle'.backend).set key' ((NativeType.float .f64).write y') h' =
            .ok t' →
          ∀ z', (Facade.ofBackend handle'.backend).get key' (.float .f32) t' = .ok z' →
            FloatKind.f64.number y ≤ FloatKind.f64.number y' →
              FloatKind.f32.number z ≤ FloatKind.f32.number z' := by
  have hne : FloatKind.f32 ≠ .f64 := nofun
  refine ⟨fun x hx hset => ?_, fun y hy hset => ?_⟩
  · exact ⟨_, Handle.get_float_of_set hx (NativeType.read_float_of_ne hne x) hset,
      FloatKind.isNaN_convert .f64 hx, FloatKind.negative_convert .f64 hx,
      (FloatKind.sameNumber_convert hx).number_eq⟩
  · refine ⟨_, Handle.get_float_of_set hy (NativeType.read_float_of_ne hne.symm y) hset,
      FloatKind.narrowsTo_convert hy, fun handle' key' h' t' y' hy' hset' z' hget => ?_⟩
    have hread := Handle.get_float_of_set hy' (NativeType.read_float_of_ne hne.symm y') hset'
    obtain rfl := Except.ok.inj (hread.symm.trans hget)
    exact FloatKind.number_convert_le .f32 hy hy'

/-- The least number of single precision is read as the number it is; and the
    middle between the greatest one and the next power of two is read as
    infinity, but not the number below it. -/
theorem cross_reads_keep_the_number_bounds :
    let db := Facade.ofBackend (Handle.store "bytes").backend
    let middle : FloatKind.f64.Word := 0x47EFFFFFF0000000#64
    (∃ t z, db.set "key" ((NativeType.float .f32).write 1#32) {} = .ok t ∧
      db.get "key" (.float .f64) t = .ok z ∧ FloatKind.f64.number z = FloatKind.f32.number 1#32) ∧
    ∃ t z t' z', db.set "key" ((NativeType.float .f64).write (middle - 1)) {} = .ok t ∧
      db.get "key" (.float .f32) t = .ok z ∧ ¬ FloatKind.f32.IsInfinite z ∧
      db.set "key" ((NativeType.float .f64).write middle) {} = .ok t' ∧
      db.get "key" (.float .f32) t' = .ok z' ∧ FloatKind.f32.IsInfinite z' ∧
      FloatKind.f32.number z ≤ FloatKind.f32.number z' := by
  intro db middle
  have hone : FloatKind.f32.isNaN 1#32 = false := by decide
  have hbelow : FloatKind.f64.isNaN (middle - 1) = false := by decide
  have hmiddle : FloatKind.f64.isNaN middle = false := by decide
  obtain ⟨z, hget, -, -, hsame⟩ :=
    (cross_reads_keep_the_number (.store "bytes") "key" {} _).1 1#32 hone rfl
  refine ⟨⟨_, z, rfl, hget, hsame⟩, ?_⟩
  obtain ⟨z, hget, hnarrows, hmono⟩ :=
    (cross_reads_keep_the_number (.store "bytes") "key" {} _).2 (middle - 1) hbelow rfl
  obtain ⟨z', hget', hnarrows', -⟩ :=
    (cross_reads_keep_the_number (.store "bytes") "key" {} _).2 middle hmiddle rfl
  have hrank : FloatKind.f64.format.rank middle.toNat = 0x47EFFFFFF0000000 := by decide
  have hrank' : FloatKind.f64.format.rank (middle - 1).toNat = 0x47EFFFFFEFFFFFFF := by decide
  have hle : FloatKind.f64.number (middle - 1) ≤ FloatKind.f64.number middle := by
    have hsign : FloatKind.f64.format.negative middle.toNat = false := by decide
    have hsign' : FloatKind.f64.format.negative (middle - 1).toNat = false := by decide
    have hbounds := FloatKind.rank_le_infinity hbelow
    have hbounds' := FloatKind.rank_le_infinity hmiddle
    rw [FloatKind.number, FloatKind.number, Format.signed_le_signed_iff
      FloatKind.f64.fraction_pos FloatKind.f64.exponent_pos hbounds hbounds', hsign, hsign', hrank,
      hrank']
    show 0x47EFFFFFEFFFFFFF ≤ 0x47EFFFFFF0000000
    decide
  refine ⟨_, z, _, z', rfl, hget, ?_, rfl, hget', ?_, hmono _ _ _ _ _ hmiddle rfl _ hget' hle⟩
  · have hfinite : ¬ FloatKind.f64.IsInfinite (middle - 1) := by
      rw [FloatKind.IsInfinite, hrank']
      decide
    rw [hnarrows.infinite, FloatKind.abs_toRat, hrank', or_iff_right hfinite]
    norm_num [Format.magnitude, Format.bias, FloatKind.format]
  · refine hnarrows'.infinite.2 (Or.inr ?_)
    rw [FloatKind.abs_toRat, hrank]
    norm_num [Format.magnitude, Format.bias, FloatKind.format]

end TypedStore
