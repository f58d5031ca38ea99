/-
  TypedStore — floating-point texts, read back.

  A decimal is written without exponent: as a whole number, or with a point.
  What is read of that is the decimal itself or, of a whole number, the one that
  has all its zeros as digits; both stand for the same fraction.

  * `Positional`: the texts in positional notation and the decimals that they
    stand for, and `Positional.readRank` what is read of them;
  * `positional_chars`: a decimal is written so;
  * `readRank_magnitudeChars`: the text of a magnitude is read as its rank;
  * `FloatLiteral.read_text`: the text of a number is read as that number, with
    all its bits.
-/
import Mathlib
import TypedStore.Proofs.Letters
import TypedStore.Proofs.Numerals
import TypedStore.Proofs.Shortest

namespace TypedStore

namespace FloatLiteral

open Numeral (IsDigits)

variable {digits places rest cs : List Char} {d : Decimal}

/-! ## Digits and a point -/

theorem splitDigits_append (h : IsDigits digits) (hrest : ∀ c ∈ rest.head?, c.isDigit = false) :
    splitDigits (digits ++ rest) = (digits, rest) := by
  have hdigits : ∀ c ∈ digits, (Numeral.digit? c).isSome = true := fun c hc => by
    rw [Numeral.isSome_digit?, h c hc]
  rw [splitDigits, List.takeWhile_append_of_pos hdigits, List.dropWhile_append_of_pos hdigits]
  cases rest with
  | nil => rw [List.takeWhile_nil, List.dropWhile_nil, List.append_nil]
  | cons c cs =>
    have hc : (Numeral.digit? c).isSome = false := by
      rw [Numeral.isSome_digit?, hrest c rfl]
    simp [hc]

theorem splitDigits_self (h : IsDigits digits) : splitDigits digits = (digits, []) := by
  have hsplit : splitDigits (digits ++ []) = (digits, []) := splitDigits_append h nofun
  rwa [List.append_nil] at hsplit

/-- The texts in positional notation, and the decimals that they stand for:
    digits, or digits on either side of a point. -/
inductive Positional : List Char → Decimal → Prop
  | whole {digits : List Char} : digits ≠ [] → IsDigits digits →
      Positional digits ⟨Nat.ofDigitChars 10 digits 0, 0⟩
  | point {digits places : List Char} : digits ≠ [] → IsDigits digits → IsDigits places →
      Positional (digits ++ '.' :: places)
        ⟨Nat.ofDigitChars 10 (digits ++ places) 0, -places.length⟩

/-- They are read as these decimals. -/
theorem Positional.readDecimal (h : Positional cs d) : readDecimal cs = some d := by
  cases h with
  | whole hne hdigits =>
    rw [FloatLiteral.readDecimal, splitDigits_self hdigits]
    simp [hne, Numeral.ofDigits_eq hdigits]
  | @point digits places hne hdigits hplaces =>
    have hall : IsDigits (digits ++ places) := List.forall_mem_append.2 ⟨hdigits, hplaces⟩
    have hpoint : ∀ c ∈ ('.' :: places).head?, c.isDigit = false := by
      rintro _ ⟨⟩
      rfl
    rw [FloatLiteral.readDecimal, splitDigits_append hdigits hpoint]
    simp [splitDigits_self hplaces, hne, Numeral.ofDigits_eq hall]

/-- They begin with a digit. -/
theorem Positional.exists_digit (h : Positional cs d) :
    ∃ c rest, cs = c :: rest ∧ c.isDigit = true := by
  cases h with
  | @whole digits hne hdigits | @point digits _ hne hdigits =>
    obtain ⟨c, rest, rfl⟩ := List.exists_cons_of_ne_nil hne
    exact ⟨c, _, rfl, hdigits c List.mem_cons_self⟩

/-- They are none of the words that are read otherwise. -/
theorem Positional.readRank {f : Format} (h : Positional cs d) :
    readRank f cs = some (f.ofDecimal d) := by
  obtain ⟨c, rest, hcs, hc⟩ := h.exists_digit
  have hlower : c.toLower = c := by
    have hdigit := Numeral.isDigit_iff.1 hc
    exact (toLower_eq_iff_of_not_letter (by omega)).2 rfl
  have hne {i : Char} {word : String} (hword : word.toList.head? = some i)
      (hi : i.isDigit = false) : String.ofList (cs.map Char.toLower) ≠ word := by
    rintro rfl
    rw [hcs, String.toList_ofList, List.map_cons, List.head?_cons, hlower] at hword
    rw [Option.some.inj hword, hi] at hc
    cases hc
  unfold FloatLiteral.readRank
  split
  · next hword => exact absurd hword (hne rfl rfl)
  · next hword => exact absurd hword (hne rfl rfl)
  · next hword => exact absurd hword (hne rfl rfl)
  · rw [h.readDecimal, Option.map_some]

end FloatLiteral

open FloatLiteral (Positional)
open Numeral (IsDigits isDigits_toDigits)

namespace Decimal

/-- The decimal that is read of the notation of a decimal. -/
def written (d : Decimal) : Decimal := if 0 ≤ d.exponent then ⟨d.num, 0⟩ else d

theorem num_written (d : Decimal) : d.written.num = d.num := by
  unfold written
  split_ifs
  · exact Nat.mul_one _
  · rfl

theorem den_written (d : Decimal) : d.written.den = d.den := by
  unfold written
  split_ifs with h
  · have hexponent : (-d.exponent).toNat = 0 := by omega
    rw [den, den, hexponent]
    rfl
  · rfl

/-- **A decimal is written in positional notation.** -/
theorem positional_chars (d : Decimal) : Positional d.chars d.written := by
  have hne : Nat.toDigits 10 d.digits ≠ [] := Nat.toDigits_ne_nil
  have hdigits := isDigits_toDigits d.digits
  have hvalue : Nat.ofDigitChars 10 (Nat.toDigits 10 d.digits) 0 = d.digits :=
    Nat.ofDigitChars_ten_toDigits
  have hzeros (n : Nat) : IsDigits (List.replicate n '0') := fun c hc => by
    rw [List.eq_of_mem_replicate hc]
    rfl
  unfold chars written
  simp only
  split_ifs with he hplaces
  · -- a whole number
    have h := Positional.whole (List.append_ne_nil_of_left_ne_nil hne _)
      (List.forall_mem_append.2 ⟨hdigits, hzeros d.exponent.toNat⟩)
    rwa [Nat.ofDigitChars_append, hvalue, Nat.ofDigitChars_replicate_zero, Nat.mul_comm] at h
  · -- with digits on either side of the point
    set whole := (Nat.toDigits 10 d.digits).length - (-d.exponent).toNat with hwhole
    have hsplit := List.take_append_drop whole (Nat.toDigits 10 d.digits)
    obtain ⟨htake, hdrop⟩ := List.forall_mem_append.1 (hsplit.symm ▸ hdigits)
    have hfront : (Nat.toDigits 10 d.digits).take whole ≠ [] := fun hnil =>
      (List.take_eq_nil_iff.1 hnil).elim (by omega) hne
    have hexponent : -(((Nat.toDigits 10 d.digits).length - whole : Nat) : Int) = d.exponent := by
      omega
    have h := Positional.point hfront htake hdrop
    rwa [hsplit, hvalue, List.length_drop, hexponent] at h
  · -- below one
    set zeros := (-d.exponent).toNat - (Nat.toDigits 10 d.digits).length with hcount
    have hall : IsDigits (List.replicate zeros '0' ++ Nat.toDigits 10 d.digits) :=
      List.forall_mem_append.2 ⟨hzeros _, hdigits⟩
    have hnone : Nat.ofDigitChars 10 ['0'] 0 = 0 := rfl
    have hexponent : -((zeros + (Nat.toDigits 10 d.digits).length : Nat) : Int) = d.exponent := by
      omega
    have h := Positional.point (List.cons_ne_nil '0' []) (hzeros 1) hall
    rwa [List.length_append, List.length_replicate, hexponent, Nat.ofDigitChars_append,
      Nat.ofDigitChars_append, hnone, Nat.ofDigitChars_replicate_zero, Nat.mul_zero, hvalue] at h

end Decimal

/-! ## Magnitudes and signs -/

namespace Format

variable {f : Format} {r w : Nat}

section
variable (hf : 0 < f.fraction) (he : 0 < f.exponent)
include hf he

/-- **The text of a magnitude is read as its rank.** -/
theorem readRank_magnitudeChars (hr : r ≤ f.infinity) :
    FloatLiteral.readRank f (f.magnitudeChars r) = some r := by
  unfold magnitudeChars
  split_ifs with hzero hinfinity
  · have hdigits : IsDigits ['0'] := isDigits_toDigits 0
    rw [(Positional.whole (List.cons_ne_nil _ _) hdigits).readRank, hzero]
    rfl
  · rw [hinfinity]
    rfl
  · have hpos := Nat.pos_of_ne_zero hzero
    have hidentifies : f.Identifies r (f.shortest r).written := by
      rw [Identifies, Decimal.num_written, Decimal.den_written]
      exact identifies_shortest hpos
    rw [(Decimal.positional_chars _).readRank,
      ofDecimal_of_identifies hf he hpos (lt_of_le_of_ne hr hinfinity) hidentifies]

end

/-- The text of a magnitude has no sign. -/
theorem exists_magnitudeChars (f : Format) (r : Nat) :
    ∃ c cs, f.magnitudeChars r = c :: cs ∧ c ≠ '-' ∧ c ≠ '+' := by
  unfold magnitudeChars
  split_ifs
  · exact ⟨'0', [], rfl, by decide, by decide⟩
  · exact ⟨'i', _, rfl, by decide, by decide⟩
  · obtain ⟨c, cs, hchars, hc⟩ := (Decimal.positional_chars (f.shortest r)).exists_digit
    refine ⟨c, cs, hchars, ?_, ?_⟩ <;> rintro rfl <;> cases hc

/-- The text of a pattern is read as that pattern. -/
theorem readWord_chars (hf : 0 < f.fraction) (he : 0 < f.exponent) (hw : w < 2 ^ f.bits)
    (hnumber : f.isNaN w = false) : FloatLiteral.readWord f (f.chars w) = some w := by
  have hr : f.rank w ≤ f.infinity := by simpa [isNaN] using hnumber
  have hread := readRank_magnitudeChars hf he hr
  have hword := word_rank hw
  have hchars : f.chars w = if f.negative w then '-' :: f.magnitudeChars (f.rank w)
      else f.magnitudeChars (f.rank w) := by
    rw [chars, if_neg (Bool.eq_false_iff.1 hnumber)]
  rw [hchars]
  split_ifs with hsign
  · rw [hsign] at hword
    rw [FloatLiteral.readWord, hread, Option.map_some, hword]
  · obtain ⟨c, cs, hcs, hminus, hplus⟩ := f.exists_magnitudeChars (f.rank w)
    rw [Bool.eq_false_iff.2 hsign] at hword
    rw [hcs] at hread ⊢
    unfold FloatLiteral.readWord
    split
    · next heq => exact absurd (List.cons.inj heq).1 hminus
    · next heq => exact absurd (List.cons.inj heq).1 hplus
    · rw [hread, Option.map_some, hword]

/-- The text of a finite pattern other than a zero is that of a shortest decimal,
    after a minus if the sign is set. -/
theorem exists_shortest_chars (hf : 0 < f.fraction) (he : 0 < f.exponent) (hpos : 0 < f.rank w)
    (hfinite : f.rank w < f.infinity) : ∃ d, f.IsShortest (f.rank w) d ∧
      f.chars w = (if f.negative w then ['-'] else []) ++ d.chars := by
  refine ⟨_, isShortest_shortest hf he hpos hfinite, ?_⟩
  have hnumber : ¬ f.isNaN w = true := by simpa [isNaN] using hfinite.le
  have hmagnitude : f.magnitudeChars (f.rank w) = (f.shortest (f.rank w)).chars := by
    rw [magnitudeChars, if_neg hpos.ne', if_neg hfinite.ne]
  rw [chars, if_neg hnumber, hmagnitude]
  split_ifs <;> rfl

theorem chars_ne_nil (f : Format) (w : Nat) : f.chars w ≠ [] := by
  obtain ⟨c, cs, hcs, -⟩ := f.exists_magnitudeChars (f.rank w)
  unfold chars
  split_ifs
  · nofun
  · nofun
  · rw [hcs]
    nofun

end Format

/-! ## Single and double precision -/

/-- **The text of a number is read as that number**, bit for bit. -/
theorem FloatLiteral.read_text {k : FloatKind} {w : k.Word} (hw : k.isNaN w = false) :
    read k (k.text w) = .ok w := by
  have hne : k.text w ≠ "" := by
    rw [FloatKind.text, Ne, String.ofList_eq_empty_iff]
    exact k.format.chars_ne_nil w.toNat
  have hread := Format.readWord_chars k.fraction_pos k.exponent_pos (FloatKind.toNat_lt w) hw
  rw [read, if_neg (by rwa [String.isEmpty_iff]), FloatKind.text, String.toList_ofList, hread]
  exact congrArg Except.ok (BitVec.ofNat_toNat k.bits w |>.trans (BitVec.setWidth_eq w))

end TypedStore
