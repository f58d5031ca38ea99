/-
  TypedStore — the numerals of integers, read and written.

  * `digit?_eq_some_iff`, `ofDigits_eq`: digits are the decimal digits, and a
    list of them stands for its positional value;
  * `Spells`: the texts that spell a number;
  * `readChars_eq_ok_iff`: a text is read as a number exactly if it spells the
    number and the type has it, however many leading zeros there are;
  * `spells_write`: what is written of a number spells it.
-/
import Mathlib
import TypedStore.Proofs.Words
import TypedStore.Text.Numeral

namespace TypedStore.Numeral

/-! ## Digits -/

theorem isDigit_iff {c : Char} : c.isDigit = true ↔ 48 ≤ c.toNat ∧ c.toNat ≤ 57 := by
  rw [Char.isDigit, Bool.and_eq_true, decide_eq_true_eq, decide_eq_true_eq]
  rfl

theorem digit?_eq_some_iff {c : Char} {d : Nat} :
    digit? c = some d ↔ c.isDigit = true ∧ d = c.toNat - '0'.toNat := by
  have hdigit : c.isDigit = true ↔ '0' ≤ c ∧ c ≤ '9' := isDigit_iff
  unfold digit?
  rw [hdigit]
  split_ifs with h
  · rw [Option.some.injEq, eq_comm, and_iff_right h]
  · exact iff_of_false nofun fun hd => h hd.1

theorem isSome_digit? (c : Char) : (digit? c).isSome = c.isDigit := by
  rw [Bool.eq_iff_iff, Option.isSome_iff_exists]
  simp only [digit?_eq_some_iff, exists_and_left, exists_eq, and_true]

/-- A list of digits. -/
def IsDigits (cs : List Char) : Prop := ∀ c ∈ cs, c.isDigit = true

theorem isDigits_toDigits (n : Nat) : IsDigits (Nat.toDigits 10 n) := fun _ hc =>
  Nat.isDigit_of_mem_toDigits (by decide) le_rfl hc

/-- A list of digits stands for its positional value. -/
theorem ofDigits_eq {cs : List Char} (h : IsDigits cs) (acc : Nat) :
    ofDigits acc cs = Nat.ofDigitChars 10 cs acc := by
  induction cs generalizing acc with
  | nil => rfl
  | cons c cs ih =>
    obtain ⟨hc, hcs⟩ := List.forall_mem_cons.1 h
    rw [ofDigits, digit?_eq_some_iff.2 ⟨hc, rfl⟩, Option.getD_some, ih hcs, Nat.ofDigitChars_cons]

theorem le_ofDigitChars (cs : List Char) (acc : Nat) : acc ≤ Nat.ofDigitChars 10 cs acc := by
  induction cs generalizing acc with
  | nil => exact le_rfl
  | cons c cs ih =>
    rw [Nat.ofDigitChars_cons]
    exact le_trans (by omega) (ih _)

/-! ## Reading -/

/-- The texts that spell a number: digits, after a sign if there is one.  Only a
    signed type takes a minus. -/
inductive Spells (k : IntKind) : List Char → Int → Prop
  | plain {digits : List Char} : digits ≠ [] → IsDigits digits →
      Spells k digits (Nat.ofDigitChars 10 digits 0)
  | plus {digits : List Char} : digits ≠ [] → IsDigits digits →
      Spells k ('+' :: digits) (Nat.ofDigitChars 10 digits 0)
  | minus {digits : List Char} : k.signed = true → digits ≠ [] → IsDigits digits →
      Spells k ('-' :: digits) (-Nat.ofDigitChars 10 digits 0)

/-- A number of the given sign. -/
def withSign (negative : Bool) (n : Nat) : Int := if negative then -n else n

variable {k : IntKind} {n : Int}

/-- Digits are read as long as they last and the type has their number. -/
theorem readDigits_eq_ok_iff {negative : Bool} {acc : Nat} {cs : List Char}
    (hacc : k.holds (withSign negative acc) = true) :
    readDigits k negative (withSign negative acc) cs = .ok n ↔ IsDigits cs ∧
      withSign negative (Nat.ofDigitChars 10 cs acc) = n ∧ k.holds n = true := by
  induction cs generalizing acc with
  | nil =>
    rw [readDigits, Except.ok.injEq]
    constructor
    · rintro rfl
      exact ⟨List.forall_mem_nil _, rfl, hacc⟩
    · exact fun h => h.2.1
  | cons c cs ih =>
    rw [readDigits, IsDigits, List.forall_mem_cons, Nat.ofDigitChars_cons]
    cases hdigit : digit? c with
    | none =>
      refine iff_of_false nofun fun h => ?_
      rw [digit?_eq_some_iff.2 ⟨h.1.1, rfl⟩] at hdigit
      cases hdigit
    | some d =>
      obtain ⟨hc, hd⟩ := digit?_eq_some_iff.1 hdigit
      have hnext : (if negative = true then 10 * withSign negative acc - d
          else 10 * withSign negative acc + d) = withSign negative (10 * acc + d) := by
        cases negative
        · simp [withSign]
        · simp only [withSign, if_true]
          push_cast
          ring
      simp only [hnext, hc, true_and, ← hd]
      split_ifs with hholds
      · exact ih hholds
      · -- the number only moves away from zero
        refine iff_of_false nofun ?_
        rintro ⟨-, rfl, hn⟩
        have hle := le_ofDigitChars cs (10 * acc + d)
        refine hholds (IntKind.holds_of_between hn ?_)
        cases negative <;> simp only [withSign] <;> simp <;> omega

theorem readDigits_zero {negative : Bool} {cs : List Char} :
    readDigits k negative 0 cs = .ok n ↔ IsDigits cs ∧
      withSign negative (Nat.ofDigitChars 10 cs 0) = n ∧ k.holds n = true := by
  have hzero : withSign negative 0 = 0 := by cases negative <;> rfl
  have hholds : k.holds (withSign negative 0) = true := by
    rw [hzero]
    cases k <;> decide
  rw [← readDigits_eq_ok_iff hholds, hzero]

/-- **A text is read as a number exactly if it spells it and the type has it.** -/
theorem readChars_eq_ok_iff {cs : List Char} :
    readChars k cs = .ok n ↔ Spells k cs n ∧ k.holds n = true := by
  constructor
  · intro h
    unfold readChars at h
    split at h
    · cases h
    · cases h
    · cases h
    · next digits hne =>
      obtain ⟨hdigits, rfl, hn⟩ := readDigits_zero.1 h
      exact ⟨.plus hne hdigits, hn⟩
    · next digits hne =>
      split_ifs at h with hk
      obtain ⟨hdigits, rfl, hn⟩ := readDigits_zero.1 h
      exact ⟨.minus hk hne hdigits, hn⟩
    · next digits hne _ _ _ _ =>
      obtain ⟨hdigits, rfl, hn⟩ := readDigits_zero.1 h
      exact ⟨.plain hne hdigits, hn⟩
  · rintro ⟨hs, hn⟩
    cases hs with
    | plain hne hdigits =>
      have hread : readDigits k false 0 cs = .ok _ := readDigits_zero.2 ⟨hdigits, rfl, hn⟩
      unfold readChars
      split
      · exact absurd rfl hne
      · exact absurd (hdigits '+' (List.mem_cons_self ..)) (by decide)
      · exact absurd (hdigits '-' (List.mem_cons_self ..)) (by decide)
      · exact absurd (hdigits '+' (List.mem_cons_self ..)) (by decide)
      · exact absurd (hdigits '-' (List.mem_cons_self ..)) (by decide)
      · exact hread
    | @plus digits hne hdigits =>
      have hread : readDigits k false 0 digits = .ok _ := readDigits_zero.2 ⟨hdigits, rfl, hn⟩
      cases digits with
      | nil => exact absurd rfl hne
      | cons c cs => exact hread
    | @minus digits hk hne hdigits =>
      have hread : readDigits k true 0 digits = .ok _ := readDigits_zero.2 ⟨hdigits, rfl, hn⟩
      cases digits with
      | nil => exact absurd rfl hne
      | cons c cs => exact (if_pos hk).trans hread

/-! ## Writing -/

/-- What is written of a number spells it. -/
theorem spells_write (hn : k.holds n = true) : Spells k (write n).toList n := by
  have hne : Nat.toDigits 10 n.natAbs ≠ [] := Nat.toDigits_ne_nil
  have hdigits := isDigits_toDigits n.natAbs
  have hvalue : Nat.ofDigitChars 10 (Nat.toDigits 10 n.natAbs) 0 = n.natAbs :=
    Nat.ofDigitChars_ten_toDigits
  unfold write
  split_ifs with hneg
  · have hsigned : k.signed = true := by
      by_contra hk
      obtain ⟨hnonneg, -⟩ := (IntKind.holds_iff_of_not_signed hk).1 hn
      omega
    have hs := Spells.minus hsigned hne hdigits
    rw [hvalue, Int.ofNat_natAbs_of_nonpos hneg.le, neg_neg] at hs
    rw [String.toList_append, Nat.toList_repr]
    exact hs
  · have hs : Spells k _ _ := Spells.plain hne hdigits
    rw [hvalue, Int.natAbs_of_nonneg (not_lt.1 hneg)] at hs
    rwa [Nat.toList_repr]

end TypedStore.Numeral
