/-
  TypedStore — the numbers of an integer type and its words.

  * `toInt_modEq`: what a word stands for is the word modulo the size of the type;
  * `holds_toInt`, `toInt_ofInt`: the numbers that a type has are those that its
    words stand for;
  * `ofInt_toInt`: a word is that of the number it stands for;
  * `holds_of_between`: with a number a type has those between it and zero.
-/
import Mathlib.Data.Int.ModEq
import Mathlib.Tactic.Positivity
import TypedStore.Kind

namespace TypedStore.IntKind

variable {k : IntKind} {n m : Int}

theorem bits_pos (k : IntKind) : 0 < k.bits := by cases k <;> decide

theorem holds_iff : k.holds n = true ↔ k.least ≤ n ∧ n ≤ k.greatest := by
  rw [holds, Bool.and_eq_true, decide_eq_true_eq, decide_eq_true_eq]

theorem holds_iff_of_signed (h : k.signed = true) :
    k.holds n = true ↔ -2 ^ (k.bits - 1) ≤ n ∧ n < 2 ^ (k.bits - 1) := by
  have hpow : (Nat.pow 2 (k.bits - 1) : Int) = 2 ^ (k.bits - 1) := Nat.cast_pow 2 _
  rw [holds_iff, least, greatest, if_pos h, if_pos h, hpow, Int.le_sub_one_iff]

theorem holds_iff_of_not_signed (h : ¬ k.signed = true) :
    k.holds n = true ↔ 0 ≤ n ∧ n < 2 ^ k.bits := by
  have hpow : (Nat.pow 2 k.bits : Int) = 2 ^ k.bits := Nat.cast_pow 2 _
  rw [holds_iff, least, greatest, if_neg h, if_neg h, hpow, Int.le_sub_one_iff]

/-- With a number a type has those between it and zero. -/
theorem holds_of_between (h : k.holds n = true) (hm : 0 ≤ m ∧ m ≤ n ∨ n ≤ m ∧ m ≤ 0) :
    k.holds m = true := by
  by_cases hk : k.signed = true
  · rw [holds_iff_of_signed hk] at h ⊢
    have hpos : (0 : Int) < 2 ^ (k.bits - 1) := by positivity
    omega
  · rw [holds_iff_of_not_signed hk] at h ⊢
    omega

/-- A number of a type is its word modulo the size of the type. -/
theorem toInt_modEq (k : IntKind) (w : k.Word) : k.toInt w ≡ w.toNat [ZMOD 2 ^ k.bits] := by
  unfold toInt
  split_ifs
  · rw [Int.ModEq, BitVec.toInt_eq_toNat_bmod]
    exact_mod_cast Int.bmod_emod
  · rfl

/-- What a word stands for is a number of the type. -/
theorem holds_toInt (k : IntKind) (w : k.Word) : k.holds (k.toInt w) = true := by
  by_cases hk : k.signed = true
  · rw [holds_iff_of_signed hk, toInt, if_pos hk]
    exact ⟨BitVec.le_toInt w, BitVec.toInt_lt⟩
  · rw [holds_iff_of_not_signed hk, toInt, if_neg hk]
    exact ⟨Int.natCast_nonneg _, by exact_mod_cast w.isLt⟩

/-- A number of the type is what its word stands for. -/
theorem toInt_ofInt (h : k.holds n = true) : k.toInt (k.ofInt n) = n := by
  by_cases hk : k.signed = true
  · obtain ⟨hlow, hhigh⟩ := (holds_iff_of_signed hk).1 h
    rw [toInt, if_pos hk]
    exact BitVec.toInt_ofInt_eq_self k.bits_pos hlow hhigh
  · obtain ⟨hlow, hhigh⟩ := (holds_iff_of_not_signed hk).1 h
    rw [toInt, if_neg hk, ofInt, BitVec.toNat_ofInt]
    push_cast
    rw [Int.emod_eq_of_lt hlow hhigh, Int.toNat_of_nonneg hlow]

/-- A word is that of the number it stands for. -/
theorem ofInt_toInt (w : k.Word) : k.ofInt (k.toInt w) = w := by
  by_cases hk : k.signed = true
  · rw [toInt, if_pos hk]
    exact BitVec.ofInt_toInt
  · rw [toInt, if_neg hk, ofInt, BitVec.ofInt_natCast, BitVec.ofNat_toNat, BitVec.setWidth_eq]

end TypedStore.IntKind
