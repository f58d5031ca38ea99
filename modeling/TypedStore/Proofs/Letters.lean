/-
  TypedStore — the case of ASCII letters, by code points.

  * `toNat_toLower`: lowering a character adds to the code point of a capital
    letter and leaves all others alone;
  * `toLower_eq_iff_of_not_letter`: nothing but the character itself is lowered
    to a character that is no letter;
  * `toList_toLower`: a text is lowered character by character.
-/
import Mathlib.Order.Defs.LinearOrder
import Mathlib.Tactic.SplitIfs

namespace TypedStore

theorem isUpper_iff {c : Char} : c.isUpper = true ↔ 65 ≤ c.toNat ∧ c.toNat ≤ 90 :=
  decide_eq_true_iff.trans (and_congr UInt32.le_iff_toNat_le UInt32.le_iff_toNat_le)

theorem toNat_toLower (c : Char) :
    c.toLower.toNat = if c.isUpper then c.toNat + 32 else c.toNat := by
  have hcase : c.isUpper = true ↔ c.val ≥ 'A'.val ∧ c.val ≤ 'Z'.val := decide_eq_true_iff
  unfold Char.toLower
  split_ifs with h hc hc
  · have hle : c.val.toNat ≤ 90 := (isUpper_iff.1 hc).2
    show (c.val + 32).toNat = c.val.toNat + 32
    rw [UInt32.toNat_add]
    show (c.val.toNat + 32) % 2 ^ 32 = c.val.toNat + 32
    omega
  · exact absurd (hcase.2 h) hc
  · exact absurd (hcase.1 hc) h
  · rfl

theorem toLower_eq_iff_of_not_letter {c d : Char}
    (hd : ¬ (65 ≤ d.toNat ∧ d.toNat ≤ 90 ∨ 97 ≤ d.toNat ∧ d.toNat ≤ 122)) :
    c.toLower = d ↔ c = d := by
  rw [← Char.toNat_inj, ← Char.toNat_inj, toNat_toLower]
  split_ifs with hc
  · rw [isUpper_iff] at hc
    omega
  · rfl

theorem toList_toLower (s : String) : s.toLower.toList = s.toList.map Char.toLower :=
  String.toList_map

end TypedStore
