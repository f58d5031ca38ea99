/-
  TypedStore — well-formed text.

  A byte string is well-formed if it is a sequence of characters, each of them
  a first byte, a second byte from the range that goes with the first one, and
  further bytes; the ranges leave out overlong forms, surrogates and what is
  past the last code point.

  * `isWellFormed_iff`: the well-formed byte strings are those that encode a
    text, so that strict reading accepts them and no others;
  * `decodeLossy_toByteArray`: lossy reading loses nothing of them.
-/
import Mathlib.Data.List.TakeWhile
import TypedStore.Proofs.Image

namespace TypedStore.Utf8

/-! ## The grammar -/

/-- The bytes of one character. -/
inductive IsCharacter : List UInt8 → Prop where
  | single {lead : UInt8} : tails lead = some 0 → IsCharacter [lead]
  | more {lead second : UInt8} {rest : List UInt8} : tails lead = some (rest.length + 1) →
      isSecond lead second = true → (∀ b ∈ rest, isTail b = true) →
      IsCharacter (lead :: second :: rest)

/-- A sequence of characters. -/
inductive IsWellFormed : List UInt8 → Prop where
  | nil : IsWellFormed []
  | append {character rest : List UInt8} : IsCharacter character → IsWellFormed rest →
      IsWellFormed (character ++ rest)

/-! ## Ranges of bytes, as numbers -/

variable {lead b : UInt8}

theorem isTail_iff : isTail b = true ↔ 0x80 ≤ b.toNat ∧ b.toNat ≤ 0xBF := by
  simp [isTail, UInt8.le_iff_toNat_le]

theorem isSecond_iff : isSecond lead b = true ↔ 0x80 ≤ b.toNat ∧ b.toNat ≤ 0xBF ∧
    (lead.toNat = 0xE0 → 0xA0 ≤ b.toNat) ∧ (lead.toNat = 0xED → b.toNat ≤ 0x9F) ∧
    (lead.toNat = 0xF0 → 0x90 ≤ b.toNat) ∧ (lead.toNat = 0xF4 → b.toNat ≤ 0x8F) := by
  unfold isSecond
  split_ifs <;> simp_all [isTail_iff, UInt8.le_iff_toNat_le, ← UInt8.toNat_inj] <;> omega

theorem tails_eq_some_iff {n : Nat} : tails lead = some n ↔
    n = 0 ∧ lead.toNat < 0x80 ∨ n = 1 ∧ 0xC2 ≤ lead.toNat ∧ lead.toNat ≤ 0xDF ∨
      n = 2 ∧ 0xE0 ≤ lead.toNat ∧ lead.toNat ≤ 0xEF ∨
      n = 3 ∧ 0xF0 ≤ lead.toNat ∧ lead.toNat ≤ 0xF4 := by
  simp only [tails, UInt8.le_iff_toNat_le, UInt8.lt_iff_toNat_lt, Bool.and_eq_true,
    decide_eq_true_eq, UInt8.reduceToNat]
  split_ifs <;> simp <;> omega

/-! ## Characters and their bytes -/

/-- What encodes a character is the bytes of one. -/
theorem isCharacter_utf8EncodeChar (c : Char) : IsCharacter (String.utf8EncodeChar c) := by
  have hvalid : c.val.toNat < 0xD800 ∨ 0xDFFF < c.val.toNat ∧ c.val.toNat < 0x110000 := c.valid
  simp only [String.utf8EncodeChar]
  generalize c.val.toNat = v at hvalid ⊢
  split_ifs with hone htwo hthree
  · refine .single (tails_eq_some_iff.2 (Or.inl ⟨rfl, ?_⟩))
    rw [UInt8.toNat_ofNat']
    omega
  · refine .more (tails_eq_some_iff.2 (Or.inr (Or.inl ⟨rfl, ?_⟩))) (isSecond_iff.2 ?_) nofun
    · rw [UInt8.toNat_ofNat']; omega
    · simp only [UInt8.toNat_ofNat']; omega
  · refine .more (tails_eq_some_iff.2 (Or.inr (Or.inr (Or.inl ⟨rfl, ?_⟩)))) (isSecond_iff.2 ?_) ?_
    · rw [UInt8.toNat_ofNat']; omega
    · simp only [UInt8.toNat_ofNat']; omega
    · simp only [List.forall_mem_singleton, isTail_iff, UInt8.toNat_ofNat']; omega
  · refine .more (tails_eq_some_iff.2 (Or.inr (Or.inr (Or.inr ⟨rfl, ?_⟩)))) (isSecond_iff.2 ?_) ?_
    · rw [UInt8.toNat_ofNat']; omega
    · simp only [UInt8.toNat_ofNat']; omega
    · simp only [List.forall_mem_cons, isTail_iff, UInt8.toNat_ofNat']
      refine ⟨?_, ?_, nofun⟩ <;> omega

/-- The bytes of the character of a code point. -/
theorem utf8EncodeChar_ofNat {n : Nat} (h : n < 0xD800 ∨ 0xDFFF < n ∧ n < 0x110000) :
    String.utf8EncodeChar (Char.ofNat n) =
      if n ≤ 0x7F then [UInt8.ofNat n]
      else if n ≤ 0x7FF then [UInt8.ofNat (n / 64 % 32 + 192), UInt8.ofNat (n % 64 + 128)]
      else if n ≤ 0xFFFF then
        [UInt8.ofNat (n / 4096 % 16 + 224), UInt8.ofNat (n / 64 % 64 + 128),
          UInt8.ofNat (n % 64 + 128)]
      else
        [UInt8.ofNat (n / 262144 % 8 + 240), UInt8.ofNat (n / 4096 % 64 + 128),
          UInt8.ofNat (n / 64 % 64 + 128), UInt8.ofNat (n % 64 + 128)] := by
  have hchar : Char.ofNat n = Char.ofNatAux n h := dif_pos h
  have hval : (Char.ofNat n).val.toNat = n := by rw [hchar]; rfl
  simp only [String.utf8EncodeChar, hval]

/-- The bytes of a character encode the character of their code point. -/
theorem utf8EncodeChar_codePoint {lead : UInt8} {rest : List UInt8}
    (h : IsCharacter (lead :: rest)) :
    String.utf8EncodeChar (Char.ofNat (codePoint lead rest)) = lead :: rest := by
  have hbyte {m : Nat} {b : UInt8} (hm : m = b.toNat) : UInt8.ofNat m = b := by
    rw [hm, UInt8.ofNat_toNat]
  cases h with
  | single htails =>
    simp only [tails_eq_some_iff] at htails
    have hcode : codePoint lead [] = lead.toNat := rfl
    rw [hcode, utf8EncodeChar_ofNat (by omega), if_pos (by omega), UInt8.ofNat_toNat]
  | @more _ second rest htails hsecond hrest =>
    rw [isSecond_iff] at hsecond
    rw [tails_eq_some_iff] at htails
    -- a first byte asks for three more bytes at most
    rcases rest with _ | ⟨third, _ | ⟨fourth, _ | ⟨fifth, rest⟩⟩⟩
    · have hcode : codePoint lead [second] =
        (lead.toNat - 0xC0) * 64 + (second.toNat - 0x80) := rfl
      simp only [List.length_nil] at htails
      rw [hcode, utf8EncodeChar_ofNat (by omega), if_neg (by omega), if_pos (by omega),
        hbyte (b := lead) (by omega), hbyte (b := second) (by omega)]
    · have hcode : codePoint lead [second, third] = (lead.toNat - 0xE0) * 4096 +
        (second.toNat - 0x80) * 64 + (third.toNat - 0x80) := rfl
      have hthird := isTail_iff.1 (hrest third List.mem_cons_self)
      simp only [List.length_cons, List.length_nil] at htails
      rw [hcode, utf8EncodeChar_ofNat (by omega), if_neg (by omega), if_neg (by omega),
        if_pos (by omega), hbyte (b := lead) (by omega), hbyte (b := second) (by omega),
        hbyte (b := third) (by omega)]
    · have hcode : codePoint lead [second, third, fourth] = (lead.toNat - 0xF0) * 262144 +
        (second.toNat - 0x80) * 4096 + (third.toNat - 0x80) * 64 + (fourth.toNat - 0x80) := rfl
      have hthird := isTail_iff.1 (hrest third List.mem_cons_self)
      have hfourth := isTail_iff.1 (hrest fourth (List.mem_cons_of_mem _ List.mem_cons_self))
      simp only [List.length_cons, List.length_nil] at htails
      rw [hcode, utf8EncodeChar_ofNat (by omega), if_neg (by omega), if_neg (by omega),
        if_neg (by omega), hbyte (b := lead) (by omega), hbyte (b := second) (by omega),
        hbyte (b := third) (by omega), hbyte (b := fourth) (by omega)]
    · simp only [List.length_cons] at htails
      omega

/-- Two characters of the same bytes are one. -/
theorem utf8EncodeChar_inj {c d : Char} (h : String.utf8EncodeChar c = String.utf8EncodeChar d) :
    c = d := by
  have hdecode (c : Char) : ((String.utf8EncodeChar c).toByteArray ++ ByteArray.empty).utf8DecodeChar? 0 =
    some c := ByteArray.utf8DecodeChar?_utf8EncodeChar_append
  have hc := hdecode c
  rw [h, hdecode d] at hc
  exact (Option.some.inj hc).symm

/-! ## Strict reading -/

theorem toList_toByteArray (s : String) :
    s.toByteArray.data.toList = s.toList.flatMap String.utf8EncodeChar := by
  rw [← String.utf8Encode_toList, List.utf8Encode, List.data_toByteArray]

/-- A sequence of characters encodes a text. -/
theorem exists_chars_of_isWellFormed {bytes : List UInt8} (h : IsWellFormed bytes) :
    ∃ cs : List Char, cs.flatMap String.utf8EncodeChar = bytes := by
  induction h with
  | nil => exact ⟨[], rfl⟩
  | @append character rest hcharacter hrest ih =>
    obtain ⟨cs, rfl⟩ := ih
    cases character with
    | nil => nomatch hcharacter
    | cons lead more =>
      exact ⟨Char.ofNat (codePoint lead more) :: cs, by
        rw [List.flatMap_cons, utf8EncodeChar_codePoint hcharacter]⟩

theorem isWellFormed_flatMap (cs : List Char) : IsWellFormed (cs.flatMap String.utf8EncodeChar) := by
  induction cs with
  | nil => exact .nil
  | cons c cs ih => exact .append (isCharacter_utf8EncodeChar c) ih

/-- **The well-formed byte strings are those that encode a text.** -/
theorem isWellFormed_iff {bytes : ByteArray} :
    IsWellFormed bytes.data.toList ↔ ∃ s : String, s.toByteArray = bytes := by
  constructor
  · intro h
    obtain ⟨cs, hcs⟩ := exists_chars_of_isWellFormed h
    refine ⟨String.ofList cs, ?_⟩
    have hlist : (String.ofList cs).toByteArray.data.toList = bytes.data.toList := by
      rw [toList_toByteArray, String.toList_ofList, hcs]
    exact ByteArray.ext (Array.toList_inj.1 hlist)
  · rintro ⟨s, rfl⟩
    rw [toList_toByteArray]
    exact isWellFormed_flatMap s.toList

/-! ## Lossy reading -/

/-- The first character of well-formed bytes. -/
theorem first_append {lead : UInt8} {rest : List UInt8} (h : IsCharacter (lead :: rest))
    (more : List UInt8) :
    first lead (rest ++ more) = (Char.ofNat (codePoint lead rest), rest.length) := by
  cases h with
  | single htails =>
    have hcontinued : continued lead 0 more = 0 := by unfold continued; rfl
    simp only [first, htails, List.nil_append, hcontinued, if_true, List.take_zero,
      List.length_nil]
  | @more _ second rest htails hsecond hrest =>
    have htaken : ((rest ++ more).take rest.length).takeWhile isTail = rest := by
      rw [List.take_left]
      exact List.takeWhile_eq_self_iff.2 hrest
    have hcontinued : continued lead (rest.length + 1) (second :: (rest ++ more)) =
        rest.length + 1 := by
      rw [continued, if_pos hsecond, htaken, Nat.add_comm]
    have htake : (second :: (rest ++ more)).take (rest.length + 1) = second :: rest := by
      rw [List.take_succ_cons, List.take_left]
    simp only [first, htails, List.cons_append, hcontinued, if_true, htake, List.length_cons]

/-- A character is kept, and reading goes on after it. -/
theorem lossyChars_character (c : Char) (rest : List UInt8) :
    lossyChars (String.utf8EncodeChar c ++ rest) = c :: lossyChars rest := by
  have hcharacter := isCharacter_utf8EncodeChar c
  cases hbytes : String.utf8EncodeChar c with
  | nil =>
    rw [hbytes] at hcharacter
    cases hcharacter
  | cons lead body =>
    rw [hbytes] at hcharacter
    have hc : Char.ofNat (codePoint lead body) = c :=
      utf8EncodeChar_inj ((utf8EncodeChar_codePoint hcharacter).trans hbytes.symm)
    rw [List.cons_append, lossyChars, first_append hcharacter, hc, List.drop_left]

theorem lossyChars_flatMap (cs : List Char) :
    lossyChars (cs.flatMap String.utf8EncodeChar) = cs := by
  induction cs with
  | nil => rw [List.flatMap_nil, lossyChars]
  | cons c cs ih => rw [List.flatMap_cons, lossyChars_character, ih]

/-- Lossy reading loses nothing of a text. -/
theorem decodeLossy_toByteArray (s : String) : decodeLossy s.toByteArray = s := by
  rw [decodeLossy, toList_toByteArray, lossyChars_flatMap, String.ofList_toList]

end TypedStore.Utf8
