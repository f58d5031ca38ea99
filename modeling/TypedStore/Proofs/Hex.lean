/-
  TypedStore — hexadecimal text, read and written.

  * `value?_eq_some_iff`: the codes that are read as digits are those of the
    digits that are written, and of their capitals;
  * `decodeCodes_eq_ok_iff`: a text is read as a list of bytes exactly if its
    characters, in lower case, are the digits of the bytes;
  * `decode_eq_ok_iff`, `exists_decode_iff`: so it is for byte strings, and the
    texts that are read are those of digits in pairs;
  * `Block.ofHex?_eq_some_iff`, `Block.ofHex?_eq_none_iff`: so is a block, from
    the digits of as many bytes as it has.
-/
import Mathlib.Data.List.Induction
import TypedStore.Native.Block
import TypedStore.Proofs.Letters
import TypedStore.Proofs.Result
import TypedStore.Proofs.Utf8

namespace TypedStore

namespace Hex

variable {c : Char} {n : Nat}

/-! ## Digits -/

theorem toNat_digit (hn : n < 16) : (digit n).toNat = if n < 10 then 48 + n else 87 + n := by
  have hcode {m : Nat} (hm : m < 128) : (Char.ofNat m).toNat = m := by
    have hvalid : m.isValidChar := Or.inl (by omega)
    rw [Char.ofNat, dif_pos hvalid]
    rfl
  unfold digit
  split_ifs <;> exact hcode (by omega)

/-- A character that is a digit in lower case, by its code point. -/
theorem toLower_eq_digit_iff (hn : n < 16) : c.toLower = digit n ↔
    c.toNat = (if n < 10 then 48 + n else 87 + n) ∨ 10 ≤ n ∧ c.toNat = 55 + n := by
  rw [← Char.toNat_inj, toNat_toLower, toNat_digit hn]
  simp only [isUpper_iff]
  split_ifs <;> omega

theorem toLower_digit (hn : n < 16) : (digit n).toLower = digit n :=
  (toLower_eq_digit_iff hn).2 (Or.inl (toNat_digit hn))

/-- Capitals and small letters are read alike. -/
theorem value?_eq_some_iff {code v : UInt8} : value? code = some v ↔ v.toNat < 16 ∧
    (code.toNat = (if v.toNat < 10 then 48 + v.toNat else 87 + v.toNat) ∨
      10 ≤ v.toNat ∧ code.toNat = 55 + v.toNat) := by
  have hcode := code.toNat_lt
  have hv := v.toNat_lt
  simp only [value?, UInt8.le_iff_toNat_le]
  split_ifs <;>
    simp only [Option.some.injEq, ← UInt8.toNat_inj, UInt8.toNat_sub, UInt8.reduceToNat,
      false_iff] at * <;>
    omega

theorem lt_of_value? {code v : UInt8} (h : value? code = some v) : v.toNat < 16 :=
  (value?_eq_some_iff.1 h).1

/-- The first byte of a character is read as what the character stands for; if
    there are more bytes, as nothing. -/
theorem exists_first (c : Char) : ∃ first rest, String.utf8EncodeChar c = first :: rest ∧
    (rest ≠ [] → value? first = none) ∧
    ∀ n < 16, c.toLower = digit n ↔ value? first = some (UInt8.ofNat n) := by
  have hval : c.val.toNat = c.toNat := rfl
  have hvalid : c.toNat < 0xD800 ∨ 0xDFFF < c.toNat ∧ c.toNat < 0x110000 := c.valid
  have hword {m : Nat} (hm : m < 256) : (UInt8.ofNat m).toNat = m := by
    rw [UInt8.toNat_ofNat', Nat.mod_eq_of_lt hm]
  by_cases hc : c.toNat ≤ 127
  · have hbytes : String.utf8EncodeChar c = [UInt8.ofNat c.toNat] := by
      simp only [String.utf8EncodeChar, hval, if_pos hc]
    refine ⟨_, _, hbytes, fun h => absurd rfl h, fun n hn => ?_⟩
    have hcode : c.toNat < 256 := by omega
    have hdigit : n < 256 := by omega
    rw [value?_eq_some_iff, hword hcode, hword hdigit, toLower_eq_digit_iff hn]
    exact (and_iff_right hn).symm
  · -- no digit has a code above 127
    have hnone {first : UInt8} (hfirst : 128 ≤ first.toNat) : value? first = none := by
      refine Option.eq_none_iff_forall_ne_some.2 fun v hv => ?_
      rw [value?_eq_some_iff] at hv
      split_ifs at hv <;> omega
    obtain ⟨first, rest, hbytes, hfirst⟩ : ∃ first rest,
        String.utf8EncodeChar c = first :: rest ∧ 128 ≤ first.toNat := by
      simp only [String.utf8EncodeChar, hval, if_neg hc]
      split_ifs <;> refine ⟨_, _, rfl, ?_⟩ <;> rw [UInt8.toNat_ofNat'] <;> omega
    refine ⟨first, rest, hbytes, fun _ => hnone hfirst, fun n hn => iff_of_false ?_ ?_⟩
    · rw [toLower_eq_digit_iff hn]
      split_ifs <;> omega
    · rw [hnone hfirst]
      exact nofun

/-! ## Pairs of digits -/

theorem digits_cons (b : UInt8) (bs : List UInt8) :
    digits (b :: bs) = digit (b.toNat / 16) :: digit (b.toNat % 16) :: digits bs := rfl

theorem length_digits (bs : List UInt8) : (digits bs).length = 2 * bs.length := by
  induction bs with
  | nil => rfl
  | cons b bs ih =>
    rw [digits_cons, List.length_cons, List.length_cons, ih, List.length_cons]
    omega

/-- Every digit is that of a number below sixteen. -/
theorem exists_digit_of_mem {bs : List UInt8} (h : c ∈ digits bs) : ∃ n < 16, c = digit n := by
  obtain ⟨b, -, hc⟩ := List.mem_flatMap.1 h
  have hb := b.toNat_lt
  simp only [pair, List.mem_cons, List.not_mem_nil, or_false] at hc
  rcases hc with rfl | rfl
  · exact ⟨_, by omega, rfl⟩
  · exact ⟨_, by omega, rfl⟩

theorem map_toLower_digits (bs : List UInt8) : (digits bs).map Char.toLower = digits bs := by
  have hlower : ∀ c ∈ digits bs, c.toLower = c := by
    intro c hc
    obtain ⟨n, hn, rfl⟩ := exists_digit_of_mem hc
    exact toLower_digit hn
  rw [List.map_congr_left hlower, List.map_id']

theorem cons_cons_eq_digits_iff {c d : Char} {cs : List Char} {bs : List UInt8} :
    c :: d :: cs = digits bs ↔ ∃ b bs', b :: bs' = bs ∧ c = digit (b.toNat / 16) ∧
      d = digit (b.toNat % 16) ∧ cs = digits bs' := by
  constructor
  · intro h
    cases bs with
    | nil => cases h
    | cons b bs =>
      rw [digits_cons] at h
      cases h
      exact ⟨b, bs, rfl, rfl, rfl, rfl⟩
  · rintro ⟨b, bs', rfl, rfl, rfl, rfl⟩
    rfl

/-! ## Reading -/

/-- Two digits are those of one byte. -/
theorem pair_eq_iff {h l b : UInt8} (hh : h.toNat < 16) (hl : l.toNat < 16) : 16 * h + l = b ↔
    h = UInt8.ofNat (b.toNat / 16) ∧ l = UInt8.ofNat (b.toNat % 16) := by
  have hb := b.toNat_lt
  have h16 : (16 : UInt8).toNat = 16 := rfl
  simp only [← UInt8.toNat_inj, UInt8.toNat_add, UInt8.toNat_mul, h16, UInt8.toNat_ofNat']
  omega

theorem length_of_readPairs {position : Nat} {codes bs : List UInt8}
    (h : readPairs position codes = .ok bs) : codes.length = 2 * bs.length := by
  fun_induction readPairs position codes generalizing bs with
  | case1 => cases h; rfl
  | case2 | case3 | case4 => cases h
  | case5 position high low rest h' l' _ _ ih =>
    obtain ⟨bs', hbs', rfl⟩ := Except.map_eq_ok_iff.1 h
    rw [List.length_cons, List.length_cons, ih hbs', List.length_cons]
    omega

/-- A pair is read if both codes are those of digits. -/
theorem readPairs_cons_cons_iff {position : Nat} {high low : UInt8} {rest bs : List UInt8} :
    readPairs position (high :: low :: rest) = .ok bs ↔ ∃ b bs', b :: bs' = bs ∧
      value? high = some (UInt8.ofNat (b.toNat / 16)) ∧
      value? low = some (UInt8.ofNat (b.toNat % 16)) ∧
      readPairs (position + 2) rest = .ok bs' := by
  rw [readPairs]
  cases hhigh : value? high with
  | none =>
    refine iff_of_false nofun ?_
    rintro ⟨b, bs', -, h, -⟩
    cases h
  | some h =>
    cases hlow : value? low with
    | none =>
      refine iff_of_false nofun ?_
      rintro ⟨b, bs', -, -, h, -⟩
      cases h
    | some l =>
      have hpair {b : UInt8} := pair_eq_iff (b := b) (lt_of_value? hhigh) (lt_of_value? hlow)
      simp only [Except.map_eq_ok_iff, Option.some.injEq]
      constructor
      · rintro ⟨bs', hrest, rfl⟩
        obtain ⟨hh, hl⟩ := hpair.1 rfl
        exact ⟨_, bs', rfl, hh, hl, hrest⟩
      · rintro ⟨b, bs', rfl, hh, hl, hrest⟩
        exact ⟨bs', hrest, congrArg (· :: bs') (hpair.2 ⟨hh, hl⟩)⟩

/-- **Pairs of digits are read as the bytes whose digits they are**, whichever
    case their letters have. -/
theorem readPairs_eq_ok_iff (cs : List Char) (position : Nat) (bs : List UInt8) :
    readPairs position (cs.flatMap String.utf8EncodeChar) = .ok bs ↔
      cs.map Char.toLower = digits bs := by
  induction cs using List.twoStepInduction generalizing position bs with
  | nil =>
    cases bs with
    | nil => exact iff_of_true rfl rfl
    | cons b bs => exact iff_of_false nofun nofun
  | singleton c =>
    obtain ⟨first, rest, hbytes, hmore, -⟩ := exists_first c
    refine iff_of_false ?_ fun h => ?_
    · rw [List.flatMap_cons, List.flatMap_nil, List.append_nil, hbytes]
      cases rest with
      | nil => exact nofun
      | cons second rest =>
        rw [readPairs, hmore nofun]
        exact nofun
    · have hlength := congrArg List.length h
      rw [length_digits, List.length_map, List.length_singleton] at hlength
      omega
  | cons_cons c d cs ih _ =>
    obtain ⟨high, more, hhigh, hmore, hc⟩ := exists_first c
    obtain ⟨low, more', hlow, hmore', hd⟩ := exists_first d
    -- the digits of a byte are the first bytes of both characters
    have hdigits : (c :: d :: cs).map Char.toLower = digits bs ↔ ∃ b bs', b :: bs' = bs ∧
        value? high = some (UInt8.ofNat (b.toNat / 16)) ∧
        value? low = some (UInt8.ofNat (b.toNat % 16)) ∧ cs.map Char.toLower = digits bs' := by
      rw [List.map_cons, List.map_cons, cons_cons_eq_digits_iff]
      refine exists_congr fun b => exists_congr fun bs' => ?_
      have hb := b.toNat_lt
      rw [hc _ (by omega), hd _ (by omega)]
    rw [hdigits, List.flatMap_cons, List.flatMap_cons, hhigh, hlow]
    cases more with
    | cons second more =>
      rw [List.cons_append, List.cons_append, readPairs_cons_cons_iff, hmore nofun]
      simp
    | nil =>
      rw [List.cons_append, List.nil_append, List.cons_append, readPairs_cons_cons_iff]
      cases more' with
      | cons second more' =>
        rw [hmore' nofun]
        simp
      | nil => simp only [List.nil_append, ih]

/-- **A text is read as the bytes whose digits it is**, whichever case its
    letters have. -/
theorem decodeCodes_eq_ok_iff {text : String} {bs : List UInt8} :
    decodeCodes text.toByteArray.data.toList = .ok bs ↔
      text.toList.map Char.toLower = digits bs := by
  rw [Utf8.toList_toByteArray, ← readPairs_eq_ok_iff _ 0]
  unfold decodeCodes
  split_ifs with hodd
  · refine iff_of_false nofun fun h => ?_
    have hlength := length_of_readPairs h
    omega
  · rfl

/-- **A text is read as the byte string that is written as it**, up to case. -/
theorem decode_eq_ok_iff {text : String} {bytes : ByteArray} :
    decode text = .ok bytes ↔ text.toLower = encode bytes := by
  rw [← String.toList_inj, toList_toLower, encode, String.toList_ofList,
    ← decodeCodes_eq_ok_iff, decode, Except.map_eq_ok_iff]
  constructor
  · rintro ⟨bs, hbs, rfl⟩
    exact hbs
  · exact fun h => ⟨_, h, rfl⟩

/-- A digit of either case. -/
def IsDigit (c : Char) : Prop :=
  '0' ≤ c ∧ c ≤ '9' ∨ 'a' ≤ c ∧ c ≤ 'f' ∨ 'A' ≤ c ∧ c ≤ 'F'

theorem isDigit_iff : IsDigit c ↔ ∃ n < 16, c.toLower = digit n := by
  have hle (a b : Char) : a ≤ b ↔ a.toNat ≤ b.toNat := UInt32.le_iff_toNat_le
  simp only [IsDigit, hle, Char.reduceToNat]
  constructor
  · intro h
    refine ⟨if c.toNat ≤ 57 then c.toNat - 48 else if c.toNat ≤ 70 then c.toNat - 55
      else c.toNat - 87, ?_, (toLower_eq_digit_iff ?_).2 ?_⟩ <;> split_ifs <;> omega
  · rintro ⟨n, hn, h⟩
    rw [toLower_eq_digit_iff hn] at h
    split_ifs at h <;> omega

/-- Digits in pairs are those of some bytes. -/
theorem exists_digits_iff (cs : List Char) : (∃ bs, cs.map Char.toLower = digits bs) ↔
    cs.length % 2 = 0 ∧ ∀ c ∈ cs, IsDigit c := by
  constructor
  · rintro ⟨bs, hbs⟩
    have hlength := congrArg List.length hbs
    rw [length_digits, List.length_map] at hlength
    refine ⟨by omega, fun c hc => ?_⟩
    have hmem : c.toLower ∈ digits bs := hbs ▸ List.mem_map_of_mem hc
    exact isDigit_iff.2 (exists_digit_of_mem hmem)
  · rintro ⟨heven, hall⟩
    induction cs using List.twoStepInduction with
    | nil => exact ⟨[], rfl⟩
    | singleton c => cases heven
    | cons_cons c d cs ih _ =>
      rw [List.forall_mem_cons, List.forall_mem_cons] at hall
      obtain ⟨hc, hd, hcs⟩ := hall
      obtain ⟨high, hhigh, hc⟩ := isDigit_iff.1 hc
      obtain ⟨low, hlow, hd⟩ := isDigit_iff.1 hd
      rw [List.length_cons, List.length_cons] at heven
      obtain ⟨bs, hbs⟩ := ih (by omega) hcs
      have hbyte : (UInt8.ofNat (16 * high + low)).toNat = 16 * high + low := by
        rw [UInt8.toNat_ofNat', Nat.mod_eq_of_lt (by omega)]
      have hfirst : (16 * high + low) / 16 = high := by omega
      have hsecond : (16 * high + low) % 16 = low := by omega
      refine ⟨UInt8.ofNat (16 * high + low) :: bs, ?_⟩
      rw [digits_cons, hbyte, hfirst, hsecond, List.map_cons, List.map_cons, hc, hd, hbs]

/-- The texts that are read are those of digits in pairs. -/
theorem exists_decode_iff {text : String} :
    (∃ bytes, decode text = .ok bytes) ↔ text.length % 2 = 0 ∧ ∀ c ∈ text.toList, IsDigit c := by
  rw [← String.length_toList, ← exists_digits_iff]
  simp only [decode, Except.map_eq_ok_iff, decodeCodes_eq_ok_iff]
  constructor
  · rintro ⟨_, bs, hbs, -⟩
    exact ⟨bs, hbs⟩
  · rintro ⟨bs, hbs⟩
    exact ⟨_, bs, hbs, rfl⟩

end Hex

/-! ## Blocks -/

namespace Block

variable {n : Nat} {text : String}

theorem ofList?_eq_some_iff {bytes : List UInt8} {b : Block n} :
    ofList? bytes = some b ↔ bytes = b.bytes := by
  unfold ofList?
  constructor
  · intro h
    split_ifs at h
    cases h
    rfl
  · rintro rfl
    exact dif_pos b.length_eq

/-- A block is read from its digits. -/
theorem ofHex?_eq_some_iff {b : Block n} :
    ofHex? text = some b ↔ text.toList.map Char.toLower = Hex.digits b.bytes := by
  rw [← Hex.decodeCodes_eq_ok_iff]
  unfold ofHex?
  split
  · next bytes hbytes => rw [ofList?_eq_some_iff, hbytes, Except.ok.injEq]
  · next fault hfault => exact iff_of_false nofun (by rw [hfault]; exact nofun)

/-- A text is refused unless it is the digits of as many bytes as the block
    has. -/
theorem ofHex?_eq_none_iff : (ofHex? text : Option (Block n)) = none ↔
    ∀ bytes, text.toList.map Char.toLower = Hex.digits bytes → bytes.length ≠ n := by
  rw [Option.eq_none_iff_forall_ne_some]
  constructor
  · rintro h bytes hbytes rfl
    exact h ⟨bytes, rfl⟩ (ofHex?_eq_some_iff.2 hbytes)
  · intro h b hb
    exact h b.bytes (ofHex?_eq_some_iff.1 hb) b.length_eq

theorem ofHex?_hex (b : Block n) : ofHex? b.hex = some b := by
  rw [ofHex?_eq_some_iff, hex, String.toList_ofList, Hex.map_toLower_digits]

end Block

end TypedStore
