/-
  TypedStore — literals of values that are no floating-point numbers.

  * `Value.parse_int_iff`, `Value.parse_bool_iff`, `Value.parse_blob_iff`: the
    texts that are read as a value of a kind, and the value that they spell;
  * `Value.parse_print`: what is printed of a value is read as that value;
  * `literals_spell_their_values`: all this together.
-/
import Mathlib
import TypedStore.Literal
import TypedStore.Proofs.Hex
import TypedStore.Proofs.Numerals

namespace TypedStore

namespace Value

variable {v : Value} {s : String}

theorem parse_bool_iff :
    parse .bool s = .ok v ↔ s = "true" ∧ v = .bool true ∨ s = "false" ∧ v = .bool false := by
  have hne : "false" ≠ "true" := by decide
  rw [parse]
  constructor
  · intro h
    split_ifs at h with htrue hfalse <;> cases h
    · exact Or.inl ⟨htrue, rfl⟩
    · exact Or.inr ⟨hfalse, rfl⟩
  · rintro (⟨rfl, rfl⟩ | ⟨rfl, rfl⟩)
    · exact if_pos rfl
    · rw [if_neg hne, if_pos rfl]

/-- A text is read as an integer exactly if it spells a number of the type. -/
theorem parse_int_iff {k : IntKind} : parse (.int k) s = .ok v ↔
    ∃ n w, Numeral.Spells k s.toList n ∧ k.least ≤ n ∧ n ≤ k.greatest ∧ k.toInt w = n ∧
      v = .int k w := by
  have hread {n : Int} :
      Numeral.read k s = .ok n ↔ Numeral.Spells k s.toList n ∧ k.holds n = true :=
    Numeral.readChars_eq_ok_iff
  rw [parse]
  constructor
  · intro h
    split at h
    · next n hn =>
      cases h
      obtain ⟨hs, hholds⟩ := hread.1 hn
      obtain ⟨hleast, hgreatest⟩ := IntKind.holds_iff.1 hholds
      exact ⟨n, _, hs, hleast, hgreatest, IntKind.toInt_ofInt hholds, rfl⟩
    · cases h
  · rintro ⟨n, w, hs, hleast, hgreatest, rfl, rfl⟩
    rw [hread.2 ⟨hs, IntKind.holds_iff.2 ⟨hleast, hgreatest⟩⟩]
    exact congrArg (fun w => Except.ok (Value.int k w)) (IntKind.ofInt_toInt w)

/-- A text is read as the byte string that is printed as it, up to case. -/
theorem parse_blob_iff :
    parse .blob s = .ok v ↔ ∃ bytes, v = .blob bytes ∧ v.print = s.toLower := by
  have hprint (bytes : ByteArray) : (Value.blob bytes).print = Hex.encode bytes := rfl
  rw [parse]
  constructor
  · intro h
    split at h
    · next bytes hbytes =>
      cases h
      exact ⟨bytes, rfl, (Hex.decode_eq_ok_iff.1 hbytes).symm⟩
    · cases h
  · rintro ⟨bytes, rfl, hs⟩
    rw [hprint] at hs
    rw [Hex.decode_eq_ok_iff.2 hs.symm]

theorem exists_parse_blob_iff :
    (∃ v, parse .blob s = .ok v) ↔ s.length % 2 = 0 ∧ ∀ c ∈ s.toList, Hex.IsDigit c := by
  rw [← Hex.exists_decode_iff]
  simp only [parse_blob_iff, Hex.decode_eq_ok_iff]
  constructor
  · rintro ⟨_, bytes, rfl, hs⟩
    exact ⟨bytes, hs.symm⟩
  · rintro ⟨bytes, hs⟩
    exact ⟨_, bytes, rfl, hs.symm⟩

theorem toLower_encode (bytes : ByteArray) : (Hex.encode bytes).toLower = Hex.encode bytes := by
  rw [← String.toList_inj, toList_toLower, Hex.encode, String.toList_ofList,
    Hex.map_toLower_digits]

/-- **What is printed of a value is read as that value.** -/
theorem parse_print (hnull : v ≠ .null) (hfloat : v.kind.isFloat = false) :
    parse v.kind v.print = .ok v := by
  cases v with
  | null => exact absurd rfl hnull
  | bool b =>
    refine parse_bool_iff.2 ?_
    cases b
    · exact Or.inr ⟨rfl, rfl⟩
    · exact Or.inl ⟨rfl, rfl⟩
  | int k w =>
    have hholds := k.holds_toInt w
    obtain ⟨hleast, hgreatest⟩ := IntKind.holds_iff.1 hholds
    exact parse_int_iff.2 ⟨_, w, Numeral.spells_write hholds, hleast, hgreatest, rfl, rfl⟩
  | float k w => cases hfloat
  | text s => rfl
  | blob bytes => exact parse_blob_iff.2 ⟨bytes, rfl, (toLower_encode bytes).symm⟩

end Value

/-- **Literals spell their values.**  What is printed of a value that is not null
    and no floating-point number is read, as the kind of the value, as that
    value.

    A text is read as an integer exactly if it spells a number in the range of
    the type: digits, as many as one likes, after a plus, or after a minus if the
    type is signed, or after neither.  It is read as a boolean if it is one of
    two words, and as bytes if it is hexadecimal digits of either case in pairs,
    which in lower case are what is printed of the bytes; as a text it is always
    read, as itself.  What is printed of an integer that was read is read as the
    same integer. -/
theorem literals_spell_their_values :
    (∀ v : Value, v ≠ .null → v.kind.isFloat = false → Value.parse v.kind v.print = .ok v) ∧
    ∀ s v, (∀ k, Value.parse (.int k) s = .ok v ↔
        ∃ n w, Numeral.Spells k s.toList n ∧ k.least ≤ n ∧ n ≤ k.greatest ∧ k.toInt w = n ∧
          v = .int k w) ∧
      (Value.parse .bool s = .ok v ↔ s = "true" ∧ v = .bool true ∨ s = "false" ∧ v = .bool false) ∧
      ((∃ u, Value.parse .blob s = .ok u) ↔ s.length % 2 = 0 ∧ ∀ c ∈ s.toList, Hex.IsDigit c) ∧
      (Value.parse .blob s = .ok v ↔ ∃ bytes, v = .blob bytes ∧ v.print = s.toLower) ∧
      (Value.parse .text s = .ok v ↔ v = .text s) ∧
      ∀ k, Value.parse (.int k) s = .ok v → Value.parse (.int k) v.print = .ok v := by
  refine ⟨fun v => Value.parse_print, fun s v => ⟨fun k => Value.parse_int_iff,
    Value.parse_bool_iff, Value.exists_parse_blob_iff, Value.parse_blob_iff, ?_, fun k h => ?_⟩⟩
  · rw [Value.parse, Except.ok.injEq, eq_comm]
  · obtain ⟨n, w, -, -, -, -, rfl⟩ := Value.parse_int_iff.1 h
    exact Value.parse_print (v := .int k w) nofun rfl

/-- The least number of a signed byte, with its sign and a leading zero. -/
theorem literals_spell_their_values_least :
    let v : Value := .int .i8 128#8
    v ≠ .null ∧ v.kind.isFloat = false ∧ Value.parse (.int .i8) v.print = .ok v ∧
      Value.parse (.int .i8) "-0128" = .ok v := by
  intro v
  obtain ⟨hprint, hread⟩ := literals_spell_their_values
  have hdigits : Numeral.IsDigits ['0', '1', '2', '8'] := by
    rw [Numeral.IsDigits]
    simp
  have hvalue : Nat.ofDigitChars 10 ['0', '1', '2', '8'] 0 = 128 := rfl
  have hchars : "-0128".toList = ['-', '0', '1', '2', '8'] := by decide
  have hspells : Numeral.Spells .i8 "-0128".toList (-128) := by
    have h := Numeral.Spells.minus (k := .i8) rfl (List.cons_ne_nil _ _) hdigits
    rwa [hvalue, ← hchars] at h
  have hleast : IntKind.i8.least ≤ -128 := by decide
  have hgreatest : -128 ≤ IntKind.i8.greatest := by decide
  have hword : IntKind.i8.toInt 128#8 = -128 := by decide
  have hnull : Value.int .i8 128#8 ≠ .null := by rintro ⟨⟩
  exact ⟨hnull, rfl, hprint v hnull rfl,
    ((hread _ _).1 .i8).2 ⟨-128, _, hspells, hleast, hgreatest, hword, rfl⟩⟩

end TypedStore
