/-
  TypedStore — lossy reading, by a grammar.

  Any bytes are a sequence of characters and of maximal ill-formed parts.  Such
  a part is the longest run of bytes that begins a character without ending
  one, or a single byte that begins none.

  * `eq_of_isPiece`: bytes have one first piece only;
  * `LossyText`: the text that keeps every character and has one replacement
    character for every ill-formed part;
  * `lossyText_iff`: lossy reading gives this text, and there is no other.
-/
import TypedStore.Proofs.Utf8

namespace TypedStore.Utf8

/-! ## Pieces -/

/-- Bytes that begin a character without ending it. -/
def Begins (part : List UInt8) : Prop :=
  part ≠ [] ∧ ∃ more, more ≠ [] ∧ IsCharacter (part ++ more)

/-- A maximal ill-formed part, and the bytes after it. -/
inductive IsIllFormed : (part rest : List UInt8) → Prop where
  /-- A character that is begun, and that the next byte neither ends nor
      carries on. -/
  | cut {part rest : List UInt8} : Begins part →
      (∀ b ∈ rest.head?, ¬ Begins (part ++ [b]) ∧ ¬ IsCharacter (part ++ [b])) →
      IsIllFormed part rest
  /-- A byte that begins no character. -/
  | stray {b : UInt8} {rest : List UInt8} : ¬ Begins [b] → ¬ IsCharacter [b] →
      IsIllFormed [b] rest

/-- The text of bytes: every character is kept, and every maximal ill-formed
    part is replaced by one character. -/
inductive LossyText : List UInt8 → List Char → Prop where
  | nil : LossyText [] []
  | character (c : Char) {rest : List UInt8} {cs : List Char} : LossyText rest cs →
      LossyText (String.utf8EncodeChar c ++ rest) (c :: cs)
  | illFormed {part rest : List UInt8} {cs : List Char} : IsIllFormed part rest →
      LossyText rest cs → LossyText (part ++ rest) (replacement :: cs)

/-! ## Beginnings, byte by byte -/

/-- The bytes after a first byte carry its character on, as far as they go. -/
def Continues (lead : UInt8) : List UInt8 → Prop
  | [] => True
  | second :: rest => isSecond lead second = true ∧ ∀ b ∈ rest, isTail b = true

variable {lead b : UInt8} {body part rest more : List UInt8}

theorem isCharacter_cons_iff :
    IsCharacter (lead :: body) ↔ tails lead = some body.length ∧ Continues lead body := by
  constructor
  · intro h
    cases h with
    | single htails => exact ⟨htails, trivial⟩
    | more htails hsecond hrest => exact ⟨htails, hsecond, hrest⟩
  · rintro ⟨htails, hbody⟩
    cases body with
    | nil => exact .single htails
    | cons second rest => exact .more htails hbody.1 hbody.2

theorem Continues.of_append (h : Continues lead (body ++ more)) : Continues lead body := by
  cases body with
  | nil => trivial
  | cons second rest => exact ⟨h.1, fun b hb => h.2 b (List.mem_append_left _ hb)⟩

/-- What carries a character on can be carried on by one byte. -/
theorem Continues.exists_concat (h : Continues lead body) :
    ∃ b, Continues lead (body ++ [b]) := by
  cases body with
  | nil =>
    -- the least second byte that goes with the first one
    refine ⟨if lead = 0xE0 then 0xA0 else if lead = 0xF0 then 0x90 else 0x80, ?_, nofun⟩
    rw [isSecond_iff]
    split_ifs <;> simp_all [← UInt8.toNat_inj]
  | cons second rest =>
    refine ⟨0x80, h.1, fun b hb => ?_⟩
    rcases List.mem_append.1 hb with hb | hb
    · exact h.2 b hb
    · rw [List.mem_singleton.1 hb]
      decide

/-- What carries a character on can be carried on by any number of bytes. -/
theorem Continues.exists_append (h : Continues lead body) (n : Nat) :
    ∃ more, more.length = n ∧ Continues lead (body ++ more) := by
  induction n with
  | zero => exact ⟨[], rfl, by rwa [List.append_nil]⟩
  | succ n ih =>
    obtain ⟨more, hlength, hmore⟩ := ih
    obtain ⟨b, hb⟩ := hmore.exists_concat
    exact ⟨more ++ [b], by rw [List.length_append, hlength]; rfl, by rwa [← List.append_assoc]⟩

theorem begins_cons_iff : Begins (lead :: body) ↔
    ∃ n, tails lead = some n ∧ body.length < n ∧ Continues lead body := by
  constructor
  · rintro ⟨-, more, hmore, h⟩
    rw [List.cons_append] at h
    obtain ⟨htails, hbody⟩ := isCharacter_cons_iff.1 h
    have hpos := List.length_pos_iff.2 hmore
    refine ⟨_, htails, ?_, hbody.of_append⟩
    rw [List.length_append]
    omega
  · rintro ⟨n, htails, hlt, hbody⟩
    obtain ⟨more, hlength, hmore⟩ := hbody.exists_append (n - body.length)
    refine ⟨List.cons_ne_nil _ _, more, ?_, ?_⟩
    · rintro rfl
      simp only [List.length_nil] at hlength
      omega
    · rw [List.cons_append]
      refine isCharacter_cons_iff.2 ⟨htails.trans (congrArg some ?_), hmore⟩
      rw [List.length_append, hlength]
      omega

/-! ## The first piece of bytes -/

theorem IsCharacter.ne_nil (h : IsCharacter part) : part ≠ [] := by
  cases h <;> exact List.cons_ne_nil _ _

/-- No character only begins another one. -/
theorem IsCharacter.not_begins (h : IsCharacter part) : ¬ Begins part := by
  intro hbegins
  cases part with
  | nil => exact hbegins.1 rfl
  | cons lead body =>
    obtain ⟨n, htails, hlt, -⟩ := begins_cons_iff.1 hbegins
    have hlength := (isCharacter_cons_iff.1 h).1
    rw [htails] at hlength
    obtain rfl := Option.some.inj hlength
    omega

theorem Begins.of_append (h : Begins (part ++ more)) (hpart : part ≠ []) : Begins part := by
  obtain ⟨-, last, hlast, hcharacter⟩ := h
  rw [List.append_assoc] at hcharacter
  exact ⟨hpart, more ++ last, by simp [hlast], hcharacter⟩

/-- A character, or a maximal ill-formed part before the rest of the bytes. -/
def IsPiece (part rest : List UInt8) : Prop := IsCharacter part ∨ IsIllFormed part rest

theorem IsIllFormed.ne_nil (h : IsIllFormed part rest) : part ≠ [] := by
  cases h with
  | cut hbegins _ => exact hbegins.1
  | stray _ _ => exact List.cons_ne_nil _ _

theorem IsPiece.ne_nil (h : IsPiece part rest) : part ≠ [] :=
  h.elim IsCharacter.ne_nil IsIllFormed.ne_nil

theorem IsIllFormed.not_isCharacter (h : IsIllFormed part rest) : ¬ IsCharacter part := by
  cases h with
  | cut hbegins _ => exact fun hcharacter => hcharacter.not_begins hbegins
  | stray _ hcharacter => exact hcharacter

/-- What goes on beyond `part` begins with `part`, and goes on or ends with the
    next byte. -/
theorem IsPiece.begins (h : IsPiece (part ++ b :: more) rest) (hpart : part ≠ []) :
    Begins part ∧ (Begins (part ++ [b]) ∨ IsCharacter (part ++ [b])) := by
  have hnext : part ++ [b] ≠ [] := by simp
  have hsplit : part ++ b :: more = (part ++ [b]) ++ more := by simp
  rcases h with hcharacter | hill
  · refine ⟨⟨hpart, b :: more, List.cons_ne_nil _ _, hcharacter⟩, ?_⟩
    rw [hsplit] at hcharacter
    by_cases hmore : more = []
    · subst hmore
      rw [List.append_nil] at hcharacter
      exact Or.inr hcharacter
    · exact Or.inl ⟨hnext, more, hmore, hcharacter⟩
  · generalize hwhole : part ++ b :: more = whole at hill
    cases hill with
    | cut hbegins _ =>
      rw [← hwhole] at hbegins
      refine ⟨hbegins.of_append hpart, Or.inl ?_⟩
      rw [hsplit] at hbegins
      exact hbegins.of_append hnext
    | stray _ _ =>
      have hpos := List.length_pos_iff.2 hpart
      have hlength := congrArg List.length hwhole
      simp only [List.length_append, List.length_cons, List.length_nil] at hlength
      omega

/-- No piece goes on beyond another one. -/
theorem IsPiece.append_eq_nil (h : IsPiece part (more ++ rest)) (hlong : IsPiece (part ++ more) rest) :
    more = [] := by
  cases more with
  | nil => rfl
  | cons b more =>
    obtain ⟨hbegins, hnext⟩ := hlong.begins h.ne_nil
    rcases h with hcharacter | hill
    · exact absurd hbegins hcharacter.not_begins
    · cases hill with
      | cut _ hcut =>
        obtain ⟨hno, hnone⟩ := hcut b rfl
        exact (hnext.elim hno hnone).elim
      | stray hno _ => exact absurd hbegins hno

/-- **The first piece of bytes is determined by them.** -/
theorem eq_of_isPiece {part' rest' : List UInt8} (h : IsPiece part rest)
    (h' : IsPiece part' rest') (heq : part ++ rest = part' ++ rest') :
    part = part' ∧ rest = rest' := by
  rcases List.append_eq_append_iff.1 heq with ⟨more, rfl, rfl⟩ | ⟨more, rfl, rfl⟩
  · obtain rfl := h.append_eq_nil h'
    simp
  · obtain rfl := h'.append_eq_nil h
    simp

/-! ## What lossy reading takes at a time -/

/-- The run of further bytes is the longest one. -/
theorem exists_tails (n : Nat) (bytes : List UInt8) :
    let run := (bytes.take n).takeWhile isTail
    ∃ more, bytes = run ++ more ∧ run.length ≤ n ∧
      (run.length < n → ∀ b ∈ more.head?, isTail b = false) := by
  induction bytes generalizing n with
  | nil => exact ⟨[], by simp⟩
  | cons b bytes ih =>
    cases n with
    | zero => exact ⟨b :: bytes, by simp⟩
    | succ n =>
      obtain ⟨more, hbytes, hle, hmore⟩ := ih n
      simp only [List.take_succ_cons, List.takeWhile_cons]
      cases hb : isTail b with
      | false => exact ⟨b :: bytes, by simp [hb]⟩
      | true =>
        refine ⟨more, congrArg (b :: ·) hbytes, Nat.succ_le_succ hle, fun hlt => hmore ?_⟩
        exact Nat.lt_of_succ_lt_succ hlt

/-- The bytes that are taken after a first byte carry its character on, and no
    more of them could be taken. -/
theorem exists_continued (lead : UInt8) (n : Nat) (rest : List UInt8) :
    ∃ body more, rest = body ++ more ∧ body.length = continued lead n rest ∧ body.length ≤ n ∧
      Continues lead body ∧
      (body.length < n → ∀ b ∈ more.head?, ¬ Continues lead (body ++ [b])) := by
  cases n with
  | zero =>
    exact ⟨[], rest, rfl, by simp [continued], Nat.le_refl _, trivial,
      fun hlt => absurd hlt (Nat.not_lt_zero _)⟩
  | succ n =>
    cases rest with
    | nil =>
      exact ⟨[], [], rfl, rfl, Nat.zero_le _, trivial,
        fun _ b hb => absurd hb (Option.not_mem_none b)⟩
    | cons second rest =>
      by_cases hsecond : isSecond lead second = true
      · obtain ⟨more, hrest, hle, hmore⟩ := exists_tails n rest
        refine ⟨second :: (rest.take n).takeWhile isTail, more, congrArg (second :: ·) hrest, ?_,
          Nat.succ_le_succ hle, ⟨hsecond, fun b hb => List.mem_takeWhile_imp hb⟩,
          fun hlt b hb h => ?_⟩
        · rw [continued, if_pos hsecond, List.length_cons, Nat.add_comm]
        · have htail := hmore (Nat.lt_of_succ_lt_succ hlt) b hb
          rw [h.2 b (by simp)] at htail
          cases htail
      · refine ⟨[], second :: rest, rfl, ?_, Nat.zero_le _, trivial, fun _ b hb h => hsecond ?_⟩
        · rw [continued, if_neg hsecond]
          rfl
        · cases hb
          exact h.1

/-- **Lossy reading takes one piece at a time**: a character as it is, an
    ill-formed part as the replacement character. -/
theorem exists_first (lead : UInt8) (rest : List UInt8) :
    ∃ body more, rest = body ++ more ∧
      (IsCharacter (lead :: body) ∧
          first lead rest = (Char.ofNat (codePoint lead body), body.length) ∨
        IsIllFormed (lead :: body) more ∧ first lead rest = (replacement, body.length)) := by
  cases htails : tails lead with
  | none =>
    refine ⟨[], rest, rfl, Or.inr ⟨.stray ?_ ?_, by rw [first, htails]; rfl⟩⟩
    · rw [begins_cons_iff, htails]
      rintro ⟨n, hn, -⟩
      cases hn
    · rw [isCharacter_cons_iff, htails]
      rintro ⟨hn, -⟩
      cases hn
  | some n =>
    obtain ⟨body, more, rfl, htaken, hle, hbody, hmore⟩ := exists_continued lead n rest
    refine ⟨body, more, rfl, ?_⟩
    by_cases hn : body.length = n
    · subst hn
      refine Or.inl ⟨isCharacter_cons_iff.2 ⟨htails, hbody⟩, ?_⟩
      simp only [first, htails, ← htaken, if_true, List.take_left]
    · have hlt : body.length < n := by omega
      refine Or.inr ⟨.cut (begins_cons_iff.2 ⟨n, htails, hlt, hbody⟩) fun b hb => ⟨?_, ?_⟩, ?_⟩
      · intro h
        obtain ⟨_, -, -, hnext⟩ := begins_cons_iff.1 h
        exact hmore hlt b hb hnext
      · intro h
        exact hmore hlt b hb (isCharacter_cons_iff.1 h).2
      · simp only [first, htails, ← htaken, hn, if_false]

/-! ## Lossy reading -/

/-- An ill-formed part is replaced, and reading goes on after it. -/
theorem lossyChars_illFormed (h : IsIllFormed part rest) :
    lossyChars (part ++ rest) = replacement :: lossyChars rest := by
  cases part with
  | nil => exact absurd rfl h.ne_nil
  | cons lead body =>
    obtain ⟨body', more, heq, hfirst⟩ := exists_first lead (body ++ rest)
    have hpiece : IsPiece (lead :: body') more := hfirst.imp And.left And.left
    have hsame : lead :: body ++ rest = lead :: body' ++ more := congrArg (lead :: ·) heq
    obtain ⟨hbody, rfl⟩ := eq_of_isPiece (Or.inr h) hpiece hsame
    obtain rfl := (List.cons.inj hbody).2
    obtain ⟨hcharacter, -⟩ | ⟨-, hvalue⟩ := hfirst
    · exact absurd hcharacter h.not_isCharacter
    · rw [List.cons_append, lossyChars, hvalue, List.drop_left]

/-- All bytes have a lossy text. -/
theorem lossyText_lossyChars (bytes : List UInt8) : LossyText bytes (lossyChars bytes) := by
  induction bytes using lossyChars.induct with
  | case1 =>
    rw [lossyChars]
    exact .nil
  | case2 lead rest ih =>
    obtain ⟨body, more, rfl, ⟨hcharacter, hvalue⟩ | ⟨hill, hvalue⟩⟩ := exists_first lead rest
    · rw [hvalue, List.drop_left] at ih
      have htext := LossyText.character (Char.ofNat (codePoint lead body)) ih
      rw [utf8EncodeChar_codePoint hcharacter] at htext
      rwa [lossyChars, hvalue, List.drop_left]
    · rw [hvalue, List.drop_left] at ih
      rw [lossyChars, hvalue, List.drop_left]
      exact .illFormed hill ih

/-- **Lossy reading keeps every character, replaces every maximal ill-formed
    part**, and there is no other text that does so. -/
theorem lossyText_iff {bytes : List UInt8} {cs : List Char} :
    LossyText bytes cs ↔ lossyChars bytes = cs := by
  constructor
  · intro h
    induction h with
    | nil => rw [lossyChars]
    | character c _ ih => rw [lossyChars_character, ih]
    | illFormed hill _ ih => rw [lossyChars_illFormed hill, ih]
  · rintro rfl
    exact lossyText_lossyChars bytes

end TypedStore.Utf8
