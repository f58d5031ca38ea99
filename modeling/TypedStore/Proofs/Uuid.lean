/-
  TypedStore — the texts of identifiers.

  * `ungroup_eq_some_iff`: hyphens are taken out exactly if they stand between
    groups of the given sizes;
  * `Spells`: the four forms of an identifier, in lower case;
    `ofText?_eq_some_iff`: a text is read as an identifier exactly if it is one
    of its forms when its letters are lowered;
  * `ofText?_text`: the text of an identifier is read as that identifier.
-/
import Mathlib.Algebra.GroupWithZero.Nat
import TypedStore.Proofs.Hex

namespace TypedStore.Uuid

/-! ## Groups -/

variable {n m : Nat} {sizes : List Nat} {cs ds : List Char}

theorem group_cons_cons (n m : Nat) (sizes : List Nat) (ds : List Char) :
    group (n :: m :: sizes) ds = ds.take n ++ '-' :: group (m :: sizes) (ds.drop n) := rfl

theorem ungroup_singleton : ungroup [n] cs = if cs.length = n then some cs else none := rfl

theorem ungroup_cons_cons (n m : Nat) (sizes : List Nat) (cs : List Char) :
    ungroup (n :: m :: sizes) cs =
      match cs.drop n with
      | '-' :: rest => (ungroup (m :: sizes) rest).map (cs.take n ++ ·)
      | _ => none := rfl

theorem ungroup_cons_cons_eq_some_iff : ungroup (n :: m :: sizes) cs = some ds ↔
    ∃ rest ds', cs.drop n = '-' :: rest ∧ ungroup (m :: sizes) rest = some ds' ∧
      cs.take n ++ ds' = ds := by
  rw [ungroup_cons_cons]
  split
  · next rest hrest =>
    simp only [Option.map_eq_some_iff, hrest, List.cons.injEq, true_and, exists_and_left,
      exists_eq_left']
  · next hno =>
    refine iff_of_false nofun ?_
    rintro ⟨rest, -, hrest, -⟩
    exact hno rest hrest

/-- **Hyphens are taken out exactly if they stand between the groups.** -/
theorem ungroup_eq_some_iff (hsizes : sizes ≠ []) :
    ungroup sizes cs = some ds ↔ cs = group sizes ds ∧ ds.length = sizes.sum := by
  induction sizes generalizing cs ds with
  | nil => exact absurd rfl hsizes
  | cons n sizes ih =>
    cases sizes with
    | nil =>
      rw [ungroup_singleton, Option.ite_none_right_eq_some, Option.some.injEq, List.sum_singleton,
        and_comm]
      exact and_congr_right fun h => h ▸ Iff.rfl
    | cons m sizes =>
      rw [ungroup_cons_cons_eq_some_iff, group_cons_cons, List.sum_cons]
      constructor
      · rintro ⟨rest, ds', hrest, hds', rfl⟩
        obtain ⟨rfl, hlength⟩ := (ih nofun).1 hds'
        have htake : (cs.take n).length = n := by
          have hdrop := congrArg List.length hrest
          rw [List.length_drop, List.length_cons] at hdrop
          rw [List.length_take]
          omega
        refine ⟨?_, by rw [List.length_append, htake, hlength]⟩
        rw [List.take_left' htake, List.drop_left' htake, ← hrest, List.take_append_drop]
      · rintro ⟨rfl, hlength⟩
        have htake : (ds.take n).length = n := by
          rw [List.length_take]
          omega
        refine ⟨_, ds.drop n, List.drop_left' htake, (ih nofun).2 ⟨rfl, ?_⟩, ?_⟩
        · rw [List.length_drop]
          omega
        · rw [List.take_left' htake, List.take_append_drop]

/-- Hyphens are taken out before or after the characters are changed, if the
    change leaves hyphens alone and makes no others. -/
theorem ungroup_map {f : Char → Char} (hf : ∀ c, f c = '-' ↔ c = '-') (sizes : List Nat)
    (cs : List Char) : ungroup sizes (cs.map f) = (ungroup sizes cs).map (List.map f) := by
  induction sizes generalizing cs with
  | nil => rfl
  | cons n sizes ih =>
    cases sizes with
    | nil =>
      rw [ungroup_singleton, ungroup_singleton, List.length_map]
      split_ifs <;> rfl
    | cons m sizes =>
      rw [ungroup_cons_cons, ungroup_cons_cons, ← List.map_drop]
      cases cs.drop n with
      | nil => rfl
      | cons c rest =>
        by_cases hc : c = '-'
        · subst hc
          rw [List.map_cons, (hf '-').2 rfl]
          show (ungroup (m :: sizes) (rest.map f)).map ((cs.map f).take n ++ ·) =
            ((ungroup (m :: sizes) rest).map (cs.take n ++ ·)).map (List.map f)
          rw [ih, Option.map_map, Option.map_map, ← List.map_take]
          congr 1
          funext ds
          exact List.map_append.symm
        · have hfc : f c ≠ '-' := mt (hf c).1 hc
          rw [List.map_cons]
          split
          · next h => exact absurd (List.cons.inj h).1 hfc
          · split
            · next h => exact absurd (List.cons.inj h).1 hc
            · rfl

/-! ## Forms -/

/-- The characters of an identifier in one of its forms, in lower case. -/
inductive Spells (u : Uuid) : List Char → Prop where
  | plain : Spells u (Hex.digits u.bytes)
  | hyphenated : Spells u u.text.toList
  | braced : Spells u ('\x7b' :: u.text.toList ++ ['\x7d'])
  | urn : Spells u (urn ++ u.text.toList)

variable {u : Uuid}

theorem toList_text (u : Uuid) : u.text.toList = group groups (Hex.digits u.bytes) :=
  String.toList_ofList

theorem length_digits (u : Uuid) : (Hex.digits u.bytes).length = 32 := by
  rw [Hex.length_digits, u.length_eq]

theorem length_text (u : Uuid) : u.text.toList.length = 36 := by
  have hlength := u.length_digits
  simp only [toList_text, groups, group_cons_cons, group, List.length_append, List.length_cons,
    List.length_take, List.length_drop]
  omega

theorem toLower_eq_hyphen_iff (c : Char) : c.toLower = '-' ↔ c = '-' :=
  toLower_eq_iff_of_not_letter (by decide)

theorem ungroup_groups_iff :
    ungroup groups cs = some (Hex.digits u.bytes) ↔ cs = u.text.toList := by
  have hgroups : groups ≠ [] := nofun
  rw [ungroup_eq_some_iff hgroups, toList_text]
  exact and_iff_left u.length_digits

/-- The hyphenated form has no capitals. -/
theorem map_toLower_text (u : Uuid) : u.text.toList.map Char.toLower = u.text.toList := by
  rw [← ungroup_groups_iff, ungroup_map toLower_eq_hyphen_iff, ungroup_groups_iff.2 rfl,
    Option.map_some, Hex.map_toLower_digits]

/-- Groups are read if they are those of the identifier. -/
theorem ofGroups?_eq_some_iff : ofGroups? cs = some u ↔ cs.map Char.toLower = u.text.toList := by
  rw [← ungroup_groups_iff, ungroup_map toLower_eq_hyphen_iff, ofGroups?, Option.bind_eq_some_iff,
    Option.map_eq_some_iff]
  simp only [Block.ofHex?_eq_some_iff, String.toList_ofList]

theorem spells_iff : u.Spells cs ↔ cs = Hex.digits u.bytes ∨ cs = u.text.toList ∨
    cs = '\x7b' :: u.text.toList ++ ['\x7d'] ∨ cs = Uuid.urn ++ u.text.toList := by
  constructor
  · rintro (_ | _ | _ | _)
    · exact Or.inl rfl
    · exact Or.inr (Or.inl rfl)
    · exact Or.inr (Or.inr (Or.inl rfl))
    · exact Or.inr (Or.inr (Or.inr rfl))
  · rintro (rfl | rfl | rfl | rfl)
    · exact .plain
    · exact .hyphenated
    · exact .braced
    · exact .urn

/-- Both forms without a sign in front begin with a digit. -/
theorem exists_first_digit (u : Uuid) : ∃ n < 16,
    (Hex.digits u.bytes).head? = some (Hex.digit n) ∧ u.text.toList.head? = some (Hex.digit n) := by
  obtain ⟨bytes, hlength⟩ := u
  cases bytes with
  | nil => cases hlength
  | cons b bytes =>
    have hb := b.toNat_lt
    refine ⟨b.toNat / 16, by omega, rfl, ?_⟩
    rw [toList_text]
    rfl

/-- What begins otherwise is neither of them. -/
theorem ne_of_head? {c : Char} (hcs : cs.head? = some c)
    (hc : ¬ (48 ≤ c.toNat ∧ c.toNat ≤ 57 ∨ 97 ≤ c.toNat ∧ c.toNat ≤ 102)) :
    cs ≠ Hex.digits u.bytes ∧ cs ≠ u.text.toList := by
  obtain ⟨n, hn, hdigits, htext⟩ := u.exists_first_digit
  have hne : c ≠ Hex.digit n := by
    rintro rfl
    rw [Hex.toNat_digit hn] at hc
    split_ifs at hc <;> omega
  constructor <;> rintro rfl
  · exact hne (Option.some.inj (hcs.symm.trans hdigits))
  · exact hne (Option.some.inj (hcs.symm.trans htext))

/-! ## Reading -/

theorem braced_iff : cs.head? = some '\x7b' ∧ cs.getLast? = some '\x7d' ↔
    ∃ mid, cs = '\x7b' :: mid ++ ['\x7d'] := by
  constructor
  · rintro ⟨hhead, hlast⟩
    obtain ⟨rest, rfl⟩ := List.head?_eq_some_iff.1 hhead
    obtain ⟨front, hfront⟩ := List.getLast?_eq_some_iff.1 hlast
    cases front with
    | nil => cases hfront
    | cons c mid =>
      cases hfront
      exact ⟨mid, rfl⟩
  · rintro ⟨mid, rfl⟩
    exact ⟨rfl, List.getLast?_concat⟩

theorem toLower_eq_brace_iff (c : Char) :
    (c.toLower = '\x7b' ↔ c = '\x7b') ∧ (c.toLower = '\x7d' ↔ c = '\x7d') :=
  ⟨toLower_eq_iff_of_not_letter (by decide), toLower_eq_iff_of_not_letter (by decide)⟩

/-- Groups in braces. -/
theorem ofGroups?_braced_iff {mid : List Char} : ofGroups? mid = some u ↔
    u.Spells (('\x7b' :: mid ++ ['\x7d']).map Char.toLower) := by
  have hmap : ('\x7b' :: mid ++ ['\x7d']).map Char.toLower =
      '\x7b' :: mid.map Char.toLower ++ ['\x7d'] := by
    rw [List.map_append, List.map_cons]
    rfl
  have hhead : ('\x7b' :: mid.map Char.toLower ++ ['\x7d']).head? = some '\x7b' := rfl
  obtain ⟨hdigits, htext⟩ := ne_of_head? (u := u) hhead (by decide)
  rw [hmap, ofGroups?_eq_some_iff, spells_iff, or_iff_right hdigits, or_iff_right htext]
  constructor
  · intro h
    exact Or.inl (by rw [h])
  · rintro (h | h)
    · exact List.append_cancel_right (List.cons.inj h).2
    · cases h

/-- Groups after the name of the space. -/
theorem ofGroups?_urn_iff {front rest : List Char} (hfront : front.map Char.toLower = Uuid.urn) :
    ofGroups? rest = some u ↔ u.Spells ((front ++ rest).map Char.toLower) := by
  have hhead : (Uuid.urn ++ rest.map Char.toLower).head? = some 'u' := rfl
  obtain ⟨hdigits, htext⟩ := ne_of_head? (u := u) hhead (by decide)
  rw [List.map_append, hfront, ofGroups?_eq_some_iff, spells_iff, or_iff_right hdigits,
    or_iff_right htext, List.append_cancel_left_eq]
  exact (or_iff_right nofun).symm

/-- Groups with nothing around them. -/
theorem ofGroups?_bare_iff (hlength : cs.length ≠ 32)
    (hbraced : ¬ ∃ mid, cs = '\x7b' :: mid ++ ['\x7d'])
    (hurn : (cs.take Uuid.urn.length).map Char.toLower ≠ Uuid.urn) :
    ofGroups? cs = some u ↔ u.Spells (cs.map Char.toLower) := by
  rw [ofGroups?_eq_some_iff, spells_iff]
  refine ⟨fun h => Or.inr (Or.inl h), ?_⟩
  rintro (h | h | h | h)
  · refine absurd ?_ hlength
    rw [← u.length_digits, ← h, List.length_map]
  · exact h
  · refine absurd ?_ hbraced
    obtain ⟨front, last, rfl, hfront, hlast⟩ := List.map_eq_append_iff.1 h
    obtain ⟨c, mid, rfl, hc, -⟩ := List.map_eq_cons_iff.1 hfront
    obtain ⟨d, rfl, hd⟩ := List.map_eq_singleton_iff.1 hlast
    exact ⟨mid, by rw [(toLower_eq_brace_iff c).1.1 hc, (toLower_eq_brace_iff d).2.1 hd]⟩
  · refine absurd ?_ hurn
    rw [List.map_take, h, List.take_left]

theorem ofText?_eq (text : String) : ofText? text =
    if text.toList.length = 32 then Block.ofHex? text
    else if text.toList.head? = some '\x7b' ∧ text.toList.getLast? = some '\x7d' then
      ofGroups? (text.toList.drop 1).dropLast
    else if (text.toList.take Uuid.urn.length).map Char.toLower = Uuid.urn then
      ofGroups? (text.toList.drop Uuid.urn.length)
    else ofGroups? text.toList := rfl

/-- **A text is read as an identifier exactly if it is one of its forms when
    its letters are lowered.** -/
theorem ofText?_eq_some_iff {text : String} :
    ofText? text = some u ↔ u.Spells (text.toList.map Char.toLower) := by
  rw [ofText?_eq]
  by_cases hlength : text.toList.length = 32
  · -- the other forms are longer
    rw [if_pos hlength, Block.ofHex?_eq_some_iff, spells_iff]
    refine ⟨Or.inl, ?_⟩
    have htext := u.length_text
    rintro (h | h | h | h)
    · exact h
    all_goals
      have hother := congrArg List.length h
      simp only [List.length_map, List.length_append, List.length_cons] at hother
      omega
  rw [if_neg hlength]
  by_cases hbraced : ∃ mid, text.toList = '\x7b' :: mid ++ ['\x7d']
  · rw [if_pos (braced_iff.2 hbraced)]
    obtain ⟨mid, hmid⟩ := hbraced
    rw [hmid, ← ofGroups?_braced_iff]
    show ofGroups? (mid ++ ['\x7d']).dropLast = some u ↔ _
    rw [List.dropLast_concat]
  rw [if_neg (mt braced_iff.1 hbraced)]
  by_cases hurn : (text.toList.take Uuid.urn.length).map Char.toLower = Uuid.urn
  · rw [if_pos hurn, ofGroups?_urn_iff hurn, List.take_append_drop]
  · rw [if_neg hurn, ofGroups?_bare_iff hlength hbraced hurn]

/-- The text of an identifier is read as that identifier. -/
theorem ofText?_text (u : Uuid) : ofText? u.text = some u := by
  rw [ofText?_eq_some_iff, map_toLower_text]
  exact .hyphenated

/-- What is no form of an identifier is refused. -/
theorem ofText?_eq_none_iff {text : String} :
    ofText? text = none ↔ ∀ u : Uuid, ¬ u.Spells (text.toList.map Char.toLower) := by
  simp only [Option.eq_none_iff_forall_ne_some, Ne, ofText?_eq_some_iff]

end TypedStore.Uuid
