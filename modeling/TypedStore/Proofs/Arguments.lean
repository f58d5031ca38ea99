/-
  TypedStore — reading the arguments of a command line.

  * `ReadsOptions`: what reading before and behind the verb have in common: it
    takes options one after another, and a value that is pending is settled by
    whatever comes next;
  * `reads_items`: items are read one after another, whatever their spelling;
  * `read_eq_ok_iff`: so is a line, however it is written;
  * `read_ne_help`: a line is no call for help;
  * `exists_line`: there is a line for all arguments that are read.
-/
import TypedStore.Proofs.Spelling

namespace TypedStore.CommandLine

variable {α : Type} {p q r : Part} {o : Opt} {arg value word : String} {args rest : List String}

/-! ## Reading an option -/

/-- A reader that takes options one after another, and looks at their values
    before it goes on. -/
structure ReadsOptions (R : Part → List String → Except Fault α) : Prop where
  takes {p : Part} {arg : String} {rest : List String} : isOption arg = true → arg ≠ "--" →
    R p (arg :: rest) = (p.option arg.toList).bind fun q => R q rest
  give {p : Part} {value : String} {rest : List String} : p.awaits = true →
    isOption value = false → R p (value :: rest) = R (p.give value) rest
  settle {p : Part} {args : List String} {a : α} : p.awaits = false →
    (R p args = .ok a ↔ ∃ q, p.settle = .ok q ∧ R q args = .ok a)
  stuck {p : Part} {args : List String} {a : α} : p.awaits = true → R p args = .ok a →
    ∃ value rest, args = value :: rest ∧ isOption value = false

namespace ReadsOptions

variable {R : Part → List String → Except Fault α} (hR : ReadsOptions R) {a : α}
include hR

theorem option (harg : isOption arg = true) (hne : arg ≠ "--") : R p (arg :: rest) = .ok a ↔
    ∃ q, p.option arg.toList = .ok q ∧ R q rest = .ok a := by
  rw [hR.takes harg hne]
  exact Except.bind_eq_ok_iff

/-- However an option is spelled, it is added with its value. -/
theorem spells (hp : p.Settled) (h : (Item.option o value).Spells args) :
    R p (args ++ rest) = .ok a ↔ ∃ q, p.Adds o value q ∧ R q rest = .ok a := by
  cases h with
  | attached h =>
    simp only [List.singleton_append, hR.option h.isOption h.ne_dashes, p.option_attached h,
      Part.takeAllowed_some hp]
  | @detached _ _ arg h hvalue =>
    -- the value is given now, and looked at when reading goes on
    have hgive {q : Part} (hq : p.takeAllowed o none = .ok q) : R q (value :: rest) = .ok a ↔
        ∃ r, (q.give value).settle = .ok r ∧ R r rest = .ok a := by
      rw [hR.give (Part.awaits_of_takeAllowed hq) hvalue, hR.settle (q.awaits_give value)]
    show R p (arg :: value :: rest) = .ok a ↔ _
    rw [hR.option h.isOption h.ne_dashes, p.option_bare h]
    constructor
    · rintro ⟨q, hq, hread⟩
      obtain ⟨r, hr, hrest⟩ := (hgive hq).1 hread
      exact ⟨r, (Part.takeAllowed_none hp).1 ⟨q, hq, hr⟩, hrest⟩
    · rintro ⟨r, hr, hrest⟩
      obtain ⟨q, hq, hsettle⟩ := (Part.takeAllowed_none hp).2 hr
      exact ⟨q, hq, (hgive hq).2 ⟨r, hsettle, hrest⟩⟩

/-- What is read after an option is one of its spellings. -/
theorem exists_spells (harg : isOption arg = true) (hne : arg ≠ "--")
    (h : R p (arg :: rest) = .ok a) :
    ∃ o value args rest', arg :: rest = args ++ rest' ∧ (Item.option o value).Spells args ∧
      rest'.length ≤ rest.length := by
  obtain ⟨q, hq, hrest⟩ := (hR.option harg hne).1 h
  obtain ⟨o, hbare | ⟨value, hattached⟩⟩ := Part.exists_of_option harg hq
  · rw [p.option_bare hbare] at hq
    obtain ⟨value, rest', rfl, hvalue⟩ := hR.stuck (Part.awaits_of_takeAllowed hq) hrest
    exact ⟨o, value, [arg, value], rest', rfl, .detached hbare hvalue, Nat.le_succ _⟩
  · exact ⟨o, value, [arg], rest, rfl, .attached hattached, Nat.le_refl _⟩

/-- However an option is spelled, it is no call for help. -/
theorem ne_help (h : (Item.option o value).Spells args)
    (hrest : ∀ q : Part, q.awaits = false → R q rest ≠ .error .help) :
    R p (args ++ rest) ≠ .error .help := by
  cases h with
  | attached h =>
    rw [List.singleton_append, hR.takes h.isOption h.ne_dashes, p.option_attached h]
    refine Except.bind_ne_error Part.takeAllowed_ne_help fun q hq => hrest q ?_
    exact Part.awaits_of_takeAllowed hq
  | @detached _ _ arg h hvalue =>
    show R p (arg :: value :: rest) ≠ .error .help
    rw [hR.takes h.isOption h.ne_dashes, p.option_bare h]
    refine Except.bind_ne_error Part.takeAllowed_ne_help fun q hq => ?_
    rw [hR.give (Part.awaits_of_takeAllowed hq) hvalue]
    exact hrest _ (q.awaits_give value)

end ReadsOptions

/-! ## Reading what follows the verb -/

theorem readRest_cons_dashes {words : List String} : readRest p ("--" :: words) =
    (words.foldlM Part.operand p).bind Part.settle := by
  rw [readRest, if_pos rfl]
  rfl

theorem readRest_cons_option (harg : isOption arg = true) (hne : arg ≠ "--") :
    readRest p (arg :: rest) = (p.option arg.toList).bind fun q => readRest q rest := by
  rw [readRest, if_neg hne, if_pos harg]
  rfl

theorem readRest_cons_operand (hp : p.awaits = false) (harg : isOption arg = false) :
    readRest p (arg :: rest) = (p.operand arg).bind fun q => readRest q rest := by
  rw [readRest, if_neg (ne_dashes harg), if_neg (Bool.eq_false_iff.1 harg),
    if_neg (Bool.eq_false_iff.1 hp)]
  rfl

theorem readRest_dashes {words : List String} : readRest p ("--" :: words) = .ok r ↔
    ∃ q, words.foldlM Part.operand p = .ok q ∧ q.settle = .ok r := by
  rw [readRest_cons_dashes]
  exact Except.bind_eq_ok_iff

theorem readRest_option (harg : isOption arg = true) (hne : arg ≠ "--") :
    readRest p (arg :: rest) = .ok r ↔
      ∃ q, p.option arg.toList = .ok q ∧ readRest q rest = .ok r := by
  rw [readRest_cons_option harg hne]
  exact Except.bind_eq_ok_iff

theorem readRest_operand (hp : p.awaits = false) (harg : isOption arg = false) :
    readRest p (arg :: rest) = .ok r ↔ ∃ q, p.operand arg = .ok q ∧ readRest q rest = .ok r := by
  rw [readRest_cons_operand hp harg]
  exact Except.bind_eq_ok_iff

theorem foldlM_operand_cons {words : List String} :
    List.foldlM Part.operand p (word :: words) = .ok q ↔
      ∃ s, p.operand word = .ok s ∧ words.foldlM Part.operand s = .ok q :=
  Except.bind_eq_ok_iff

/-- A pending value is looked at before the operands behind `--`. -/
theorem settle_dashes {words : List String} : readRest p ("--" :: words) = .ok r ↔
    ∃ q, p.settle = .ok q ∧ readRest q ("--" :: words) = .ok r := by
  simp only [readRest_dashes]
  cases words with
  | nil =>
    have hnil (p : Part) : (∃ q, List.foldlM Part.operand p [] = .ok q ∧ q.settle = .ok r) ↔
        p.settle = .ok r := ⟨fun ⟨_, rfl, h⟩ => h, fun h => ⟨p, rfl, h⟩⟩
    simp only [hnil]
    exact Part.settlesFirst_settle _ _
  | cons word words =>
    have hfold : Part.SettlesFirst (List.foldlM Part.operand · (word :: words)) := by
      intro p q
      simp only [foldlM_operand_cons]
      exact (Part.settlesFirst_operand word).exists
    exact hfold.exists

/-- Settling is put off until something else is read. -/
theorem settle_readRest (hp : p.awaits = false) :
    readRest p args = .ok r ↔ ∃ q, p.settle = .ok q ∧ readRest q args = .ok r := by
  cases args with
  | nil => exact Part.settlesFirst_settle _ _
  | cons arg rest =>
    by_cases hne : arg = "--"
    · rw [hne]
      exact settle_dashes
    cases harg : isOption arg with
    | true =>
      simp only [readRest_option harg hne]
      exact (Part.settlesFirst_option harg).exists
    | false =>
      have hread {q : Part} (hq : p.settle = .ok q) : readRest q (arg :: rest) = .ok r ↔
          ∃ s, q.operand arg = .ok s ∧ readRest s rest = .ok r :=
        readRest_operand (Part.settle_frame hq).2.2.awaits harg
      rw [readRest_operand hp harg]
      refine (Part.settlesFirst_operand arg).exists.trans ?_
      exact exists_congr fun q => and_congr_right fun hq => (hread hq).symm

theorem readsOptions_readRest : ReadsOptions readRest where
  takes harg hne := readRest_cons_option harg hne
  give hp hvalue := by
    rw [readRest, if_neg (ne_dashes hvalue), if_neg (Bool.eq_false_iff.1 hvalue), if_pos hp]
  settle hp := settle_readRest hp
  stuck {p args a} hp h := by
    cases args with
    | nil => exact absurd h (Part.settle_of_awaits hp)
    | cons arg rest =>
      refine ⟨arg, rest, rfl, Bool.eq_false_iff.2 fun harg => ?_⟩
      by_cases hne : arg = "--"
      · rw [hne] at h
        obtain ⟨q, hq, -⟩ := settle_dashes.1 h
        exact Part.settle_of_awaits hp hq
      · obtain ⟨q, hq, -⟩ := (readRest_option harg hne).1 h
        obtain ⟨q', hq', -⟩ := (Part.settlesFirst_option harg _ _).1 hq
        exact Part.settle_of_awaits hp hq'

/-! ## Reading up to the verb -/

variable {i : Invocation} {v : Verb}

theorem Verb.ofName?_eq_some_iff : Verb.ofName? word = some v ↔ word = v.name := by
  constructor
  · intro h
    have hname := List.find?_some (p := fun v : Verb => v.name == word) h
    exact (eq_of_beq hname).symm
  · rintro rfl
    cases v <;> rfl

theorem Verb.isOption_name (v : Verb) : isOption v.name = false :=
  isOption_eq_false (by cases v <;> decide)

/-- The command of a line, and the file that it is for. -/
theorem readVerb_eq_ok_iff : readVerb p v rest = .ok i ↔
    ∃ p' q command, p.settle = .ok p' ∧ readRest { verb := some v } rest = .ok q ∧
      commandOf q = .ok command ∧ i = ⟨(q.config.or p'.config).getD defaultConfig, command⟩ := by
  have hbind : readVerb p v rest = (readRest { verb := some v } rest).bind fun q =>
      (commandOf q).bind fun command => p.settle.bind fun p' =>
        .ok ⟨(q.config.or p'.config).getD defaultConfig, command⟩ := rfl
  simp only [hbind, Except.bind_eq_ok_iff, Except.ok.injEq]
  constructor
  · rintro ⟨q, hq, command, hcommand, p', hp', rfl⟩
    exact ⟨p', q, command, hp', hq, hcommand, rfl⟩
  · rintro ⟨p', q, command, hp', hq, hcommand, rfl⟩
    exact ⟨q, hq, command, hcommand, p', hp', rfl⟩

/-- What stands before the verb is settled after what stands behind it. -/
theorem settle_readVerb : readVerb p v rest = .ok i ↔
    ∃ q, p.settle = .ok q ∧ readVerb q v rest = .ok i := by
  simp only [readVerb_eq_ok_iff]
  constructor
  · rintro ⟨p', q, command, hp', h⟩
    exact ⟨p', hp', p', q, command, (Part.settle_frame hp').2.2.settle, h⟩
  · rintro ⟨p', hp', p'', q, command, hp'', h⟩
    exact ⟨p'', q, command, (Part.settlesFirst_settle _ _).2 ⟨p', hp', hp''⟩, h⟩

theorem withoutVerb_ne_ok : withoutVerb p ≠ .ok i := by
  intro h
  unfold withoutVerb at h
  cases hp : p.settle <;> rw [hp] at h <;> cases h

theorem readFrom_cons : readFrom p (arg :: rest) =
    if p.awaits && !isOption arg then readFrom (p.give arg) rest
    else if arg = "--" then
      match rest with
      | [] => withoutVerb p
      | word :: _ => .error (if isVerb word then .unknownArgument else .unknownVerb)
    else if isOption arg then (p.option arg.toList).bind fun q => readFrom q rest
    else if arg = helpWord then .error (helpOn rest)
    else
      match Verb.ofName? arg with
      | some v => readVerb p v rest
      | none => .error .unknownVerb := by
  cases rest <;> rfl

theorem readFrom_dashes : readFrom p ("--" :: rest) ≠ .ok i := by
  intro h
  rw [readFrom_cons, isOption_dashes, Bool.not_true, Bool.and_false, if_neg Bool.false_ne_true,
    if_pos rfl] at h
  split at h
  · exact withoutVerb_ne_ok h
  · cases h

theorem readFrom_cons_option (harg : isOption arg = true) (hne : arg ≠ "--") :
    readFrom p (arg :: rest) = (p.option arg.toList).bind fun q => readFrom q rest := by
  rw [readFrom_cons, harg, Bool.not_true, Bool.and_false, if_neg Bool.false_ne_true, if_neg hne,
    if_pos rfl]

theorem readFrom_option (harg : isOption arg = true) (hne : arg ≠ "--") :
    readFrom p (arg :: rest) = .ok i ↔
      ∃ q, p.option arg.toList = .ok q ∧ readFrom q rest = .ok i := by
  rw [readFrom_cons_option harg hne]
  exact Except.bind_eq_ok_iff

theorem readFrom_cons_verb (hp : p.awaits = false) :
    readFrom p (v.name :: rest) = readVerb p v rest := by
  have hhelp : v.name ≠ helpWord := by cases v <;> decide
  rw [readFrom_cons, hp, Bool.false_and, if_neg Bool.false_ne_true,
    if_neg (ne_dashes v.isOption_name), v.isOption_name, if_neg Bool.false_ne_true, if_neg hhelp,
    Verb.ofName?_eq_some_iff.2 rfl]

theorem readFrom_word (hp : p.awaits = false) (harg : isOption arg = false) :
    readFrom p (arg :: rest) = .ok i ↔ ∃ v : Verb, arg = v.name ∧ readVerb p v rest = .ok i := by
  rw [readFrom_cons, hp, Bool.false_and, if_neg Bool.false_ne_true, if_neg (ne_dashes harg), harg,
    if_neg Bool.false_ne_true]
  split
  · next hhelp =>
    refine ⟨nofun, ?_⟩
    rintro ⟨v, hv, -⟩
    rw [hhelp] at hv
    cases v <;> exact absurd hv (by decide)
  · split
    · next v hv =>
      rw [Verb.ofName?_eq_some_iff] at hv
      constructor
      · exact fun h => ⟨v, hv, h⟩
      · rintro ⟨v', hv', h⟩
        have heq := Verb.ofName?_eq_some_iff.2 hv
        rw [Verb.ofName?_eq_some_iff.2 hv'] at heq
        cases heq
        exact h
    · next hnone =>
      refine ⟨nofun, ?_⟩
      rintro ⟨v, hv, -⟩
      rw [Verb.ofName?_eq_some_iff.2 hv] at hnone
      cases hnone

theorem readsOptions_readFrom : ReadsOptions readFrom where
  takes harg hne := readFrom_cons_option harg hne
  give hp hvalue := by
    rw [readFrom_cons, hp, hvalue]
    rfl
  settle {p args i} hp := by
    cases args with
    | nil =>
      exact ⟨fun h => absurd h withoutVerb_ne_ok, fun ⟨_, _, h⟩ => absurd h withoutVerb_ne_ok⟩
    | cons arg rest =>
      by_cases hne : arg = "--"
      · rw [hne]
        exact ⟨fun h => absurd h readFrom_dashes, fun ⟨q, _, h⟩ => absurd h readFrom_dashes⟩
      cases harg : isOption arg with
      | true =>
        simp only [readFrom_option harg hne]
        exact (Part.settlesFirst_option harg).exists
      | false =>
        rw [readFrom_word hp harg]
        constructor
        · rintro ⟨v, hv, h⟩
          obtain ⟨q, hq, h⟩ := settle_readVerb.1 h
          exact ⟨q, hq, (readFrom_word (Part.settle_frame hq).2.2.awaits harg).2 ⟨v, hv, h⟩⟩
        · rintro ⟨q, hq, h⟩
          obtain ⟨v, hv, h⟩ := (readFrom_word (Part.settle_frame hq).2.2.awaits harg).1 h
          exact ⟨v, hv, settle_readVerb.2 ⟨q, hq, h⟩⟩
  stuck {p args i} hp h := by
    cases args with
    | nil => exact absurd h withoutVerb_ne_ok
    | cons arg rest =>
      refine ⟨arg, rest, rfl, Bool.eq_false_iff.2 fun harg => ?_⟩
      by_cases hne : arg = "--"
      · rw [hne] at h
        exact readFrom_dashes h
      · obtain ⟨q, hq, -⟩ := (readFrom_option harg hne).1 h
        obtain ⟨q', hq', -⟩ := (Part.settlesFirst_option harg _ _).1 hq
        exact Part.settle_of_awaits hp hq'

/-! ## Reading what is spelled -/

/-- Takes an item. -/
def Part.Takes (p : Part) : Item → Part → Prop
  | .option o value, q => p.Adds o value q
  | .operand word, q => p.operand word = .ok q

/-- Takes items one after another. -/
def Part.TakesAll (p : Part) : List Item → Part → Prop
  | [], q => q = p
  | item :: items, r => ∃ q, p.Takes item q ∧ q.TakesAll items r

theorem Part.Takes.settled {item : Item} (h : p.Takes item q) (hp : p.Settled) : q.Settled := by
  cases item with
  | option o value => exact (Part.store_frame h.2).2.2.trans hp
  | operand word =>
    change p.operand word = .ok q at h
    unfold Part.operand at h
    rw [hp.settle] at h
    repeat' split at h
    all_goals cases h
    exact hp

theorem Part.TakesAll.settled {items : List Item} (h : p.TakesAll items q) (hp : p.Settled) :
    q.Settled := by
  induction items generalizing p with
  | nil =>
    cases h
    exact hp
  | cons item items ih =>
    obtain ⟨s, hs, h⟩ := h
    exact ih h (hs.settled hp)

theorem Part.takesAll_append {items items' : List Item} :
    p.TakesAll (items ++ items') r ↔ ∃ q, p.TakesAll items q ∧ q.TakesAll items' r := by
  induction items generalizing p with
  | nil => exact ⟨fun h => ⟨p, rfl, h⟩, fun ⟨q, hq, h⟩ => by cases hq; exact h⟩
  | cons item items ih =>
    show (∃ q, p.Takes item q ∧ q.TakesAll (items ++ items') r) ↔
      ∃ q, (∃ s, p.Takes item s ∧ s.TakesAll items q) ∧ q.TakesAll items' r
    simp only [ih]
    constructor
    · rintro ⟨s, hs, q, hq, hr⟩
      exact ⟨q, ⟨s, hs, hq⟩, hr⟩
    · rintro ⟨q, ⟨s, hs, hq⟩, hr⟩
      exact ⟨s, hs, q, hq, hr⟩

/-- **Items are read one after another**, if each of them is. -/
theorem reads_items {R : Part → List String → Except Fault α} {items : List Item} {a : α}
    (hR : ∀ item ∈ items, ∀ {p args rest}, p.Settled → item.Spells args →
      (R p (args ++ rest) = .ok a ↔ ∃ q, p.Takes item q ∧ R q rest = .ok a))
    (hp : p.Settled) (h : Spelled items args) :
    R p (args ++ rest) = .ok a ↔ ∃ q, p.TakesAll items q ∧ R q rest = .ok a := by
  induction h generalizing p with
  | nil => exact ⟨fun h => ⟨p, rfl, h⟩, fun ⟨q, hq, h⟩ => by cases hq; exact h⟩
  | cons hitem _ ih =>
    obtain ⟨hfirst, hmore⟩ := List.forall_mem_cons.1 hR
    rw [List.append_assoc, hfirst hp hitem]
    constructor
    · rintro ⟨q, hq, h⟩
      obtain ⟨r, hr, h⟩ := (ih hmore (hq.settled hp)).1 h
      exact ⟨r, ⟨q, hq, hr⟩, h⟩
    · rintro ⟨r, ⟨q, hq, hr⟩, h⟩
      exact ⟨q, hq, (ih hmore (hq.settled hp)).2 ⟨r, hr, h⟩⟩

/-- Behind `--` there are only operands. -/
theorem readRest_tailArgs (hp : p.Settled) (tail : Option (List String)) :
    readRest p (tailArgs tail) = .ok r ↔ p.TakesAll ((tail.getD []).map .operand) r := by
  cases tail with
  | none =>
    show p.settle = .ok r ↔ r = p
    rw [hp.settle, Except.ok.injEq]
    exact eq_comm
  | some words =>
    show readRest p ("--" :: words) = .ok r ↔ p.TakesAll (words.map .operand) r
    rw [readRest_dashes]
    induction words generalizing p with
    | nil =>
      -- `--` with nothing behind it
      constructor
      · rintro ⟨q, hq, hr⟩
        cases hq
        rw [hp.settle] at hr
        cases hr
        rfl
      · rintro rfl
        exact ⟨_, rfl, hp.settle⟩
    | cons word words ih =>
      simp only [foldlM_operand_cons]
      constructor
      · rintro ⟨q, ⟨s, hs, hq⟩, hr⟩
        have htakes : p.Takes (.operand word) s := hs
        exact ⟨s, hs, (ih (htakes.settled hp)).1 ⟨q, hq, hr⟩⟩
      · rintro ⟨s, hs, h⟩
        obtain ⟨q, hq, hr⟩ := (ih (Part.Takes.settled hs hp)).2 h
        exact ⟨q, ⟨s, hs, hq⟩, hr⟩

/-- **What stands after the verb is read as it is meant.** -/
theorem readRest_eq_ok_iff {items : List Item} (hp : p.Settled) (h : Spelled items args)
    (tail : Option (List String)) : readRest p (args ++ tailArgs tail) = .ok r ↔
      p.TakesAll (items ++ (tail.getD []).map .operand) r := by
  rw [Part.takesAll_append, reads_items (fun item _ {p args rest} hp hitem => ?_) hp h]
  · exact exists_congr fun q => and_congr_right fun hq => readRest_tailArgs (hq.settled hp) tail
  · cases item with
    | option o value => exact readsOptions_readRest.spells hp hitem
    | operand word =>
      cases hitem with
      | operand hword => exact readRest_operand hp.awaits hword

/-- **A line is read as it is meant**, however it is written. -/
theorem read_eq_ok_iff {line : Line} (h : line.Writes args) : read args = .ok i ↔
    ∃ p q command, ({} : Part).TakesAll line.options p ∧
      ({ verb := some line.verb } : Part).TakesAll line.items q ∧ commandOf q = .ok command ∧
      i = ⟨(q.config.or p.config).getD defaultConfig, command⟩ := by
  cases h with
  | @intro before after hbefore hafter =>
    have hverb {p : Part} (hp : p.Settled) :
        readFrom p (line.verb.name :: (after ++ tailArgs line.tail)) = .ok i ↔
          readVerb p line.verb (after ++ tailArgs line.tail) = .ok i := by
      rw [readFrom_cons_verb hp.awaits]
    have hoption : ∀ item ∈ line.options, ∀ {p args rest}, p.Settled → item.Spells args →
        (readFrom p (args ++ rest) = .ok i ↔ ∃ q, p.Takes item q ∧ readFrom q rest = .ok i) := by
      intro item hitem p args rest hp hspells
      obtain ⟨⟨o, value⟩, -, rfl⟩ := List.mem_map.1 hitem
      exact readsOptions_readFrom.spells hp hspells
    have hafter' {q : Part} :=
      readRest_eq_ok_iff (r := q) (Part.settled_start (some line.verb)) hafter line.tail
    rw [read, reads_items hoption (Part.settled_start none) hbefore]
    constructor
    · rintro ⟨p, hp, h⟩
      have hsettled : p.Settled := hp.settled (Part.settled_start none)
      obtain ⟨p', q, command, hp', hq, hcommand, rfl⟩ :=
        readVerb_eq_ok_iff.1 ((hverb hsettled).1 h)
      rw [hsettled.settle] at hp'
      cases hp'
      exact ⟨p, q, command, hp, hafter'.1 hq, hcommand, rfl⟩
    · rintro ⟨p, q, command, hp, hq, hcommand, rfl⟩
      have hsettled : p.Settled := hp.settled (Part.settled_start none)
      exact ⟨p, hp, (hverb hsettled).2 (readVerb_eq_ok_iff.2
        ⟨p, q, command, hsettled.settle, hafter'.2 hq, hcommand, rfl⟩)⟩

/-! ## What is spelled is no call for help -/

/-- Items are no call for help, if none of them is. -/
theorem ne_help_items {R : Part → List String → Except Fault α} {items : List Item}
    (hR : ∀ item ∈ items, ∀ {p args rest}, p.awaits = false → item.Spells args →
      (∀ q : Part, q.awaits = false → R q rest ≠ .error .help) → R p (args ++ rest) ≠ .error .help)
    (hp : p.awaits = false) (h : Spelled items args)
    (hrest : ∀ q : Part, q.awaits = false → R q rest ≠ .error .help) :
    R p (args ++ rest) ≠ .error .help := by
  induction h generalizing p with
  | nil => exact hrest p hp
  | cons hitem _ ih =>
    obtain ⟨hfirst, hmore⟩ := List.forall_mem_cons.1 hR
    rw [List.append_assoc]
    exact hfirst hp hitem fun q hq => ih hmore hq

theorem foldlM_operand_ne_help {words : List String} :
    words.foldlM Part.operand p ≠ .error .help := by
  induction words generalizing p with
  | nil => exact nofun
  | cons word words ih => exact Except.bind_ne_error Part.operand_ne_help fun q _ => ih

theorem readRest_tailArgs_ne_help (tail : Option (List String)) :
    readRest p (tailArgs tail) ≠ .error .help := by
  cases tail with
  | none => exact Part.settle_ne_help
  | some words =>
    show readRest p ("--" :: words) ≠ .error .help
    rw [readRest_cons_dashes]
    exact Except.bind_ne_error foldlM_operand_ne_help fun q _ => Part.settle_ne_help

/-- What stands after the verb is no call for help. -/
theorem readRest_ne_help {items : List Item} (hp : p.awaits = false) (h : Spelled items args)
    (tail : Option (List String)) : readRest p (args ++ tailArgs tail) ≠ .error .help := by
  refine ne_help_items (fun item _ {p args rest} hp hitem hrest => ?_) hp h
    fun q _ => readRest_tailArgs_ne_help tail
  cases item with
  | option o value => exact readsOptions_readRest.ne_help hitem hrest
  | operand word =>
    cases hitem with
    | operand hword =>
      rw [List.singleton_append, readRest_cons_operand hp hword]
      refine Except.bind_ne_error Part.operand_ne_help fun q hq => hrest q ?_
      exact Part.awaits_of_operand hq

theorem commandOf_ne_help : commandOf p ≠ .error .help := by
  unfold commandOf
  split <;> exact nofun

/-- **A line is no call for help**, however it is written. -/
theorem read_ne_help {line : Line} (h : line.Writes args) : read args ≠ .error .help := by
  cases h with
  | @intro before after hbefore hafter =>
    refine ne_help_items (fun item hitem {p args rest} hp hspells hrest => ?_) rfl hbefore
      fun p hp => ?_
    · obtain ⟨⟨o, value⟩, -, rfl⟩ := List.mem_map.1 hitem
      exact readsOptions_readFrom.ne_help hspells hrest
    · rw [readFrom_cons_verb hp]
      refine Except.bind_ne_error (readRest_ne_help rfl hafter line.tail) fun q _ => ?_
      refine Except.bind_ne_error commandOf_ne_help fun command _ => ?_
      exact Except.bind_ne_error Part.settle_ne_help fun _ _ => nofun

/-! ## What is read is spelled -/

theorem Part.Adds.settled (h : p.Adds o value q) (hp : p.Settled) : q.Settled :=
  Part.Takes.settled (show p.Takes (.option o value) q from h) hp

/-- What is read after a verb is spelled. -/
theorem exists_items (hp : p.Settled) (h : readRest p args = .ok r) :
    ∃ items body tail, Spelled items body ∧ args = body ++ tailArgs tail := by
  -- by the number of arguments, for an option can be made of two of them
  induction hn : args.length using Nat.strongRecOn generalizing p args with
  | ind n ih =>
    cases args with
    | nil => exact ⟨[], [], none, .nil, rfl⟩
    | cons arg rest =>
      by_cases hne : arg = "--"
      · exact ⟨[], [], some rest, .nil, by rw [hne]; rfl⟩
      cases harg : isOption arg with
      | true =>
        obtain ⟨o, value, args, rest', heq, hspells, hlength⟩ :=
          readsOptions_readRest.exists_spells harg hne h
        rw [heq] at h
        obtain ⟨q, hq, hrest⟩ := (readsOptions_readRest.spells hp hspells).1 h
        rw [List.length_cons] at hn
        obtain ⟨items, body, tail, hspelled, hbody⟩ := ih _ (by omega) (hq.settled hp) hrest rfl
        exact ⟨_, args ++ body, tail, .cons hspells hspelled, by rw [heq, hbody, List.append_assoc]⟩
      | false =>
        obtain ⟨q, hq, hrest⟩ := (readRest_operand hp.awaits harg).1 h
        have htakes : p.Takes (.operand arg) q := hq
        rw [List.length_cons] at hn
        obtain ⟨items, body, tail, hspelled, hbody⟩ := ih _ (by omega) (htakes.settled hp) hrest rfl
        exact ⟨_, [arg] ++ body, tail, .cons (.operand harg) hspelled, by rw [hbody]; rfl⟩

/-- What is read before a verb is spelled. -/
theorem exists_options (hp : p.Settled) (h : readFrom p args = .ok i) :
    ∃ (options : List (Opt × String)) (body : List String) (q : Part) (v : Verb)
      (rest : List String), Spelled (options.map fun (o, value) => .option o value) body ∧
        args = body ++ v.name :: rest ∧ readVerb q v rest = .ok i := by
  induction hn : args.length using Nat.strongRecOn generalizing p args with
  | ind n ih =>
    cases args with
    | nil => exact absurd h withoutVerb_ne_ok
    | cons arg rest =>
      by_cases hne : arg = "--"
      · rw [hne] at h
        exact absurd h readFrom_dashes
      cases harg : isOption arg with
      | true =>
        obtain ⟨o, value, args, rest', heq, hspells, hlength⟩ :=
          readsOptions_readFrom.exists_spells harg hne h
        rw [heq] at h
        obtain ⟨q, hq, hrest⟩ := (readsOptions_readFrom.spells hp hspells).1 h
        rw [List.length_cons] at hn
        obtain ⟨options, body, q', v, rest'', hspelled, hbody, hverb⟩ :=
          ih _ (by omega) (hq.settled hp) hrest rfl
        exact ⟨(o, value) :: options, args ++ body, q', v, rest'', .cons hspells hspelled,
          by rw [heq, hbody, List.append_assoc], hverb⟩
      | false =>
        obtain ⟨v, rfl, hverb⟩ := (readFrom_word hp.awaits harg).1 h
        exact ⟨[], [], p, v, rest, .nil, rfl, hverb⟩

/-- **For arguments that are read there is a line.** -/
theorem exists_line (h : read args = .ok i) : ∃ line : Line, line.Writes args := by
  obtain ⟨options, before, p, v, rest, hbefore, rfl, hverb⟩ :=
    exists_options (Part.settled_start none) h
  obtain ⟨-, q, -, -, hrest, -⟩ := readVerb_eq_ok_iff.1 hverb
  obtain ⟨items, after, tail, hafter, rfl⟩ := exists_items (Part.settled_start (some v)) hrest
  exact ⟨⟨options, v, items, tail⟩, .intro hbefore hafter⟩

end TypedStore.CommandLine
