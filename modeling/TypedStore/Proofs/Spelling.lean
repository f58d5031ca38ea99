/-
  TypedStore — how a command line is spelled.

  A line has options, a verb, and options among operands; behind `--` there are
  only operands.  An option is spelled in its long or short form, with its
  value attached or in the next argument.

  * `Line.Writes`: the arguments that a line is written with;
  * `Part.option_attached`, `Part.option_bare`, `Part.exists_of_option`: what an
    argument is taken as that begins with a hyphen;
  * `Part.SettlesFirst`: a value that is pending is looked at before anything
    else is taken;
  * `Part.takeAllowed_ne_help`, `Part.operand_ne_help`: no option that has a
    value and no operand is a call for help.
-/
import TypedStore.Command.Line
import TypedStore.Proofs.Result

namespace TypedStore.CommandLine

/-! ## Spellings -/

/-- The word for an option. -/
def Opt.word : Opt → String
  | config => "config"
  | kind => "type"

/-- The letter for an option. -/
def Opt.letter : Opt → String
  | config => "c"
  | kind => "t"

/-- An option without its value. -/
inductive Opt.Bare (o : Opt) : String → Prop where
  | long : Bare o ("--" ++ o.word)
  | short : Bare o ("-" ++ o.letter)

/-- An option with its value attached. -/
inductive Opt.Attached (o : Opt) (value : String) : String → Prop where
  | long : Attached o value ("--" ++ o.word ++ "=" ++ value)
  | short : Attached o value ("-" ++ o.letter ++ "=" ++ value)
  /-- The letter is followed by the value, which does not look like the end of
      the other form. -/
  | joined : value ≠ "" → value.toList.head? ≠ some '=' →
      Attached o value ("-" ++ o.letter ++ value)

/-- What stands before or after a verb. -/
inductive Item where
  | option (o : Opt) (value : String)
  | operand (word : String)

/-- The arguments that an item is spelled with. -/
inductive Item.Spells : Item → List String → Prop where
  | attached {o : Opt} {value arg : String} : o.Attached value arg → Spells (.option o value) [arg]
  | detached {o : Opt} {value arg : String} : o.Bare arg → isOption value = false →
      Spells (.option o value) [arg, value]
  | operand {word : String} : isOption word = false → Spells (.operand word) [word]

/-- The arguments that items are spelled with. -/
inductive Spelled : List Item → List String → Prop where
  | nil : Spelled [] []
  | cons {item : Item} {items : List Item} {args rest : List String} : item.Spells args →
      Spelled items rest → Spelled (item :: items) (args ++ rest)

/-- A command line: options, a verb, items after it, and operands behind `--`. -/
structure Line where
  before : List (Opt × String)
  verb : Verb
  after : List Item
  tail : Option (List String)

/-- The items before the verb. -/
def Line.options (line : Line) : List Item := line.before.map fun (o, value) => .option o value

/-- The items after the verb. -/
def Line.items (line : Line) : List Item := line.after ++ (line.tail.getD []).map .operand

/-- The arguments for operands behind `--`. -/
def tailArgs : Option (List String) → List String
  | none => []
  | some words => "--" :: words

/-- The arguments that a line is written with. -/
inductive Line.Writes (line : Line) : List String → Prop where
  | intro {before after : List String} : Spelled line.options before → Spelled line.after after →
      Writes line (before ++ line.verb.name :: (after ++ tailArgs line.tail))

/-! ## Arguments that are options -/

variable {p q r : Part} {o : Opt} {arg value : String}

theorem isOption_iff : isOption arg = true ↔ ∃ c cs, arg.toList = '-' :: c :: cs := by
  have hdash : "-".toList = ['-'] := rfl
  rw [isOption, Bool.and_eq_true, decide_eq_true_eq, String.startsWith_string_iff, hdash, Ne,
    ← String.toList_inj, hdash]
  constructor
  · rintro ⟨⟨cs, hcs⟩, hne⟩
    cases cs with
    | nil => exact absurd hcs.symm hne
    | cons c cs => exact ⟨c, cs, hcs.symm⟩
  · rintro ⟨c, cs, h⟩
    rw [h]
    exact ⟨⟨c :: cs, rfl⟩, by simp⟩

/-- What does not begin with a hyphen is no option. -/
theorem isOption_eq_false (h : arg.toList.head? ≠ some '-') : isOption arg = false := by
  refine Bool.eq_false_iff.2 fun hoption => ?_
  obtain ⟨c, cs, hcs⟩ := isOption_iff.1 hoption
  rw [hcs] at h
  exact h rfl

theorem isOption_dashes : isOption "--" = true := isOption_iff.2 ⟨'-', [], rfl⟩

theorem ne_dashes (h : isOption arg = false) : arg ≠ "--" := by
  rintro rfl
  rw [isOption_dashes] at h
  cases h

theorem Opt.Bare.isOption (h : o.Bare arg) : isOption arg = true := by
  refine isOption_iff.2 ?_
  cases h with
  | long => exact ⟨'-', o.word.toList, by simp⟩
  | short => cases o <;> exact ⟨_, _, rfl⟩

theorem Opt.Attached.isOption (h : o.Attached value arg) : isOption arg = true := by
  refine isOption_iff.2 ?_
  cases h with
  | long => exact ⟨'-', o.word.toList ++ '=' :: value.toList, by simp⟩
  | short =>
    cases o with
    | config => exact ⟨'c', '=' :: value.toList, by simp [Opt.letter]⟩
    | kind => exact ⟨'t', '=' :: value.toList, by simp [Opt.letter]⟩
  | joined =>
    cases o with
    | config => exact ⟨'c', value.toList, by simp [Opt.letter]⟩
    | kind => exact ⟨'t', value.toList, by simp [Opt.letter]⟩

theorem Opt.Bare.ne_dashes (h : o.Bare arg) : arg ≠ "--" := by
  rw [Ne, ← String.toList_inj]
  cases h <;> cases o <;> simp [Opt.word, Opt.letter]

theorem Opt.Attached.ne_dashes (h : o.Attached value arg) : arg ≠ "--" := by
  rw [Ne, ← String.toList_inj]
  cases h <;> cases o <;> simp [Opt.word, Opt.letter]

/-! ## Taking an option -/

namespace Part

/-- Whether an option can be used. -/
def allows (p : Part) : Opt → Bool
  | .config => true
  | .kind => p.takesKind

/-- Takes an option that has its value. -/
def Adds (p : Part) (o : Opt) (value : String) (q : Part) : Prop :=
  p.allows o = true ∧ p.store o (some value) = .ok q

/-- Nothing is pending. -/
def Settled (p : Part) : Prop := p.pending = none

/-- Nothing is pending at the start. -/
theorem settled_start (v : Option Verb) : ({ verb := v } : Part).Settled := rfl

theorem Settled.settle (h : p.Settled) : p.settle = .ok p := by
  unfold Part.settle
  rw [show p.pending = none from h]

theorem Settled.awaits (h : p.Settled) : p.awaits = false := by
  unfold Part.awaits
  rw [show p.pending = none from h]

/-- What storing a value leaves as it is. -/
theorem store_frame {x : Option String} (h : p.store o x = .ok q) :
    q.verb = p.verb ∧ q.operands = p.operands ∧ q.pending = p.pending := by
  unfold Part.store at h
  repeat' split at h
  all_goals cases h
  all_goals exact ⟨rfl, rfl, rfl⟩

theorem settle_frame (h : p.settle = .ok q) :
    q.verb = p.verb ∧ q.operands = p.operands ∧ q.Settled := by
  unfold Part.settle at h
  split at h
  · next hnone =>
    cases h
    exact ⟨rfl, rfl, hnone⟩
  · exact store_frame h

/-- Takes an option, if it can be used. -/
def takeAllowed (p : Part) (o : Opt) (attached : Option String) : Except Fault Part :=
  if p.allows o then p.take o attached else .error .unknownArgument

theorem long_word (p : Part) (o : Opt) (attached : Option String) :
    p.long o.word.toList attached = p.takeAllowed o attached := by
  unfold Part.long
  rw [String.ofList_toList]
  cases o <;> rfl

theorem option_long (p : Part) (o : Opt) (value : String) :
    p.option ("--" ++ o.word ++ "=" ++ value).toList = p.takeAllowed o (some value) := by
  have htext : ("--" ++ o.word ++ "=" ++ value).toList =
      '-' :: '-' :: (o.word.toList ++ '=' :: value.toList) := by simp
  have htake : (o.word.toList ++ '=' :: value.toList).takeWhile (· ≠ '=') = o.word.toList := by
    cases o <;> rfl
  have hdrop : (o.word.toList ++ '=' :: value.toList).dropWhile (· ≠ '=') =
      '=' :: value.toList := by
    cases o <;> rfl
  rw [htext]
  unfold Part.option
  simp only [htake, hdrop, String.ofList_toList, long_word]

theorem option_long_bare (p : Part) (o : Opt) :
    p.option ("--" ++ o.word).toList = p.takeAllowed o none := by
  have htext : ("--" ++ o.word).toList = '-' :: '-' :: o.word.toList := by simp
  have hdrop : o.word.toList.dropWhile (· ≠ '=') = [] := by cases o <;> rfl
  rw [htext]
  unfold Part.option
  simp only [hdrop, long_word]

/-- In the short form everything behind the letter is the value. -/
theorem option_short (p : Part) (o : Opt) (value : List Char) :
    p.option ("-".toList ++ o.letter.toList ++ value) = p.takeAllowed o (attachedTo value) := by
  cases o <;> rfl

/-- An option with its value attached is taken with it. -/
theorem option_attached (p : Part) (h : o.Attached value arg) :
    p.option arg.toList = p.takeAllowed o (some value) := by
  cases h with
  | long => exact option_long p o value
  | short =>
    have htext : ("-" ++ o.letter ++ "=" ++ value).toList =
        "-".toList ++ o.letter.toList ++ '=' :: value.toList := by simp
    rw [htext, option_short, attachedTo, String.ofList_toList]
  | joined hne hhead =>
    have htext : ("-" ++ o.letter ++ value).toList =
        "-".toList ++ o.letter.toList ++ value.toList := by simp
    have hattached : attachedTo value.toList = some value := by
      unfold attachedTo
      split
      · next hnil => exact absurd (String.toList_eq_nil_iff.1 hnil) hne
      · next hcons => exact absurd (by rw [hcons]; rfl) hhead
      · rw [String.ofList_toList]
    rw [htext, option_short, hattached]

/-- An option without a value waits for the next argument. -/
theorem option_bare (p : Part) (h : o.Bare arg) :
    p.option arg.toList = p.takeAllowed o none := by
  cases h with
  | long => exact option_long_bare p o
  | short =>
    have htext : ("-" ++ o.letter).toList = "-".toList ++ o.letter.toList ++ [] := by simp
    rw [htext, option_short, attachedTo]

theorem help_ne_ok : p.help ≠ .ok q := by
  intro h
  unfold Part.help at h
  cases hp : p.settle <;> rw [hp] at h <;> cases h

theorem exists_of_long {name : List Char} {attached : Option String}
    (h : p.long name attached = .ok q) : ∃ o : Opt, name = o.word.toList := by
  unfold Part.long at h
  split at h
  · next hname => exact ⟨.config, by rw [← String.toList_ofList (l := name), hname]; rfl⟩
  · next hname => exact ⟨.kind, by rw [← String.toList_ofList (l := name), hname]; rfl⟩
  · split at h
    · cases h
    · exact absurd h help_ne_ok
  · cases h

theorem exists_of_short {cs : List Char} (h : p.short cs = .ok q) :
    ∃ (o : Opt) (value : List Char), cs = o.letter.toList ++ value := by
  unfold Part.short at h
  split at h
  · next value => exact ⟨.config, value, rfl⟩
  · next value => exact ⟨.kind, value, rfl⟩
  · exact absurd h help_ne_ok
  · cases h

/-- What begins with a hyphen and the letter of an option is that option. -/
theorem bare_or_attached {value : List Char}
    (h : arg.toList = "-".toList ++ o.letter.toList ++ value) :
    o.Bare arg ∨ ∃ v, o.Attached v arg := by
  cases value with
  | nil =>
    obtain rfl : arg = "-" ++ o.letter := by
      rw [← String.toList_inj, h]
      simp
    exact Or.inl .short
  | cons c value =>
    by_cases hc : c = '='
    · obtain rfl : arg = "-" ++ o.letter ++ "=" ++ String.ofList value := by
        rw [← String.toList_inj, h, hc]
        simp
      exact Or.inr ⟨_, .short⟩
    · obtain rfl : arg = "-" ++ o.letter ++ String.ofList (c :: value) := by
        rw [← String.toList_inj, h]
        simp
      refine Or.inr ⟨_, .joined ?_ ?_⟩
      · rw [Ne, ← String.toList_inj, String.toList_ofList]
        exact List.cons_ne_nil c value
      · rw [String.toList_ofList, List.head?_cons]
        exact fun h => hc (Option.some.inj h)

/-- What an argument can be that is taken as an option. -/
theorem exists_of_option (harg : isOption arg = true) (h : p.option arg.toList = .ok q) :
    ∃ o : Opt, o.Bare arg ∨ ∃ value, o.Attached value arg := by
  obtain ⟨c, cs, htext⟩ := isOption_iff.1 harg
  unfold Part.option at h
  rw [htext] at h
  split at h
  · next name hname =>
    obtain ⟨rfl, rfl⟩ : c = '-' ∧ cs = name := by simpa using hname
    have happend : cs.takeWhile (· ≠ '=') ++ cs.dropWhile (· ≠ '=') = cs :=
      List.takeWhile_append_dropWhile
    split at h
    · next e value hdrop =>
      obtain ⟨o, ho⟩ := exists_of_long h
      have he : e = '=' := by
        have hhead := List.head?_dropWhile_not (fun c => decide (c ≠ '=')) cs
        rw [hdrop] at hhead
        simpa using hhead
      rw [ho, hdrop, he] at happend
      obtain rfl : arg = "--" ++ o.word ++ "=" ++ String.ofList value := by
        rw [← String.toList_inj, htext, ← happend]
        simp
      exact ⟨o, Or.inr ⟨_, .long⟩⟩
    · obtain ⟨o, ho⟩ := exists_of_long h
      obtain rfl : arg = "--" ++ o.word := by
        rw [← String.toList_inj, htext, ho]
        simp
      exact ⟨o, Or.inl .long⟩
  · obtain ⟨o, value, hvalue⟩ := exists_of_short h
    have heq : arg.toList = "-".toList ++ o.letter.toList ++ value := by
      rw [htext, List.append_assoc, ← hvalue]
      rfl
    exact ⟨o, bare_or_attached heq⟩

/-! ## Values that are looked at later -/

theorem allows_congr (h : q.verb = p.verb) (o : Opt) : q.allows o = p.allows o := by
  unfold allows takesKind
  rw [h]

/-- A step before which a pending value is looked at. -/
def SettlesFirst (step : Part → Except Fault Part) : Prop :=
  ∀ p r : Part, step p = .ok r ↔ ∃ q, p.settle = .ok q ∧ step q = .ok r

/-- A step settles first if it fails where that fails, and otherwise goes on
    with what is settled. -/
theorem settlesFirst_of {step : Part → Except Fault Part}
    (herror : ∀ {p e r}, p.settle = .error e → step p ≠ .ok r)
    (hok : ∀ {p q}, p.settle = .ok q → step p = step q) : SettlesFirst step := by
  intro p r
  cases hp : p.settle with
  | error e => exact ⟨fun h => absurd h (herror hp), fun ⟨_, hq, _⟩ => nomatch hq⟩
  | ok q =>
    constructor
    · exact fun h => ⟨q, rfl, (hok hp).symm.trans h⟩
    · rintro ⟨_, ⟨⟩, h⟩
      exact (hok hp).trans h

theorem settlesFirst_settle : SettlesFirst Part.settle :=
  settlesFirst_of (fun h hr => by rw [h] at hr; cases hr)
    fun h => h.trans (settle_frame h).2.2.settle.symm

theorem settlesFirst_takeAllowed (o : Opt) (x : Option String) :
    SettlesFirst (·.takeAllowed o x) := by
  refine settlesFirst_of (fun {p e r} h hr => ?_) fun {p q} h => ?_
  · unfold takeAllowed Part.take at hr
    rw [h] at hr
    split at hr <;> cases hr
  · obtain ⟨hverb, -, hsettled⟩ := settle_frame h
    unfold takeAllowed Part.take
    rw [allows_congr hverb, h, hsettled.settle]

/-- A pending value is looked at before an option is taken. -/
theorem settlesFirst_option (harg : isOption arg = true) :
    SettlesFirst (·.option arg.toList) := by
  intro p r
  have hoption {p' : Part} (h : p'.option arg.toList = .ok r) :
      ∃ o x, ∀ p : Part, p.option arg.toList = p.takeAllowed o x := by
    obtain ⟨o, h | ⟨value, h⟩⟩ := exists_of_option harg h
    · exact ⟨o, none, fun p => option_bare p h⟩
    · exact ⟨o, some value, fun p => option_attached p h⟩
  constructor
  · intro h
    obtain ⟨o, x, htake⟩ := hoption h
    simp only [htake] at h ⊢
    exact (settlesFirst_takeAllowed o x p r).1 h
  · rintro ⟨q, hq, h⟩
    obtain ⟨o, x, htake⟩ := hoption h
    simp only [htake] at h ⊢
    exact (settlesFirst_takeAllowed o x p r).2 ⟨q, hq, h⟩

/-- A pending value is looked at before an operand is taken. -/
theorem settlesFirst_operand (word : String) : SettlesFirst (·.operand word) := by
  refine settlesFirst_of (fun {p e r} h hr => ?_) fun {p q} h => ?_
  · unfold Part.operand at hr
    rw [h] at hr
    repeat' split at hr
    all_goals cases hr
  · obtain ⟨hverb, hoperands, hsettled⟩ := settle_frame h
    unfold Part.operand
    rw [hverb, hoperands, h, hsettled.settle]

/-- What goes on after a step that settles first. -/
theorem SettlesFirst.exists {step : Part → Except Fault Part} (hstep : SettlesFirst step)
    {P : Part → Prop} : (∃ r, step p = .ok r ∧ P r) ↔
      ∃ q, p.settle = .ok q ∧ ∃ r, step q = .ok r ∧ P r := by
  constructor
  · rintro ⟨r, hr, hP⟩
    obtain ⟨q, hq, hr⟩ := (hstep p r).1 hr
    exact ⟨q, hq, r, hr, hP⟩
  · rintro ⟨q, hq, r, hr, hP⟩
    exact ⟨r, (hstep p r).2 ⟨q, hq, hr⟩, hP⟩

/-- What waits for its value cannot be looked at. -/
theorem settle_of_awaits (h : p.awaits = true) : p.settle ≠ .ok q := by
  intro hq
  unfold Part.awaits at h
  unfold Part.settle at hq
  split at h
  · next o hpending =>
    rw [hpending] at hq
    cases o <;> cases hq
  · cases h

theorem awaits_give (p : Part) (value : String) : (p.give value).awaits = false := by
  unfold Part.awaits Part.give
  cases p.pending <;> rfl

theorem takeAllowed_some (hp : p.Settled) :
    p.takeAllowed o (some value) = .ok q ↔ p.Adds o value q := by
  unfold takeAllowed Part.take Adds
  rw [hp.settle]
  split
  · next h => exact ⟨fun hstore => ⟨h, hstore⟩, And.right⟩
  · next h => exact ⟨nofun, fun hadds => absurd hadds.1 h⟩

/-- An option that waits is settled with the value that it is given. -/
theorem takeAllowed_none (hp : p.Settled) :
    (∃ q, p.takeAllowed o none = .ok q ∧ (q.give value).settle = .ok r) ↔ p.Adds o value r := by
  have hnone : { p with pending := none } = p := by
    cases p
    cases hp
    rfl
  unfold takeAllowed Part.take Adds
  rw [hp.settle]
  constructor
  · rintro ⟨q, hq, hr⟩
    split at hq
    · next h =>
      cases hq
      refine ⟨h, ?_⟩
      rw [← hnone]
      exact hr
    · cases hq
  · rintro ⟨h, hr⟩
    refine ⟨{ p with pending := some (o, none) }, ?_, ?_⟩
    · rw [if_pos h]
      rfl
    · rw [← hnone] at hr
      exact hr

/-- An option waits if it is taken without a value. -/
theorem awaits_of_takeAllowed {x : Option String} (h : p.takeAllowed o x = .ok q) :
    q.awaits = x.isNone := by
  unfold takeAllowed at h
  split at h
  · obtain ⟨s, hs, h⟩ := Except.bind_eq_ok_iff.1 h
    cases x with
    | none =>
      cases h
      rfl
    | some value =>
      have hpending : q.pending = s.pending := (store_frame h).2.2
      exact Settled.awaits (hpending.trans (settle_frame hs).2.2)
  · cases h

theorem awaits_of_operand {word : String} (h : p.operand word = .ok q) : q.awaits = false := by
  unfold Part.operand at h
  split at h
  · split at h
    · obtain ⟨s, hs, h⟩ := Except.bind_eq_ok_iff.1 h
      cases h
      exact Settled.awaits (settle_frame hs).2.2
    · cases h
  · cases h

/-! ## Faults that are not calls for help -/

theorem store_ne_help {x : Option String} : p.store o x ≠ .error .help := by
  intro h
  unfold Part.store at h
  repeat' split at h
  all_goals cases h

theorem settle_ne_help : p.settle ≠ .error .help := by
  intro h
  unfold Part.settle at h
  split at h
  · cases h
  · exact store_ne_help h

theorem takeAllowed_ne_help {x : Option String} : p.takeAllowed o x ≠ .error .help := by
  unfold takeAllowed
  split
  · refine Except.bind_ne_error settle_ne_help fun s _ => ?_
    cases x with
    | none => exact nofun
    | some value => exact store_ne_help
  · exact nofun

theorem operand_ne_help {word : String} : p.operand word ≠ .error .help := by
  unfold Part.operand
  split
  · split
    · exact Except.bind_ne_error settle_ne_help fun _ _ => nofun
    · exact nofun
  · exact nofun

end Part

end TypedStore.CommandLine
