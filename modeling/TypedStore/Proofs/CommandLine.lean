/-
  TypedStore — what a command line means.

  * `Line.Means`: the file of a line is given at most once on either side of
    the verb, a kind at most once behind a verb that takes one, and the verb has
    all of its operands;
  * `Part.takesAll_iff`: reading items one after another gathers what they give;
  * `read_eq_ok_iff_means`: a line is read as what it means, however it is
    written;
  * `Command.written`: a way to write every command, and `read_written`;
  * `Line.Wrong`: what makes a line a fault;
  * `command_lines_are_read_as_written`: all this of all arguments.
-/
import TypedStore.Proofs.Arguments

namespace TypedStore.CommandLine

variable {α : Type} {p q r : Part} {items : List Item} {value word : String} {args : List String}
  {line : Line} {i : Invocation} {v : Verb} {kind : Kind} {command : Command}

/-! ## What items give -/

/-- The values that an option is given. -/
def valuesOf (o : Opt) (items : List Item) : List String :=
  items.filterMap fun
    | .option o' value => if o' = o then some value else none
    | .operand _ => none

/-- The operands. -/
def wordsOf (items : List Item) : List String :=
  items.filterMap fun
    | .operand word => some word
    | .option .. => none

/-- An option is given at most once, with a value that can be read: what is
    known of it before and after. -/
inductive Given (read : String → Option α) : Option α → List String → Option α → Prop where
  | kept (x : Option α) : Given read x [] x
  | taken {value : String} {a : α} : read value = some a → Given read none [value] (some a)

/-- The path of a file; it is not empty. -/
def path? (value : String) : Option String := if value = "" then none else some value

/-- The command of a verb, with its operands and the kind of a value. -/
inductive Command.Of : Verb → List String → Kind → Command → Prop where
  | set (key value : String) (kind : Kind) : Of .set [key, value] kind (.set key value kind)
  | get (key : String) (kind : Kind) : Of .get [key] kind (.get key kind)
  | remove (key : String) (kind : Kind) : Of .remove [key] kind (.remove key)
  | clear (kind : Kind) : Of .clear [] kind .clear
  | wipe (kind : Kind) : Of .wipe [] kind .wipe

/-- What a line means.  The file that is named behind the verb comes first. -/
inductive Line.Means (line : Line) : Invocation → Prop where
  | intro {before after : Option String} {kind : Option Kind} {command : Command} :
      Given path? none (valuesOf .config line.options) before →
      valuesOf .kind line.options = [] →
      Given path? none (valuesOf .config line.items) after →
      Given Kind.ofName? none (valuesOf .kind line.items) kind →
      valuesOf .kind line.items = [] ∨ line.verb.takesKind = true →
      Command.Of line.verb (wordsOf line.items) (kind.getD defaultKind) command →
      Means line ⟨(after.or before).getD defaultConfig, command⟩

/-! ## Gathering -/

theorem wordsOf_nil : wordsOf [] = [] := rfl

theorem wordsOf_operand : wordsOf (.operand word :: items) = word :: wordsOf items := rfl

theorem given_cons {read : String → Option α} {x y : Option α} {values : List String} :
    Given read x (value :: values) y ↔
      x = none ∧ ∃ a, read value = some a ∧ Given read (some a) values y := by
  constructor
  · intro h
    cases h with
    | taken h => exact ⟨rfl, _, h, .kept _⟩
  · rintro ⟨rfl, a, ha, h⟩
    cases h with
    | kept => exact .taken ha

namespace Part

/-- How many operands the verb has. -/
def room (p : Part) : Nat := p.verb.elim 0 Verb.operands

/-- What is known after items have been read. -/
structure Gathers (p : Part) (items : List Item) (q : Part) : Prop where
  verb : q.verb = p.verb
  settled : q.Settled
  config : Given path? p.config (valuesOf .config items) q.config
  kind : Given Kind.ofName? p.kind (valuesOf .kind items) q.kind
  takesKind : valuesOf .kind items = [] ∨ p.takesKind = true
  operands : q.operands = p.operands ++ wordsOf items
  room : wordsOf items = [] ∨ q.operands.length ≤ p.room

theorem adds_config : p.Adds .config value q ↔
    p.config = none ∧ ∃ path, path? value = some path ∧ q = { p with config := some path } := by
  unfold Adds Part.store allows path?
  constructor
  · rintro ⟨-, h⟩
    simp only at h
    split at h
    · cases h
    · next hnone =>
      split at h
      · cases h
      · next hne =>
        cases h
        exact ⟨Option.not_isSome_iff_eq_none.1 hnone, value, if_neg hne, rfl⟩
  · rintro ⟨hnone, path, hpath, rfl⟩
    split at hpath
    · cases hpath
    · next hne =>
      cases hpath
      refine ⟨rfl, ?_⟩
      simp only [hnone, hne]
      rfl

theorem adds_kind : p.Adds .kind value q ↔ p.takesKind = true ∧
    p.kind = none ∧ ∃ kind, Kind.ofName? value = some kind ∧ q = { p with kind := some kind } := by
  unfold Adds Part.store allows
  refine and_congr_right fun _ => ?_
  constructor
  · intro h
    simp only at h
    split at h
    · cases h
    · next hnone =>
      split at h
      · next kind hkind =>
        cases h
        exact ⟨Option.not_isSome_iff_eq_none.1 hnone, kind, hkind, rfl⟩
      · cases h
  · rintro ⟨hnone, kind, hkind, rfl⟩
    simp only [hnone, hkind]
    rfl

theorem takes_operand (hp : p.Settled) : p.operand word = .ok q ↔
    p.operands.length < p.room ∧ q = { p with operands := p.operands ++ [word] } := by
  unfold Part.operand
  rw [hp.settle]
  split
  · next v hverb =>
    have hroom : p.room = v.operands := by
      unfold Part.room
      rw [hverb]
      rfl
    rw [hroom]
    split
    · next h =>
      constructor
      · intro hq
        cases hq
        exact ⟨h, rfl⟩
      · rintro ⟨-, rfl⟩
        rfl
    · next h => exact ⟨nofun, fun hq => absurd hq.1 h⟩
  · next hverb =>
    have hroom : p.room = 0 := by
      unfold Part.room
      rw [hverb]
      rfl
    rw [hroom]
    exact ⟨nofun, fun h => absurd h.1 (Nat.not_lt_zero _)⟩

/-- **Reading items one after another gathers what they give.** -/
theorem takesAll_iff (hp : p.Settled) : p.TakesAll items q ↔ p.Gathers items q := by
  induction items generalizing p with
  | nil =>
    constructor
    · rintro rfl
      exact ⟨rfl, hp, .kept _, .kept _, Or.inl rfl, (List.append_nil _).symm, Or.inl rfl⟩
    · rintro ⟨hverb, hsettled, hconfig, hkind, -, hoperands, -⟩
      obtain ⟨verb, config, kind, operands, pending⟩ := p
      obtain ⟨verb', config', kind', operands', pending'⟩ := q
      cases hverb
      cases hp
      cases hsettled
      cases hconfig
      cases hkind
      rw [wordsOf_nil, List.append_nil] at hoperands
      cases hoperands
      rfl
  | cons item items ih =>
    show (∃ s, p.Takes item s ∧ s.TakesAll items q) ↔ _
    match item with
    | .option .config value =>
      have hsettled (path : String) : ({ p with config := some path } : Part).Settled := hp
      constructor
      · rintro ⟨s, hs, h⟩
        obtain ⟨hnone, path, hpath, rfl⟩ := adds_config.1 hs
        have hg := (ih (hsettled path)).1 h
        exact { hg with config := given_cons.2 ⟨hnone, path, hpath, hg.config⟩ }
      · intro hg
        obtain ⟨hnone, path, hpath, hconfig⟩ := given_cons.1 hg.config
        exact ⟨_, adds_config.2 ⟨hnone, path, hpath, rfl⟩,
          (ih (hsettled path)).2 { hg with config := hconfig }⟩
    | .option .kind value =>
      have hsettled (kind : Kind) : ({ p with kind := some kind } : Part).Settled := hp
      constructor
      · rintro ⟨s, hs, h⟩
        obtain ⟨htakes, hnone, kind, hkind, rfl⟩ := adds_kind.1 hs
        have hg := (ih (hsettled kind)).1 h
        exact { hg with
          kind := given_cons.2 ⟨hnone, kind, hkind, hg.kind⟩
          takesKind := Or.inr htakes }
      · intro hg
        obtain ⟨hnone, kind, hname, hkind⟩ := given_cons.1 hg.kind
        have htakes : p.takesKind = true := hg.takesKind.resolve_left (List.cons_ne_nil _ _)
        exact ⟨_, adds_kind.2 ⟨htakes, hnone, kind, hname, rfl⟩,
          (ih (hsettled kind)).2 { hg with kind := hkind, takesKind := Or.inr htakes }⟩
    | .operand word =>
      have hsettled : ({ p with operands := p.operands ++ [word] } : Part).Settled := hp
      have happend : p.operands ++ wordsOf (.operand word :: items) =
          p.operands ++ [word] ++ wordsOf items := by
        rw [wordsOf_operand, List.append_assoc]
        rfl
      constructor
      · rintro ⟨s, hs, h⟩
        obtain ⟨hroom, rfl⟩ := (takes_operand hp).1 hs
        have hg := (ih hsettled).1 h
        -- there is room for this operand; if more follow, there is room for all
        refine { hg with operands := hg.operands.trans happend.symm, room := Or.inr ?_ }
        rcases hg.room with hnil | hlength
        · rw [hg.operands, hnil, List.append_nil, List.length_append]
          exact hroom
        · exact hlength
      · intro hg
        have hlength := hg.room.resolve_left (List.cons_ne_nil _ _)
        have hroom : p.operands.length < p.room := by
          rw [hg.operands, happend, List.length_append, List.length_append, List.length_singleton]
            at hlength
          omega
        exact ⟨_, (takes_operand hp).2 ⟨hroom, rfl⟩, (ih hsettled).2
          { hg with operands := hg.operands.trans happend, room := Or.inr hlength }⟩

end Part

/-! ## Lines -/

theorem commandOf_eq_ok_iff (hv : q.verb = some v) : commandOf q = .ok command ↔
    Command.Of v q.operands (q.kind.getD defaultKind) command := by
  obtain ⟨verb, config, kind, operands, pending⟩ := q
  cases hv
  constructor
  · intro h
    unfold commandOf at h
    split at h
    case h_6 => cases h
    all_goals next hverb hoperands =>
      cases hverb
      cases hoperands
      cases h
      constructor
  · show Command.Of v operands (kind.getD defaultKind) command → _
    intro h
    unfold commandOf
    generalize kind.getD defaultKind = k at h ⊢
    cases h <;> rfl

theorem Command.Of.length {words : List String} (h : Command.Of v words kind command) :
    words.length = v.operands := by
  cases h <;> rfl

/-- Before the verb there are no operands. -/
theorem wordsOf_options (line : Line) : wordsOf line.options = [] := by
  unfold wordsOf Line.options
  rw [List.filterMap_map]
  exact List.filterMap_eq_nil_iff.2 fun _ _ => rfl

/-- **A line is read as what it means**, however it is written. -/
theorem read_eq_ok_iff_means (h : line.Writes args) : read args = .ok i ↔ line.Means i := by
  have hbefore {p : Part} : ({} : Part).TakesAll line.options p ↔
      ({} : Part).Gathers line.options p :=
    Part.takesAll_iff (Part.settled_start none)
  have hafter {q : Part} : ({ verb := some line.verb } : Part).TakesAll line.items q ↔
      ({ verb := some line.verb } : Part).Gathers line.items q :=
    Part.takesAll_iff (Part.settled_start (some line.verb))
  rw [read_eq_ok_iff h]
  constructor
  · rintro ⟨p, q, command, hp, hq, hcommand, rfl⟩
    have hp := hbefore.1 hp
    have hq := hafter.1 hq
    have hoperands : q.operands = wordsOf line.items := hq.operands
    have hof := (commandOf_eq_ok_iff hq.verb).1 hcommand
    rw [hoperands] at hof
    exact .intro hp.config (hp.takesKind.resolve_right Bool.false_ne_true) hq.config hq.kind
      hq.takesKind hof
  · intro hmeans
    cases hmeans with
    | @intro before after kind command hconfig hnone hconfig' hkind htakes hof =>
      -- the parts before and after the verb are what the items give
      refine ⟨{ config := before }, ⟨some line.verb, after, kind, wordsOf line.items, none⟩, command,
        hbefore.2 ?_, hafter.2 ?_, (commandOf_eq_ok_iff rfl).2 hof, rfl⟩
      · refine ⟨rfl, rfl, hconfig, ?_, Or.inl hnone, ?_, Or.inl (wordsOf_options line)⟩
        · rw [hnone]
          exact .kept none
        · rw [wordsOf_options]
          rfl
      · exact ⟨rfl, rfl, hconfig', hkind, htakes, rfl, Or.inr (Nat.le_of_eq hof.length)⟩

/-! ## Commands and how they are written -/

/-- The names of the types of values. -/
def typeNames : List String :=
  ["bool", "i8", "i16", "i32", "i64", "u8", "u16", "u32", "u64", "f32", "f64", "text", "blob"]

theorem map_name_storable : Kind.storable.map Kind.name = typeNames := rfl

theorem ofName?_name (h : kind ∈ Kind.storable) : Kind.ofName? kind.name = some kind := by
  revert kind
  decide

theorem ofName?_eq_none {name : String} (h : name ∉ typeNames) : Kind.ofName? name = none := by
  refine List.find?_eq_none.2 fun kind hkind hname => h ?_
  rw [← map_name_storable, ← eq_of_beq hname]
  exact List.mem_map_of_mem hkind

namespace Command

/-- The verb of a command. -/
def verb : Command → Verb
  | set .. => .set
  | get .. => .get
  | remove .. => .remove
  | clear => .clear
  | wipe => .wipe

/-- The operands of a command. -/
def words : Command → List String
  | set key value _ => [key, value]
  | get key _ | remove key => [key]
  | clear | wipe => []

/-- The kind that a command is for. -/
def kind? : Command → Option Kind
  | set _ _ kind | get _ kind => some kind
  | remove _ | clear | wipe => none

theorem of_iff {words : List String} : Command.Of v words kind command ↔
    command.verb = v ∧ command.words = words ∧ command.kind?.getD kind = kind := by
  constructor
  · intro h
    cases h <;> exact ⟨rfl, rfl, rfl⟩
  · rintro ⟨rfl, rfl, hkind⟩
    cases command with
    | set key value k =>
      obtain rfl : k = kind := hkind
      exact .set _ _ _
    | get key k =>
      obtain rfl : k = kind := hkind
      exact .get _ _
    | remove => exact .remove _ _
    | clear => exact .clear _
    | wipe => exact .wipe _

theorem takesKind_of_kind? (h : command.kind? ≠ none) : command.verb.takesKind = true := by
  cases command <;> first | rfl | exact absurd rfl h

/-- The plain way to write a command: nothing in it is left to a default, and
    no operand can be taken for an option. -/
def written (config : String) : Command → List String
  | set key value kind => ["--config=" ++ config, "set", "--type=" ++ kind.name, "--", key, value]
  | get key kind => ["--config=" ++ config, "get", "--type=" ++ kind.name, "--", key]
  | remove key => ["--config=" ++ config, "remove", "--", key]
  | clear => ["--config=" ++ config, "clear"]
  | wipe => ["--config=" ++ config, "wipe"]

end Command

/-- A line that asks for a command and names the file and the kind once. -/
structure Line.Asks (line : Line) (config : String) (command : Command) : Prop where
  verb : line.verb = command.verb
  config : valuesOf .config line.options ++ valuesOf .config line.items = [config]
  noKind : valuesOf .kind line.options = []
  kind : valuesOf .kind line.items = command.kind?.toList.map Kind.name
  words : wordsOf line.items = command.words

/-- What is wrong with a line. -/
inductive Line.Wrong (line : Line) : Prop where
  | operands : (wordsOf line.items).length ≠ line.verb.operands → Wrong line
  | refused : valuesOf .kind line.items ≠ [] → line.verb.takesKind = false → Wrong line
  | unknown {name : String} : name ∈ valuesOf .kind line.items → name ∉ typeNames → Wrong line

theorem Given.isSome_of_mem {read : String → Option α} {x y : Option α} {values : List String}
    (h : Given read x values y) (hv : value ∈ values) : (read value).isSome = true := by
  cases h with
  | kept => cases hv
  | taken h =>
    rw [List.mem_singleton.1 hv, h]
    rfl

theorem Line.Asks.means {config : String} (h : line.Asks config command) (hc : config ≠ "")
    (hkind : ∀ kind ∈ command.kind?, kind ∈ Kind.storable) : line.Means ⟨config, command⟩ := by
  have hpath : path? config = some config := if_neg hc
  have hgiven : Given Kind.ofName? none (valuesOf .kind line.items) command.kind? := by
    rw [h.kind]
    cases hk : command.kind? with
    | none => exact .kept none
    | some kind => exact .taken (ofName?_name (hkind kind hk))
  have htakes : valuesOf .kind line.items = [] ∨ line.verb.takesKind = true := by
    cases hk : command.kind? with
    | none =>
      rw [h.kind, hk]
      exact Or.inl rfl
    | some kind =>
      rw [h.verb]
      exact Or.inr (Command.takesKind_of_kind? (by rw [hk]; exact Option.some_ne_none kind))
  have hof : Command.Of line.verb (wordsOf line.items) (command.kind?.getD defaultKind) command :=
    Command.of_iff.2 ⟨h.verb.symm, h.words.symm, by cases command.kind? <;> rfl⟩
  rcases List.append_eq_singleton_iff.1 h.config with ⟨hbefore, hafter⟩ | ⟨hbefore, hafter⟩
  · have hnone : Given path? none (valuesOf .config line.options) none := hbefore ▸ .kept none
    have hsome : Given path? none (valuesOf .config line.items) (some config) :=
      hafter ▸ .taken hpath
    have hmeans := Line.Means.intro hnone h.noKind hsome hgiven htakes hof
    exact hmeans
  · have hsome : Given path? none (valuesOf .config line.options) (some config) :=
      hbefore ▸ .taken hpath
    have hnone : Given path? none (valuesOf .config line.items) none := hafter ▸ .kept none
    have hmeans := Line.Means.intro hsome h.noKind hnone hgiven htakes hof
    exact hmeans

/-- The line that is written in the plain way. -/
def Command.plainLine (config : String) (command : Command) : Line where
  before := [(.config, config)]
  verb := command.verb
  after := command.kind?.toList.map fun kind => .option .kind kind.name
  tail := if command.words = [] then none else some command.words

theorem Command.writes_plainLine (config : String) (command : Command) :
    (command.plainLine config).Writes (command.written config) := by
  have hconfig : (Item.option .config config).Spells ["--config=" ++ config] := .attached .long
  have hbefore : Spelled (command.plainLine config).options (["--config=" ++ config] ++ []) :=
    .cons hconfig .nil
  have hkind (kind : Kind) : Spelled [.option .kind kind.name] (["--type=" ++ kind.name] ++ []) :=
    .cons (.attached .long) .nil
  cases command with
  | set key value kind => exact .intro hbefore (hkind kind)
  | get key kind => exact .intro hbefore (hkind kind)
  | remove key => exact .intro hbefore .nil
  | clear => exact .intro hbefore .nil
  | wipe => exact .intro hbefore .nil

theorem Command.asks_plainLine (config : String) (command : Command) :
    (command.plainLine config).Asks config command := by
  cases command <;> exact ⟨rfl, rfl, rfl, rfl, rfl⟩

/-- **The plain way to write a command is read as that command.** -/
theorem read_written {config : String} (hc : config ≠ "")
    (hkind : ∀ kind ∈ command.kind?, kind ∈ Kind.storable) :
    read (command.written config) = .ok ⟨config, command⟩ :=
  (read_eq_ok_iff_means (command.writes_plainLine config)).2
    ((command.asks_plainLine config).means hc hkind)

theorem Line.Wrong.not_means (h : line.Wrong) : ¬ line.Means i := by
  rintro ⟨-, -, -, hkind, htakes, hof⟩
  cases h with
  | operands h => exact h hof.length
  | refused h hfalse =>
    refine htakes.elim h fun htrue => ?_
    rw [hfalse] at htrue
    cases htrue
  | unknown hmem hname =>
    have hread := hkind.isSome_of_mem hmem
    rw [ofName?_eq_none hname] at hread
    cases hread

/-- A line with nothing before its verb. -/
theorem writes_after (v : Verb) (h : Spelled items args) (tail : Option (List String)) :
    Line.Writes ⟨[], v, items, tail⟩ (v.name :: (args ++ tailArgs tail)) :=
  @Line.Writes.intro ⟨[], v, items, tail⟩ [] args .nil h

theorem Fault.exitCode_of_ne_help {fault : Fault} (h : fault ≠ .help) : fault.exitCode = 2 := by
  cases fault <;> first | rfl | exact absurd rfl h

/-- A line without a meaning is a fault, and no call for help. -/
theorem Line.Writes.exists_fault (h : line.Writes args) (hnot : ∀ i, ¬ line.Means i) :
    ∃ fault, read args = .error fault ∧ fault ≠ .help ∧ fault.exitCode = 2 := by
  cases hread : read args with
  | ok i => exact absurd ((read_eq_ok_iff_means h).1 hread) (hnot i)
  | error fault =>
    have hhelp : fault ≠ .help := by
      rintro rfl
      exact read_ne_help h hread
    exact ⟨fault, rfl, hhelp, Fault.exitCode_of_ne_help hhelp⟩

/-- **Command lines are read as they are written.**  A line that is written in
    any way is read as what it means; what is read is a line with this meaning.
    So every command, with any operands, can be written in the plain way, and
    wherever and however its options are written otherwise, it is read as the
    same.  A line with something wrong is a fault: it asks neither for another
    command nor for help. -/
theorem command_lines_are_read_as_written :
    (∀ line args i, Line.Writes line args → (read args = .ok i ↔ line.Means i)) ∧
    (∀ args i, read args = .ok i → ∃ line : Line, line.Writes args ∧ line.Means i) ∧
    (∀ config command, config ≠ "" → (∀ kind ∈ command.kind?, kind ∈ Kind.storable) →
      read (command.written config) = .ok ⟨config, command⟩ ∧
      ∀ line args, Line.Writes line args → line.Asks config command →
        read args = .ok ⟨config, command⟩) ∧
    ∀ line args, Line.Writes line args → line.Wrong →
      ∃ fault, read args = .error fault ∧ fault ≠ .help ∧ fault.exitCode = 2 := by
  refine ⟨fun line args i h => read_eq_ok_iff_means h, fun args i h => ?_,
    fun config command hc hkind => ⟨read_written hc hkind, fun line args h hasks =>
      (read_eq_ok_iff_means h).2 (hasks.means hc hkind)⟩, fun line args h hwrong => ?_⟩
  · obtain ⟨line, hline⟩ := exists_line h
    exact ⟨line, hline, (read_eq_ok_iff_means hline).1 h⟩
  · exact h.exists_fault fun _ => hwrong.not_means

theorem command_lines_are_read_as_written_set :
    read ["--config=kv.toml", "set", "--type=u8", "--", "-k", "--type"] =
        .ok ⟨"kv.toml", .set "-k" "--type" (.int .u8)⟩ ∧
      read ["set", "-c", "kv.toml", "k", "-tu8", "42"] =
        .ok ⟨"kv.toml", .set "k" "42" (.int .u8)⟩ ∧
      (∃ line : Line, line.Writes ["wipe"] ∧ line.Means ⟨"unikv.toml", .wipe⟩) ∧
      read ["wipe"] = .ok ⟨"unikv.toml", .wipe⟩ ∧
      ∃ fault, read ["remove", "k", "--type=u8"] = .error fault ∧ fault ≠ .help ∧
        fault.exitCode = 2 := by
  obtain ⟨hmeans, hline, hcommand, hwrong⟩ := command_lines_are_read_as_written
  have hkind (key value : String) :
      ∀ kind ∈ (Command.set key value (.int .u8)).kind?, kind ∈ Kind.storable := by
    rintro _ ⟨⟩
    decide
  have hc : (Item.option .config "kv.toml").Spells ["-c", "kv.toml"] :=
    .detached .short (isOption_eq_false (by decide))
  have hk : (Item.operand "k").Spells ["k"] := .operand (isOption_eq_false (by decide))
  have ht : (Item.option .kind "u8").Spells ["-tu8"] := .attached (.joined (by decide) (by decide))
  have ht' : (Item.option .kind "u8").Spells ["--type=u8"] := .attached .long
  have hv : (Item.operand "42").Spells ["42"] := .operand (isOption_eq_false (by decide))
  have hset := writes_after .set (Spelled.cons hc (.cons hk (.cons ht (.cons hv .nil)))) none
  have hremove := writes_after .remove (Spelled.cons hk (.cons ht' .nil)) none
  have hwipe := writes_after .wipe .nil none
  have hplain : Line.Means ⟨[], .wipe, [], none⟩ ⟨"unikv.toml", .wipe⟩ :=
    @Line.Means.intro ⟨[], .wipe, [], none⟩ none none none .wipe (.kept none) rfl (.kept none)
      (.kept none) (Or.inl rfl) (.wipe _)
  have hread := (hmeans _ _ _ hwipe).2 hplain
  have hwritten : (Command.set "-k" "--type" (.int .u8)).written "kv.toml" =
      ["--config=kv.toml", "set", "--type=u8", "--", "-k", "--type"] := by decide
  refine ⟨?_, (hcommand "kv.toml" (.set "k" "42" (.int .u8)) (by decide) (hkind _ _)).2 _ _ hset
    ⟨rfl, rfl, rfl, rfl, rfl⟩, hline _ _ hread, hread,
    hwrong _ _ hremove (.refused (by decide) rfl)⟩
  rw [← hwritten]
  exact (hcommand _ _ (by decide) (hkind _ _)).1

end TypedStore.CommandLine
