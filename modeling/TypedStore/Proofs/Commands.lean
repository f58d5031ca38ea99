/-
  TypedStore — command lines that run one after another.

  Each command line is a process of its own: it reads the configuration, opens
  the engine, asks it for at most one operation, and gives it up.  What is
  stored stays on the host.

  * `CommandLine.Opens`: the configuration in a file opens an engine; a command
    line for the file does to it what the operation of its command does
    (`Opens.run`), and the next one finds it open in the same way;
  * `CommandLine.Finds`: command lines for a file find an image under a key, and
    `Finds.after` that they go on to do so while none of them changes it;
  * `command_lines_keep_entries`: so a value that was set is read by a later
    command line, and one that was removed is not;
  * `command_line_misses_a_file`: but an engine can be removed without an error
    and still be there.
-/
import Mathlib
import TypedStore.Command.Run
import TypedStore.Proofs.Emptied
import TypedStore.Proofs.Reading

namespace TypedStore

/-! ## Configuration files -/

namespace Config

variable {path : String} {files : FileTree} {config : Config}

theorem readText_eq_ok_iff {text : String} : readText path files = .ok text ↔
    ∃ loc b, files.resolve path = .ok loc ∧ files.node? loc = some (.file (.bytes b)) ∧
      Utf8.decode? b = some text := by
  unfold readText FileTree.read
  constructor
  · intro h
    obtain ⟨content, hread, h⟩ := Except.bind_eq_ok_iff.1 h
    obtain ⟨loc, hloc, hread⟩ := Except.bind_eq_ok_iff.1 hread
    cases hn : files.node? loc with
    | none => simp only [hn] at hread; cases hread
    | some n =>
      cases n with
      | directory => simp only [hn] at hread; cases hread
      | file found =>
        simp only [hn] at hread
        cases hread
        cases content with
        | keyspace | database => cases h
        | bytes b =>
          cases hb : Utf8.decode? b with
          | none => simp only [hb] at h; cases h
          | some found =>
            simp only [hb] at h
            cases h
            exact ⟨loc, b, hloc, hn, hb⟩
  · rintro ⟨loc, b, hloc, hn, hb⟩
    refine Except.bind_eq_ok_iff.2 ⟨.bytes b, Except.bind_eq_ok_iff.2 ⟨loc, hloc, ?_⟩, ?_⟩
    · simp only [hn]
      rfl
    · simp only [hb]
      rfl

theorem ofFile_eq_ok_iff : ofFile path files = .ok config ↔
    ∃ text, readText path files = .ok text ∧ ofText? text = some config := by
  unfold ofFile
  cases readText path files with
  | error e => simp
  | ok text =>
    cases hc : ofText? text with
    | none => simp [hc]
    | some c => simp [hc]

theorem ofText?_empty : ofText? "" = none := rfl

/-- A configuration is not in an empty file, so that it stays when an engine is
    opened. -/
theorem ofFile_of_extends {file : Option String} {h u : Host} (hext : h.Extends file u)
    (hconfig : ofFile path h.files = .ok config) : ofFile path u.files = .ok config := by
  obtain ⟨text, htext, hc⟩ := ofFile_eq_ok_iff.1 hconfig
  obtain ⟨loc, b, hloc, hn, hb⟩ := readText_eq_ok_iff.1 htext
  have hsize : b.size ≠ 0 := by
    intro hzero
    obtain rfl : b = ByteArray.empty := ByteArray.size_eq_zero_iff.1 hzero
    have hempty : Utf8.decode? ByteArray.empty = some "" := rfl
    rw [hempty] at hb
    cases hb
    rw [ofText?_empty] at hc
    cases hc
  refine ofFile_eq_ok_iff.2 ⟨text, readText_eq_ok_iff.2 ⟨loc, b, ?_, hext.bytes hn hsize, hb⟩, hc⟩
  exact FileTree.resolve_of_keepsDirectories hext.directories hloc

end Config

namespace CommandLine

/-! ## One command -/

/-- The operation that a command asks a store for, if any. -/
def Command.operation? : Command → Option (Step Operation)
  | set key value kind =>
    match Value.parse kind value with
    | .ok v => some ⟨_, .set key (.value v)⟩
    | .error _ => none
  | get key kind => some ⟨_, .getValue key kind⟩
  | remove key => some ⟨_, .remove key⟩
  | clear => some ⟨_, .clear⟩
  | wipe => none

/-- The host after the operation of a command. -/
def Command.hostAfter (command : Command) (b : Backend Host) (h : Host) : Host :=
  command.operation?.elim h fun i => ((Facade.ofBackend b).perform i.2 h).2

variable {h u : Host} {command : Command} {c : EngineConfig} {handle : Handle}

theorem hostAfter_set {b : Backend Host} {key value : String} {kind : Kind} {v : Value}
    (hv : Value.parse kind value = .ok v) : (Command.set key value kind).hostAfter b u =
      ((Facade.ofBackend b).perform (.set key (.value v)) u).2 := by
  simp only [Command.hostAfter, Command.operation?, hv, Option.elim_some]

theorem hostAfter_set_of_fault {b : Backend Host} {key value : String} {kind : Kind}
    {fault : LiteralFault} (hv : Value.parse kind value = .error fault) :
    (Command.set key value kind).hostAfter b u = u := by
  simp only [Command.hostAfter, Command.operation?, hv, Option.elim_none]

/-- A command does to an engine that it opens what its operation does. -/
theorem runOn_of_open (hcommand : command ≠ .wipe) (hopen : c.open [] h = (.ok handle, u)) :
    runOn c command h = ((work (.ofBackend handle.backend) command u).map Prod.fst,
      command.hostAfter handle.backend u) := by
  unfold runOn
  rw [if_neg hcommand, hopen]
  cases command with
  | wipe => exact absurd rfl hcommand
  | set key value kind =>
    cases hv : Value.parse kind value with
    | error fault =>
      rw [hostAfter_set_of_fault hv]
      simp only [work, hv]
      rfl
    | ok v =>
      rw [hostAfter_set hv]
      simp only [work, hv, Facade.perform, Payload.toValue]
      cases (Facade.ofBackend handle.backend).set key v u <;> rfl
  | get key kind =>
    simp only [work]
    cases (Facade.ofBackend handle.backend).getValue key kind u <;> rfl
  | remove key =>
    simp only [work, Command.hostAfter, Command.operation?, Option.elim_some, Facade.perform]
    cases (Facade.ofBackend handle.backend).remove key u <;> rfl
  | clear =>
    simp only [work, Command.hostAfter, Command.operation?, Option.elim_some, Facade.perform]
    cases (Facade.ofBackend handle.backend).clear u <;> rfl

theorem runOn_wipe (c : EngineConfig) (h : Host) :
    runOn c .wipe h = (((c.wipe h).1.map fun _ => "").mapError .store, (c.wipe h).2) := if_pos rfl

/-- What the calls of an engine keep, a command on it keeps. -/
theorem preserves_hostAfter {b : Backend Host} {P : Host → Prop} (hP : b.Preserves P)
    (command : Command) (hu : P u) : P (command.hostAfter b u) := by
  unfold Command.hostAfter
  cases command.operation? with
  | none => exact hu
  | some i => exact hP.facade i.2 hu

/-! ## One command line -/

/-- What a program gives whose command fails. -/
def failed (e : CommandError) : Outcome :=
  { code := 1, failure := some ("Error: " ++ e.structured) }

/-- What a program gives by the result of its command. -/
def outcome : Except CommandError String → Outcome
  | .ok output => { code := 0, output }
  | .error e => failed e

variable {args : List String} {i : Invocation} {config : Config} {file key : String} {kind : Kind}
  {found : Option ByteArray}

theorem run_of_read (hread : read args = .ok i)
    (hconfig : Config.ofFile i.config h.files = .ok config)
    (hfilter : LogFilter.check config.logging.level = .ok ()) :
    run args h = (outcome (runOn config.database i.command h).1,
      (runOn config.database i.command h).2) := by
  unfold run
  simp only [hread, runInvocation, hconfig, hfilter]
  split <;> next heq => rw [heq]; rfl

theorem run_of_fault {fault : Fault} (hread : read args = .error fault) : (run args h).2 = h := by
  unfold run
  rw [hread]

theorem sound_runOn (hs : Session.Sound { host := h }) (c : EngineConfig) (command : Command) :
    Session.Sound { host := (runOn c command h).2 } := by
  by_cases hcommand : command = .wipe
  · subst hcommand
    exact hs.next (i := ⟨_, .wipe c⟩) trivial
  · cases hopen : c.open [] h with
    | mk result u =>
      have hopened : (({ host := h } : Session).open "" c).2.Sound := hs.open "" c
      cases result with
      | error e =>
        have hrun : (runOn c command h).2 = u := by
          unfold runOn
          rw [if_neg hcommand, hopen]
        have heq : ({ host := h } : Session).open "" c = (.error e, { host := u }) :=
          Session.open_of_eq_error hopen
        rw [heq] at hopened
        rwa [hrun]
      | ok handle =>
        let t := ({ host := u } : Session).hold "" (some handle)
        have heq : ({ host := h } : Session).open "" c = (.ok handle, t) :=
          Session.open_of_eq_ok hopen
        rw [heq] at hopened
        rw [runOn_of_open hcommand hopen]
        unfold Command.hostAfter
        cases command.operation? with
        | none => exact hopened.alone
        | some j =>
          have hnext := hopened.next (i := ⟨_, .through "" j.2⟩) trivial
          have hheld : t.handle? "" = some handle := by
            rw [Session.handle?_hold, if_pos rfl]
          have hact := Session.act_through hheld j.2
          rw [show Session.machine.next _ _ = (Session.machine.act _ _).2 from rfl, hact] at hnext
          exact hnext.alone

/-- No command line gives a number twice. -/
theorem sound_run (hs : Session.Sound { host := h }) (args : List String) :
    Session.Sound { host := (run args h).2 } := by
  cases hread : read args with
  | error fault => rwa [run_of_fault hread]
  | ok i =>
    cases hconfig : Config.ofFile i.config h.files with
    | error fault =>
      unfold run
      simp only [hread, runInvocation, hconfig]
      exact hs
    | ok config =>
      cases hfilter : LogFilter.check config.logging.level with
      | error fault =>
        unfold run
        simp only [hread, runInvocation, hconfig, hfilter]
        exact hs
      | ok =>
        rw [run_of_read hread hconfig hfilter]
        exact sound_runOn hs config.database i.command

/-! ## Engines that stay open to commands -/

/-- The configuration in a file opens an engine, which leads from the first host
    to the second, and there it opens it in the same way. -/
structure Opens (file : String) (config : Config) (handle : Handle) (h u : Host) : Prop where
  filter : LogFilter.check config.logging.level = .ok ()
  configured : Config.ofFile file h.files = .ok config
  opened : config.database.open [] h = (.ok handle, u)
  kept : Config.ofFile file u.files = .ok config
  isOpen : config.database.IsOpen handle u

/-- An engine that is open by a configuration is opened by it without any
    change. -/
theorem opens_self (hfilter : LogFilter.check config.logging.level = .ok ())
    (hconfig : Config.ofFile file u.files = .ok config) (hopen : config.database.IsOpen handle u) :
    Opens file config handle u u := by
  obtain ⟨create, hcreate⟩ : ∃ create, config.database.withCreate create = config.database := by
    cases config.database with
    | memory => exact ⟨true, rfl⟩
    | lmdb | mdbx | rocksdb | fjall | sqlite => exact ⟨_, rfl⟩
    | postgres => exact ⟨true, rfl⟩
  have hfree : ∀ x ∈ ([] : List Handle), ¬ handle.IsLockedBy x :=
    fun _ hx => absurd hx List.not_mem_nil
  have hopened := EngineConfig.open_of_isOpen hopen hfree create
  rw [hcreate] at hopened
  exact ⟨hfilter, hconfig, hopened, hconfig, hopen⟩

theorem opens_of_sound (hs : Session.Sound { host := h })
    (hfilter : LogFilter.check config.logging.level = .ok ())
    (hconfig : Config.ofFile file h.files = .ok config) (hc : config.database.IsOnFiles)
    (hopen : config.database.open [] h = (.ok handle, u)) : Opens file config handle h u := by
  have hext := hs.fresh.extends_open config.database
  rw [hopen] at hext
  obtain ⟨hisOpen, -⟩ := EngineConfig.isOpen_of_open hs hc.isDurable hopen
  exact ⟨hfilter, hconfig, hopen, Config.ofFile_of_extends hext hconfig, hisOpen⟩

/-- A command line for the file does what the operation of its command does, and
    leaves the engine open to the next one. -/
theorem Opens.run (ho : Opens file config handle h u) (hread : read args = .ok i)
    (hfile : i.config = file) (hcommand : i.command ≠ .wipe) :
    CommandLine.run args h =
      (outcome ((work (.ofBackend handle.backend) i.command u).map Prod.fst),
        i.command.hostAfter handle.backend u) ∧
    Opens file config handle (i.command.hostAfter handle.backend u)
      (i.command.hostAfter handle.backend u) := by
  subst hfile
  refine ⟨?_, opens_self ho.filter ?_ ?_⟩
  · rw [run_of_read hread ho.configured ho.filter, runOn_of_open hcommand ho.opened]
  · rw [preserves_hostAfter handle.preserves_files i.command rfl]
    exact ho.kept
  · exact preserves_hostAfter (EngineConfig.preserves_isOpen ho.isOpen) i.command ho.isOpen

/-! ## Command lines one after another -/

/-- The host after command lines have run, each in a process of its own. -/
def after (lines : List (List String)) (h : Host) : Host :=
  lines.foldl (fun h args => (run args h).2) h

/-- What each command line keeps, all of them keep. -/
theorem after_invariant {P : Host → Prop} {Q : List String → Prop}
    (hstep : ∀ args h, Q args → P h → P (run args h).2) {lines : List (List String)}
    (hlines : ∀ args ∈ lines, Q args) (hh : P h) : P (after lines h) := by
  induction lines generalizing h with
  | nil => exact hh
  | cons args lines ih =>
    exact ih (fun args ho => hlines args (List.mem_cons_of_mem _ ho))
      (hstep args h (hlines args List.mem_cons_self) hh)

theorem sound_after (hs : Session.Sound { host := h }) (lines : List (List String)) :
    Session.Sound { host := after lines h } :=
  after_invariant (P := fun h => Session.Sound { host := h }) (Q := fun _ => True)
    (fun args _ _ hs => sound_run hs args) (fun _ _ => trivial) hs

/-- A command line that is faulty, or asks the engine of a file for anything but
    to be removed. -/
def Works (file : String) (args : List String) : Prop :=
  ∀ i, read args = .ok i → i.config = file ∧ i.command ≠ .wipe

/-- Whether a command is neither to set or remove a key, nor to clear or remove
    the store. -/
def Command.Spares (key : String) : Command → Prop
  | set other _ _ | remove other => other ≠ key
  | get .. => True
  | clear | wipe => False

/-- A command line that is faulty, or asks the engine of a file for something
    that spares a key. -/
def Spares (file key : String) (args : List String) : Prop :=
  ∀ i, read args = .ok i → i.config = file ∧ i.command.Spares key

theorem Spares.works (hargs : Spares file key args) : Works file args := by
  intro i hread
  obtain ⟨hfile, hspares⟩ := hargs i hread
  refine ⟨hfile, fun hcommand => ?_⟩
  rw [hcommand] at hspares
  exact hspares

/-- An engine that is open to commands stays so. -/
theorem Opens.self_run (ho : Opens file config handle h h) (hargs : Works file args) :
    Opens file config handle (CommandLine.run args h).2 (CommandLine.run args h).2 := by
  cases hread : read args with
  | error fault => rwa [run_of_fault hread]
  | ok i =>
    obtain ⟨hfile, hcommand⟩ := hargs i hread
    obtain ⟨hrun, hnext⟩ := ho.run hread hfile hcommand
    rwa [hrun]

/-! ## What commands find -/

/-- Command lines for a file find an image under a key, or that there is
    none. -/
def Finds (file : String) (config : Config) (key : String) (found : Option ByteArray) (h : Host) :
    Prop :=
  ∃ handle u, Opens file config handle h u ∧ handle.view u key = found

/-- A command that spares a key leaves what is under it. -/
theorem view_hostAfter {store : ByteStore Host} (hstore : handle.byteStore? = some store)
    (hspares : command.Spares key) :
    handle.view (command.hostAfter handle.backend u) key = handle.view u key := by
  have hrecords := (Handle.isMap hstore).records
  rw [Handle.backend_of_byteStore? hstore]
  cases command with
  | clear | wipe => exact hspares.elim
  | get => rfl
  | remove other =>
    have hkey : (Operation.remove other).key? = some other := rfl
    exact hrecords.view_other hkey (Ne.symm hspares) u
  | set other value kind =>
    cases hv : Value.parse kind value with
    | error fault => rw [hostAfter_set_of_fault hv]
    | ok v =>
      have hkey : (Operation.set other (.value v)).key? = some other := rfl
      rw [hostAfter_set hv, hrecords.view_other hkey (Ne.symm hspares)]

/-- A command line that spares a key is not seen in what others find there. -/
theorem Finds.run (hkey : config.database.Accepts key) (hargs : Spares file key args)
    (hf : Finds file config key found h) :
    Finds file config key found (CommandLine.run args h).2 := by
  obtain ⟨handle, u, ho, hview⟩ := hf
  cases hread : read args with
  | error fault =>
    rw [run_of_fault hread]
    exact ⟨handle, u, ho, hview⟩
  | ok i =>
    obtain ⟨hfile, hcommand⟩ := hargs.works i hread
    obtain ⟨hrun, hnext⟩ := ho.run hread hfile hcommand
    obtain ⟨store, hstore, -⟩ := ho.isOpen.reads hkey
    rw [hrun]
    refine ⟨handle, _, hnext, ?_⟩
    rw [view_hostAfter hstore (hargs i hread).2, hview]

theorem Finds.after (hkey : config.database.Accepts key) {lines : List (List String)}
    (hlines : ∀ args ∈ lines, Spares file key args) (hf : Finds file config key found h) :
    Finds file config key found (after lines h) :=
  after_invariant (fun _ _ hargs hf => hf.run hkey hargs) hlines hf

theorem Finds.get_missing (hkey : config.database.Accepts key)
    (hf : Finds file config key none h) (hread : read args = .ok ⟨file, .get key kind⟩) :
    (CommandLine.run args h).1 = failed (.store (.keyNotFound key)) := by
  obtain ⟨handle, u, ho, hview⟩ := hf
  obtain ⟨store, hstore, hreads⟩ := ho.isOpen.reads hkey
  have hget : store.get key u = .ok none := hview ▸ hreads u
  have hfetch : store.packed.fetch key kind u = .error (.keyNotFound key) :=
    ByteStore.fetch_of_absent hget
  have hvalue := Facade.getValue_of_fetch_error hfetch
  rw [(ho.run hread rfl nofun).1, Handle.backend_of_byteStore? hstore]
  simp only [work, hvalue]
  rfl

/-- A value is read by its kind and printed. -/
theorem Finds.get_image {v : Value} {bytes : ByteArray} (hkey : config.database.Accepts key)
    (himage : Image.encode v = some bytes) (hnan : v.isNaN = false)
    (hf : Finds file config key (some bytes) h) (hread : read args = .ok ⟨file, .get key v.kind⟩) :
    (CommandLine.run args h).1 = { code := 0, output := v.print ++ "\n" } := by
  obtain ⟨handle, u, ho, hview⟩ := hf
  obtain ⟨store, hstore, hreads⟩ := ho.isOpen.reads hkey
  have hget : store.get key u = .ok (some bytes) := hview ▸ hreads u
  have hfetch : store.packed.fetch key v.kind u = .ok v := by
    rw [ByteStore.fetch_of_image hget, Image.decode_encode himage hnan]
    rfl
  have hvalue : (Facade.ofBackend store.packed).getValue key v.kind u = .ok v :=
    Facade.getValue_eq_ok_iff.2 ⟨v, hfetch, v.coerce_self⟩
  rw [(ho.run hread rfl nofun).1, Handle.backend_of_byteStore? hstore]
  simp only [work, hvalue]
  rfl

/-! ## Changing commands -/

/-- A command line that succeeds has done its work. -/
theorem Opens.work_eq_ok (ho : Opens file config handle h u) (hread : read args = .ok i)
    (hfile : i.config = file) (hcommand : i.command ≠ .wipe)
    (hcode : (CommandLine.run args h).1.code = 0) :
    ∃ result, work (.ofBackend handle.backend) i.command u = .ok result := by
  rw [(ho.run hread hfile hcommand).1] at hcode
  cases hwork : work (.ofBackend handle.backend) i.command u with
  | ok result => exact ⟨result, rfl⟩
  | error e =>
    rw [hwork] at hcode
    cases hcode

theorem kind_of_parse {value : String} {v : Value} (hv : Value.parse kind value = .ok v) :
    v.kind = kind ∧ v ≠ .null := by
  unfold Value.parse at hv
  split at hv
  · cases hv
  · split_ifs at hv <;> cases hv <;> exact ⟨rfl, nofun⟩
  · split at hv <;> cases hv
    exact ⟨rfl, nofun⟩
  · split at hv <;> cases hv
    exact ⟨rfl, nofun⟩
  · cases hv
    exact ⟨rfl, nofun⟩
  · split at hv <;> cases hv
    exact ⟨rfl, nofun⟩

/-- A command that writes leaves the host that its write gives, and the engine is
    open there. -/
theorem Opens.exists_of_write (ho : Opens file config handle h u)
    (act : Facade Host → Host → Except StoreError Host)
    (hread : read args = .ok ⟨file, command⟩) (hcommand : command ≠ .wipe)
    (hwork : ∀ db, work db command u = ((act db u).map ("", ·)).mapError .store)
    (hafter : command.hostAfter handle.backend u =
      (settle u (act (.ofBackend handle.backend) u)).2)
    (hcode : (CommandLine.run args h).1.code = 0) :
    ∃ t, act (.ofBackend handle.backend) u = .ok t ∧ (CommandLine.run args h).2 = t ∧
      Opens file config handle t t := by
  obtain ⟨hrun, hnext⟩ := ho.run hread rfl hcommand
  obtain ⟨result, hresult⟩ := ho.work_eq_ok hread rfl hcommand hcode
  rw [hwork] at hresult
  obtain ⟨t, ht, -⟩ := Except.map_eq_ok_iff.1 (Except.mapError_eq_ok_iff.1 hresult)
  rw [ht] at hafter
  refine ⟨t, ht, ?_, ?_⟩
  · rw [hrun]
    exact hafter
  · rwa [show (Invocation.mk file command).command = command from rfl, hafter] at hnext

/-- A value that was set is found. -/
theorem Opens.finds_of_set {value : String} {v : Value} (ho : Opens file config handle h u)
    (hkey : config.database.Accepts key) (hread : read args = .ok ⟨file, .set key value kind⟩)
    (hv : Value.parse kind value = .ok v) (hcode : (CommandLine.run args h).1.code = 0) :
    Finds file config key (Image.encode v) (CommandLine.run args h).2 := by
  have hwork (db : Facade Host) : work db (.set key value kind) u =
      ((db.set key v u).map ("", ·)).mapError .store := by simp only [work, hv]
  obtain ⟨t, ht, hrun, hnext⟩ := ho.exists_of_write (fun db => db.set key v) hread nofun hwork
    (hostAfter_set hv) hcode
  obtain ⟨store, hstore, -⟩ := ho.isOpen.reads hkey
  rw [Handle.backend_of_byteStore? hstore] at ht
  rw [hrun]
  exact ⟨handle, t, hnext, ((Handle.isMap hstore).records.set ht key).trans (if_pos rfl)⟩

/-- Nothing is found under a key that was removed, with others or by itself. -/
theorem Opens.finds_of_remove (ho : Opens file config handle h u)
    (hkey : config.database.Accepts key)
    (hread : read args = .ok ⟨file, .remove key⟩ ∨ read args = .ok ⟨file, .clear⟩)
    (hcode : (CommandLine.run args h).1.code = 0) :
    Finds file config key none (CommandLine.run args h).2 := by
  obtain ⟨store, hstore, -⟩ := ho.isOpen.reads hkey
  have hrecords := (Handle.isMap hstore).records
  rcases hread with hread | hread
  · obtain ⟨t, ht, hrun, hnext⟩ := ho.exists_of_write (fun db => db.remove key) hread
      nofun (fun _ => rfl) rfl hcode
    rw [Handle.backend_of_byteStore? hstore] at ht
    rw [hrun]
    exact ⟨handle, t, hnext, (hrecords.remove ht key).trans (if_pos rfl)⟩
  · obtain ⟨t, ht, hrun, hnext⟩ := ho.exists_of_write Facade.clear hread nofun
      (fun _ => rfl) rfl hcode
    rw [Handle.backend_of_byteStore? hstore] at ht
    rw [hrun]
    exact ⟨handle, t, hnext, hrecords.clear ht key⟩

/-- Nothing is found after the engine was removed, if it was reached and can be
    made anew. -/
theorem Opens.finds_of_wipe (ho : Opens file config handle h u)
    (hs : Session.Sound { host := h }) (hc : config.database.IsOnFiles)
    (hmakes : config.database.Makes) (hreached : config.database.IsReached h)
    (hread : read args = .ok ⟨file, .wipe⟩) (hcode : (CommandLine.run args h).1.code = 0)
    (hconfig : Config.ofFile file (CommandLine.run args h).2.files = .ok config) :
    Finds file config key none (CommandLine.run args h).2 := by
  have hrun := run_of_read hread ho.configured ho.filter
  rw [runOn_wipe] at hrun
  obtain ⟨v, hwipe⟩ : ∃ v, config.database.wipe h = (.ok (), v) := by
    refine ⟨(config.database.wipe h).2, Prod.ext ?_ rfl⟩
    cases hresult : (config.database.wipe h).1 with
    | ok => rfl
    | error e =>
      rw [hrun, hresult] at hcode
      cases hcode
  rw [hrun, hwipe] at hconfig ⊢
  obtain ⟨handle', w, hopen, hisOpen, hview⟩ :=
    EngineConfig.emptied_of_wipe hs hc hmakes ho.opened hreached hwipe
  have hv : Session.Sound { host := v } := by
    have hsound := sound_run hs args
    rwa [hrun, hwipe] at hsound
  exact ⟨handle', w, opens_of_sound hv ho.filter hconfig hc hopen, hview key⟩

/-- A value that cannot be read is refused after the engine has been opened. -/
theorem Opens.run_of_fault {value : String} {fault : LiteralFault}
    (ho : Opens file config handle h u) (hread : read args = .ok ⟨file, .set key value kind⟩)
    (hv : Value.parse kind value = .error fault) :
    CommandLine.run args h = (failed (.literal value kind fault), u) := by
  rw [(ho.run hread rfl nofun).1, hostAfter_set_of_fault hv]
  simp only [work, hv]
  rfl

/-- It is not seen whether the engine has just been opened. -/
theorem Opens.run_congr (ho : Opens file config handle h u) (hargs : Works file args) :
    (CommandLine.run args u).1 = (CommandLine.run args h).1 := by
  have hu : Opens file config handle u u := opens_self ho.filter ho.kept ho.isOpen
  cases hread : read args with
  | error fault =>
    unfold CommandLine.run
    rw [hread]
  | ok i =>
    obtain ⟨hfile, hcommand⟩ := hargs i hread
    rw [(hu.run hread hfile hcommand).1, (ho.run hread hfile hcommand).1]

/-- Whatever command lines follow that spare a key, reading it gives an
    outcome. -/
def ReadsAs (file key : String) (kind : Kind) (result : Outcome) (h : Host) : Prop :=
  ∀ lines, (∀ args ∈ lines, Spares file key args) →
    ∀ args, read args = .ok ⟨file, .get key kind⟩ → (run args (after lines h)).1 = result

theorem Finds.readsAs_missing (hkey : config.database.Accepts key)
    (hf : Finds file config key none h) :
    ReadsAs file key kind (failed (.store (.keyNotFound key))) h :=
  fun _ hlines _ hread => (hf.after hkey hlines).get_missing hkey hread

/-! ## A first value -/

/-- The text of a configuration of a table in the file at a path. -/
def tableText (path : String) : String :=
  "[database]\nengine = \"sqlite\"\npath = \"" ++ path ++ "\"\n"

/-- The configuration that it stands for. -/
def tableConfig (path : String) : Config :=
  { database := .sqlite path EngineConfig.defaultTable true }

/-- The files with nothing in them but a configuration. -/
def configured (path : String) : FileTree :=
  ({} : FileTree).put ["tmp", "work", "unikv.toml"] (.file (.bytes (tableText path).toByteArray))

/-- The files with a database file made by it. -/
def configuredTable (path : String) : FileTree :=
  let loc := ["tmp", "work", "kv.db"]
  ((configured path).put loc (.file (.bytes ByteArray.empty))).put loc (.file (.database 0))

theorem ofFile_configured {path : String} {files : FileTree}
    (hnode : files.node? ["tmp", "work", "unikv.toml"] =
      some (.file (.bytes (tableText path).toByteArray)))
    (hdecode : Utf8.decode? (tableText path).toByteArray = some (tableText path))
    (hconfig : Config.ofText? (tableText path) = some (tableConfig path)) :
    Config.ofFile "unikv.toml" files = .ok (tableConfig path) := by
  have hname : FileTree.IsName "unikv.toml" := by decide
  exact Config.ofFile_eq_ok_iff.2
    ⟨_, Config.readText_eq_ok_iff.2 ⟨_, _, hname.resolve files, hnode, hdecode⟩, hconfig⟩

theorem reachable_configured (path : String) :
    Session.Reachable { host := { files := configured path } } := by
  have hpermits : Session.Permits {} ⟨_, .changeFiles fun _ => configured path⟩ := by
    intro loc content n hcontent hn
    have hvacant : ({} : FileTree).node? ["tmp", "work", "unikv.toml"] ≠ some .directory := by
      decide
    rw [configured, FileTree.node?_put hvacant] at hn
    split_ifs at hn
    · cases hn
      cases hcontent
    · exact hn
  exact Session.Reachable.start.next _ hpermits

theorem read_set : read ["set", "k", "42", "--type", "u8"] =
    .ok ⟨"unikv.toml", .set "k" "42" (.int .u8)⟩ := by cbv

theorem read_get : read ["get", "k", "--type", "u8"] =
    .ok ⟨"unikv.toml", .get "k" (.int .u8)⟩ := by cbv

theorem read_wipe : read ["wipe"] = .ok ⟨"unikv.toml", .wipe⟩ := by cbv

theorem check_info : LogFilter.check "info" = .ok () := by cbv

theorem parse_fortyTwo : Value.parse (.int .u8) "42" = .ok (.int .u8 42#8) := by cbv

/-- A first value is set in a database file that is made for it. -/
theorem run_set_of_missing {path key value : String} {args : List String} {v : Value}
    (hread : read args = .ok ⟨"unikv.toml", .set key value kind⟩)
    (hv : Value.parse kind value = .ok v) (hplain : TablePath.IsPlain path)
    (hconfig : Config.ofFile "unikv.toml" (configured path) = .ok (tableConfig path))
    (htarget : TablePath.target path true = .ok (.file path true true))
    (hplaced : TableFile.locate path (configured path) = some ["tmp", "work", "kv.db"]) :
    let h : Host := { files := configured path }
    let u := (run args h).2
    ((tableConfig path).database.open [] h).1.isOk = true ∧ (run args h).1.code = 0 ∧
      u.files = configuredTable path ∧
      Finds "unikv.toml" (tableConfig path) key (Image.encode v) u := by
  intro h u
  obtain ⟨w, hopen, hfiles⟩ : ∃ w, (tableConfig path).database.open [] h =
      (.ok (.table firstTable), w) ∧ w.files = configuredTable path := by
    have hopened : TableFile.openTarget [] path "kv" (.file path true true) h =
        (.ok firstTable, _) := TableFile.openFile_of_missing hplaced rfl isReserved_kv
    exact ⟨_, Except.pair_map_eq_ok_iff.2
      ⟨firstTable, TableFile.open_eq_ok_iff.2 ⟨checkTableName_kv, _, htarget, hopened⟩, rfl⟩,
      TableFile.files_ensureCells _ _⟩
  have ho := opens_of_sound (reachable_configured path).sound check_info hconfig hplain hopen
  have hset : Command.set key value kind ≠ .wipe := by rintro ⟨⟩
  obtain ⟨hrun, -⟩ := ho.run hread rfl hset
  have hwritable : firstTable.canWrite w = true := by
    rw [TableHandle.canWrite, TableHandle.isAttached, hfiles]
    rfl
  obtain ⟨bytes, hbytes⟩ : ∃ bytes, Image.encode v = some bytes :=
    Option.ne_none_iff_exists'.1 fun hnone =>
      (kind_of_parse hv).2 (Image.encode_eq_none_iff.1 hnone)
  obtain ⟨t, hput⟩ :
      ∃ t, (Facade.ofBackend (Handle.table firstTable).backend).set key v w = .ok t := by
    have hcall : (Facade.ofBackend firstTable.byteStore.packed).set key v w = _ :=
      ByteStore.set_packed key v w
    rw [hbytes] at hcall
    exact ⟨_, hcall.trans (if_pos hwritable)⟩
  have hcode : (run args h).1.code = 0 := by
    rw [hrun]
    simp only [work, hv, hput]
    rfl
  refine ⟨?_, hcode, ?_, ho.finds_of_set trivial hread hv hcode⟩
  · rw [hopen]
    rfl
  · show (run args h).2.files = _
    rw [hrun, preserves_hostAfter (Handle.table firstTable).preserves_files _ hfiles]

/-- The first value is a number. -/
theorem run_first_set {path : String} (hplain : TablePath.IsPlain path)
    (hconfig : Config.ofFile "unikv.toml" (configured path) = .ok (tableConfig path))
    (htarget : TablePath.target path true = .ok (.file path true true))
    (hplaced : TableFile.locate path (configured path) = some ["tmp", "work", "kv.db"]) :
    let h : Host := { files := configured path }
    let u := (run ["set", "k", "42", "--type", "u8"] h).2
    ((tableConfig path).database.open [] h).1.isOk = true ∧
      (run ["set", "k", "42", "--type", "u8"] h).1.code = 0 ∧ u.files = configuredTable path ∧
      Finds "unikv.toml" (tableConfig path) "k" (Image.encode (.int .u8 42#8)) u :=
  run_set_of_missing read_set parse_fortyTwo hplain hconfig htarget hplaced

/-- A file is removed without an error if the file system gives none. -/
theorem run_wipe_table {path : String} {h : Host}
    (hconfig : Config.ofFile "unikv.toml" h.files = .ok (tableConfig path))
    (hremove : (FileTree.removeFiles (TableFile.filesOf path) h.files).1 = none) :
    (run ["wipe"] h).1.code = 0 ∧ (run ["wipe"] h).2 =
      { h with files := (FileTree.removeFiles (TableFile.filesOf path) h.files).2 } := by
  have hwipe : (tableConfig path).database.wipe h = (.ok (), _) :=
    TableFile.wipe_eq_ok_iff.2 ⟨_, Prod.ext hremove rfl, rfl⟩
  rw [run_of_read read_wipe hconfig check_info, runOn_wipe, hwipe]
  exact ⟨rfl, rfl⟩

/-- By its names alone a path may go back from a name that is missing. -/
theorem normalise_back : FileTree.normalise "missing/../kv.db" = ["tmp", "work", "kv.db"] := by
  rw [FileTree.normalise, FileTree.parts, FileTree.splitOn_slash]
  decide +kernel

/-- The file system does not find what is to be removed there. -/
theorem resolve_back {t : FileTree} (hmissing : t.node? ["tmp", "work", "missing"] = none) :
    ∀ name ∈ TableFile.filesOf "missing/../kv.db", t.resolve name = .error .notFound := by
  intro name hname
  have hnames : ∀ name ∈ TableFile.filesOf "missing/../kv.db", name.startsWith "/" = false ∧
      Char.ofNat 0 ∉ name.toList ∧ name.utf8ByteSize ≤ FileTree.greatestPath ∧ name ≠ "" ∧
      ((name.toList.splitOn '/').map String.ofList).take 2 = ["missing", ".."] := by
    decide +kernel
  obtain ⟨hstart, hnul, hshort, hne, htake⟩ := hnames name hname
  have hparts : FileTree.parts name = (FileTree.working,
      "missing" :: ".." :: ((name.toList.splitOn '/').map String.ofList).drop 2) := by
    have hsplit := List.take_append_drop 2 ((name.toList.splitOn '/').map String.ofList)
    rw [htake] at hsplit
    rw [FileTree.parts, hstart, FileTree.splitOn_slash, ← hsplit]
    rfl
  have hword : FileTree.IsName "missing" := by decide
  exact FileTree.resolve_of_missing hword hmissing (FileTree.checkPath_eq_ok hnul hshort) hne hparts

end CommandLine

open CommandLine

/-- **What command lines store lasts until they take it away.**  On any host that
    a session leaves, and after any command lines, let a file hold a
    configuration of an engine on files that can be opened and whose log filter
    can be used, and let the engine accept a key.

    After a value has been set that is no NaN, the key is read as the text of
    the value; after it has been removed or the store cleared, it is missing.
    So it is after the engine has been removed, if its path leads somewhere as
    the file system takes it, a new engine can be made, and the configuration
    is still there.  Other command lines in between, whether they succeed or
    fail, make no difference; and once an engine in a directory has been opened,
    its path leads there.

    A value that cannot be read is refused.  That changes no keyspace and no
    table, and nothing that the next command line answers. -/
theorem command_lines_keep_entries {s : Session} (hs : s.Reachable) (before : List (List String))
    {h : Host} (hbefore : after before s.host = h) {file : String} {config : Config}
    (hconfig : Config.ofFile file h.files = .ok config)
    (hfilter : LogFilter.check config.logging.level = .ok ()) (hc : config.database.IsOnFiles)
    (hopen : (config.database.open [] h).1.isOk = true) {key : String}
    (hkey : config.database.Accepts key) (kind : Kind) :
    (∀ args value v, read args = .ok ⟨file, .set key value kind⟩ →
      Value.parse kind value = .ok v → v.isNaN = false → (run args h).1.code = 0 →
        ReadsAs file key kind { code := 0, output := v.print ++ "\n" } (run args h).2) ∧
    (∀ args, read args = .ok ⟨file, .remove key⟩ ∨ read args = .ok ⟨file, .clear⟩ →
      (run args h).1.code = 0 →
        ReadsAs file key kind (failed (.store (.keyNotFound key))) (run args h).2) ∧
    (∀ args, read args = .ok ⟨file, .wipe⟩ → (run args h).1.code = 0 →
      config.database.IsReached h → config.database.Makes →
      Config.ofFile file (run args h).2.files = .ok config →
        ReadsAs file key kind (failed (.store (.keyNotFound key))) (run args h).2) ∧
    ((config.database.keyspaceFile?).isSome → ∀ args i, read args = .ok i → i.config = file →
      i.command ≠ .wipe → ∀ lines, (∀ args ∈ lines, Works file args) →
        config.database.IsReached (after lines (run args h).2)) ∧
    ∀ args other value fault, read args = .ok ⟨file, .set other value kind⟩ →
      Value.parse kind value = .error fault → let u := (run args h).2
      (run args h).1 = failed (.literal value kind fault) ∧
      (∀ n, u.keyspace n = h.keyspace n) ∧ (∀ n table, u.cells n table = h.cells n table) ∧
      ∀ args, Works file args → (run args u).1 = (run args h).1 := by
  have hsound : Session.Sound { host := h } := hbefore ▸ sound_after hs.sound.alone before
  obtain ⟨handle, hhandle⟩ := Except.isOk_iff.1 hopen
  have ho : Opens file config handle h (config.database.open [] h).2 :=
    opens_of_sound hsound hfilter hconfig hc (Prod.ext hhandle rfl)
  refine ⟨?_, ?_, ?_, ?_, ?_⟩
  · intro args value v hread hv hnan hcode lines hlines args' hread'
    obtain ⟨rfl, hnull⟩ := kind_of_parse hv
    obtain ⟨bytes, hbytes⟩ : ∃ bytes, Image.encode v = some bytes :=
      Option.ne_none_iff_exists'.1 fun hnone => hnull (Image.encode_eq_none_iff.1 hnone)
    have hf := ho.finds_of_set hkey hread hv hcode
    rw [hbytes] at hf
    exact (hf.after hkey hlines).get_image hkey hbytes hnan hread'
  · intro args hread hcode
    exact (ho.finds_of_remove hkey hread hcode).readsAs_missing hkey
  · intro args hread hcode hreached hmakes hkept
    exact (ho.finds_of_wipe hsound hc hmakes hreached hread hcode hkept).readsAs_missing hkey
  · intro hdirectory args i hread hfile hcommand lines hlines
    obtain ⟨hrun, hnext⟩ := ho.run hread hfile hcommand
    rw [hrun]
    have hafter := after_invariant (P := fun t => Opens file config handle t t)
      (fun _ _ hargs ho => ho.self_run hargs) hlines hnext
    exact Or.inr (hafter.isOpen.leads hdirectory)
  · intro args other value fault hread hv
    have hrun := ho.run_of_fault hread hv
    have hext := hsound.fresh.extends_open config.database
    rw [hrun]
    exact ⟨rfl, hext.keyspace, hext.cells, fun args hargs => ho.run_congr hargs⟩

/-- A number is set and printed; after the file has been removed it is
    missing. -/
theorem command_lines_keep_entries_file :
    let h : Host := { files := configured "kv.db" }
    let u := (run ["set", "k", "42", "--type", "u8"] h).2
    (run ["get", "k", "--type", "u8"] u).1 = { code := 0, output := "42\n" } ∧
      (run ["get", "k", "--type", "u8"] (run ["wipe"] u).2).1 =
        failed (.store (.keyNotFound "k")) := by
  intro h u
  have hs : Session.Reachable { host := h } := reachable_configured "kv.db"
  have hname : FileTree.IsName "kv.db" := by decide +kernel
  have hplain : TablePath.IsPlain "kv.db" := ⟨by decide +kernel, by decide, by decide⟩
  have hconfig {files : FileTree} (hnode : files.node? ["tmp", "work", "unikv.toml"] =
      some (.file (.bytes (tableText "kv.db").toByteArray))) :
      Config.ofFile "unikv.toml" files = .ok (tableConfig "kv.db") :=
    ofFile_configured hnode (by decide +kernel) (by decide +kernel)
  have hkey : (tableConfig "kv.db").database.Accepts "k" := trivial
  obtain ⟨hopen, hcode, hfiles, handle, w, ho, -⟩ := run_first_set hplain (hconfig rfl) target_kv
    (FileTree.locate_of_resolve (hname.resolve _))
  obtain ⟨hset, -⟩ :=
    command_lines_keep_entries hs [] rfl (hconfig rfl) check_info hplain hopen hkey (.int .u8)
  have hprint : Value.print (.int .u8 42#8) ++ "\n" = "42\n" := by cbv
  have hnone : ∀ args ∈ ([] : List (List String)), Spares "unikv.toml" "k" args :=
    List.forall_mem_nil _
  refine ⟨hprint ▸ hset _ "42" _ read_set parse_fortyTwo rfl hcode [] hnone _ read_get, ?_⟩
  -- the file is removed by its name, and the configuration stays
  have hopen' : ((tableConfig "kv.db").database.open [] u).1.isOk = true := by
    rw [ho.opened]
    rfl
  have hremove : (FileTree.removeFiles (TableFile.filesOf "kv.db") u.files).1 = none := by
    rw [hfiles]
    exact FileTree.removeFiles_of_isName (by decide +kernel) (by decide +kernel)
  obtain ⟨hwiped, hafter⟩ := run_wipe_table ho.configured hremove
  have hkept : (run ["wipe"] u).2.files.node? ["tmp", "work", "unikv.toml"] =
      some (.file (.bytes (tableText "kv.db").toByteArray)) := by
    rw [hafter, hfiles]
    refine (FileTree.node?_removeFiles_of_ne fun name hmem hresolve => ?_).trans rfl
    have hnames : ∀ name ∈ TableFile.filesOf "kv.db",
        FileTree.IsName name ∧ name ≠ "unikv.toml" := by decide +kernel
    obtain ⟨hname, hne⟩ := hnames name hmem
    rw [hname.resolve] at hresolve
    exact hne (by simpa [FileTree.working] using Except.ok.inj hresolve)
  have hreached : (tableConfig "kv.db").database.IsReached u := Or.inr ⟨_, hname.resolve _⟩
  obtain ⟨-, -, hwipe, -⟩ := command_lines_keep_entries hs [["set", "k", "42", "--type", "u8"]] rfl
    ho.configured check_info hplain hopen' hkey (.int .u8)
  exact hwipe _ read_wipe hwiped hreached rfl (hconfig hkept) [] hnone _ read_get

/-- A file is not removed if its path goes back from a name that is missing. -/
theorem command_line_misses_a_file :
    let path := "missing/../kv.db"
    let h : Host := { files := configured path }
    let u := (run ["set", "k", "42", "--type", "u8"] h).2
    let v := (run ["wipe"] u).2
    TablePath.IsPlain path ∧ Config.ofFile "unikv.toml" h.files = .ok (tableConfig path) ∧
      (run ["set", "k", "42", "--type", "u8"] h).1.code = 0 ∧ (run ["wipe"] u).1.code = 0 ∧
      (run ["get", "k", "--type", "u8"] v).1 = { code := 0, output := "42\n" } := by
  intro path h u v
  have hplain : TablePath.IsPlain path := ⟨by decide +kernel, by decide, by decide⟩
  have hconfig : Config.ofFile "unikv.toml" h.files = .ok (tableConfig path) :=
    ofFile_configured rfl (by decide +kernel) (by decide +kernel)
  -- by its names alone the path leads to a file, but the file system does not find it
  have hplaced : TableFile.locate path h.files = some ["tmp", "work", "kv.db"] := by
    rw [TableFile.locate, normalise_back]
    rfl
  obtain ⟨-, hcode, hfiles, hf⟩ :=
    run_first_set hplain hconfig (hplain.target_eq (by decide +kernel)) hplaced
  obtain ⟨handle, w, ho, -⟩ := id hf
  have hmissing : u.files.node? ["tmp", "work", "missing"] = none := by
    rw [hfiles]
    rfl
  have hremove := FileTree.removeFiles_of_isMissing fun path hpath =>
    .inl ⟨_, resolve_back hmissing path hpath, rfl⟩
  obtain ⟨hwiped, hafter⟩ := run_wipe_table ho.configured (congrArg Prod.fst hremove)
  have hv : v = u := by
    show (run ["wipe"] u).2 = u
    rw [hafter, hremove]
  obtain ⟨bytes, hbytes⟩ : ∃ bytes, Image.encode (.int .u8 42#8) = some bytes := ⟨_, rfl⟩
  rw [hbytes] at hf
  have hprint : Value.print (.int .u8 42#8) ++ "\n" = "42\n" := by cbv
  refine ⟨hplain, hconfig, hcode, hwiped, ?_⟩
  have hkey : (tableConfig path).database.Accepts "k" := trivial
  rw [hv, ← hprint]
  exact hf.get_image hkey hbytes rfl read_get

end TypedStore
