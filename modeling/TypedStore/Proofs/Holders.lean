/-
  TypedStore — facades own the engines that they hold.

  * `Holders.next_session`: but for their forms and for the numbers of what
    they hold, holders are a session;
  * `Holders.Sound.next`: whatever holders do, no two hold one thing, and what
    is held stands where its settings lead to;
  * `Holders.Renamed.run`: it does not matter by which facade an engine is held;
  * `facades_own_engines`: what this means for facades that are open, closed or
    moved, and for directories that are open already.
-/
import Mathlib
import TypedStore.Holders
import TypedStore.Proofs.Held

namespace TypedStore

/-! ## Engines that stand -/

/-- Two handles are on one engine: in one directory, or on one map. -/
def Handle.IsOneWith : Handle → Handle → Prop
  | .environment e, .environment other => e.location = other.location
  | .journal j, .journal other => j.location = other.location
  | .map (.anonymous n _), .map (.anonymous m _) => n = m
  | _, _ => False

theorem Handle.IsOneWith.symm {x y : Handle} (h : x.IsOneWith y) : y.IsOneWith x := by
  unfold Handle.IsOneWith at h ⊢
  split at h
  · exact h.symm
  · exact h.symm
  · exact h.symm
  · exact h.elim

/-- What an engine has been opened as is still there, where its settings lead
    to. -/
inductive EngineConfig.Stands (h : Host) : EngineConfig → Handle → Prop where
  | map {shared : Bool} {n : Nat} : n < h.next → Stands h (.memory shared) (.map (.anonymous n shared))
  | environment {d : DirectoryConfig} {e : EnvironmentHandle} :
    h.files.resolve d.path = .ok e.location →
      h.files.node? (e.location ++ [Environment.dataFile]) = some (.file (.keyspace e.number)) →
        Stands h (.lmdb d) (.environment e)
  | journal {d : DirectoryConfig} {j : JournalHandle} :
    h.files.resolve d.path = .ok j.location →
      h.files.node? (j.location ++ [Journal.marker]) = some (.file (.keyspace j.number)) →
        Stands h (.fjall d) (.journal j)
  | table {path table : String} {create : Bool} {t : TableHandle} :
    Stands h (.sqlite path table create) (.table t)
  | rows {conninfo table : String} {t : RowHandle} : Stands h (.postgres conninfo table) (.rows t)

namespace EngineConfig

variable {c : EngineConfig} {handle : Handle} {h u : Host}

theorem Stands.extends {file : Option String} (hstands : c.Stands h handle)
    (hext : h.Extends file u) : c.Stands u handle := by
  cases hstands with
  | map hlt => exact .map (hlt.trans_le hext.next)
  | environment hresolve hdata =>
    exact .environment (FileTree.resolve_of_keepsDirectories hext.directories hresolve)
      (hext.kept hdata rfl)
  | journal hresolve hmarker =>
    exact .journal (FileTree.resolve_of_keepsDirectories hext.directories hresolve)
      (hext.kept hmarker rfl)
  | table => exact .table
  | rows => exact .rows

theorem Stands.of_eq (hstands : c.Stands h handle) (hfiles : u.files = h.files)
    (hnext : u.next = h.next) : c.Stands u handle := by
  cases hstands with
  | map hlt => exact .map (hnext ▸ hlt)
  | environment hresolve hdata => exact .environment (hfiles ▸ hresolve) (hfiles ▸ hdata)
  | journal hresolve hmarker => exact .journal (hfiles ▸ hresolve) (hfiles ▸ hmarker)
  | table => exact .table
  | rows => exact .rows

variable {s : Session} (hs : s.Sound) (hopen : c.open s.handles s.host = (.ok handle, u))
include hs hopen

/-- What is opened stands. -/
theorem stands_of_open : c.Stands u handle := by
  cases c with
  | memory shared => cases hopen; exact .map (Nat.lt_succ_self _)
  | mdbx | rocksdb => cases hopen
  | lmdb d =>
    obtain ⟨e, he, rfl⟩ := Except.pair_map_eq_ok_iff.1 hopen
    obtain ⟨hisOpen, -⟩ := Environment.isOpen_of_open hs.fresh he
    exact .environment hisOpen.resolve hisOpen.data
  | fjall d =>
    obtain ⟨j, hj, rfl⟩ := Except.pair_map_eq_ok_iff.1 hopen
    obtain ⟨hisOpen, -⟩ := Journal.isOpen_of_open hs.number_lt_of_journal? hj
    exact .journal hisOpen.resolve hisOpen.marker
  | sqlite path table create =>
    obtain ⟨t, -, rfl⟩ := Except.pair_map_eq_ok_iff.1 hopen
    exact .table
  | postgres conninfo table =>
    obtain ⟨t, -, rfl⟩ := Except.pair_map_eq_ok_iff.1 hopen
    exact .rows

/-- What is opened is nothing that is open already. -/
theorem not_isOneWith_of_open {c' : EngineConfig} {other : Handle} (hother : other ∈ s.handles)
    (hstands : c'.Stands s.host other) : ¬ handle.IsOneWith other := by
  have hext := EngineConfig.extends_open hs.fresh hs.number_lt_of_table? c
  rw [hopen] at hext
  have hagain := hstands.extends hext
  intro hone
  cases c with
  | memory shared =>
    cases hopen
    cases hstands with
    | map hlt => exact absurd hone hlt.ne'
    | environment | journal | table | rows => exact hone
  | mdbx | rocksdb => cases hopen
  | lmdb d =>
    obtain ⟨e, he, rfl⟩ := Except.pair_map_eq_ok_iff.1 hopen
    obtain ⟨-, hfree⟩ := Environment.isOpen_of_open hs.fresh he
    cases hstands with
    | environment => exact hfree _ (List.mem_filterMap.2 ⟨_, hother, rfl⟩) hone.symm
    | map | journal | table | rows => exact hone
  | fjall d =>
    obtain ⟨j, hj, rfl⟩ := Except.pair_map_eq_ok_iff.1 hopen
    obtain ⟨hisOpen, hfree⟩ := Journal.isOpen_of_open hs.number_lt_of_journal? hj
    cases hagain with
    | @journal _ other _ hmarker =>
      -- in one directory there is one marker
      have hnumber := hisOpen.marker
      rw [show j.location = other.location from hone, hmarker] at hnumber
      have heq : other.number = j.number := by simpa using hnumber
      exact hfree other (List.mem_filterMap.2 ⟨_, hother, rfl⟩) heq
    | map | environment | table | rows => exact hone
  | sqlite path table create =>
    obtain ⟨t, -, rfl⟩ := Except.pair_map_eq_ok_iff.1 hopen
    exact hone
  | postgres conninfo table =>
    obtain ⟨t, -, rfl⟩ := Except.pair_map_eq_ok_iff.1 hopen
    exact hone

end EngineConfig

/-! ## Holders and sessions -/

namespace Entries

variable {κ β γ : Type} [DecidableEq κ]

/-- Replaces all values by their images. -/
def mapValues (m : Entries κ β) (f : β → γ) : Entries κ γ where
  toList := m.toList.map fun e => (e.1, f e.2)
  nodup := by
    rw [List.map_map]
    exact m.nodup

theorem get?_mapValues (m : Entries κ β) (f : β → γ) (key : κ) :
    (m.mapValues f).get? key = (m.get? key).map f := by
  have h (entries : List (κ × β)) :
      (entries.map fun e => (e.1, f e.2)).lookup key = (entries.lookup key).map f := by
    induction entries with
    | nil => rfl
    | cons e rest ih =>
      obtain ⟨k, v⟩ := e
      simp only [List.map_cons, List.lookup_cons, ih]
      cases key == k <;> rfl
  exact h m.toList

theorem mapValues_insert (m : Entries κ β) (f : β → γ) (key : κ) (value : β) :
    (m.insert key value).mapValues f = (m.mapValues f).insert key (f value) := by
  simp only [mapValues, insert, erase, filterKeys, List.map_cons, List.filter_map, mk.injEq]
  rfl

/-- What is put under a key twice is there once. -/
theorem insert_insert (m : Entries κ β) (key : κ) (value value' : β) :
    (m.insert key value).insert key value' = m.insert key value' := by
  simp [insert, erase, filterKeys, List.filter_filter]

end Entries

namespace Holder

@[simp] theorem held_make (isSync : Bool) (held : Option Opened) :
    (make isSync held).held = held := by
  cases isSync <;> rfl

@[simp] theorem held_toPlain (o : Holder) : o.toPlain.held = o.held := rfl

@[simp] theorem held_close (o : Holder) : o.close.held = none := by cases o <;> rfl

end Holder

namespace Holders

variable {s t u : Holders} {name other : String} {x y : Opened}

theorem holder_hold (s : Holders) (name : String) (o : Holder) (other : String) :
    (s.hold name o).holder other = if other = name then o else s.holder other := by
  unfold holder hold
  rw [Entries.get?_insert]
  split_ifs <;> rfl

theorem held?_hold (s : Holders) (name : String) (o : Holder) (other : String) :
    (s.hold name o).held? other = if other = name then o.held else s.held? other := by
  unfold held?
  rw [holder_hold]
  split_ifs <;> rfl

/-- The session of what is held. -/
def session (s : Holders) : Session where
  host := s.host
  facades := s.holders.mapValues fun o => o.held.map Opened.handle

theorem handle?_session (s : Holders) (name : String) :
    s.session.handle? name = (s.held? name).map Opened.handle := by
  unfold Session.handle? session held? holder
  rw [Entries.get?_mapValues]
  cases s.holders.get? name <;> rfl

theorem handles_session (s : Holders) : s.session.handles = s.handles := by
  unfold Session.handles session handles Entries.mapValues
  rw [List.filterMap_map]
  rfl

theorem session_hold (s : Holders) (name : String) (o : Holder) :
    (s.hold name o).session = s.session.hold name (o.held.map Opened.handle) := by
  unfold session hold Session.hold
  rw [Entries.mapValues_insert]

theorem mem_handles {handle : Handle} :
    handle ∈ s.handles ↔ ∃ name x, s.held? name = some x ∧ x.handle = handle := by
  rw [← handles_session, Session.mem_handles]
  simp only [handle?_session, Option.map_eq_some_iff]

theorem facade_session (s : Holders) (name : String) :
    s.session.facade name = s.facade name := by
  unfold Session.facade facade Holder.facade
  rw [handle?_session, Option.map_map]
  rfl

/-- What holders do, as something that happens in the session. -/
def translate : Step Action → Step Session.Action
  | ⟨_, .open name c _⟩ => ⟨_, .open name c⟩
  | ⟨_, .default name _⟩ | ⟨_, .close name⟩ => ⟨_, .close name⟩
  | ⟨_, .toPlain name⟩ => ⟨_, .take name name⟩
  | ⟨_, .take source target⟩ => ⟨_, .take source target⟩
  | ⟨_, .through name op⟩ => ⟨_, .through name op⟩

theorem onFacades_translate (i : Step Action) : Session.onFacades (translate i) = true := by
  obtain ⟨α, action⟩ := i
  cases action <;> rfl

/-- Holders do what happens in their session, with the same answer. -/
theorem next_session (s : Holders) (i : Step Action) :
    (machine.next i s).session = Session.machine.next (translate i) s.session ∧
      machine.answer i s = Session.machine.answer (translate i) s.session := by
  obtain ⟨α, action⟩ := i
  cases action with
  | «open» name c byConfig =>
    have hopen : (s.open name c byConfig).1 = (s.session.open name c).1 ∧
        (s.open name c byConfig).2.session = (s.session.open name c).2 := by
      unfold Holders.open Session.open
      rw [handles_session]
      show _ ∧ _
      split
      · next handle h heq =>
        have heq' : c.open s.handles s.session.host = (.ok handle, h) := heq
        rw [heq', session_hold, Holder.held_make]
        exact ⟨rfl, rfl⟩
      · next e h heq =>
        have heq' : c.open s.handles s.session.host = (.error e, h) := heq
        rw [heq']
        exact ⟨rfl, rfl⟩
    refine ⟨hopen.2, ?_⟩
    show (⟨_, (s.open name c byConfig).1.map _⟩ : Answer) = ⟨_, (s.session.open name c).1.map _⟩
    rw [hopen.1]
    rfl
  | default name isSync =>
    refine ⟨?_, rfl⟩
    exact (session_hold s name _).trans (by rw [Holder.held_make]; rfl)
  | toPlain name =>
    refine ⟨?_, rfl⟩
    show (s.hold name (s.holder name).toPlain).session =
      (s.session.hold name none).hold name (s.session.handle? name)
    rw [session_hold, handle?_session, Session.hold, Session.hold, Session.hold,
      Entries.insert_insert]
    rfl
  | close name =>
    refine ⟨?_, rfl⟩
    exact (session_hold s name _).trans (by rw [Holder.held_close]; rfl)
  | take source target =>
    refine ⟨?_, rfl⟩
    show ((s.hold source (s.holder source).close).hold target (s.holder source)).session =
      (s.session.hold source none).hold target (s.session.handle? source)
    rw [session_hold, session_hold, Holder.held_close, handle?_session]
    rfl
  | through name op =>
    have hfacade := facade_session s name
    constructor
    · show ({ s with host := ((s.facade name).perform op s.host).2 } : Holders).session =
        { s.session with host := ((s.session.facade name).perform op s.host).2 }
      rw [hfacade]
      rfl
    · show (⟨_, ((s.facade name).perform op s.host).1⟩ : Answer) =
        ⟨_, ((s.session.facade name).perform op s.host).1⟩
      rw [hfacade]

/-! ## Sound holders -/

/-- Two things that are held have nothing in common. -/
def Apart (x y : Opened) : Prop := x.number ≠ y.number ∧ ¬ x.handle.IsOneWith y.handle

theorem Apart.symm (h : Apart x y) : Apart y x := ⟨h.1.symm, fun hone => h.2 hone.symm⟩

/-- What is held stands, and no two facades hold one thing. -/
structure Separate (s : Holders) : Prop where
  number {name : String} {x : Opened} : s.held? name = some x → x.number < s.next
  stands {name : String} {x : Opened} : s.held? name = some x → x.config.Stands s.host x.handle
  apart {name other : String} {x y : Opened} : s.held? name = some x → s.held? other = some y →
    name ≠ other → Apart x y

/-- A facade is put in place of another one. -/
theorem Separate.hold (hs : s.Separate) {o : Holder}
    (ho : ∀ x, o.held = some x → x.number < s.next ∧ x.config.Stands s.host x.handle ∧
      ∀ other y, other ≠ name → s.held? other = some y → Apart x y) : (s.hold name o).Separate := by
  constructor
  · intro n x hx
    rw [held?_hold] at hx
    split_ifs at hx
    · exact (ho x hx).1
    · exact hs.number hx
  · intro n x hx
    rw [held?_hold] at hx
    split_ifs at hx
    · exact (ho x hx).2.1
    · exact hs.stands hx
  · intro n n' x y hx hy hne
    rw [held?_hold] at hx hy
    split_ifs at hx hy with hn hn' hn'
    · exact absurd (hn.trans hn'.symm) hne
    · exact (ho x hx).2.2 n' y hn' hy
    · exact ((ho y hy).2.2 n x hn hx).symm
    · exact hs.apart hx hy hne

/-- Something happens on the host. -/
theorem Separate.host (hs : s.Separate) {t : Holders} (hholders : t.holders = s.holders)
    (hnext : s.next ≤ t.next)
    (hstands : ∀ c handle, EngineConfig.Stands s.host c handle → c.Stands t.host handle) :
    t.Separate := by
  have hheld (name : String) : t.held? name = s.held? name := by
    unfold held? holder
    rw [hholders]
  constructor
  · intro name x hx
    rw [hheld] at hx
    exact (hs.number hx).trans_le hnext
  · intro name x hx
    rw [hheld] at hx
    exact hstands _ _ (hs.stands hx)
  · intro name other x y hx hy
    rw [hheld] at hx hy
    exact hs.apart hx hy

/-- What holds of holders at all times. -/
structure Sound (s : Holders) : Prop extends Separate s where
  session : s.session.Sound
  placed : s.session.Placed

theorem Sound.separate_open (hs : s.Sound) (name : String) (c : EngineConfig) (byConfig : Bool) :
    (s.open name c byConfig).2.Separate := by
  have hext := EngineConfig.extends_open hs.session.fresh hs.session.number_lt_of_table? c
  unfold Holders.open
  rw [← handles_session]
  split
  · next handle u hopen =>
    have hopen : c.open s.session.handles s.session.host = (.ok handle, u) := hopen
    rw [hopen] at hext
    have hthere : Separate { s with host := u, next := s.next + 1 } :=
      hs.toSeparate.host rfl (Nat.le_succ _) fun _ _ hstands => hstands.extends hext
    refine hthere.hold fun x hx => ?_
    rw [Holder.held_make] at hx
    cases hx
    refine ⟨Nat.lt_succ_self _, EngineConfig.stands_of_open hs.session hopen, ?_⟩
    intro other y _ hy
    have hy : s.held? other = some y := hy
    constructor
    · exact (hs.number hy).ne'
    · refine EngineConfig.not_isOneWith_of_open hs.session hopen ?_ (hs.stands hy)
      rw [handles_session]
      exact mem_handles.2 ⟨other, y, hy, rfl⟩
  · next e u hopen =>
    have hopen : c.open s.session.handles s.session.host = (.error e, u) := hopen
    rw [hopen] at hext
    exact hs.toSeparate.host rfl le_rfl fun _ _ hstands => hstands.extends hext

theorem Sound.separate_next (hs : s.Sound) (i : Step Action) : (machine.next i s).Separate := by
  obtain ⟨α, action⟩ := i
  cases action with
  | «open» name c byConfig => exact hs.separate_open name c byConfig
  | default name isSync =>
    refine hs.toSeparate.hold fun x hx => ?_
    rw [Holder.held_make] at hx
    cases hx
  | close name =>
    refine hs.toSeparate.hold fun x hx => ?_
    rw [Holder.held_close] at hx
    cases hx
  | toPlain name =>
    refine hs.toSeparate.hold fun x hx => ?_
    have hx : s.held? name = some x := hx
    exact ⟨hs.number hx, hs.stands hx, fun other y hne hy => hs.apart hx hy hne.symm⟩
  | take source target =>
    have hclosed : (s.hold source (s.holder source).close).Separate := by
      refine hs.toSeparate.hold fun x hx => ?_
      rw [Holder.held_close] at hx
      cases hx
    refine hclosed.hold fun x hx => ?_
    have hx : s.held? source = some x := hx
    refine ⟨hs.number hx, hs.stands hx, fun other y _ hy => ?_⟩
    rw [held?_hold, Holder.held_close] at hy
    split_ifs at hy with hne
    exact hs.apart hx hy (Ne.symm hne)
  | through name op =>
    refine hs.toSeparate.host rfl le_rfl fun c handle hstands => ?_
    show c.Stands ((s.facade name).perform op s.host).2 handle
    unfold facade Holder.facade
    cases (s.holder name).held with
    | none =>
      rw [Option.map_none, Facade.perform_closed]
      exact hstands
    | some x =>
      exact hstands.of_eq (x.handle.preserves_files.facade op rfl)
        (x.handle.preserves_next.facade op rfl)

/-- **Whatever holders do, they stay sound.** -/
theorem Sound.next (hs : s.Sound) (i : Step Action) : (machine.next i s).Sound := by
  have hpermits : s.session.Permits (translate i) :=
    Session.permits_of_onFacades (onFacades_translate i)
  obtain ⟨held, hm⟩ := hs.session.moves_next hpermits
  have hsession := hs.session.next hpermits
  have hplaced := hs.placed.moves hm hs.session hsession.fresh
  rw [← (next_session s i).1] at hsession hplaced
  exact { hs.separate_next i with session := hsession, placed := hplaced }

theorem Sound.after (hs : s.Sound) (run : List (Step Action)) : (machine.after run s).Sound :=
  machine.after_invariant (fun i _ h => h.next i) run hs

/-- At first nothing is held, whatever is on the host. -/
theorem sound_start {t : Session} (ht : t.Sound) : Sound { host := t.host } := by
  have hnone (name : String) : held? { host := t.host } name = none := rfl
  refine ⟨⟨fun hx => ?_, fun hx => ?_, fun hx => ?_⟩, ?_, ?_⟩
  · rw [hnone] at hx; cases hx
  · rw [hnone] at hx; cases hx
  · rw [hnone] at hx; cases hx
  · exact ht.alone
  · exact fun _ hmem => nomatch hmem

/-! ## What is held stays what it is -/

theorem next_le (s : Holders) (i : Step Action) : s.next ≤ (machine.next i s).next := by
  obtain ⟨α, action⟩ := i
  cases action with
  | «open» name c byConfig =>
    show s.next ≤ (s.open name c byConfig).2.next
    unfold Holders.open
    split
    · exact Nat.le_succ _
    · exact le_rfl
  | default | toPlain | close | take | through => exact le_rfl

/-- What is held after a step is new, or was held before. -/
theorem held_of_next {i : Step Action} (hx : (machine.next i s).held? name = some x)
    (hold : x.number < s.next) : ∃ other, s.held? other = some x := by
  obtain ⟨α, action⟩ := i
  cases action with
  | «open» target c byConfig =>
    have hx : (s.open target c byConfig).2.held? name = some x := hx
    unfold Holders.open at hx
    split at hx
    · rw [held?_hold, Holder.held_make] at hx
      split_ifs at hx
      · cases hx
        exact absurd hold (lt_irrefl _)
      · exact ⟨name, hx⟩
    · exact ⟨name, hx⟩
  | default target isSync =>
    have hx : (s.hold target (.make isSync none)).held? name = some x := hx
    rw [held?_hold, Holder.held_make] at hx
    split_ifs at hx
    exact ⟨name, hx⟩
  | close target =>
    have hx : (s.hold target (s.holder target).close).held? name = some x := hx
    rw [held?_hold, Holder.held_close] at hx
    split_ifs at hx
    exact ⟨name, hx⟩
  | toPlain target =>
    have hx : (s.hold target (s.holder target).toPlain).held? name = some x := hx
    rw [held?_hold] at hx
    split_ifs at hx
    · exact ⟨target, hx⟩
    · exact ⟨name, hx⟩
  | take source target =>
    have hx : ((s.hold source (s.holder source).close).hold target (s.holder source)).held? name =
      some x := hx
    rw [held?_hold, held?_hold, Holder.held_close] at hx
    split_ifs at hx
    · exact ⟨source, hx⟩
    · exact ⟨name, hx⟩
  | through => exact ⟨name, hx⟩

theorem held_of_after {run : List (Step Action)} (hx : (machine.after run s).held? name = some x)
    (hold : x.number < s.next) : ∃ other, s.held? other = some x := by
  induction run generalizing s with
  | nil => exact ⟨name, hx⟩
  | cons i run ih =>
    obtain ⟨other, hother⟩ := ih hx (hold.trans_le (next_le s i))
    exact held_of_next hother hold

/-! ## Renaming -/

/-- An action on facades of other names. -/
def rename (π : Equiv.Perm String) : Step Action → Step Action
  | ⟨_, .open name c byConfig⟩ => ⟨_, .open (π name) c byConfig⟩
  | ⟨_, .default name isSync⟩ => ⟨_, .default (π name) isSync⟩
  | ⟨_, .toPlain name⟩ => ⟨_, .toPlain (π name)⟩
  | ⟨_, .close name⟩ => ⟨_, .close (π name)⟩
  | ⟨_, .take source target⟩ => ⟨_, .take (π source) (π target)⟩
  | ⟨_, .through name op⟩ => ⟨_, .through (π name) op⟩

theorem rename_refl (i : Step Action) : rename (Equiv.refl String) i = i := by
  obtain ⟨α, action⟩ := i
  cases action <;> rfl

/-- The same is held, by facades of other names and perhaps of another form. -/
structure Renamed (π : Equiv.Perm String) (s t : Holders) : Prop where
  host : t.host = s.host
  next : t.next = s.next
  held (name : String) : t.held? (π name) = s.held? name

theorem facade_eq (s : Holders) (name : String) :
    s.facade name = ⟨(s.held? name).map fun x => x.handle.backend⟩ := rfl

variable {π : Equiv.Perm String}

theorem Renamed.hold (h : Renamed π s t) (name : String) {o o' : Holder} (ho : o'.held = o.held) :
    Renamed π (s.hold name o) (t.hold (π name) o') := by
  refine ⟨h.host, h.next, fun other => ?_⟩
  rw [held?_hold, held?_hold, h.held, ho]
  simp only [π.injective.eq_iff]

theorem Renamed.mem_handles (h : Renamed π s t) (handle : Handle) :
    handle ∈ s.handles ↔ handle ∈ t.handles := by
  rw [Holders.mem_handles, Holders.mem_handles]
  constructor
  · rintro ⟨name, x, hx, rfl⟩
    exact ⟨π name, x, (h.held name).trans hx, rfl⟩
  · rintro ⟨name, x, hx, rfl⟩
    refine ⟨π.symm name, x, ?_, rfl⟩
    rw [← h.held, Equiv.apply_symm_apply]
    exact hx

/-- Engines are opened alike, by whichever facades others are held. -/
theorem Renamed.open (h : Renamed π s t) (hs : s.Sound) (name : String) (c : EngineConfig)
    (byConfig : Bool) : (t.open (π name) c byConfig).1 = (s.open name c byConfig).1 ∧
      Renamed π (s.open name c byConfig).2 (t.open (π name) c byConfig).2 := by
  have hshared : ∀ x ∈ s.handles, ∀ y ∈ s.handles, (Session.share? x).isSome →
      Session.share? y = Session.share? x → y.number? = x.number? := by
    rw [← handles_session]
    intro x hx y hy hsome heq
    exact (hs.placed x hx).shared hy hsome heq
  have hopen : c.open t.handles t.host = c.open s.handles s.host := by
    rw [h.host, EngineConfig.open_congr h.mem_handles hshared c s.host]
  unfold Holders.open
  rw [hopen, h.next]
  split
  · next handle u _ =>
    have hthere : Renamed π { s with host := u, next := s.next + 1 }
        { t with host := u, next := s.next + 1 } := ⟨rfl, rfl, h.held⟩
    exact ⟨rfl, hthere.hold name rfl⟩
  · exact ⟨rfl, rfl, rfl, h.held⟩

theorem Renamed.step (h : Renamed π s t) (hs : s.Sound) (i : Step Action) :
    machine.answer (rename π i) t = machine.answer i s ∧
      Renamed π (machine.next i s) (machine.next (rename π i) t) := by
  obtain ⟨α, action⟩ := i
  cases action with
  | «open» name c byConfig =>
    obtain ⟨hanswer, hnext⟩ := h.open hs name c byConfig
    refine ⟨?_, hnext⟩
    show (⟨_, (t.open (π name) c byConfig).1.map _⟩ : Answer) = ⟨_, (s.open name c byConfig).1.map _⟩
    rw [hanswer]
    rfl
  | default name isSync => exact ⟨rfl, h.hold name rfl⟩
  | toPlain name => exact ⟨rfl, h.hold name (h.held name)⟩
  | close name => exact ⟨rfl, h.hold name (by rw [Holder.held_close, Holder.held_close])⟩
  | take source target =>
    have hclosed : Renamed π (s.hold source (s.holder source).close)
        (t.hold (π source) (t.holder (π source)).close) :=
      h.hold source (by rw [Holder.held_close, Holder.held_close])
    exact ⟨rfl, hclosed.hold target (h.held source)⟩
  | through name op =>
    have hfacade : t.facade (π name) = s.facade name := by rw [facade_eq, facade_eq, h.held]
    constructor
    · show (⟨_, ((t.facade (π name)).perform op t.host).1⟩ : Answer) =
        ⟨_, ((s.facade name).perform op s.host).1⟩
      rw [hfacade, h.host]
    · refine ⟨?_, h.next, h.held⟩
      show ((t.facade (π name)).perform op t.host).2 = ((s.facade name).perform op s.host).2
      rw [hfacade, h.host]

/-- **It does not matter by which facades engines are held.** -/
theorem Renamed.run (h : Renamed π s t) (hs : s.Sound) (run : List (Step Action)) :
    machine.answers (run.map (rename π)) t = machine.answers run s := by
  induction run generalizing s t with
  | nil => rfl
  | cons i run ih =>
    obtain ⟨hanswer, hnext⟩ := h.step hs i
    rw [List.map_cons, Machine.answers, Machine.answers, hanswer, ih hnext (hs.next i)]

/-- What is taken is held by another facade. -/
theorem renamed_take (s : Holders) {source target : String} (hne : source ≠ target) :
    Renamed (Equiv.swap source target) (machine.next ⟨_, .close target⟩ s)
      (machine.next ⟨_, .take source target⟩ s) := by
  refine ⟨rfl, rfl, fun name => ?_⟩
  show ((s.hold source (s.holder source).close).hold target (s.holder source)).held? _ =
    (s.hold target (s.holder target).close).held? name
  rw [held?_hold, held?_hold, held?_hold, Holder.held_close, Holder.held_close]
  by_cases hsource : name = source
  · subst hsource
    rw [Equiv.swap_apply_left, if_pos rfl, if_neg hne]
    rfl
  · by_cases htarget : name = target
    · subst htarget
      rw [Equiv.swap_apply_right, if_neg hne, if_pos rfl, if_pos rfl]
    · rw [Equiv.swap_apply_of_ne_of_ne hsource htarget, if_neg htarget, if_neg hsource,
        if_neg htarget]

/-- What is made plain is held by the same facade. -/
theorem renamed_toPlain (s : Holders) (name : String) :
    Renamed (Equiv.refl String) s (machine.next ⟨_, .toPlain name⟩ s) := by
  refine ⟨rfl, rfl, fun other => ?_⟩
  show (s.hold name (s.holder name).toPlain).held? other = s.held? other
  rw [held?_hold]
  split_ifs with hother
  · rw [hother]
    rfl
  · rfl

/-! ## Closed facades -/

theorem held?_eq_none_iff : s.held? name = none ↔ (s.facade name).isOpen = false := by
  rw [facade_eq]
  cases s.held? name with
  | none => exact iff_of_true rfl rfl
  | some x => exact iff_of_false nofun nofun

theorem act_closed (h : (s.facade name).isOpen = false) {α : Type} (op : Operation α) :
    machine.act (.through name op) s = (.error .closed, s) := by
  show (((s.facade name).perform op s.host).1,
    { s with host := ((s.facade name).perform op s.host).2 }) = _
  rw [facade_eq, held?_eq_none_iff.2 h, Option.map_none, Facade.perform_closed]

/-- Closing a closed facade does nothing. -/
theorem close_of_closed (h : (s.facade name).isOpen = false) (other : String) :
    (machine.next ⟨_, .close name⟩ s).holder other = s.holder other := by
  have hnone : (s.holder name).held = none := held?_eq_none_iff.2 h
  show (s.hold name (s.holder name).close).holder other = s.holder other
  rw [holder_hold]
  split_ifs with hother
  · rw [hother]
    cases hholder : s.holder name with
    | plain held => rw [hholder] at hnone; cases hnone; rfl
    | sync held => rw [hholder] at hnone; cases hnone; rfl
  · rfl

/-! ## Opening that fails -/

/-- Opening that fails leaves all facades as they were, with all that is read
    through them. -/
theorem Sound.open_eq_error (hs : s.Sound) {c : EngineConfig} {byConfig : Bool} {e : StoreError}
    (hopen : s.open name c byConfig = (.error e, t)) (other : String) :
    t.holder other = s.holder other ∧ ∀ {α : Type} {op : Operation α}, op.change? = none →
      (machine.act (.through other op) t).1 = (machine.act (.through other op) s).1 := by
  have hext := EngineConfig.extends_open hs.session.fresh hs.session.number_lt_of_table? c
  have hengine : ∃ u, c.open s.session.handles s.session.host = (.error e, u) ∧
      t = { s with host := u } := by
    rw [handles_session]
    unfold Holders.open at hopen
    split at hopen
    · cases hopen
    · next u heq =>
      cases hopen
      exact ⟨u, heq, rfl⟩
  obtain ⟨u, hengine, rfl⟩ := hengine
  have hrunning := EngineConfig.running_of_open hengine
  rw [hengine] at hext
  refine ⟨rfl, fun {α op} hop => ?_⟩
  show ((s.facade other).perform op u).1 = ((s.facade other).perform op s.host).1
  rw [facade_eq]
  cases s.held? other with
  | none => rw [Option.map_none, Facade.perform_closed, Facade.perform_closed]
  | some x =>
    exact Facade.answer_congr_of_fetch
      (Handle.fetch_congr hrunning hext.keyspace hext.cells x.handle) hop

/-! ## Directories that are open -/

/-- Some facade holds what was opened by a path that leads to a directory. -/
def HoldsAt (s : Holders) (engine : DirectoryConfig → EngineConfig) (loc : Location) : Prop :=
  ∃ name x d, s.held? name = some x ∧ x.config = engine d ∧ s.host.files.resolve d.path = .ok loc

theorem open_fst (s : Holders) (name : String) (c : EngineConfig) (byConfig : Bool) :
    (s.open name c byConfig).1 = (c.open s.handles s.host).1 := by
  unfold Holders.open
  split <;> next heq => rw [heq]

theorem Sound.exists_environment_iff (hs : s.Sound) {loc : Location} :
    (∃ e ∈ s.handles.filterMap (·.environment?), e.location = loc) ↔ s.HoldsAt .lmdb loc := by
  simp only [List.mem_filterMap, mem_handles]
  constructor
  · rintro ⟨e, ⟨_, ⟨name, x, hx, rfl⟩, he⟩, rfl⟩
    have hstands := hs.stands hx
    obtain ⟨number, config, handle⟩ := x
    cases hstands with
    | environment hresolve => cases he; exact ⟨name, _, _, hx, rfl, hresolve⟩
    | map | journal | table | rows => cases he
  · rintro ⟨name, x, d, hx, hconfig, hresolve⟩
    have hstands := hs.stands hx
    obtain ⟨number, config, handle⟩ := x
    obtain rfl : config = .lmdb d := hconfig
    cases hstands with
    | @environment _ e hresolve' =>
      rw [hresolve] at hresolve'
      exact ⟨e, ⟨_, ⟨name, _, hx, rfl⟩, rfl⟩, (Except.ok.inj hresolve').symm⟩

theorem Sound.exists_journal_iff (hs : s.Sound) {loc : Location} :
    (∃ j ∈ s.handles.filterMap (·.journal?), j.location = loc) ↔ s.HoldsAt .fjall loc := by
  simp only [List.mem_filterMap, mem_handles]
  constructor
  · rintro ⟨j, ⟨_, ⟨name, x, hx, rfl⟩, hj⟩, rfl⟩
    have hstands := hs.stands hx
    obtain ⟨number, config, handle⟩ := x
    cases hstands with
    | journal hresolve => cases hj; exact ⟨name, _, _, hx, rfl, hresolve⟩
    | map | environment | table | rows => cases hj
  · rintro ⟨name, x, d, hx, hconfig, hresolve⟩
    have hstands := hs.stands hx
    obtain ⟨number, config, handle⟩ := x
    obtain rfl : config = .fjall d := hconfig
    cases hstands with
    | @journal _ j hresolve' =>
      rw [hresolve] at hresolve'
      exact ⟨j, ⟨_, ⟨name, _, hx, rfl⟩, rfl⟩, (Except.ok.inj hresolve').symm⟩

/-- A journaling database that is held has its marker. -/
theorem Sound.marker (hs : s.Sound) : ∀ j ∈ s.handles.filterMap (·.journal?),
    s.host.files.node? (j.location ++ [Journal.marker]) = some (.file (.keyspace j.number)) := by
  intro j hj
  obtain ⟨_, hmem, hj⟩ := List.mem_filterMap.1 hj
  obtain ⟨name, x, hx, rfl⟩ := mem_handles.1 hmem
  have hstands := hs.stands hx
  obtain ⟨number, config, handle⟩ := x
  cases hstands with
  | journal _ hmarker => cases hj; exact hmarker
  | map | environment | table | rows => cases hj

/-- An environment is refused as open already exactly while some facade holds
    it. -/
theorem Sound.lmdb_refused_iff (hs : s.Sound) (name : String) (d : DirectoryConfig)
    (byConfig : Bool) :
    (s.open name (.lmdb d) byConfig).1 = .error (.environment .alreadyOpen) ↔
      ∃ loc, s.host.files.directory? d.path d.createIfMissing = some loc ∧ s.HoldsAt .lmdb loc := by
  rw [open_fst]
  show ((Environment.open _ d.path d.options d.createIfMissing s.host).1.map Handle.environment) =
    .error _ ↔ _
  rw [Except.map_eq_error_iff, Environment.open_refused_iff]
  simp only [hs.exists_environment_iff]

/-- A journaling database that could be opened otherwise is refused exactly
    while some facade holds it. -/
theorem Sound.fjall_refused_iff (hs : s.Sound) (name : String) (d : DirectoryConfig)
    (byConfig : Bool) :
    ((s.open name (.fjall d) byConfig).1 = .error .journal ∧
        ((EngineConfig.fjall d).open [] s.host).1.isOk = true) ↔
      ∃ loc, s.host.files.directory? d.path d.createIfMissing = some loc ∧ s.HoldsAt .fjall loc := by
  have halone : ((EngineConfig.fjall d).open [] s.host).1.isOk =
      (Journal.open [] d.path d.createIfMissing s.host).1.isOk := by
    show Except.isOk ((Journal.open [] d.path d.createIfMissing s.host).1.map Handle.journal) = _
    cases (Journal.open [] d.path d.createIfMissing s.host).1 <;> rfl
  have hfresh : s.host.IsFresh := hs.session.fresh
  rw [open_fst, halone]
  show (Journal.open _ d.path d.createIfMissing s.host).1.map Handle.journal = .error _ ∧ _ ↔ _
  rw [Except.map_eq_error_iff, Journal.open_refused_iff hfresh hs.marker]
  simp only [hs.exists_journal_iff]

/-! ## Owners of engines -/

/-- What facades are like at all times. -/
structure IsOrderly (s : Holders) : Prop where
  /-- A facade is open exactly while it holds something. -/
  isOpen (name : String) : (s.facade name).isOpen = (s.held? name).isSome
  backendName (name : String) :
    (s.facade name).backendName = (s.held? name).map fun x => x.handle.backend.name
  debug (name : String) :
    (s.facade name).debug = "KvDatabase \x7b backend: None \x7d" ↔ (s.facade name).isOpen = false
  /-- No two facades hold one thing, or what is in one directory. -/
  apart {name other : String} {x y : Opened} : s.held? name = some x → s.held? other = some y →
    name ≠ other → Apart x y
  /-- What is held later was opened later, or it is what it was. -/
  kept (run : List (Step Action)) {name : String} {x : Opened} :
    (machine.after run s).held? name = some x → x.number < s.next →
      ∃ other, s.held? other = some x
  /-- A closed facade refuses everything, and nothing changes. -/
  closed {name : String} : (s.facade name).isOpen = false → ∀ {α : Type} (op : Operation α),
    machine.act (.through name op) s = (.error .closed, s)
  closed_default (name : String) (isSync : Bool) :
    ((machine.next ⟨_, .default name isSync⟩ s).facade name).isOpen = false
  closed_close (name : String) : ((machine.next ⟨_, .close name⟩ s).facade name).isOpen = false
  closed_take {source target : String} : source ≠ target →
    ((machine.next ⟨_, .take source target⟩ s).facade source).isOpen = false
  /-- Closing again does nothing. -/
  close_again {name : String} : (s.facade name).isOpen = false → ∀ other,
    (machine.next ⟨_, .close name⟩ s).holder other = s.holder other
  /-- Whoever takes an engine goes on with it as the one would have that held
      it, and what the one held that takes it is dropped. -/
  take {source target : String} : source ≠ target → ∀ run,
    machine.answers (run.map (rename (Equiv.swap source target)))
        (machine.next ⟨_, .take source target⟩ s) =
      machine.answers run (machine.next ⟨_, .close target⟩ s)
  /-- A facade that is made plain goes on as before. -/
  toPlain (name : String) (run : List (Step Action)) :
    machine.answers run (machine.next ⟨_, .toPlain name⟩ s) = machine.answers run s
  /-- Opening that fails leaves all facades, and what is read through them. -/
  failed {name : String} {c : EngineConfig} {byConfig : Bool} {e : StoreError} {t : Holders} :
    s.open name c byConfig = (.error e, t) → ∀ other, t.holder other = s.holder other ∧
      ∀ {α : Type} {op : Operation α}, op.change? = none →
        (machine.act (.through other op) t).1 = (machine.act (.through other op) s).1
  /-- A directory is refused as open already exactly while some facade holds
      it. -/
  lmdb (name : String) (d : DirectoryConfig) (byConfig : Bool) :
    (s.open name (.lmdb d) byConfig).1 = .error (.environment .alreadyOpen) ↔
      ∃ loc, s.host.files.directory? d.path d.createIfMissing = some loc ∧ s.HoldsAt .lmdb loc
  fjall (name : String) (d : DirectoryConfig) (byConfig : Bool) :
    ((s.open name (.fjall d) byConfig).1 = .error .journal ∧
        ((EngineConfig.fjall d).open [] s.host).1.isOk = true) ↔
      ∃ loc, s.host.files.directory? d.path d.createIfMissing = some loc ∧ s.HoldsAt .fjall loc

theorem Sound.isOrderly (hs : s.Sound) : s.IsOrderly where
  isOpen name := by
    rw [facade_eq]
    cases s.held? name <;> rfl
  backendName name := by
    rw [facade_eq]
    cases s.held? name <;> rfl
  debug name := Facade.debug_eq_iff _
  apart := hs.apart
  kept run _ _ hx hold := held_of_after hx hold
  closed h _ op := act_closed h op
  closed_default name isSync := by
    refine held?_eq_none_iff.1 ?_
    exact (held?_hold s name _ name).trans ((if_pos rfl).trans (Holder.held_make isSync none))
  closed_close name := by
    refine held?_eq_none_iff.1 ?_
    exact (held?_hold s name _ name).trans ((if_pos rfl).trans (Holder.held_close _))
  closed_take {source target} hne := by
    refine held?_eq_none_iff.1 ?_
    show ((s.hold source (s.holder source).close).hold target (s.holder source)).held? source = none
    rw [held?_hold, if_neg hne, held?_hold, if_pos rfl, Holder.held_close]
  close_again h := close_of_closed h
  take {source target} hne run := (renamed_take s hne).run (hs.next _) run
  toPlain name run := by
    have hrun := (renamed_toPlain s name).run hs run
    rwa [List.map_congr_left fun i _ => rename_refl i, List.map_id'] at hrun
  failed hopen := hs.open_eq_error hopen
  lmdb := hs.lmdb_refused_iff
  fjall := hs.fjall_refused_iff

end Holders

/-- **Facades own what they open.**  On any host that a session reaches, let no
    facade be open, and let facades be opened, with success or not, moved, made
    plain, closed and worked with in any way.  They are orderly in the end. -/
theorem facades_own_engines {t : Session} (ht : t.Reachable) (run : List (Step Holders.Action)) :
    (Holders.machine.after run { host := t.host }).IsOrderly :=
  ((Holders.sound_start ht.sound).after run).isOrderly

/-- An environment that has been moved and made plain is not opened once
    more. -/
theorem facades_own_engines_lmdb :
    let c : EngineConfig := .lmdb { path := "data" }
    let run : List (Step Holders.Action) :=
      [⟨_, .open "a" c false⟩, ⟨_, .take "a" "b"⟩, ⟨_, .toPlain "b"⟩]
    let s := Holders.machine.after run { host := ({} : Session).host }
    (s.open "c" c false).1 = .error (.environment .alreadyOpen) ∧
      Holders.machine.act (.through "a" (.getOr "k" .bool true)) s = (.error .closed, s) := by
  intro c run s
  have horderly : s.IsOrderly := facades_own_engines .start run
  -- the first opening succeeds
  have hok : (Environment.open [] "data" {} true {}).1.isOk = true := by cbv
  obtain ⟨e, he⟩ := Except.isOk_iff.1 hok
  have hopened : Environment.open [] "data" {} true {} =
      (.ok e, (Environment.open [] "data" {} true {}).2) := Prod.ext he rfl
  obtain ⟨hisOpen, -⟩ := Environment.isOpen_of_open Session.sound_start.fresh hopened
  generalize (Environment.open [] "data" {} true {}).2 = h at hopened hisOpen
  have hopen : c.open [] {} = (.ok (.environment e), h) := Except.pair_map_eq_ok_iff.2 ⟨e, hopened, rfl⟩
  have hs : s = Holders.machine.after [⟨_, .take "a" "b"⟩, ⟨_, .toPlain "b"⟩]
      (({ host := h, next := 1 } : Holders).hold "a" (.make true (some ⟨0, c, .environment e⟩))) := by
    show Holders.machine.after _ (Holders.open { host := {} } "a" c false).2 = _
    unfold Holders.open
    rw [show c.open (Holders.handles { host := {} }) {} = _ from hopen]
    rfl
  have hdirectory : h.files.isDirectory "data" = true :=
    FileTree.isDirectory_iff.2 ⟨_, hisOpen.resolve, hisOpen.directory⟩
  refine ⟨(horderly.lmdb "c" { path := "data" } false).2 ⟨e.location, ?_, ?_⟩, horderly.closed ?_ _⟩
  · refine FileTree.directory?_eq_some_iff.2 ⟨h.files, ?_, hisOpen.resolve⟩
    rw [hs]
    exact FileTree.ensureDirectory_of_isDirectory hdirectory true
  · rw [hs]
    exact ⟨"b", ⟨0, c, .environment e⟩, { path := "data" }, rfl, rfl, hisOpen.resolve⟩
  · rw [hs]
    rfl

end TypedStore
