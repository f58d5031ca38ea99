/-
  TypedStore — where the databases are that are open.

  A handle tells where the file is that refers to its keyspace or database.  In
  every state that a session reaches that is so of the files that there are, and
  handles agree about it.

  * `Handle.preserves_files`: no call of an engine changes the files;
  * `Session.Sound.found_open`: what an engine is opened as;
  * `Session.Sound.moves_next`: what a step does to what is open, and to the
    files that refer to something;
  * `Session.Placed`: a file that refers to what a facade has open is where the
    handle says, and `Session.Reachable.placed` that this is always so.
-/
import TypedStore.Proofs.Reachable

namespace TypedStore

/-- Where the file is that refers to what a handle works on; a database in
    memory has none. -/
def Handle.file? : Handle → Option Location
  | table t => t.location
  | journal j => some (j.location ++ [Journal.marker])
  | environment e => some (e.location ++ [Environment.dataFile])
  | map _ | store _ | rows _ => none

/-! ## Calls of engines -/

theorem Host.files_reach (h : Host) (n pages : Nat) : (h.reach n pages).files = h.files := by
  unfold reach
  split_ifs <;> rfl

theorem Host.next_reach (h : Host) (n pages : Nat) : (h.reach n pages).next = h.next := by
  unfold reach
  split_ifs <;> rfl

/-- No call of an engine changes the files. -/
theorem Handle.preserves_files {files : FileTree} (handle : Handle) :
    handle.backend.Preserves fun h => h.files = files :=
  preserves_of_put (fun _ _ _ => id) (fun _ _ _ => id) (fun _ _ _ _ => id) (fun _ _ _ => id)
    (fun h n pages hh => (h.files_reach n pages).trans hh) (fun _ _ => id) handle

/-- No call of an engine gives out a number. -/
theorem Handle.preserves_next {next : Nat} (handle : Handle) :
    handle.backend.Preserves fun h => h.next = next :=
  preserves_of_put (fun _ _ _ => id) (fun _ _ _ => id) (fun _ _ _ _ => id) (fun _ _ _ => id)
    (fun h n pages hh => (h.next_reach n pages).trans hh) (fun _ _ => id) handle

namespace Session

variable {s t : Session} {handle : Handle}

/-! ## What is opened -/

/-- The tables that facades have open. -/
def tables (s : Session) : List TableHandle := s.handles.filterMap (·.table?)

/-- A table that is opened is the one of the name, with the rows that it had. -/
theorem open_sqlite_eq_ok (hs : s.Sound) {name path table : String} {create : Bool}
    (hopen : s.open name (.sqlite path table create) = (.ok handle, t)) :
    ∃ x target, handle = .table x ∧ t.handle? name = some handle ∧
      Statements.checkTableName table = .ok () ∧ TablePath.target path create = .ok target ∧
      TableFile.openTarget s.tables path table target s.host = (.ok x, t.host) ∧
      x.rows t.host = s.host.cells x.number table := by
  obtain ⟨h, hengine, rfl⟩ := open_eq_ok hopen
  have hext := EngineConfig.extends_open hs.fresh hs.number_lt_of_table? (.sqlite path table create)
  rw [hengine] at hext
  obtain ⟨x, hx, rfl⟩ := Except.pair_map_eq_ok_iff.1 hengine
  obtain ⟨hname, target, htarget, hopened⟩ := TableFile.open_eq_ok_iff.1 hx
  refine ⟨x, target, rfl, by rw [handle?_hold, if_pos rfl], hname, htarget, hopened, ?_⟩
  rw [TableHandle.rows, (TableFile.serves_of_openTarget hopened).opened]
  exact hext.cells x.number table

/-- The name under which other facades find what a handle works on. -/
def share? : Handle → Option String
  | .table t => t.share
  | .map _ | .store _ | .journal _ | .environment _ | .rows _ => none

/-- What an engine is opened as: something that has no number, something that a
    file refers to, a database in memory that is new, or one that is shared. -/
inductive Found (s : Session) (h : Host) : Handle → Prop where
  | unnumbered {handle : Handle} : handle.number? = none → Found s h handle
  | file {handle : Handle} {loc : Location} {content : Content} {n : Nat} :
    handle.number? = some n → handle.file? = some loc → share? handle = none →
      h.files.node? loc = some (.file content) → content.number? = some n → Found s h handle
  | new {handle : Handle} : handle.number? = some s.host.next → handle.file? = none →
    h.files = s.host.files →
      (∀ other ∈ s.handles, (share? handle).isSome → share? other ≠ share? handle) →
        Found s h handle
  | shared {handle other : Handle} {n : Nat} : handle.number? = some n → handle.file? = none →
    h.files = s.host.files → other ∈ s.handles → other.number? = some n →
      (share? handle).isSome → share? other = share? handle → Found s h handle

theorem Found.of_openTarget {path table : String} {target : TablePath.Target} {x : TableHandle}
    {h : Host} (hopen : TableFile.openTarget s.tables path table target s.host = (.ok x, h)) :
    Found s h (.table x) := by
  cases target with
  | memory share writable =>
    obtain ⟨-, v, number, hv, hopen⟩ := TableFile.openMemory_eq_ok hopen
    obtain ⟨rfl, rfl⟩ := TableFile.openTable_eq_ok hopen
    rcases hv with ⟨rfl, other, hother, rfl, hshare⟩ | ⟨rfl, rfl, hnone⟩
    · obtain ⟨y, hy, htable⟩ := List.mem_filterMap.1 hother
      cases y with
      | table =>
        cases htable
        exact .shared rfl rfl (TableFile.files_ensureCells _ _) hy rfl hshare.1 hshare.2
      | map | store | journal | environment | rows => cases htable
    · refine .new rfl rfl (TableFile.files_ensureCells _ _) fun other hother hsome => ?_
      cases other with
      | table y => exact hnone y (List.mem_filterMap.2 ⟨_, hother, rfl⟩) hsome
      | map | store | journal | environment | rows =>
        intro heq
        rw [← heq] at hsome
        cases hsome
  | file name create writable =>
    obtain ⟨-, loc, v, number, -, hv, hopen⟩ := TableFile.openFile_eq_ok hopen
    obtain ⟨rfl, rfl⟩ := TableFile.openTable_eq_ok hopen
    exact .file rfl rfl rfl (by rw [TableFile.files_ensureCells]; exact hv.node) rfl

theorem Sound.found_open (hs : s.Sound) {c : EngineConfig} {h : Host}
    (hopen : c.open s.handles s.host = (.ok handle, h)) : Found s h handle := by
  cases c with
  | memory => cases hopen; exact .unnumbered rfl
  | mdbx | rocksdb => cases hopen
  | lmdb d =>
    obtain ⟨e, he, rfl⟩ := Except.pair_map_eq_ok_iff.1 hopen
    obtain ⟨hisOpen, -⟩ := Environment.isOpen_of_open hs.fresh he
    exact .file rfl rfl rfl hisOpen.data rfl
  | fjall d =>
    obtain ⟨j, hj, rfl⟩ := Except.pair_map_eq_ok_iff.1 hopen
    obtain ⟨hisOpen, -⟩ := Journal.isOpen_of_open hs.number_lt_of_journal? hj
    exact .file rfl rfl rfl hisOpen.marker rfl
  | sqlite path table create =>
    obtain ⟨x, hx, rfl⟩ := Except.pair_map_eq_ok_iff.1 hopen
    obtain ⟨-, target, -, hopened⟩ := TableFile.open_eq_ok_iff.1 hx
    exact .of_openTarget hopened
  | postgres =>
    obtain ⟨x, -, rfl⟩ := Except.pair_map_eq_ok_iff.1 hopen
    exact .unnumbered rfl

/-! ## Steps -/

/-- What a step does to what is open and to the files that refer to something:
    at most `held` is opened or moved, and no file is brought that refers to
    something old. -/
structure Moves (s t : Session) (held : Option Handle) : Prop where
  next : s.host.next ≤ t.host.next
  files {loc content n} : content.number? = some n → n < s.host.next →
    t.host.files.node? loc = some (.file content) → s.host.files.node? loc = some (.file content)
  handles {x : Handle} : x ∈ t.handles → held = some x ∨ x ∈ s.handles
  held {x : Handle} : held = some x → x ∈ s.handles ∨ Found s t.host x

theorem moves_host {h : Host} (hnext : s.host.next ≤ h.next)
    (hfiles : ∀ loc content n, content.number? = some n →
      h.files.node? loc = some (.file content) → s.host.files.node? loc = some (.file content)) :
    Moves s { s with host := h } none :=
  ⟨hnext, fun hcontent _ hn => hfiles _ _ _ hcontent hn, Or.inr, nofun⟩

theorem moves_files {h : Host} (hnext : h.next = s.host.next) (hfiles : h.files = s.host.files) :
    Moves s { s with host := h } none :=
  moves_host hnext.ge fun _ _ _ _ hn => hfiles ▸ hn

/-- What is done on the host leaves the files if it does so when it succeeds. -/
theorem moves_settle {result : Except StoreError Host}
    (h : ∀ t, result = .ok t → t.next = s.host.next ∧ t.files = s.host.files) :
    Moves s { s with host := (settle s.host result).2 } none :=
  settle_snd (P := fun h => Moves s { s with host := h } none) (moves_files rfl rfl)
    fun t ht => moves_files (h t ht).1 (h t ht).2

theorem moves_hold {name : String} {held : Option Handle} {h : Host}
    (hnext : h.next = s.host.next) (hfiles : h.files = s.host.files)
    (hheld : ∀ x, held = some x → x ∈ s.handles ∨ x.number? = none) :
    Moves s (Session.hold { s with host := h } name held) held :=
  ⟨hnext.ge, fun _ _ hn => hfiles ▸ hn, mem_handles_hold,
    fun heq => (hheld _ heq).imp_right .unnumbered⟩

theorem Sound.moves_open (hs : s.Sound) (name : String) (c : EngineConfig) :
    ∃ held, Moves s (s.open name c).2 held := by
  have hext := EngineConfig.extends_open hs.fresh hs.number_lt_of_table? c
  have hfiles {h : Host} (hext : s.host.Extends c.keyspaceFile? h) {loc : Location}
      {content : Content} {n : Nat} (hcontent : content.number? = some n) (hlt : n < s.host.next)
      (hn : h.files.node? loc = some (.file content)) :
      s.host.files.node? loc = some (.file content) :=
    (hext.made hn hcontent).resolve_right fun hle => absurd hle.1 (by omega)
  unfold Session.open
  split
  · next x h hopen =>
    rw [hopen] at hext
    refine ⟨some x, hext.next, hfiles hext, mem_handles_hold, fun heq => ?_⟩
    cases heq
    exact Or.inr (hs.found_open hopen)
  · next e h hopen =>
    rw [hopen] at hext
    exact ⟨none, hext.next, hfiles hext, Or.inr, nofun⟩

theorem moves_through (name : String) {α : Type} (op : Operation α) :
    Moves s (machine.next ⟨α, .through name op⟩ s) none := by
  show Moves s { s with host := ((s.facade name).perform op s.host).2 } none
  cases hh : s.handle? name with
  | none =>
    rw [facade_of_closed hh, Facade.perform_closed]
    exact moves_files rfl rfl
  | some handle =>
    rw [facade_of_handle? hh]
    exact moves_files (handle.preserves_next.facade op rfl) (handle.preserves_files.facade op rfl)

/-- Whatever is permitted moves at most one handle. -/
theorem Sound.moves_next (hs : s.Sound) {i : Step Action} (hi : s.Permits i) :
    ∃ held, Moves s (machine.next i s) held := by
  obtain ⟨α, action⟩ := i
  cases action with
  | «open» name c => exact hs.moves_open name c
  | openMap name map => exact ⟨_, moves_hold rfl rfl fun _ heq => by cases heq; exact Or.inr rfl⟩
  | openStore name store =>
    exact ⟨_, moves_hold rfl rfl fun _ heq => by cases heq; exact Or.inr rfl⟩
  | close name => exact ⟨_, moves_hold rfl rfl nofun⟩
  | take source target =>
    refine ⟨s.handle? source, le_rfl, fun _ _ => id, fun hmem => ?_, fun heq => ?_⟩
    · refine (mem_handles_hold hmem).imp_right fun hclosed => ?_
      exact (mem_handles_hold (show _ ∈ (s.hold source none).handles from hclosed)).resolve_left
        nofun
    · exact Or.inl (mem_handles.2 ⟨source, heq⟩)
  | through name op => exact ⟨none, moves_through name op⟩
  | directly handle call =>
    exact ⟨none, moves_files (handle.preserves_next.perform call rfl)
      (handle.preserves_files.perform call rfl)⟩
  | putImage store key bytes =>
    refine ⟨none, moves_settle fun t ht => ?_⟩
    obtain ⟨m, -, rfl⟩ := Except.map_eq_ok_iff.1 ht
    exact ⟨rfl, rfl⟩
  | wipe c =>
    obtain ⟨files, server, hdrops, heq⟩ := c.exists_of_wipe s.host
    refine ⟨none, ?_⟩
    show Moves s { s with host := (c.wipe s.host).2 } none
    rw [heq]
    exact moves_host le_rfl fun loc content n _ hn => hdrops loc _ hn
  | putRow path table key cell =>
    refine ⟨none, moves_settle fun t ht => ?_⟩
    unfold Host.putRow at ht
    split at ht <;> cases ht
    exact ⟨rfl, rfl⟩
  | changeFiles change => exact ⟨none, moves_host le_rfl hi⟩
  | changeServer change => exact ⟨none, moves_files rfl rfl⟩

/-! ## Places -/

/-- The file that refers to what a handle works on is where it says, and open
    handles with its number say the same. -/
structure Marks (s : Session) (handle : Handle) : Prop where
  file {loc content n} : handle.number? = some n →
    s.host.files.node? loc = some (.file content) → content.number? = some n →
      handle.file? = some loc
  same {other n} : other ∈ s.handles → handle.number? = some n → other.number? = some n →
    other.file? = handle.file?

/-- A handle goes with those that are open: also, what is shared under a name is
    in memory, and has one number. -/
structure Fits (s : Session) (handle : Handle) : Prop extends s.Marks handle where
  memory : (share? handle).isSome → handle.file? = none
  shared {other} : other ∈ s.handles → (share? handle).isSome → share? other = share? handle →
    other.number? = handle.number?

/-- All that facades have open goes together. -/
def Placed (s : Session) : Prop := ∀ handle ∈ s.handles, s.Fits handle

section
variable {held : Option Handle} (hm : Moves s t held) (hp : s.Placed)

include hm hp in
/-- What a handle says stays so, whether or not it is open still. -/
theorem Marks.moves (h : s.Marks handle) (hlt : ∀ n, handle.number? = some n → n < s.host.next) :
    t.Marks handle := by
  refine ⟨fun hnumber hn hcontent => ?_, fun {other n} hother hnumber hnumber' => ?_⟩
  · exact h.file hnumber (hm.files hcontent (hlt _ hnumber) hn) hcontent
  · rcases hm.handles hother with hheld | hold
    · rcases hm.held hheld with hold | hfound
      · exact h.same hold hnumber hnumber'
      · -- what is opened with an old number is in its file, or shared with one that is open
        cases hfound with
        | unnumbered hnone => rw [hnone] at hnumber'; cases hnumber'
        | file hnumber'' hfile _ hn hcontent =>
          obtain rfl := Option.some.inj (hnumber''.symm.trans hnumber')
          rw [hfile, h.file hnumber (hm.files hcontent (hlt _ hnumber) hn) hcontent]
        | new hnumber'' =>
          obtain rfl := Option.some.inj (hnumber''.symm.trans hnumber')
          exact absurd (hlt _ hnumber) (lt_irrefl _)
        | shared hnumber'' hfile _ hfirst hfirst' hsome hshare =>
          obtain rfl := Option.some.inj (hnumber''.symm.trans hnumber')
          rw [hfile, ← h.same hfirst hnumber hfirst', (hp _ hfirst).memory (hshare ▸ hsome)]
    · exact h.same hold hnumber hnumber'

include hp in
/-- What is opened under a name that another handle shares has its number. -/
theorem Placed.shared_of_found (hhandle : handle ∈ s.handles) {x : Handle}
    (hfound : Found s t.host x) (hsome : (share? handle).isSome)
    (heq : share? x = share? handle) : x.number? = handle.number? := by
  have hsome' : (share? x).isSome := heq ▸ hsome
  cases hfound with
  | unnumbered hnone =>
    cases x with
    | table => cases hnone
    | map | store | journal | environment | rows => cases hsome'
  | file _ _ hshare => rw [hshare] at hsome'; cases hsome'
  | new _ _ _ hnone => exact absurd heq.symm (hnone _ hhandle hsome')
  | shared hnumber _ _ hfirst hfirst' _ hshare =>
    rw [hnumber, ← hfirst']
    exact (hp _ hhandle).shared hfirst hsome (hshare.trans heq)

include hm hp in
/-- A step leaves everything where handles say. -/
theorem Placed.moves (hs : s.Sound) (ht : t.host.IsFresh) : t.Placed := by
  have hmarks {x : Handle} (hx : x ∈ s.handles) : t.Marks x :=
    (hp x hx).toMarks.moves hm hp fun _ => hs.number hx
  have hfits {x : Handle} (hx : x ∈ s.handles) : t.Fits x := by
    refine { hmarks hx with memory := (hp x hx).memory, shared := fun hother hsome heq => ?_ }
    rcases hm.handles hother with hheld | hold
    · rcases hm.held hheld with hold | hfound
      · exact (hp x hx).shared hold hsome heq
      · exact hp.shared_of_found hx hfound hsome heq
    · exact (hp x hx).shared hold hsome heq
  intro x hx
  rcases hm.handles hx with hheld | hold
  swap
  · exact hfits hold
  rcases hm.held hheld with hold | hfound
  · exact hfits hold
  have hpair {other : Handle} (hother : other ∈ t.handles) : other = x ∨ other ∈ s.handles := by
    refine (hm.handles hother).imp_left fun heq => ?_
    exact Option.some.inj (heq.symm.trans hheld)
  refine ⟨⟨fun {loc content n} hnumber hn hcontent => ?_, fun hother hnumber hnumber' => ?_⟩,
    fun hsome => ?_, fun hother hsome heq => ?_⟩
  · cases hfound with
    | unnumbered hnone => rw [hnone] at hnumber; cases hnumber
    | file hnumber' hfile _ hn' hcontent' =>
      obtain rfl := Option.some.inj (hnumber'.symm.trans hnumber)
      rw [hfile, ht.once hn hn' hcontent hcontent']
    | new hnumber' _ hfiles =>
      obtain rfl := Option.some.inj (hnumber'.symm.trans hnumber)
      exact absurd (hs.fresh.refers (hfiles ▸ hn) hcontent) (lt_irrefl _)
    | shared hnumber' _ hfiles hfirst hfirst' hsome hshare =>
      obtain rfl := Option.some.inj (hnumber'.symm.trans hnumber)
      have hplace := (hp _ hfirst).file hfirst' (hfiles ▸ hn) hcontent
      rw [(hp _ hfirst).memory (hshare ▸ hsome)] at hplace
      cases hplace
  · rcases hpair hother with rfl | hold
    · rfl
    · exact ((hmarks hold).same hx hnumber' hnumber).symm
  · cases hfound with
    | unnumbered hnone =>
      cases x with
      | table => cases hnone
      | map | store | journal | environment | rows => cases hsome
    | file _ _ hshare => rw [hshare] at hsome; cases hsome
    | new _ hfile | shared _ hfile => exact hfile
  · rcases hpair hother with rfl | hold
    · rfl
    · exact ((hfits hold).shared hx (heq ▸ hsome) heq.symm).symm

end

/-- **In every state that a session reaches, what is open is where it is said
    to be.** -/
theorem Reachable.placed (h : Reachable s) : s.Placed := by
  induction h with
  | start => exact fun _ hmem => nomatch hmem
  | next i hs hi ih =>
    obtain ⟨held, hm⟩ := hs.sound.moves_next hi
    exact ih.moves hm hs.sound (hs.sound.next hi).fresh

/-! ## Actions of facades -/

/-- Whether an action is one of facades, which are opened, moved, closed and
    worked with. -/
def onFacades : Step Action → Bool
  | ⟨_, .open ..⟩ | ⟨_, .openMap ..⟩ | ⟨_, .openStore ..⟩ | ⟨_, .close _⟩ | ⟨_, .take ..⟩
  | ⟨_, .through ..⟩ => true
  | ⟨_, .directly ..⟩ | ⟨_, .putImage ..⟩ | ⟨_, .wipe _⟩ | ⟨_, .putRow ..⟩ | ⟨_, .changeFiles _⟩
  | ⟨_, .changeServer _⟩ => false

theorem permits_of_onFacades {i : Step Action} (hi : onFacades i = true) : s.Permits i := by
  obtain ⟨α, action⟩ := i
  cases action with
  | «open» | openMap | openStore | close | take | through => trivial
  | directly | putImage | wipe | putRow | changeFiles | changeServer => cases hi

theorem host_open (s : Session) (name : String) (c : EngineConfig) :
    (s.open name c).2.host = (c.open s.handles s.host).2 := by
  unfold Session.open
  split <;> next heq => rw [heq] <;> rfl

theorem Sound.extends_open (hs : s.Sound) (name : String) (c : EngineConfig) :
    s.host.Extends c.keyspaceFile? (s.open name c).2.host := by
  rw [host_open]
  exact EngineConfig.extends_open hs.fresh hs.number_lt_of_table? c

/-- Facades take no file away that refers to something. -/
theorem Sound.kept_next (hs : s.Sound) {i : Step Action} (hi : onFacades i = true)
    {loc : Location} {content : Content} {n : Nat} (hcontent : content.number? = some n)
    (hn : s.host.files.node? loc = some (.file content)) :
    (machine.next i s).host.files.node? loc = some (.file content) := by
  obtain ⟨α, action⟩ := i
  cases action with
  | «open» name c => exact (hs.extends_open name c).kept hn hcontent
  | openMap | openStore | close | take => exact hn
  | through name op =>
    show ((s.facade name).perform op s.host).2.files.node? loc = _
    cases hh : s.handle? name with
    | none => rwa [facade_of_closed hh, Facade.perform_closed]
    | some handle => rwa [facade_of_handle? hh, handle.preserves_files.facade op rfl]
  | directly | putImage | wipe | putRow | changeFiles | changeServer => cases hi

end Session

end TypedStore
