/-
  TypedStore — how a file tree changes, and how paths lead through it.

  * `KeepsDirectories`: where directories stay, a path leads where it led;
  * `locate_of_resolve`: a path that leads somewhere leads where its names say;
  * `Adds`: making directories adds directories only, and
    `isDirectory_of_ensureDirectory` says that there is one in the end;
  * `Drops`: removing never brings a file;
  * `ensureDirectory_of_drops`: a directory that has been removed can be made
    again.
-/
import Mathlib.Data.List.Infix
import TypedStore.Engine.TableFile
import TypedStore.Proofs.Result

namespace TypedStore

namespace FileTree

variable {t u v : FileTree} {loc : Location}

/-! ## Nodes -/

theorem node?_of_prefix_working (h : loc <+: working) : t.node? loc = some .directory :=
  if_pos (List.isPrefixOf_iff_prefix.2 h)

theorem node?_nil : t.node? [] = some .directory := node?_of_prefix_working List.nil_prefix

/-- What is no directory is not above the working directory. -/
theorem not_prefix_working (h : t.node? loc ≠ some .directory) : ¬ loc.isPrefixOf working :=
  fun hp => h (if_pos hp)

/-- A node that is put where there is no directory is there, and the others
    stay. -/
theorem node?_put (h : t.node? loc ≠ some .directory) (n : Node) (other : Location) :
    (t.put loc n).node? other = if other = loc then some n else t.node? other := by
  have hloc := not_prefix_working h
  unfold node? put
  by_cases ho : other = loc
  · subst ho
    simp only [if_neg hloc, Entries.get?_insert, if_true]
  · simp only [Entries.get?_insert, if_neg ho]

theorem node?_delete (h : t.node? loc ≠ some .directory) (other : Location) :
    (t.delete loc).node? other = if other = loc then none else t.node? other := by
  have hloc := not_prefix_working h
  unfold node? delete
  by_cases ho : other = loc
  · subst ho
    simp only [if_neg hloc, Entries.get?_erase, if_true]
  · simp only [Entries.get?_erase, if_neg ho]

/-! ## Walking -/

/-- Every directory stays one. -/
def KeepsDirectories (t u : FileTree) : Prop :=
  ∀ loc, t.node? loc = some .directory → u.node? loc = some .directory

theorem keepsDirectories_put (h : t.node? loc ≠ some .directory) (n : Node) :
    t.KeepsDirectories (t.put loc n) := by
  intro other ho
  have hne : other ≠ loc := by rintro rfl; exact h ho
  rw [node?_put h, if_neg hne, ho]

theorem enter_eq_ok_iff {name : String} {next : Location} :
    t.enter loc name = .ok next ↔ t.node? loc = some .directory ∧
      (if name = "" ∨ name = "." then next = loc
       else if name = ".." then next = loc.dropLast
       else name.utf8ByteSize ≤ 255 ∧ next = loc ++ [name]) := by
  unfold enter
  cases hn : t.node? loc with
  | none => simp
  | some n =>
    cases n with
    | file content => simp
    | directory =>
      simp only [true_and]
      split_ifs with h₁ h₂ h₃
      · exact ⟨fun h => (Except.ok.inj h).symm, fun h => h ▸ rfl⟩
      · exact ⟨fun h => (Except.ok.inj h).symm, fun h => h ▸ rfl⟩
      · exact ⟨nofun, fun h => absurd h.1 (by omega)⟩
      · exact ⟨fun h => ⟨by omega, (Except.ok.inj h).symm⟩, fun h => h.2 ▸ rfl⟩

theorem walk_cons_eq_ok_iff {name : String} {names : List String} {target : Location} :
    t.walk loc (name :: names) = .ok target ↔
      ∃ next, t.enter loc name = .ok next ∧ t.walk next names = .ok target :=
  Except.bind_eq_ok_iff

theorem resolve_eq_ok_iff {path : String} : t.resolve path = .ok loc ↔
    checkPath path = .ok () ∧ path ≠ "" ∧ t.walk (parts path).1 (parts path).2 = .ok loc := by
  unfold resolve
  by_cases hpath : path = ""
  · subst hpath
    constructor
    · intro h
      obtain ⟨_, -, h⟩ := Except.bind_eq_ok_iff.1 h
      cases h
    · rintro ⟨-, h, -⟩
      exact absurd rfl h
  · simp only [hpath, ne_eq, not_false_eq_true, true_and]
    constructor
    · intro h
      obtain ⟨_, hcheck, h⟩ := Except.bind_eq_ok_iff.1 h
      exact ⟨hcheck, h⟩
    · rintro ⟨hcheck, h⟩
      exact Except.bind_eq_ok_iff.2 ⟨(), hcheck, h⟩

theorem walk_of_keepsDirectories (h : t.KeepsDirectories u) {names : List String}
    {target : Location} (hwalk : t.walk loc names = .ok target) :
    u.walk loc names = .ok target := by
  induction names generalizing loc with
  | nil => exact hwalk
  | cons name names ih =>
    obtain ⟨next, henter, hrest⟩ := walk_cons_eq_ok_iff.1 hwalk
    obtain ⟨hdirectory, hnext⟩ := enter_eq_ok_iff.1 henter
    exact walk_cons_eq_ok_iff.2 ⟨next, enter_eq_ok_iff.2 ⟨h loc hdirectory, hnext⟩, ih hrest⟩

/-- Where directories stay, a path leads where it led. -/
theorem resolve_of_keepsDirectories (h : t.KeepsDirectories u) {path : String}
    (hpath : t.resolve path = .ok loc) : u.resolve path = .ok loc := by
  obtain ⟨hcheck, hne, hwalk⟩ := resolve_eq_ok_iff.1 hpath
  exact resolve_eq_ok_iff.2 ⟨hcheck, hne, walk_of_keepsDirectories h hwalk⟩

theorem isDirectory_iff {path : String} : t.isDirectory path = true ↔
    ∃ loc, t.resolve path = .ok loc ∧ t.node? loc = some .directory := by
  unfold isDirectory at?
  cases t.resolve path <;> simp

/-! ## Walked locations -/

/-- A location whose names are not too long, below directories only. -/
structure Hangs (t : FileTree) (loc : Location) : Prop where
  short : ∀ name ∈ loc, name.utf8ByteSize ≤ 255
  above : ∀ p, p <+: loc → p ≠ loc → t.node? p = some .directory

theorem hangs_of_prefix_working (h : loc <+: working) : t.Hangs loc where
  short name hname := by
    have hname : name ∈ working := h.subset hname
    simp only [working, List.mem_cons, List.not_mem_nil, or_false] at hname
    rcases hname with rfl | rfl <;> decide
  above p hp _ := node?_of_prefix_working (hp.trans h)

/-- Paths begin at the root or in the working directory. -/
theorem prefix_start (path : String) : (parts path).1 <+: working := by
  unfold parts
  dsimp only
  split
  · exact List.nil_prefix
  · exact List.prefix_rfl

theorem hangs_start (path : String) : t.Hangs (parts path).1 :=
  hangs_of_prefix_working (prefix_start path)

theorem Hangs.dropLast (h : t.Hangs loc) : t.Hangs loc.dropLast where
  short name hname := h.short name (List.mem_of_mem_dropLast hname)
  above p hp hne := by
    refine h.above p (hp.trans (List.dropLast_prefix loc)) ?_
    rintro rfl
    exact hne (List.IsPrefix.eq_of_length_le hp (by simp))

theorem Hangs.concat (h : t.Hangs loc) (hloc : t.node? loc = some .directory) {name : String}
    (hname : name.utf8ByteSize ≤ 255) : t.Hangs (loc ++ [name]) where
  short other ho := by
    rcases List.mem_append.1 ho with ho | ho
    · exact h.short other ho
    · rw [List.mem_singleton.1 ho]; exact hname
  above p hp hne := by
    rcases List.prefix_concat_iff.1 hp with heq | hp
    · exact absurd heq hne
    · by_cases hpl : p = loc
      · rw [hpl]; exact hloc
      · exact h.above p hp hpl

theorem Hangs.node?_dropLast (h : t.Hangs loc) : t.node? loc.dropLast = some .directory := by
  cases hloc : loc with
  | nil => exact node?_nil
  | cons name names =>
    rw [← hloc]
    refine h.above _ (List.dropLast_prefix loc) fun heq => ?_
    have hlen := congrArg List.length heq
    simp [hloc] at hlen

/-- Walking leads where the names say, below directories only. -/
theorem hangs_of_walk (h : t.Hangs loc) {names : List String} {target : Location}
    (hwalk : t.walk loc names = .ok target) :
    t.Hangs target ∧ names.foldl (fun loc name =>
      if name = "" ∨ name = "." then loc
      else if name = ".." then loc.dropLast
      else loc ++ [name]) loc = target := by
  induction names generalizing loc with
  | nil =>
    cases hwalk
    exact ⟨h, rfl⟩
  | cons name names ih =>
    obtain ⟨next, henter, hrest⟩ := walk_cons_eq_ok_iff.1 hwalk
    obtain ⟨hloc, hnext⟩ := enter_eq_ok_iff.1 henter
    rw [List.foldl_cons]
    split_ifs at hnext ⊢ with h₁ h₂
    · subst hnext
      exact ih h hrest
    · subst hnext
      exact ih h.dropLast hrest
    · obtain ⟨hname, rfl⟩ := hnext
      exact ih (h.concat hloc hname) hrest

theorem hangs_of_resolve {path : String} (h : t.resolve path = .ok loc) : t.Hangs loc :=
  (hangs_of_walk (hangs_start path) (resolve_eq_ok_iff.1 h).2.2).1

theorem normalise_of_resolve {path : String} (h : t.resolve path = .ok loc) :
    normalise path = loc :=
  (hangs_of_walk (hangs_start path) (resolve_eq_ok_iff.1 h).2.2).2

/-- A path that leads somewhere leads where its names say. -/
theorem locate_of_resolve {path : String} (h : t.resolve path = .ok loc) :
    TableFile.locate path t = some loc := by
  have hhangs := hangs_of_resolve h
  unfold TableFile.locate
  simp only [normalise_of_resolve h, hhangs.node?_dropLast, decide_true, Bool.and_true]
  exact if_pos (List.all_eq_true.2 fun name hname => decide_eq_true (hhangs.short name hname))

/-! ## Making directories -/

/-- What is new is a directory, and what was there stays. -/
def Adds (t u : FileTree) : Prop :=
  ∀ loc, u.node? loc = t.node? loc ∨ t.node? loc = none ∧ u.node? loc = some .directory

theorem Adds.refl (t : FileTree) : t.Adds t := fun _ => Or.inl rfl

theorem Adds.trans (h : t.Adds u) (h' : u.Adds v) : t.Adds v := by
  intro loc
  rcases h loc with hu | ⟨hnone, hu⟩
  · rw [← hu]
    exact h' loc
  · rcases h' loc with hv | ⟨hv, -⟩
    · exact Or.inr ⟨hnone, hv.trans hu⟩
    · rw [hu] at hv; cases hv

theorem Adds.node? (h : t.Adds u) {n : Node} (hn : t.node? loc = some n) :
    u.node? loc = some n := by
  rcases h loc with hu | ⟨hnone, -⟩
  · rw [hu, hn]
  · rw [hn] at hnone; cases hnone

theorem Adds.of_file (h : t.Adds u) {content : Content}
    (hn : u.node? loc = some (.file content)) : t.node? loc = some (.file content) := by
  rcases h loc with hu | ⟨-, hu⟩
  · rw [← hu, hn]
  · rw [hn] at hu; cases hu

theorem adds_put (h : t.node? loc = none) : t.Adds (t.put loc .directory) := by
  intro other
  rw [node?_put (by simp [h])]
  split_ifs with ho
  · exact Or.inr ⟨ho ▸ h, rfl⟩
  · exact Or.inl rfl

/-- Making directories adds directories, and the names lead to one. -/
theorem makeAlong_eq_ok {names : List String} (habove : ∀ p, p <+: loc → t.node? p = some .directory)
    (h : makeAlong loc names t = .ok u) :
    t.Adds u ∧ ∃ target, u.walk loc names = .ok target ∧ u.node? target = some .directory := by
  induction names generalizing loc t with
  | nil =>
    cases h
    exact ⟨Adds.refl _, loc, rfl, habove loc List.prefix_rfl⟩
  | cons name names ih =>
    unfold makeAlong at h
    -- the tree in the end is entered as the rest of the names is
    have henter (next : Location) {t' : FileTree} (hadds : t.Adds t') (hrest : t'.Adds u ∧
        ∃ target, u.walk next names = .ok target ∧ u.node? target = some .directory)
        (hnext : if name = "" ∨ name = "." then next = loc
          else if name = ".." then next = loc.dropLast
          else name.utf8ByteSize ≤ 255 ∧ next = loc ++ [name]) :
        t.Adds u ∧ ∃ target, u.walk loc (name :: names) = .ok target ∧
          u.node? target = some .directory := by
      obtain ⟨hu, target, hwalk, htarget⟩ := hrest
      have hadds := hadds.trans hu
      have hloc := hadds.node? (habove loc List.prefix_rfl)
      exact ⟨hadds, target, walk_cons_eq_ok_iff.2 ⟨next, enter_eq_ok_iff.2 ⟨hloc, hnext⟩, hwalk⟩,
        htarget⟩
    by_cases h₁ : name = "" ∨ name = "."
    · rw [if_pos h₁] at h
      exact henter loc (Adds.refl t) (ih habove h) (by rw [if_pos h₁])
    by_cases h₂ : name = ".."
    · rw [if_neg h₁, if_pos h₂] at h
      exact henter loc.dropLast (Adds.refl t)
        (ih (fun p hp => habove p (hp.trans (List.dropLast_prefix loc))) h)
        (by rw [if_neg h₁, if_pos h₂])
    by_cases h₃ : 255 < name.utf8ByteSize
    · rw [if_neg h₁, if_neg h₂, if_pos h₃] at h
      cases h
    rw [if_neg h₁, if_neg h₂, if_neg h₃] at h
    have hnext : if name = "" ∨ name = "." then loc ++ [name] = loc
        else if name = ".." then loc ++ [name] = loc.dropLast
        else name.utf8ByteSize ≤ 255 ∧ loc ++ [name] = loc ++ [name] := by
      rw [if_neg h₁, if_neg h₂]
      exact ⟨by omega, rfl⟩
    split at h
    · next hn =>
      refine henter _ (Adds.refl t) (ih (fun p hp => ?_) h) hnext
      rcases List.prefix_concat_iff.1 hp with rfl | hp
      · exact hn
      · exact habove p hp
    · cases h
    · next hn =>
      have hput := adds_put hn
      refine henter _ hput (ih (fun p hp => ?_) h) hnext
      rcases List.prefix_concat_iff.1 hp with rfl | hp
      · rw [node?_put (by simp [hn]), if_pos rfl]
      · exact hput.node? (habove p hp)

theorem makeDirectories_eq_ok {path : String} (h : t.makeDirectories path = .ok u) :
    t.Adds u ∧ ∀ loc, u.resolve path = .ok loc → u.node? loc = some .directory := by
  obtain ⟨_, -, h⟩ := Except.bind_eq_ok_iff.1 h
  obtain ⟨hadds, target, hwalk, htarget⟩ :=
    makeAlong_eq_ok (fun p hp => node?_of_prefix_working (hp.trans (prefix_start path))) h
  refine ⟨hadds, fun loc hloc => ?_⟩
  rw [(resolve_eq_ok_iff.1 hloc).2.2] at hwalk
  cases hwalk
  exact htarget

theorem adds_of_ensureDirectory {path : String} {create : Bool}
    (h : t.ensureDirectory path create = .ok u) : t.Adds u := by
  unfold ensureDirectory at h
  split_ifs at h with hdirectory hcreate
  · cases h; exact Adds.refl t
  · exact (makeDirectories_eq_ok h).1

/-- Once it is made sure that there is a directory, a path that leads somewhere
    leads to one. -/
theorem isDirectory_of_ensureDirectory {path : String} {create : Bool}
    (h : t.ensureDirectory path create = .ok u) (hloc : u.resolve path = .ok loc) :
    u.node? loc = some .directory := by
  unfold ensureDirectory at h
  split_ifs at h with hdirectory hcreate
  · cases h
    obtain ⟨loc', hloc', hn⟩ := isDirectory_iff.1 hdirectory
    rw [hloc] at hloc'
    cases hloc'
    exact hn
  · exact (makeDirectories_eq_ok h).2 loc hloc

theorem ensureDirectory_of_isDirectory {path : String} (h : t.isDirectory path = true)
    (create : Bool) : t.ensureDirectory path create = .ok t := if_pos h

/-! ## Removing -/

/-- What is left was there before. -/
def Drops (t u : FileTree) : Prop := ∀ loc n, u.node? loc = some n → t.node? loc = some n

theorem Drops.refl (t : FileTree) : t.Drops t := fun _ _ => id

theorem Drops.trans (h : t.Drops u) (h' : u.Drops v) : t.Drops v :=
  fun loc n hn => h loc n (h' loc n hn)

theorem Drops.of_adds (h : t.Drops u) (hadds : t.Adds v) : v.Drops u :=
  fun loc n hn => hadds.node? (h loc n hn)

theorem drops_filterKeys (t : FileTree) (p : Location → Bool) :
    t.Drops ⟨t.nodes.filterKeys p⟩ := by
  intro loc n hn
  unfold node? at hn ⊢
  split_ifs at hn ⊢ with hp
  · exact hn
  · rw [Entries.get?_filterKeys] at hn
    split_ifs at hn
    exact hn

theorem drops_delete (t : FileTree) (loc : Location) : t.Drops (t.delete loc) :=
  t.drops_filterKeys _

/-- Removing a file takes away what is at the path, which is a file. -/
theorem removeFile_eq_ok {path : String} (h : t.removeFile path = .ok u) :
    ∃ loc, t.resolve path = .ok loc ∧ (∃ content, t.node? loc = some (.file content)) ∧
      u = t.delete loc := by
  obtain ⟨loc, hloc, h⟩ := Except.bind_eq_ok_iff.1 h
  refine ⟨loc, hloc, ?_⟩
  split at h
  · cases h
  · cases h
  · next content hn =>
    cases h
    exact ⟨⟨content, hn⟩, rfl⟩

theorem keepsDirectories_delete {content : Content} (h : t.node? loc = some (.file content)) :
    t.KeepsDirectories (t.delete loc) := by
  intro other ho
  have hne : other ≠ loc := by rintro rfl; rw [h] at ho; cases ho
  rw [node?_delete (by simp [h]), if_neg hne, ho]

/-- Removing what a path leads to fails where there is no file. -/
theorem removeFile_eq_error {path : String} {e : FileError} (hloc : t.resolve path = .ok loc)
    (h : t.removeFile path = .error e) :
    t.node? loc = none ∧ e = .notFound ∨ t.node? loc = some .directory ∧ e = .isDirectory := by
  obtain h | ⟨target, htarget, h⟩ := Except.bind_eq_error_iff.1 h
  · rw [hloc] at h
    cases h
  · obtain rfl : loc = target := Except.ok.inj (hloc.symm.trans htarget)
    split at h
    · next hn => cases h; exact Or.inl ⟨hn, rfl⟩
    · next hn => cases h; exact Or.inr ⟨hn, rfl⟩
    · cases h

/-- The directories after files have been removed are those before. -/
theorem removeFiles_directory (paths : List String) (t : FileTree) :
    t.KeepsDirectories (removeFiles paths t).2 := by
  induction paths generalizing t with
  | nil => exact fun _ => id
  | cons path paths ih =>
    unfold removeFiles
    split
    · next u hu =>
      obtain ⟨loc, -, ⟨content, hn⟩, rfl⟩ := removeFile_eq_ok hu
      exact fun other ho => ih _ other (keepsDirectories_delete hn other ho)
    · split_ifs
      · exact ih t
      · exact fun _ => id

theorem drops_removeFiles (paths : List String) (t : FileTree) :
    t.Drops (removeFiles paths t).2 := by
  induction paths generalizing t with
  | nil => exact Drops.refl t
  | cons path paths ih =>
    unfold removeFiles
    split
    · next u hu =>
      obtain ⟨loc, -, -, rfl⟩ := removeFile_eq_ok hu
      exact (t.drops_delete loc).trans (ih _)
    · split_ifs
      · exact ih t
      · exact Drops.refl t

theorem Drops.node?_eq_none (h : t.Drops u) (hloc : t.node? loc = none) : u.node? loc = none := by
  refine Option.eq_none_iff_forall_not_mem.2 fun n hn => ?_
  have hold := h loc n hn
  rw [hloc] at hold; cases hold

/-- Other files stay. -/
theorem node?_removeFiles_of_ne {paths : List String}
    (hloc : ∀ path ∈ paths, t.resolve path ≠ .ok loc) :
    (removeFiles paths t).2.node? loc = t.node? loc := by
  induction paths generalizing t with
  | nil => rfl
  | cons path paths ih =>
    have hrest : ∀ path ∈ paths, t.resolve path ≠ .ok loc :=
      fun path hpath => hloc path (List.mem_cons_of_mem _ hpath)
    unfold removeFiles
    split
    · next u hu =>
      obtain ⟨gone, hgone, ⟨content, hn⟩, rfl⟩ := removeFile_eq_ok hu
      have hne : loc ≠ gone := by
        rintro rfl
        exact hloc path List.mem_cons_self hgone
      -- no path leads further in the tree that is left
      have hback : (t.delete gone).KeepsDirectories t := fun other ho => t.drops_delete gone _ _ ho
      rw [ih fun path hpath hresolve =>
          hrest path hpath (resolve_of_keepsDirectories hback hresolve),
        node?_delete (by simp [hn]), if_neg hne]
    · split_ifs
      · exact ih hrest
      · rfl

theorem drops_removeIfEmpty {path : String} (h : t.removeIfEmpty path = .ok u) : t.Drops u := by
  unfold removeIfEmpty at h
  split at h
  · split_ifs at h
    cases h; exact Drops.refl t
  · split at h
    · cases h; exact Drops.refl t
    · cases h
    · split_ifs at h
      · split at h
        · cases h
        · cases h; exact t.drops_delete _
      · cases h; exact Drops.refl t

theorem drops_clear (loc : Location) (t : FileTree) : t.Drops (t.clear loc) :=
  t.drops_filterKeys _

/-- Clearing a directory removes what is below it and nothing else. -/
theorem node?_clear (loc other : Location) (t : FileTree) :
    (t.clear loc).node? other =
      if loc <+: other ∧ other ≠ loc ∧ ¬ other <+: working then none else t.node? other := by
  by_cases hworking : other <+: working
  · rw [node?_of_prefix_working hworking, if_neg (fun h => h.2.2 hworking),
      node?_of_prefix_working hworking]
  · have hstored (u : FileTree) : u.node? other = u.nodes.get? other :=
      if_neg (mt List.isPrefixOf_iff_prefix.1 hworking)
    simp only [hstored, clear, Entries.get?_filterKeys, Bool.or_eq_true, Bool.not_eq_true',
      decide_eq_true_eq, ← Bool.not_eq_true, List.isPrefixOf_iff_prefix]
    split_ifs <;> grind

/-- What removing a directory with everything below it can come to. -/
theorem removeAll_cases (path : String) (t : FileTree) :
    (t.removeAll path = (none, t) ∧ t.exists path = false) ∨
    (∃ loc content, t.resolve path = .ok loc ∧ t.node? loc = some (.file content) ∧
      t.removeAll path = (some .notDirectory, t)) ∨
    ∃ loc, t.resolve path = .ok loc ∧ t.node? loc = some .directory ∧
      ((∃ e, (t.clear loc).resolve path = .error e ∧ t.removeAll path = (none, t.clear loc)) ∨
       (t.clear loc).resolve path = .ok loc ∧
        ((∃ e, removalFault path loc = some e ∧ t.removeAll path = (some e, t.clear loc)) ∨
         removalFault path loc = none ∧
          t.removeAll path = (none, (t.clear loc).delete loc))) := by
  unfold removeAll «exists» at?
  cases hloc : t.resolve path with
  | error => exact .inl ⟨rfl, rfl⟩
  | ok loc =>
    cases hn : t.node? loc with
    | none => exact .inl ⟨by simp only [hn], by simp only [hn, Option.isSome_none]⟩
    | some n =>
      cases n with
      | file content => exact .inr (.inl ⟨loc, content, rfl, hn, by simp only [hn]⟩)
      | directory =>
        refine .inr (.inr ⟨loc, rfl, hn, ?_⟩)
        cases hback : (t.clear loc).resolve path with
        | error e => exact .inl ⟨e, rfl, by simp only [hn, hback]⟩
        | ok back =>
          obtain rfl : back = loc :=
            (normalise_of_resolve hback).symm.trans (normalise_of_resolve hloc)
          cases hfault : removalFault path back with
          | none => exact .inr ⟨rfl, .inr ⟨rfl, by simp only [hn, hback, hfault]⟩⟩
          | some e => exact .inr ⟨rfl, .inl ⟨e, rfl, by simp only [hn, hback, hfault]⟩⟩

theorem drops_removeAll (path : String) (t : FileTree) : t.Drops (t.removeAll path).2 := by
  rcases t.removeAll_cases path with
    ⟨h, -⟩ | ⟨_, _, -, -, h⟩ | ⟨loc, -, -, ⟨_, -, h⟩ | ⟨-, ⟨_, -, h⟩ | ⟨-, h⟩⟩⟩ <;> rw [h]
  · exact Drops.refl t
  · exact Drops.refl t
  · exact t.drops_clear loc
  · exact t.drops_clear loc
  · exact (t.drops_clear loc).trans (drops_delete _ loc)

/-- With a directory goes everything below it. -/
theorem node?_of_removeAll {path : String} (hloc : t.resolve path = .ok loc)
    (hdirectory : t.node? loc = some .directory) {other : Location} (hbelow : loc <+: other)
    (hne : other ≠ loc) (hother : ¬ other <+: working) :
    (t.removeAll path).2.node? other = none := by
  have hcleared : (t.clear loc).node? other = none := by
    rw [node?_clear, if_pos ⟨hbelow, hne, hother⟩]
  rcases t.removeAll_cases path with ⟨-, h⟩ | ⟨loc', _, hloc', hn, -⟩ | ⟨loc', hloc', -, hcases⟩
  · simp [«exists», at?, hloc, hdirectory] at h
  · cases hloc.symm.trans hloc'
    rw [hdirectory] at hn
    cases hn
  · cases hloc.symm.trans hloc'
    rcases hcases with ⟨_, -, h⟩ | ⟨-, ⟨_, -, h⟩ | ⟨-, h⟩⟩ <;> rw [h]
    · exact hcleared
    · exact hcleared
    · exact (drops_delete _ loc).node?_eq_none hcleared

/-! ## Making again what was removed -/

/-- Names that lead to a directory begin at one. -/
theorem directory_of_walk {names : List String} {target : Location}
    (hwalk : t.walk loc names = .ok target) (htarget : t.node? target = some .directory) :
    t.node? loc = some .directory := by
  cases names with
  | nil =>
    cases hwalk
    exact htarget
  | cons name names =>
    obtain ⟨_, henter, -⟩ := walk_cons_eq_ok_iff.1 hwalk
    exact (enter_eq_ok_iff.1 henter).1

/-- The directories on the way to one can be made again when some of them have
    been removed. -/
theorem makeAlong_of_drops (hdrops : t.Drops u) {names : List String} {target : Location}
    (hwalk : t.walk loc names = .ok target) (htarget : t.node? target = some .directory) :
    ∃ v, makeAlong loc names u = .ok v ∧ t.Drops v := by
  induction names generalizing loc u with
  | nil => exact ⟨u, rfl, hdrops⟩
  | cons name names ih =>
    obtain ⟨next, henter, hrest⟩ := walk_cons_eq_ok_iff.1 hwalk
    obtain ⟨-, hnext⟩ := enter_eq_ok_iff.1 henter
    have hdirectory := directory_of_walk hrest htarget
    unfold makeAlong
    split_ifs at hnext with h₁ h₂
    · subst hnext
      rw [if_pos h₁]
      exact ih hdrops hrest
    · subst hnext
      rw [if_neg h₁, if_pos h₂]
      exact ih hdrops hrest
    · obtain ⟨hname, rfl⟩ := hnext
      rw [if_neg h₁, if_neg h₂, if_neg (by omega)]
      cases hn : u.node? (loc ++ [name]) with
      | some n =>
        obtain rfl : n = .directory := Option.some.inj ((hdrops _ _ hn).symm.trans hdirectory)
        exact ih hdrops hrest
      | none =>
        refine ih (fun other n ho => ?_) hrest
        rw [node?_put (by simp [hn])] at ho
        split_ifs at ho with heq
        · cases ho
          rw [heq, hdirectory]
        · exact hdrops other n ho

/-- Where there was a directory, it can be made sure that there is one, and
    nothing else comes of it than was there. -/
theorem ensureDirectory_of_drops (hdrops : t.Drops u) {path : String}
    (hdirectory : t.isDirectory path = true) : ∃ v, u.ensureDirectory path true = .ok v ∧
      t.Drops v ∧ v.resolve path = .ok (normalise path) := by
  unfold ensureDirectory
  by_cases hu : u.isDirectory path = true
  · obtain ⟨loc, hloc, -⟩ := isDirectory_iff.1 hu
    refine ⟨u, if_pos hu, hdrops, ?_⟩
    rw [hloc, normalise_of_resolve hloc]
  · obtain ⟨loc, hloc, hn⟩ := isDirectory_iff.1 hdirectory
    obtain ⟨hcheck, hne, hwalk⟩ := resolve_eq_ok_iff.1 hloc
    obtain ⟨v, hv, htv⟩ := makeAlong_of_drops hdrops hwalk hn
    have hstart : ∀ p, p <+: (parts path).1 → u.node? p = some .directory :=
      fun p hp => node?_of_prefix_working (hp.trans (prefix_start path))
    obtain ⟨-, target, htarget, -⟩ := makeAlong_eq_ok hstart hv
    have hresolve : v.resolve path = .ok target := resolve_eq_ok_iff.2 ⟨hcheck, hne, htarget⟩
    refine ⟨v, ?_, htv, ?_⟩
    · rw [if_neg hu, if_pos rfl]
      exact Except.bind_eq_ok_iff.2 ⟨(), hcheck, hv⟩
    · rw [hresolve, normalise_of_resolve hresolve]

end FileTree

end TypedStore
