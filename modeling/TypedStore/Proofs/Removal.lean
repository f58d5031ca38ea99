/-
  TypedStore — what removing takes from a file tree, and what is in its way.

  * `resolve_of_drops`: when nodes are removed, a path leads where it led, or
    nowhere;
  * `IsMissing`: a path that leads to no node, now and after anything is
    removed; `isMissing_of_removeFiles`: so it is with the files that have been
    removed;
  * `Blocks`: why a path cannot be removed as a file;
    `blocks_of_removeFiles`: nothing else ends a removal, and what is missing
    does not; `BlocksDirectory`: the same of directories;
  * `removeIfEmpty_cases`, `removeAll_cases`: what removing a directory comes to;
  * `base`: the directory that a path in it begins with.
-/
import TypedStore.Proofs.Names

namespace TypedStore.FileTree

variable {t u : FileTree} {loc : Location} {path name : String} {e : FileError}

/-! ## Paths in what is left -/

theorem enter_of_drops (h : t.Drops u) (loc : Location) (name : String) :
    u.enter loc name = t.enter loc name ∨ u.enter loc name = .error .notFound := by
  cases hn : u.node? loc with
  | none => exact .inr (by rw [enter, hn])
  | some n => exact .inl (by rw [enter, enter, hn, h loc n hn])

theorem walk_of_drops (h : t.Drops u) (loc : Location) (names : List String) :
    u.walk loc names = t.walk loc names ∨ u.walk loc names = .error .notFound := by
  induction names generalizing loc with
  | nil => exact .inl rfl
  | cons name names ih =>
    unfold walk
    rcases enter_of_drops h loc name with henter | henter
    · rw [henter]
      cases t.enter loc name with
      | error e => exact .inl rfl
      | ok next => exact ih next
    · rw [henter]
      exact .inr rfl

theorem resolve_eq (t : FileTree) (path : String) : t.resolve path =
    (checkPath path).bind fun _ =>
      if path = "" then .error .notFound else t.walk (parts path).1 (parts path).2 := by
  unfold resolve
  cases checkPath path with
  | error e => rfl
  | ok => by_cases hpath : path = "" <;> simp only [hpath, if_true, if_false] <;> rfl

/-- When nodes are removed, a path leads where it led, or nowhere. -/
theorem resolve_of_drops (h : t.Drops u) (path : String) :
    u.resolve path = t.resolve path ∨ u.resolve path = .error .notFound := by
  rw [resolve_eq, resolve_eq]
  cases checkPath path with
  | error e => exact .inl rfl
  | ok =>
    simp only [Except.bind]
    split_ifs
    · exact .inl rfl
    · exact walk_of_drops h _ _

theorem isNotFound_of_checkPath (h : checkPath path = .error e) : e.isNotFound = false := by
  unfold checkPath at h
  split_ifs at h <;> cases h <;> rfl

/-! ## Missing paths -/

/-- Whether a path leads to no node. -/
def IsMissing (t : FileTree) (path : String) : Prop :=
  (∃ e, t.resolve path = .error e ∧ e.isNotFound = true) ∨
    ∃ loc, t.resolve path = .ok loc ∧ t.node? loc = none

namespace IsMissing

/-- What is missing is so after anything is removed. -/
theorem of_drops (hmissing : t.IsMissing path) (h : t.Drops u) : u.IsMissing path := by
  rcases resolve_of_drops h path with hsame | hnone
  · rcases hmissing with ⟨e, he, hfound⟩ | ⟨loc, hloc, hn⟩
    · exact .inl ⟨e, hsame.trans he, hfound⟩
    · exact .inr ⟨loc, hsame.trans hloc, h.node?_eq_none hn⟩
  · exact .inl ⟨_, hnone, rfl⟩

/-- What is no path at all is not merely missing. -/
theorem checkPath (h : t.IsMissing path) : checkPath path = .ok () := by
  rcases h with ⟨e, he, hfound⟩ | ⟨loc, hloc, -⟩
  · cases hcheck : FileTree.checkPath path with
    | ok => rfl
    | error fault =>
      rw [resolve_eq, hcheck] at he
      cases he
      cases (isNotFound_of_checkPath hcheck).symm.trans hfound
  · exact (resolve_eq_ok_iff.1 hloc).1

theorem exists_eq_false (h : t.IsMissing path) : t.exists path = false := by
  unfold «exists» at?
  rcases h with ⟨e, he, -⟩ | ⟨loc, hloc, hn⟩
  · rw [he]
    rfl
  · rw [hloc]
    exact congrArg Option.isSome hn

/-- Removing what is missing fails with nothing but that. -/
theorem removeFile (h : t.IsMissing path) :
    ∃ e, t.removeFile path = .error e ∧ e.isNotFound = true := by
  unfold FileTree.removeFile
  rcases h with ⟨e, he, hfound⟩ | ⟨loc, hloc, hn⟩
  · exact ⟨e, by rw [he]; rfl, hfound⟩
  · refine ⟨.notFound, ?_, rfl⟩
    simp only [hloc, bind, Except.bind, hn]
    rfl

/-- A missing directory is passed over. -/
theorem removeIfEmpty (h : t.IsMissing path) : t.removeIfEmpty path = .ok t := by
  unfold FileTree.removeIfEmpty
  rcases h with ⟨e, he, hfound⟩ | ⟨loc, hloc, hn⟩
  · simp only [he, hfound, if_true]
  · simp only [hloc, hn]

end IsMissing

/-- What is removed is gone, and nothing else. -/
theorem node?_delete_of_not_above (h : ¬ loc <+: working) (t : FileTree) (other : Location) :
    (t.delete loc).node? other = if other = loc then none else t.node? other := by
  unfold node? delete
  by_cases ho : other = loc
  · subst ho
    rw [if_neg (mt List.isPrefixOf_iff_prefix.1 h), Entries.get?_erase, if_pos rfl, if_pos rfl]
  · simp only [Entries.get?_erase, if_neg ho]

/-- A path is missing when the node that it leads to is removed. -/
theorem isMissing_delete (hloc : t.resolve path = .ok loc) (h : ¬ loc <+: working) :
    (t.delete loc).IsMissing path := by
  rcases resolve_of_drops (t.drops_delete loc) path with hsame | hnone
  · exact .inr ⟨loc, hsame.trans hloc, by rw [node?_delete_of_not_above h, if_pos rfl]⟩
  · exact .inl ⟨_, hnone, rfl⟩

/-- Why a path cannot be removed as a file: it leads to a directory, or it is
    wrong in itself. -/
def Blocks (t : FileTree) (path : String) (e : FileError) : Prop :=
  (t.resolve path = .error e ∧ e.isNotFound = false) ∨
    ∃ loc, t.resolve path = .ok loc ∧ t.node? loc = some .directory ∧ e = .isDirectory

/-- What is in the way has been there before anything was removed. -/
theorem Blocks.of_drops (hblocks : u.Blocks path e) (h : t.Drops u) : t.Blocks path e := by
  rcases resolve_of_drops h path with hsame | hnone
  · rcases hblocks with ⟨he, hfound⟩ | ⟨loc, hloc, hn, rfl⟩
    · exact .inl ⟨hsame.symm.trans he, hfound⟩
    · exact .inr ⟨loc, hsame.symm.trans hloc, h _ _ hn, rfl⟩
  · rcases hblocks with ⟨he, hfound⟩ | ⟨loc, hloc, -⟩
    · cases hnone.symm.trans he
      cases hfound
    · cases hnone.symm.trans hloc

/-- Why a directory cannot be removed: its path is wrong in itself, leads to a
    file, or names the directory in a way that does not allow it. -/
def BlocksDirectory (t : FileTree) (path : String) (e : FileError) : Prop :=
  (t.resolve path = .error e ∧ e.isNotFound = false) ∨
    ∃ loc, t.resolve path = .ok loc ∧
      ((∃ content, t.node? loc = some (.file content)) ∧ e = .notDirectory ∨
        t.node? loc = some .directory ∧ removalFault path loc = some e)

theorem BlocksDirectory.of_drops (hblocks : u.BlocksDirectory path e) (h : t.Drops u) :
    t.BlocksDirectory path e := by
  rcases resolve_of_drops h path with hsame | hnone
  · rcases hblocks with ⟨he, hfound⟩ | ⟨loc, hloc, ⟨⟨content, hn⟩, rfl⟩ | ⟨hn, hfault⟩⟩
    · exact .inl ⟨hsame.symm.trans he, hfound⟩
    · exact .inr ⟨loc, hsame.symm.trans hloc, .inl ⟨⟨content, h _ _ hn⟩, rfl⟩⟩
    · exact .inr ⟨loc, hsame.symm.trans hloc, .inr ⟨h _ _ hn, hfault⟩⟩
  · rcases hblocks with ⟨he, hfound⟩ | ⟨loc, hloc, -⟩
    · cases hnone.symm.trans he
      cases hfound
    · cases hnone.symm.trans hloc

/-! ## Removing files -/

/-- What is in the way is not removed, and not for being missing. -/
theorem Blocks.removeFile (h : t.Blocks path e) :
    t.removeFile path = .error e ∧ e.isNotFound = false := by
  unfold FileTree.removeFile
  rcases h with ⟨he, hfound⟩ | ⟨loc, hloc, hn, rfl⟩
  · exact ⟨by rw [he]; rfl, hfound⟩
  · refine ⟨?_, rfl⟩
    simp only [hloc, bind, Except.bind, hn]
    rfl

/-- What removing a file comes to. -/
theorem removeFile_cases (t : FileTree) (path : String) :
    t.IsMissing path ∨
    (∃ loc content, t.resolve path = .ok loc ∧ t.node? loc = some (.file content) ∧
      t.removeFile path = .ok (t.delete loc)) ∨
    ∃ e, t.Blocks path e := by
  cases hloc : t.resolve path with
  | error e =>
    cases hfound : e.isNotFound with
    | true => exact .inl (.inl ⟨e, hloc, hfound⟩)
    | false => exact .inr (.inr ⟨e, .inl ⟨hloc, hfound⟩⟩)
  | ok loc =>
    cases hn : t.node? loc with
    | none => exact .inl (.inr ⟨loc, hloc, hn⟩)
    | some n =>
      cases n with
      | directory => exact .inr (.inr ⟨_, .inr ⟨loc, hloc, hn, rfl⟩⟩)
      | file content =>
        refine .inr (.inl ⟨loc, content, rfl, hn, ?_⟩)
        unfold removeFile
        simp only [hloc, bind, Except.bind, hn]
        rfl

/-- What is missing is passed over. -/
theorem removeFiles_of_isMissing {paths : List String} (h : ∀ path ∈ paths, t.IsMissing path) :
    removeFiles paths t = (none, t) := by
  induction paths with
  | nil => rfl
  | cons path paths ih =>
    obtain ⟨e, he, hfound⟩ := (h path List.mem_cons_self).removeFile
    unfold removeFiles
    simp only [he, hfound, if_true]
    exact ih fun other ho => h other (List.mem_cons_of_mem _ ho)

/-- A removal that begins with what is in its way does nothing. -/
theorem removeFiles_of_blocks (h : t.Blocks path e) (paths : List String) :
    removeFiles (path :: paths) t = (some e, t) := by
  obtain ⟨hremove, hfound⟩ := h.removeFile
  simp only [removeFiles, hremove, hfound, Bool.false_eq_true, if_false]

/-- One step of a removal: the first path is removed or passed over and the
    others follow, or it is in the way. -/
theorem removeFiles_cons (t : FileTree) (path : String) (paths : List String) :
    (∃ u, t.Drops u ∧ u.IsMissing path ∧ removeFiles (path :: paths) t = removeFiles paths u) ∨
      ∃ e, t.Blocks path e := by
  rcases t.removeFile_cases path with hmissing | ⟨loc, content, hloc, hn, hremove⟩ | hblocks
  · obtain ⟨e, he, hfound⟩ := hmissing.removeFile
    exact .inl ⟨t, Drops.refl t, hmissing, by simp only [removeFiles, he, hfound, if_true]⟩
  · have hworking : ¬ loc <+: working := fun hp => by
      rw [node?_of_prefix_working hp] at hn
      cases hn
    exact .inl ⟨_, t.drops_delete loc, isMissing_delete hloc hworking,
      by simp only [removeFiles, hremove]⟩
  · exact .inr hblocks

/-- The files that have been removed are missing. -/
theorem isMissing_of_removeFiles {paths : List String} (h : removeFiles paths t = (none, u)) :
    ∀ path ∈ paths, u.IsMissing path := by
  induction paths generalizing t with
  | nil => exact fun _ hpath => absurd hpath List.not_mem_nil
  | cons path paths ih =>
    rcases t.removeFiles_cons path paths with ⟨v, -, hmissing, heq⟩ | ⟨e, hblocks⟩
    · rw [heq] at h
      have hdrops := drops_removeFiles paths v
      rw [h] at hdrops
      exact List.forall_mem_cons.2 ⟨hmissing.of_drops hdrops, ih h⟩
    · cases (removeFiles_of_blocks hblocks paths).symm.trans h

/-- A removal that ends well changes nothing where no path leads to a file. -/
theorem removeFiles_eq_self {paths : List String} (h : removeFiles paths t = (none, u))
    (hnone : ∀ path ∈ paths, ∀ loc content, t.resolve path = .ok loc →
      t.node? loc ≠ some (.file content)) : u = t := by
  induction paths with
  | nil =>
    cases h
    rfl
  | cons path paths ih =>
    rcases t.removeFile_cases path with hmissing | ⟨loc, content, hloc, hn, -⟩ | ⟨e, hblocks⟩
    · obtain ⟨e, he, hfound⟩ := hmissing.removeFile
      simp only [removeFiles, he, hfound, if_true] at h
      exact ih h fun other ho => hnone other (List.mem_cons_of_mem _ ho)
    · exact absurd hn (hnone path List.mem_cons_self loc content hloc)
    · cases (removeFiles_of_blocks hblocks paths).symm.trans h

/-- Files are removed from where their paths lead. -/
theorem node?_of_removeFiles {paths : List String} (h : removeFiles paths t = (none, u))
    (hpath : path ∈ paths) (hloc : t.resolve path = .ok loc) : u.node? loc = none := by
  have hkeeps := removeFiles_directory paths t
  rw [h] at hkeeps
  have hleads := resolve_of_keepsDirectories hkeeps hloc
  rcases isMissing_of_removeFiles h path hpath with ⟨e, he, -⟩ | ⟨_, hloc', hn⟩
  · cases hleads.symm.trans he
  · cases hleads.symm.trans hloc'
    exact hn

/-- A removal ends at something that is in its way. -/
theorem blocks_of_removeFiles {paths : List String} (h : removeFiles paths t = (some e, u)) :
    ∃ path ∈ paths, t.Blocks path e := by
  induction paths generalizing t with
  | nil => cases h
  | cons path paths ih =>
    rcases t.removeFiles_cons path paths with ⟨v, hdrops, -, heq⟩ | ⟨e', hblocks⟩
    · obtain ⟨other, ho, hblocks⟩ := ih (heq.symm.trans h)
      exact ⟨other, List.mem_cons_of_mem _ ho, hblocks.of_drops hdrops⟩
    · cases (removeFiles_of_blocks hblocks paths).symm.trans h
      exact ⟨path, List.mem_cons_self, hblocks⟩

/-- A removal does not get past a directory. -/
theorem not_isDirectory_of_removeFiles {paths : List String}
    (h : removeFiles paths t = (none, u)) (hpath : path ∈ paths) : t.isDirectory path = false := by
  refine Bool.eq_false_iff.2 fun hdirectory => ?_
  obtain ⟨loc, hloc, hn⟩ := isDirectory_iff.1 hdirectory
  have hkept := removeFiles_directory paths t loc hn
  rw [h, node?_of_removeFiles h hpath hloc] at hkept
  cases hkept

/-! ## Removing directories -/

/-- An empty directory has nothing in it. -/
theorem node?_concat_of_isEmptyDirectory (h : t.isEmptyDirectory loc = true) (name : String) :
    t.node? (loc ++ [name]) = none := by
  obtain ⟨hkeys, habove⟩ := Bool.and_eq_true_iff.1 h
  have hworking : ¬ (loc ++ [name]).isPrefixOf working := by
    intro hp
    obtain ⟨rest, hrest⟩ := List.isPrefixOf_iff_prefix.1 hp
    have hdrop : working.dropLast = loc ++ (name :: rest).dropLast := by
      rw [← hrest, List.append_assoc]
      exact List.dropLast_append_of_ne_nil (List.cons_ne_nil _ _)
    rw [List.isPrefixOf_iff_prefix.2 ⟨_, hdrop.symm⟩] at habove
    cases habove
  rw [node?, if_neg hworking]
  cases hn : t.nodes.get? (loc ++ [name]) with
  | none => rfl
  | some n =>
    have hmem : loc ++ [name] ∈ t.nodes.keys := (Entries.mem_keys _ _).2 (by rw [hn]; rfl)
    have hkey := List.all_eq_true.1 hkeys _ hmem
    simp at hkey

/-- What can be removed is not above the working directory. -/
theorem not_prefix_of_removalFault (h : removalFault path loc = none) : ¬ loc <+: working := by
  unfold removalFault at h
  split_ifs at h with _ hp
  exact mt List.isPrefixOf_iff_prefix.2 hp

/-- What removing a directory comes to if it has to be empty. -/
theorem removeIfEmpty_cases (t : FileTree) (path : String) :
    t.IsMissing path ∨
    (∃ e, t.resolve path = .error e ∧ e.isNotFound = false ∧ t.removeIfEmpty path = .error e) ∨
    ∃ loc, t.resolve path = .ok loc ∧
      ((∃ content, t.node? loc = some (.file content) ∧
        t.removeIfEmpty path = .error .notDirectory) ∨
      t.node? loc = some .directory ∧
        ((t.isEmptyDirectory loc = false ∧ t.removeIfEmpty path = .ok t) ∨
        (∃ e, removalFault path loc = some e ∧ t.removeIfEmpty path = .error e) ∨
        t.isEmptyDirectory loc = true ∧ removalFault path loc = none ∧
          t.removeIfEmpty path = .ok (t.delete loc))) := by
  unfold removeIfEmpty
  cases hloc : t.resolve path with
  | error e =>
    cases hfound : e.isNotFound with
    | true => exact .inl (.inl ⟨e, hloc, hfound⟩)
    | false => exact .inr (.inl ⟨e, rfl, hfound, by simp [hfound]⟩)
  | ok loc =>
    cases hn : t.node? loc with
    | none => exact .inl (.inr ⟨loc, hloc, hn⟩)
    | some n =>
      refine .inr (.inr ⟨loc, rfl, ?_⟩)
      cases n with
      | file content => exact .inl ⟨content, hn, by simp only [hn]⟩
      | directory =>
        refine .inr ⟨hn, ?_⟩
        cases hempty : t.isEmptyDirectory loc with
        | false => exact .inl ⟨rfl, by simp [hn, hempty]⟩
        | true =>
          cases hfault : removalFault path loc with
          | some e => exact .inr (.inl ⟨e, rfl, by simp only [hn, hempty, hfault, if_true]⟩)
          | none => exact .inr (.inr ⟨rfl, rfl, by simp only [hn, hempty, hfault, if_true]⟩)

/-- Removing a directory again changes nothing. -/
theorem removeIfEmpty_again (h : t.removeIfEmpty path = .ok u) : u.removeIfEmpty path = .ok u := by
  rcases t.removeIfEmpty_cases path with hmissing | ⟨e, -, -, heq⟩ |
    ⟨loc, hloc, ⟨_, -, heq⟩ | ⟨-, ⟨-, heq⟩ | ⟨e, -, heq⟩ | ⟨-, hfault, heq⟩⟩⟩
  · cases hmissing.removeIfEmpty.symm.trans h
    exact h
  · cases heq.symm.trans h
  · cases heq.symm.trans h
  · cases heq.symm.trans h
    exact h
  · cases heq.symm.trans h
  · cases heq.symm.trans h
    exact (isMissing_delete hloc (not_prefix_of_removalFault hfault)).removeIfEmpty

theorem removeAll_of_not_exists (h : t.exists path = false) : t.removeAll path = (none, t) := by
  rcases t.removeAll_cases path with ⟨heq, -⟩ | ⟨loc, content, hloc, hn, -⟩ | ⟨loc, hloc, hn, -⟩
  · exact heq
  · simp [«exists», at?, hloc, hn] at h
  · simp [«exists», at?, hloc, hn] at h

/-- There is nothing at a path that was removed with everything below it. -/
theorem exists_of_removeAll (h : t.removeAll path = (none, u)) : u.exists path = false := by
  rcases t.removeAll_cases path with ⟨heq, hnone⟩ | ⟨_, _, -, -, heq⟩ |
    ⟨loc, -, -, ⟨e, he, heq⟩ | ⟨hloc, ⟨_, -, heq⟩ | ⟨hfault, heq⟩⟩⟩
  · cases heq.symm.trans h
    exact hnone
  · cases heq.symm.trans h
  · cases heq.symm.trans h
    simp [«exists», at?, he]
  · cases heq.symm.trans h
  · cases heq.symm.trans h
    exact (isMissing_delete hloc (not_prefix_of_removalFault hfault)).exists_eq_false

/-- What is left when a directory was to be removed if it is empty. -/
theorem removeIfEmpty_eq_ok (h : t.removeIfEmpty path = .ok u) : u = t ∨
    ∃ loc, t.resolve path = .ok loc ∧ t.node? loc = some .directory ∧
      t.isEmptyDirectory loc = true ∧ ¬ loc <+: working ∧ u = t.delete loc := by
  rcases t.removeIfEmpty_cases path with hmissing | ⟨e, -, -, heq⟩ |
    ⟨loc, hloc, ⟨_, -, heq⟩ | ⟨hn, ⟨-, heq⟩ | ⟨e, -, heq⟩ | ⟨hempty, hfault, heq⟩⟩⟩
  · cases hmissing.removeIfEmpty.symm.trans h
    exact .inl rfl
  · cases heq.symm.trans h
  · cases heq.symm.trans h
  · cases heq.symm.trans h
    exact .inl rfl
  · cases heq.symm.trans h
  · cases heq.symm.trans h
    exact .inr ⟨loc, hloc, hn, hempty, not_prefix_of_removalFault hfault, rfl⟩

theorem blocksDirectory_of_removeIfEmpty (h : t.removeIfEmpty path = .error e) :
    t.BlocksDirectory path e := by
  rcases t.removeIfEmpty_cases path with hmissing | ⟨e, he, hfound, heq⟩ |
    ⟨loc, hloc, ⟨content, hn, heq⟩ | ⟨hn, ⟨-, heq⟩ | ⟨e, hfault, heq⟩ | ⟨-, -, heq⟩⟩⟩
  · cases hmissing.removeIfEmpty.symm.trans h
  · cases heq.symm.trans h
    exact .inl ⟨he, hfound⟩
  · cases heq.symm.trans h
    exact .inr ⟨loc, hloc, .inl ⟨⟨content, hn⟩, rfl⟩⟩
  · cases heq.symm.trans h
  · cases heq.symm.trans h
    exact .inr ⟨loc, hloc, .inr ⟨hn, hfault⟩⟩
  · cases heq.symm.trans h

theorem blocksDirectory_of_removeAll (h : t.removeAll path = (some e, u)) :
    t.BlocksDirectory path e := by
  rcases t.removeAll_cases path with ⟨heq, -⟩ | ⟨loc, content, hloc, hn, heq⟩ |
    ⟨loc, hloc, hn, ⟨_, -, heq⟩ | ⟨-, ⟨_, hfault, heq⟩ | ⟨-, heq⟩⟩⟩
  · cases heq.symm.trans h
  · cases heq.symm.trans h
    exact .inr ⟨loc, hloc, .inl ⟨⟨content, hn⟩, rfl⟩⟩
  · cases heq.symm.trans h
  · cases heq.symm.trans h
    exact .inr ⟨loc, hloc, .inr ⟨hn, hfault⟩⟩
  · cases heq.symm.trans h

/-- Only what is at a path or below it is removed with everything below it. -/
theorem node?_removeAll_of_not_below
    (h : ∀ dir, t.resolve path = .ok dir → ¬ dir <+: loc) :
    (t.removeAll path).2.node? loc = t.node? loc := by
  rcases t.removeAll_cases path with ⟨heq, -⟩ | ⟨_, _, -, -, heq⟩ | ⟨dir, hdir, -, hcases⟩
  · rw [heq]
  · rw [heq]
  · have hbelow := h dir hdir
    have hclear : (t.clear dir).node? loc = t.node? loc := by
      rw [node?_clear, if_neg fun hp => hbelow hp.1]
    rcases hcases with ⟨_, -, heq⟩ | ⟨-, ⟨_, -, heq⟩ | ⟨hfault, heq⟩⟩ <;> rw [heq]
    · exact hclear
    · exact hclear
    · have hne : loc ≠ dir := by
        rintro rfl
        exact hbelow List.prefix_rfl
      rw [node?_delete_of_not_above (not_prefix_of_removalFault hfault), if_neg hne, hclear]

/-! ## Paths in a directory -/

/-- The directory that the paths of its entries begin with.  The entries of no
    path are those of the working directory. -/
def base (t : FileTree) (path : String) : Except FileError Location :=
  if path = "" then .ok working else t.resolve path

theorem base_of_resolve (h : t.resolve path = .ok loc) : t.base path = .ok loc := by
  rw [base, if_neg (resolve_eq_ok_iff.1 h).2.1, h]

/-- What a path begins with is a path if the whole is. -/
theorem checkPath_of_append {a b : String} (h : checkPath (a ++ b) = .ok ()) :
    checkPath a = .ok () := by
  unfold checkPath at h
  rw [String.contains_char_eq, String.toList_append] at h
  split_ifs at h with hnul hlong
  rw [String.utf8ByteSize_append] at hlong
  exact checkPath_eq_ok (by simp at hnul; exact hnul.1) (by omega)

/-- An entry of a directory is where the directory leads, under its name. -/
theorem base_of_resolve_join (hname : IsName name) (h : t.resolve (join path name) = .ok loc) :
    ∃ dir, t.base path = .ok dir ∧ t.node? dir = some .directory ∧ loc = dir ++ [name] := by
  by_cases hpath : path = ""
  · subst hpath
    have hjoin : join "" name = name := by simp [join]
    rw [hjoin, hname.resolve] at h
    cases h
    exact ⟨working, rfl, node?_of_prefix_working List.prefix_rfl, rfl⟩
  obtain ⟨hcheck, -, hwalk⟩ := resolve_eq_ok_iff.1 h
  obtain ⟨names, hparts, hnames⟩ := parts_join hpath hname.1
  rw [hparts] at hwalk
  obtain ⟨dir, hdir, hlast⟩ := walk_append.1 hwalk
  obtain ⟨next, henter, hnil⟩ := walk_cons_eq_ok_iff.1 hlast
  cases hnil
  have hdirectory := (enter_eq_ok_iff.1 henter).1
  have hloc : loc = dir ++ [name] := Except.ok.inj (henter.symm.trans (hname.enter hdirectory))
  refine ⟨dir, ?_, hdirectory, hloc⟩
  have hfront : checkPath path = .ok () := by
    unfold join at hcheck
    split_ifs at hcheck
    · exact checkPath_of_append hcheck
    · exact checkPath_of_append (checkPath_of_append hcheck)
  rw [base, if_neg hpath]
  refine resolve_eq_ok_iff.2 ⟨hfront, hpath, ?_⟩
  rcases hnames with heq | heq
  · rwa [heq]
  · rw [heq]
    have hblank : t.enter dir "" = .ok dir :=
      enter_eq_ok_iff.2 ⟨hdirectory, by rw [if_pos (Or.inl rfl)]⟩
    exact walk_append.2 ⟨dir, hdir, walk_cons_eq_ok_iff.2 ⟨dir, hblank, rfl⟩⟩

theorem resolve_join_of_base (hname : IsName name) (hbase : t.base path = .ok loc)
    (hdirectory : t.node? loc = some .directory) (hcheck : checkPath (join path name) = .ok ()) :
    t.resolve (join path name) = .ok (loc ++ [name]) := by
  unfold base at hbase
  split_ifs at hbase with hpath
  · subst hpath
    have hjoin : join "" name = name := by simp [join]
    cases hbase
    rw [hjoin, hname.resolve]
  · exact resolve_join hname hbase hdirectory hcheck

/-- Nothing can be removed as an entry of what is a file. -/
theorem exists_blocks_of_file (hname : IsName name) {content : Content}
    (hloc : t.resolve path = .ok loc) (hn : t.node? loc = some (.file content)) :
    ∃ e, t.Blocks (join path name) e := by
  obtain ⟨-, hpath, hwalk⟩ := resolve_eq_ok_iff.1 hloc
  obtain ⟨names, hparts, hnames⟩ := parts_join hpath hname.1
  have hlast : t.walk (parts path).1 names = .ok loc := by
    rcases hnames with heq | heq
    · rwa [heq] at hwalk
    · -- a file has no entries, not even a blank one
      rw [heq] at hwalk
      obtain ⟨next, -, hblank⟩ := walk_append.1 hwalk
      obtain ⟨_, henter, hnil⟩ := walk_cons_eq_ok_iff.1 hblank
      cases hnil
      obtain ⟨hdirectory, hsame⟩ := enter_eq_ok_iff.1 henter
      rw [if_pos (Or.inl rfl)] at hsame
      rw [← hsame, hn] at hdirectory
      cases hdirectory
  cases hcheck : checkPath (join path name) with
  | error e => exact ⟨e, .inl ⟨by rw [resolve_eq, hcheck]; rfl, isNotFound_of_checkPath hcheck⟩⟩
  | ok =>
    refine ⟨.notDirectory, .inl ⟨?_, rfl⟩⟩
    obtain ⟨-, -, -, hempty, -, -⟩ := hname
    have hjoin : join path name ≠ "" := by
      unfold join
      split_ifs <;> simp [hempty]
    have henter : t.enter loc name = .error .notDirectory := by rw [enter, hn]
    rw [resolve_eq, hcheck, hparts]
    show (if _ then _ else _) = _
    rw [if_neg hjoin, walk_append_eq, hlast]
    show (t.enter loc name).bind _ = _
    rw [henter]
    rfl

end TypedStore.FileTree
