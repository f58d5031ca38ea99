/-
  TypedStore — single names as paths.

  A path without slashes is one name, and leads into the working directory,
  which is always there.

  * `splitOn_slash`, `splitOn_concat`: the words between the slashes of a path;
  * `IsName.resolve`: where a name leads, in any tree, and `resolve_join` where
    it leads in a directory;
  * `removeFiles_of_isName`: names are removed without an error unless one is
    that of a directory;
  * `resolve_of_missing`: where a name is missing, a path leads nowhere.
-/
import Mathlib.Data.String.Basic
import TypedStore.Proofs.FileTree

namespace TypedStore.FileTree

open String in
/-- What is found from `l` on, where `m` is known to have no slash. -/
theorem splitOnAux_eq (l m r : List Char) (found : List String) :
    splitOnAux (ofList (l ++ m ++ r)) "/" ⟨utf8Len l⟩ ⟨utf8Len l + utf8Len m⟩ 0 found =
      found.reverse ++ (List.splitOnPPrepend (· == '/') r m.reverse).map ofList := by
  induction r generalizing l m found with
  | nil =>
    have hend := (atEnd_of_valid (l ++ m) []).2 rfl
    rw [utf8Len_append] at hend
    unfold splitOnAux
    rw [if_pos hend, extract_of_valid]
    simp [List.splitOnPPrepend]
  | cons c r ih =>
    have hend : ¬ Pos.Raw.atEnd (ofList (l ++ m ++ c :: r)) ⟨utf8Len l + utf8Len m⟩ = true := by
      rw [← utf8Len_append, atEnd_of_valid]
      exact nofun
    have hget := get_of_valid (l ++ m) (c :: r)
    have hnext := next_of_valid (l ++ m) c r
    rw [utf8Len_append] at hget hnext
    rw [List.headD_cons] at hget
    unfold splitOnAux
    rw [if_neg hend, hget, List.splitOnPPrepend_cons_eq_if]
    by_cases hc : c = '/'
    · -- a word ends here
      subst hc
      have hrest := ih (l ++ m ++ ['/']) [] (ofList m :: found)
      have hfirst : ('/' == Pos.Raw.get "/" 0) = true := by decide
      have hlast : Pos.Raw.atEnd "/" (Pos.Raw.next "/" 0) = true := by decide
      have hword : (⟨utf8Len l + utf8Len m + '/'.utf8Size⟩ : Pos.Raw).unoffsetBy
          (Pos.Raw.next "/" 0) = ⟨utf8Len l + utf8Len m⟩ := rfl
      have hsplit : (l ++ m ++ ['/']) ++ [] ++ r = l ++ m ++ '/' :: r := by simp
      have hlen : utf8Len (l ++ m ++ ['/']) = utf8Len l + utf8Len m + '/'.utf8Size := by
        simp only [utf8Len_append, utf8Len_cons, utf8Len_nil, Nat.zero_add]
      rw [hsplit, utf8Len_nil, Nat.add_zero, hlen] at hrest
      simp only [hfirst, hlast, hnext, hword, extract_of_valid, if_true, beq_self_eq_true, hrest]
      simp
    · -- the word goes on
      have hrest := ih l (m ++ [c]) found
      have hother : ¬ (c == Pos.Raw.get "/" 0) = true := by
        rw [show Pos.Raw.get "/" 0 = '/' by decide, beq_iff_eq]
        exact hc
      have hsplit : l ++ (m ++ [c]) ++ r = l ++ m ++ c :: r := by simp
      have hlen : utf8Len l + utf8Len (m ++ [c]) = utf8Len l + utf8Len m + c.utf8Size := by
        simp only [utf8Len_append, utf8Len_cons, utf8Len_nil, Nat.zero_add, Nat.add_assoc]
      rw [hsplit, hlen, List.reverse_append] at hrest
      have hnext' : Pos.Raw.next (ofList (l ++ m ++ c :: r))
          ((⟨utf8Len l + utf8Len m⟩ : Pos.Raw).unoffsetBy 0) =
          ⟨utf8Len l + utf8Len m + c.utf8Size⟩ := hnext
      rw [if_neg hother, hnext', hrest]
      simp [hc]

theorem splitOn_slash (path : String) :
    path.splitOn "/" = (path.toList.splitOn '/').map String.ofList := by
  have h := splitOnAux_eq [] [] path.toList []
  rw [List.append_nil, List.nil_append, String.ofList_toList] at h
  exact h

theorem splitOn_of_not_mem {path : String} (h : '/' ∉ path.toList) : path.splitOn "/" = [path] := by
  have hsplit : path.toList.splitOn '/' = [path.toList] :=
    List.splitOnP_eq_singleton fun c hc => beq_false_of_ne fun heq => h (heq ▸ hc)
  rw [splitOn_slash, hsplit, List.map_singleton, String.ofList_toList]

/-- What follows a slash without another one is the last word. -/
theorem splitOn_concat (path : String) {name : String} (h : '/' ∉ name.toList) :
    (path ++ "/" ++ name).splitOn "/" = path.splitOn "/" ++ [name] := by
  have hlist : (path ++ "/" ++ name).toList = path.toList ++ '/' :: name.toList := by simp
  have hsplit : (path.toList ++ '/' :: name.toList).splitOn '/' =
      path.toList.splitOn '/' ++ name.toList.splitOn '/' :=
    List.splitOnP_append_cons _ _ (beq_self_eq_true _)
  rw [splitOn_slash, hlist, hsplit, List.map_append, ← splitOn_slash, ← splitOn_slash,
    splitOn_of_not_mem h]

theorem checkPath_eq_ok {path : String} (hnul : Char.ofNat 0 ∉ path.toList)
    (hshort : path.utf8ByteSize ≤ greatestPath) : checkPath path = .ok () := by
  unfold checkPath
  rw [String.contains_char_eq, decide_eq_false hnul, if_neg Bool.false_ne_true, if_neg (by omega)]

/-- A text that is the name of an entry in a directory. -/
def IsName (name : String) : Prop :=
  '/' ∉ name.toList ∧ Char.ofNat 0 ∉ name.toList ∧ name.utf8ByteSize ≤ 255 ∧
    name ≠ "" ∧ name ≠ "." ∧ name ≠ ".."

instance (name : String) : Decidable (IsName name) := inferInstanceAs (Decidable (_ ∧ _))

namespace IsName

variable {name : String} (h : IsName name)
include h

theorem parts : parts name = (working, [name]) := by
  have hrelative : name.startsWith "/" = false := by
    refine String.startsWith_string_eq_false_iff.2 fun hp => h.1 (hp.subset ?_)
    exact List.mem_singleton_self _
  unfold FileTree.parts
  rw [hrelative, splitOn_of_not_mem h.1]
  rfl

/-- From a directory a name leads to the entry of that name. -/
theorem enter {t : FileTree} {loc : Location} (hdirectory : t.node? loc = some .directory) :
    t.enter loc name = .ok (loc ++ [name]) := by
  obtain ⟨-, -, hshort, hempty, hdot, hdots⟩ := h
  refine enter_eq_ok_iff.2 ⟨hdirectory, ?_⟩
  rw [if_neg (by simp [hempty, hdot]), if_neg hdots]
  exact ⟨hshort, rfl⟩

/-- A name leads into the working directory. -/
theorem resolve (t : FileTree) : t.resolve name = .ok (working ++ [name]) := by
  have hparts := h.parts
  have henter := h.enter (node?_of_prefix_working (t := t) List.prefix_rfl)
  obtain ⟨-, hnul, hshort, hempty, -, -⟩ := h
  refine resolve_eq_ok_iff.2 ⟨?_, hempty, ?_⟩
  · exact checkPath_eq_ok hnul (hshort.trans (by decide))
  · rw [hparts]
    exact walk_cons_eq_ok_iff.2 ⟨_, henter, rfl⟩

theorem normalise : normalise name = working ++ [name] := normalise_of_resolve (h.resolve {})

end IsName

/-- Names are removed unless one is that of a directory. -/
theorem removeFiles_of_isName {names : List String} {t : FileTree} (h : ∀ name ∈ names, IsName name)
    (hnode : ∀ name ∈ names, t.node? (working ++ [name]) ≠ some .directory) :
    (removeFiles names t).1 = none := by
  induction names generalizing t with
  | nil => rfl
  | cons name names ih =>
    have hresolve := (h name List.mem_cons_self).resolve t
    have hname := hnode name List.mem_cons_self
    replace h : ∀ name ∈ names, IsName name := fun other ho => h other (List.mem_cons_of_mem _ ho)
    replace hnode : ∀ name ∈ names, t.node? (working ++ [name]) ≠ some .directory :=
      fun other ho => hnode other (List.mem_cons_of_mem _ ho)
    unfold removeFiles
    split
    · next u hu =>
      obtain ⟨loc, -, -, rfl⟩ := removeFile_eq_ok hu
      exact ih h fun other ho hn => hnode other ho (t.drops_delete loc _ _ hn)
    · next e he =>
      obtain ⟨-, rfl⟩ | ⟨hdirectory, -⟩ := removeFile_eq_error hresolve he
      · exact ih h hnode
      · exact absurd hdirectory hname

/-! ## Missing names -/

/-- A path leads nowhere that goes through a name that is missing, even if it
    goes back from there. -/
theorem resolve_of_missing {t : FileTree} {path name next : String} {rest : List String}
    (hname : IsName name) (hnone : t.node? (working ++ [name]) = none)
    (hcheck : checkPath path = .ok ()) (hpath : path ≠ "")
    (hparts : parts path = (working, name :: next :: rest)) :
    t.resolve path = .error .notFound := by
  have hfirst := hname.enter (node?_of_prefix_working (t := t) List.prefix_rfl)
  have hnext : t.enter (working ++ [name]) next = .error .notFound := by
    unfold enter
    rw [hnone]
  have hwalk : t.walk working (name :: next :: rest) = .error .notFound := by
    rw [walk, hfirst]
    show (t.enter (working ++ [name]) next).bind _ = _
    rw [hnext]
    rfl
  unfold resolve
  rw [hcheck, hparts, if_neg hpath]
  exact hwalk

/-! ## Names in a directory -/

section
variable {t : FileTree} {loc : Location} {path name : String}

theorem endsWith_slash_iff : path.endsWith "/" = true ↔ ∃ front : String, path = front ++ "/" := by
  rw [String.endsWith_eq_endsWith_toSlice, String.Slice.endsWith_string_iff, String.copy_toSlice]
  constructor
  · rintro ⟨front, hfront⟩
    refine ⟨String.ofList front, String.toList_inj.1 ?_⟩
    rw [String.toList_append, String.toList_ofList, hfront]
  · rintro ⟨front, rfl⟩
    rw [String.toList_append]
    exact List.suffix_append _ _

/-- A path begins where it begins with more behind it. -/
theorem parts_fst_append (h : path ≠ "") (rest : String) :
    (parts (path ++ rest)).1 = (parts path).1 := by
  have hstart : (path ++ rest).startsWith "/" = path.startsWith "/" := by
    obtain ⟨c, cs, hpath⟩ : ∃ c cs, path.toList = c :: cs :=
      List.exists_cons_of_ne_nil fun hnil => h (String.toList_eq_nil_iff.1 hnil)
    have hslash : "/".toList = ['/'] := rfl
    rw [Bool.eq_iff_iff, String.startsWith_string_iff, String.startsWith_string_iff,
      String.toList_append, hpath, hslash, List.cons_append, List.cons_prefix_cons,
      List.cons_prefix_cons]
    simp only [List.nil_prefix]
  unfold parts
  rw [hstart]

/-- The path of a name in a directory has the names of the directory before
    it, but for a blank one at the end. -/
theorem parts_join (hpath : path ≠ "") (hname : '/' ∉ name.toList) :
    ∃ names, (parts (join path name)) = ((parts path).1, names ++ [name]) ∧
      ((parts path).2 = names ∨ (parts path).2 = names ++ [""]) := by
  by_cases hend : path.endsWith "/" = true
  · obtain ⟨front, rfl⟩ := endsWith_slash_iff.1 hend
    have hjoin : join (front ++ "/") name = front ++ "/" ++ name := if_pos (Or.inr hend)
    refine ⟨front.splitOn "/", ?_, Or.inr ?_⟩
    · rw [hjoin]
      exact Prod.ext (parts_fst_append hpath name) (splitOn_concat front hname)
    · have hblank : '/' ∉ "".toList := List.not_mem_nil
      have hsplit := splitOn_concat front hblank
      rwa [String.append_empty] at hsplit
  · have hjoin : join path name = path ++ "/" ++ name := if_neg (by simp [hpath, hend])
    refine ⟨path.splitOn "/", ?_, Or.inl rfl⟩
    rw [hjoin]
    refine Prod.ext ?_ (splitOn_concat path hname)
    rw [String.append_assoc]
    exact parts_fst_append hpath _

theorem walk_append_eq (t : FileTree) (loc : Location) (names rest : List String) :
    t.walk loc (names ++ rest) = (t.walk loc names).bind fun next => t.walk next rest := by
  induction names generalizing loc with
  | nil => rfl
  | cons name names ih =>
    rw [List.cons_append, walk, walk]
    cases t.enter loc name with
    | error e => rfl
    | ok next => exact ih next

theorem walk_append {names rest : List String} {target : Location} :
    t.walk loc (names ++ rest) = .ok target ↔
      ∃ next, t.walk loc names = .ok next ∧ t.walk next rest = .ok target := by
  rw [walk_append_eq]
  exact Except.bind_eq_ok_iff

/-- The path of a name in a directory leads to the entry of that name. -/
theorem resolve_join (hname : IsName name) (hpath : t.resolve path = .ok loc)
    (hdirectory : t.node? loc = some .directory) (hcheck : checkPath (join path name) = .ok ()) :
    t.resolve (join path name) = .ok (loc ++ [name]) := by
  obtain ⟨-, hne, hwalk⟩ := resolve_eq_ok_iff.1 hpath
  obtain ⟨names, hparts, hnames⟩ := parts_join hne hname.1
  have hlast : t.walk (parts path).1 names = .ok loc := by
    rcases hnames with heq | heq
    · rwa [heq] at hwalk
    · rw [heq] at hwalk
      obtain ⟨next, hnext, hblank⟩ := walk_append.1 hwalk
      obtain ⟨_, henter, hnil⟩ := walk_cons_eq_ok_iff.1 hblank
      obtain ⟨-, hsame⟩ := enter_eq_ok_iff.1 henter
      rw [if_pos (Or.inl rfl)] at hsame
      cases hnil
      rw [hnext, hsame]
  refine resolve_eq_ok_iff.2 ⟨hcheck, ?_, ?_⟩
  · obtain ⟨-, -, -, hempty, -, -⟩ := hname
    unfold join
    split_ifs <;> simp [hempty]
  · rw [hparts]
    exact walk_append.2 ⟨loc, hlast, walk_cons_eq_ok_iff.2 ⟨_, hname.enter hdirectory, rfl⟩⟩

end

end TypedStore.FileTree
