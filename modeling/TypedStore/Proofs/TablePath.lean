/-
  TypedStore — what paths of database files stand for, by what may be done.

  * `IsPlain.target`: a plain path stands for the file of its name;
  * `widens_target`: a path that stands for something, where files may be
    written but not made, stands for the same where they may be made too, unless
    it says itself that it must not.
-/
import Mathlib.Tactic.SplitIfs
import TypedStore.Engine.TablePath
import TypedStore.Proofs.Result

namespace TypedStore.TablePath

/-! ## Plain paths -/

/-- A path that names a file as it is. -/
structure IsPlain (path : String) : Prop where
  scheme : path.startsWith "file:" = false
  named : path ≠ ""
  kept : path ≠ ":memory:"

namespace IsPlain

variable {path : String} (h : IsPlain path) {create : Bool}
include h

/-- A plain path without a null byte stands for the file of that name, which can
    be written. -/
theorem target_eq (hnul : path.toByteArray.data.toList.idxOf? 0 = none) :
    TablePath.target path create = .ok (.file path create true) := by
  have hsettings : Settings.target { access := if create then .create else .write } path =
      .file path create true := by
    cases create <;> simp [Settings.target, h.named, h.kept]
  unfold TablePath.target
  simp only [hnul, h.scheme, Bool.false_eq_true, if_false, hsettings]

theorem target {target : Target} (ht : TablePath.target path create = .ok target) :
    target = .file path create true ∧
      ∀ create, TablePath.target path create = .ok (.file path create true) := by
  have hnul : path.toByteArray.data.toList.idxOf? 0 = none := by
    unfold TablePath.target at ht
    dsimp only at ht
    split at ht
    · cases ht
    · next hnul => exact hnul
  refine ⟨?_, fun create => h.target_eq hnul⟩
  rw [h.target_eq hnul] at ht
  exact (Except.ok.inj ht).symm

end IsPlain

/-! ## Wider access -/

/-- The second settings are the first, or allow to make files where the first
    allow to write them. -/
def Settings.Widens (a b : Settings) : Prop :=
  b = a ∨ a.access = .write ∧ b = { a with access := .create }

/-- The second target is the first, but for whether a file may be made. -/
def Target.Widens : Target → Target → Prop
  | .memory share writable, target => target = .memory share writable
  | .file name _ writable, target => ∃ create, target = .file name create writable

theorem Target.Widens.refl (target : Target) : target.Widens target := by
  cases target with
  | memory => rfl
  | file name create writable => exact ⟨create, rfl⟩

namespace Settings.Widens

variable {a b a' : Settings}

theorem apply (h : a.Widens b) {option : String × String} (ha : a.apply option = .ok a') :
    ∃ b', b.apply option = .ok b' ∧ a'.Widens b' := by
  rcases h with rfl | ⟨haccess, rfl⟩
  · exact ⟨a', ha, Or.inl rfl⟩
  · unfold Settings.apply at ha ⊢
    split at ha
    · split at ha
      · cases ha
      · next access hmode =>
        split_ifs at ha with hpermits
        cases ha
        have hpermits' : Access.create.permits access = true := by
          rw [haccess] at hpermits
          cases access <;> rfl
        exact ⟨_, by simp only [hpermits', if_true], Or.inl rfl⟩
    all_goals cases ha
    all_goals exact ⟨_, rfl, Or.inr ⟨haccess, rfl⟩⟩

theorem applyAll (h : a.Widens b) {options : List (String × String)}
    (ha : options.foldlM Settings.apply a = .ok a') :
    ∃ b', options.foldlM Settings.apply b = .ok b' ∧ a'.Widens b' := by
  induction options generalizing a b with
  | nil =>
    cases ha
    exact ⟨b, rfl, h⟩
  | cons option options ih =>
    rw [List.foldlM_cons] at ha
    obtain ⟨c, hc, ha⟩ := Except.bind_eq_ok_iff.1 ha
    obtain ⟨d, hd, hcd⟩ := h.apply hc
    obtain ⟨b', hb', hab⟩ := ih hcd ha
    refine ⟨b', ?_, hab⟩
    rw [List.foldlM_cons]
    exact Except.bind_eq_ok_iff.2 ⟨d, hd, hb'⟩

theorem target (h : a.Widens b) (name : String) : (a.target name).Widens (b.target name) := by
  rcases h with rfl | ⟨haccess, rfl⟩
  · exact .refl _
  · unfold Settings.target
    simp only [haccess, reduceCtorEq, or_false]
    split_ifs
    all_goals first | rfl | exact ⟨_, rfl⟩

theorem system (h : a.Widens b) : b.system = a.system := by
  rcases h with rfl | ⟨-, rfl⟩ <;> rfl

end Settings.Widens

/-- The name in a URI, and the options after it. -/
theorem ofUri_eq_ok_iff {bytes : List UInt8} {access : Access} {target : Target} :
    ofUri bytes access = .ok target ↔ ∃ rest, dropAuthority bytes = .ok rest ∧ ∃ settings,
      (options (cut (code '?') (rest.takeWhile (· ≠ code '#'))).2).foldlM Settings.apply { access } =
        .ok settings ∧
      (∀ system, settings.system = some system → system = "memdb" ∨ system ∈ fileSystems) ∧
      settings.target (partText (cut (code '?') (rest.takeWhile (· ≠ code '#'))).1) = target := by
  unfold ofUri
  refine Except.bind_eq_ok_iff.trans (exists_congr fun rest => ?_)
  refine and_congr_right fun _ => Except.bind_eq_ok_iff.trans (exists_congr fun settings => ?_)
  refine and_congr_right fun _ => ?_
  cases settings.system with
  | none => simp [cut, pure, Except.pure]
  | some system =>
    simp only [Option.some.injEq, forall_eq']
    split_ifs with hsystem
    · simp [cut, pure, Except.pure, hsystem]
    · simp [hsystem]

/-- A path that stands for something stands for the same if files may be
    made. -/
theorem widens_target {path : String} {create : Bool} {target : Target}
    (h : TablePath.target path create = .ok target) :
    ∃ target', TablePath.target path true = .ok target' ∧ target.Widens target' := by
  cases create with
  | true => exact ⟨target, h, .refl target⟩
  | false =>
    have hstart : Settings.Widens { access := .write } { access := .create } := Or.inr ⟨rfl, rfl⟩
    unfold TablePath.target at h ⊢
    dsimp only at h ⊢
    split at h
    · cases h
    · by_cases huri : path.startsWith "file:" = true
      · rw [if_pos huri] at h ⊢
        obtain ⟨rest, hrest, a, ha, hsystem, rfl⟩ := ofUri_eq_ok_iff.1 h
        obtain ⟨b, hb, hab⟩ := hstart.applyAll ha
        rw [← hab.system] at hsystem
        exact ⟨_, ofUri_eq_ok_iff.2 ⟨rest, hrest, b, hb, hsystem, rfl⟩, hab.target _⟩
      · rw [if_neg huri] at h ⊢
        cases h
        exact ⟨_, rfl, hstart.target path⟩

end TypedStore.TablePath
