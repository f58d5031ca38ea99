/-
  TypedStore — what a history of changes leaves under a key.

  A value stands under a key if it is not null and the last change that
  touched the key has put it there.  A store may keep an image of the value
  instead; null must have none.

  * `standing_eq_some_iff`: the value that stands can be computed;
  * `Machine.Records.view_after`: if every instruction changes what is seen
    under the keys as it asks to, and an instruction that fails changes
    nothing, then after a run each key shows the image of what stands there.
-/
import Mathlib.Data.List.Induction
import TypedStore.Proofs.Facade

namespace TypedStore

/-- The value itself, unless it is null. -/
def Value.present? (v : Value) : Option Value := if v.isNull then none else some v

@[simp] theorem Value.present?_null : Value.null.present? = none := rfl

theorem Value.present?_eq_some_iff {v w : Value} : v.present? = some w ↔ v = w ∧ v ≠ .null := by
  rw [present?]
  split
  · next h => simp [isNull_iff.1 h]
  · next h => simp [← isNull_iff, h]

namespace Change

/-- Whether a change concerns what is under a key. -/
def Touches (key : String) : Change → Prop
  | put k _ | remove k => k = key
  | clear => True

/-- What a change makes of what is under a key, in a store that keeps
    `image v` for a value `v`. -/
def apply {β : Type} (image : Value → Option β) (key : String) (c : Change) (old : Option β) :
    Option β :=
  match c with
  | put k v => if k = key then image v else old
  | remove k => if k = key then none else old
  | clear => none

/-- The value was put under the key, is not null, and no later change touches
    the key. -/
def Stands (key : String) (v : Value) (changes : List Change) : Prop :=
  ∃ before after, changes = before ++ put key v :: after ∧ v ≠ .null ∧ ∀ c ∈ after, ¬ c.Touches key

/-- The value that stands under a key. -/
def standing (key : String) (changes : List Change) : Option Value :=
  changes.foldl (fun old c => c.apply Value.present? key old) none

theorem standing_append (key : String) (changes : List Change) (c : Change) :
    standing key (changes ++ [c]) = c.apply Value.present? key (standing key changes) := by
  simp [standing]

theorem apply_of_not_touches {β : Type} {image : Value → Option β} {key : String} {c : Change}
    (h : ¬ c.Touches key) (old : Option β) : c.apply image key old = old := by
  cases c <;> simp_all [Touches, apply]

/-- If the last change touches the key, a value stands only if that change put
    it there. -/
theorem apply_eq_some_iff {key : String} {c : Change} (h : c.Touches key) {old : Option Value}
    {v : Value} : c.apply Value.present? key old = some v ↔ c = put key v ∧ v ≠ .null := by
  cases c with
  | put k w =>
    obtain rfl : k = key := h
    simp only [apply, if_true, Value.present?_eq_some_iff, put.injEq, true_and]
    constructor <;> rintro ⟨rfl, hw⟩ <;> exact ⟨rfl, hw⟩
  | remove k => simp [apply, show k = key from h]
  | clear => simp [apply]

theorem stands_append_iff (key : String) (v : Value) (changes : List Change) (c : Change) :
    Stands key v (changes ++ [c]) ↔
      (c = put key v ∧ v ≠ .null) ∨ (¬ c.Touches key ∧ Stands key v changes) := by
  constructor
  · rintro ⟨before, after, hc, hv, hafter⟩
    -- either the last change has put the value, or it is one of those after it
    rcases List.eq_nil_or_concat after with rfl | ⟨after, d, rfl⟩
    · obtain ⟨-, rfl⟩ := List.append_inj' hc rfl |>.imp_right List.singleton_inj.1
      exact Or.inl ⟨rfl, hv⟩
    · rw [List.concat_eq_append, ← List.cons_append, ← List.append_assoc] at hc
      obtain ⟨rfl, rfl⟩ := List.append_inj' hc rfl |>.imp_right List.singleton_inj.1
      simp only [List.concat_eq_append, List.mem_append, List.mem_singleton] at hafter
      exact Or.inr ⟨hafter _ (Or.inr rfl), before, after, rfl, hv, fun d hd => hafter d (Or.inl hd)⟩
  · rintro (⟨rfl, hv⟩ | ⟨hc, before, after, rfl, hv, hafter⟩)
    · exact ⟨changes, [], rfl, hv, by simp⟩
    · refine ⟨before, after ++ [c], by simp, hv, fun d hd => ?_⟩
      rcases List.mem_append.1 hd with hd | hd
      · exact hafter d hd
      · rw [List.mem_singleton.1 hd]; exact hc

/-- The value that is computed is the one that stands. -/
theorem standing_eq_some_iff (key : String) (changes : List Change) (v : Value) :
    standing key changes = some v ↔ Stands key v changes := by
  -- on the last change, which alone decides if it touches the key
  induction changes using List.reverseRecOn with
  | nil => simp [standing, Stands]
  | append_singleton changes c ih =>
    rw [standing_append, stands_append_iff]
    by_cases hc : c.Touches key
    · rw [apply_eq_some_iff hc]; simp [hc]
    · rw [apply_of_not_touches hc, ih]
      have hput : c ≠ put key v := by rintro rfl; exact hc rfl
      simp [hc, hput]

/-! ## Images of what stands -/

theorem present?_bind {β : Type} {image : Value → Option β} (hnull : image .null = none)
    (stored : Option Value) : (stored.bind Value.present?).bind image = stored.bind image := by
  cases stored with
  | none => rfl
  | some v =>
    simp only [Option.bind_some, Value.present?]
    split
    · next hv => rw [Value.isNull_iff.1 hv, hnull]; rfl
    · rfl

/-- Putting null is asking for a removal. -/
theorem apply_put_null {β : Type} {image : Value → Option β} (hnull : image .null = none)
    (key other : String) (old : Option β) :
    (put key .null).apply image other old = (remove key).apply image other old := by
  simp [apply, hnull]

theorem apply_bind {β : Type} {image : Value → Option β} (hnull : image .null = none) (key : String)
    (c : Change) (old : Option Value) :
    c.apply image key (old.bind image) = (c.apply Value.present? key old).bind image := by
  cases c with
  | put k v =>
    simp only [apply]
    split
    · cases hv : v.isNull with
      | false => simp [Value.present?, hv]
      | true => simp [Value.isNull_iff.1 hv, hnull]
    · rfl
  | remove k => simp only [apply]; split <;> rfl
  | clear => rfl

theorem foldl_apply_bind {β : Type} {image : Value → Option β} (hnull : image .null = none)
    (key : String) (changes : List Change) :
    changes.foldl (fun old c => c.apply image key old) none = (standing key changes).bind image := by
  induction changes using List.reverseRecOn with
  | nil => rfl
  | append_singleton changes c ih => simp [List.foldl_append, standing_append, ih, apply_bind hnull]

end Change

/-! ## Machines that keep what they are told -/

namespace Machine

variable {ι : Type → Type 1} {σ β : Type}

/-- The changes that a run makes: those that its instructions ask for, as far
    as they succeed. -/
def changes (m : Machine ι σ) (change? : {α : Type} → ι α → Option Change) (run : List (Step ι))
    (s : σ) : List Change :=
  (m.successes run s).filterMap fun i => change? i.2

/-- If nothing that asks for a change fails, a run makes all the changes that
    are asked for. -/
theorem changes_eq_filterMap {m : Machine ι σ} {change? : {α : Type} → ι α → Option Change}
    (h : ∀ i s, (change? i.2).isSome → (m.answer i s).isOk = true) (run : List (Step ι)) (s : σ) :
    m.changes change? run s = run.filterMap fun i => change? i.2 := by
  induction run generalizing s with
  | nil => rfl
  | cons i run ih =>
    have hrest : (m.successes run (m.next i s)).filterMap (fun i => change? i.2) =
        run.filterMap fun i => change? i.2 := ih (m.next i s)
    rw [changes, successes]
    split
    · simp only [List.filterMap_cons, hrest]
    · next hfail =>
      have hnone : change? i.2 = none := by
        rw [← Option.not_isSome_iff_eq_none]
        exact fun hsome => hfail (h i s hsome)
      simp only [List.filterMap_cons, hnone, hrest]

/-- Every instruction changes what is seen under the keys as it asks to, and
    one that fails changes nothing. -/
structure Records (m : Machine ι σ) (change? : {α : Type} → ι α → Option Change)
    (view : σ → String → Option β) (image : Value → Option β) : Prop where
  atomic : m.IsAtomic
  null : image .null = none
  change (i : Step ι) (s : σ) (key : String) : (m.answer i s).isOk = true →
    view (m.next i s) key = (change? i.2).elim (view s key) (·.apply image key (view s key))

variable {m : Machine ι σ} {change? : {α : Type} → ι α → Option Change}
  {view : σ → String → Option β} {image : Value → Option β}

theorem Records.view_after_eq_foldl (h : m.Records change? view image) (run : List (Step ι)) (s : σ)
    (key : String) :
    view (m.after run s) key =
      (m.changes change? run s).foldl (fun old c => c.apply image key old) (view s key) := by
  induction run generalizing s with
  | nil => rfl
  | cons i run ih =>
    rw [after_cons, ih, changes, changes, successes]
    split
    · next hok =>
      rw [h.change i s key hok, List.filterMap_cons]
      cases change? i.2 <;> rfl
    · next hfail => rw [h.atomic i s (by simpa using hfail)]

/-- After a run from the empty store each key shows the image of what stands
    there. -/
theorem Records.view_after (h : m.Records change? view image) (run : List (Step ι)) {s : σ}
    {key : String} (hs : view s key = none) :
    view (m.after run s) key = (Change.standing key (m.changes change? run s)).bind image := by
  rw [h.view_after_eq_foldl, hs, Change.foldl_apply_bind h.null]

end Machine

end TypedStore
