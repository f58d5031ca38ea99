/-
  TypedStore — what a map of values holds after any run.

  The map is the store of a backend that any number of facades share and that
  is called below them as well.
-/
import Mathlib.Data.Set.Card
import TypedStore.Proofs.Contents

namespace TypedStore

/-! ## Maps and their keys -/

/-- The size of a map is the number of keys that have a value. -/
theorem Entries.encard_keys {κ β : Type} [DecidableEq κ] (m : Entries κ β) :
    {key | ∃ v, m.get? key = some v}.encard = m.size := by
  have hkeys : {key | ∃ v, m.get? key = some v} = ↑m.keys.toFinset := by
    ext key
    simp [mem_keys, Option.isSome_iff_exists]
  have hnodup : m.keys.Nodup := m.nodup
  rw [hkeys, Set.encard_coe_eq_coe_finsetCard, List.toFinset_card_of_nodup hnodup]
  simp [keys, size]

/-! ## The tagged backend -/

namespace ValueMap

theorem fetch_eq_ok_iff (key : String) (m : ValueMap) (v : Value) :
    fetch key m = .ok v ↔ m.get? key = some v := by
  unfold fetch; cases m.get? key <;> simp

theorem fetch_eq_error_iff (key : String) (m : ValueMap) (e : StoreError) :
    fetch key m = .error e ↔ m.get? key = none ∧ e = .keyNotFound key := by
  unfold fetch; cases m.get? key <;> simp [eq_comm]

theorem get?_put (key other : String) (v : Value) (m : ValueMap) :
    (put key v m).get? other = (Change.put key v).apply Value.present? other (m.get? other) := by
  simp only [put, Change.apply, Value.present?, eq_comm (a := key)]
  cases v.isNull <;> simp [Entries.get?_erase, Entries.get?_insert]

end ValueMap

/-- The tagged backend keeps every value as it is, but null. -/
theorem Backend.records_tagged (name : String) :
    (Backend.tagged name).Records (fun m key => m.get? key) Value.present? where
  null := rfl
  put := by
    rintro key v m _ ⟨⟩ other
    exact ValueMap.get?_put key other v m
  remove := by
    rintro key m _ ⟨⟩ other
    simp only [Entries.get?_erase, Change.apply, eq_comm]
  clear := by
    rintro m _ ⟨⟩ other
    rfl

/-- **What a map of values holds.**  After any run over the backend of the map
    and facades that share it, the map has no null and no key twice; under
    each key it has, with its kind and its bits, the value that stands there
    by the changes that succeeded; its size is the number of keys under which
    one stands, and it is empty exactly if no key is found in it. -/
theorem taggedMap_after_run (name : String) (isOpen : String → Bool)
    (run : List (Step Shared.Action)) :
    let machine := Shared.machine (Backend.tagged name)
    let m := (machine.after run ⟨.empty, isOpen⟩).store
    let changes := machine.changes Shared.Action.change? run ⟨.empty, isOpen⟩
    (∀ entry ∈ m.toList, entry.2 ≠ .null) ∧
    (m.toList.map Prod.fst).Nodup ∧
    (∀ key v, m.get? key = some v ↔ Change.Stands key v changes) ∧
    (∀ key kind v, (Backend.tagged name).fetch key kind m = .ok v ↔ Change.Stands key v changes) ∧
    {key | ∃ v, Change.Stands key v changes}.encard = m.size ∧
    (m.isEmpty = true ↔
      ∀ key kind, (Backend.tagged name).fetch key kind m = .error (.keyNotFound key)) := by
  intro machine m changes
  have hget (key : String) (v : Value) : m.get? key = some v ↔ Change.Stands key v changes := by
    have hview : m.get? key = (Change.standing key changes).bind Value.present? :=
      (Shared.records (Backend.records_tagged name)).view_after run rfl
    rw [hview, ← Change.standing_eq_some_iff, Option.bind_eq_some_iff]
    constructor
    · rintro ⟨w, hw, hwv⟩
      rw [hw, (Value.present?_eq_some_iff.1 hwv).1]
    · intro hv
      obtain ⟨_, _, _, hne, _⟩ := (Change.standing_eq_some_iff key changes v).1 hv
      exact ⟨v, hv, Value.present?_eq_some_iff.2 ⟨rfl, hne⟩⟩
  refine ⟨?_, m.nodup, hget, fun key kind v => ?_, ?_, ?_⟩
  · rintro ⟨key, v⟩ hentry
    obtain ⟨_, _, _, hne, _⟩ := (hget key v).1 ((m.mem_toList key v).1 hentry)
    exact hne
  · exact (ValueMap.fetch_eq_ok_iff key m v).trans (hget key v)
  · simp only [← hget, m.encard_keys]
  · rw [m.isEmpty_iff]
    constructor
    · intro h key kind
      exact (ValueMap.fetch_eq_error_iff key m _).2 ⟨h key, rfl⟩
    · intro h key
      exact ((ValueMap.fetch_eq_error_iff key m _).1 (h key .null)).1

end TypedStore
