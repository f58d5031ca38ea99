/-
  TypedStore — a facade over a byte store, run by run.

  A byte store is a map, seen through a view, that may refuse what it is asked
  with an error of its engine, and then stays as it was.  `ByteStore.Refuses`
  says that it refuses the one call that an operation makes of it.

  * `perform_of_refuses`, `perform_eq_error`: an error of the engine comes
    back as it is, and what fails otherwise is a read that names its key;
  * `packed_run`: after any run the store has, under each key, the image of
    what stands there by the operations that succeeded, and those that failed
    can be left out.
-/
import TypedStore.Engine.Memory
import TypedStore.Proofs.Contents

namespace TypedStore

variable {σ : Type}

/-! ## Byte stores that are maps -/

/-- A byte store is a map from keys to byte strings, which `view` shows, but
    for the calls that its engine refuses. -/
structure ByteStore.IsMap (store : ByteStore σ) (view : σ → String → Option ByteArray) : Prop where
  put {key bytes s t} : store.put key bytes s = .ok t → ∀ other,
    view t other = if other = key then some bytes else view s other
  get {key s found} : store.get key s = .ok found → found = view s key
  delete {key s t} : store.delete key s = .ok t → ∀ other,
    view t other = if other = key then none else view s other
  truncate {s t} : store.truncate s = .ok t → ∀ other, view t other = none
  put_error {key bytes s e} : store.put key bytes s = .error e → e.class = .backend
  get_error {key s e} : store.get key s = .error e → e.class = .backend
  delete_error {key s e} : store.delete key s = .error e → e.class = .backend
  truncate_error {s e} : store.truncate s = .error e → e.class = .backend

namespace ByteStore

/-- The plain map is one, if its refusals are errors of an engine. -/
theorem isMap_plain (name : String) (refuses : String → Bool) (refusal : String → StoreError)
    (h : ∀ operation, (refusal operation).class = .backend) :
    (plain name refuses refusal).IsMap fun m key => m.get? key where
  put := by
    intro key bytes m t hput other
    simp only [plain] at hput
    split at hput <;> cases hput
    exact m.get?_insert key other bytes
  get := by
    intro key m found hget
    simp only [plain] at hget
    split at hget <;> cases hget
    rfl
  delete := by
    intro key m t hdelete other
    simp only [plain] at hdelete
    split at hdelete <;> cases hdelete
    exact m.get?_erase key other
  truncate := by
    rintro m _ ⟨⟩ other
    rfl
  put_error := by
    intro key bytes m e hput
    simp only [plain] at hput
    split at hput <;> cases hput
    exact h _
  get_error := by
    intro key m e hget
    simp only [plain] at hget
    split at hget <;> cases hget
    exact h _
  delete_error := by
    intro key m e hdelete
    simp only [plain] at hdelete
    split at hdelete <;> cases hdelete
    exact h _
  truncate_error := by
    rintro m e ⟨⟩

/-- Packing keeps the image of every value. -/
theorem IsMap.records {store : ByteStore σ} {view : σ → String → Option ByteArray}
    (h : store.IsMap view) : store.packed.Records view Image.encode where
  null := rfl
  put := by
    intro key v s t hput other
    have hput : store.putValue key v s = .ok t := hput
    simp only [putValue] at hput
    simp only [Change.apply, eq_comm (a := key)]
    split at hput
    · next bytes hb => rw [hb]; exact h.put hput other
    · next hb => rw [hb]; exact h.delete hput other
  remove := by
    intro key s t hdelete other
    simp only [Change.apply, eq_comm (a := key)]
    exact h.delete hdelete other
  clear htruncate := h.truncate htruncate

/-! ## Errors of the engine -/

/-- The engine refuses, with the error `e`, the one call that an operation
    makes of the store. -/
def Refuses {α : Type} (store : ByteStore σ) (op : Operation α) (s : σ) (e : StoreError) : Prop :=
  match op with
  | .set key p => (Image.encode p.toValue).elim (store.delete key s) (store.put key · s) = .error e
  | .setBytes key bytes => bytes.elim (store.delete key s) (store.put key · s) = .error e
  | .remove key => store.delete key s = .error e
  | .clear => store.truncate s = .error e
  | .get key _ | .getOr key _ _ | .getValue key _ => store.get key s = .error e

end ByteStore

/-- The key that a read asks for. -/
def Operation.asked? {α : Type} : Operation α → Option String
  | get key _ | getOr key _ _ | getValue key _ => some key
  | set .. | setBytes .. | remove _ | clear => none

/-- No operation both reads and asks for a change. -/
theorem Operation.asked?_of_change {α : Type} {op : Operation α} (h : op.change?.isSome) :
    op.asked? = none := by
  cases op with
  | set | setBytes | remove | clear => rfl
  | get | getOr | getValue => cases h

namespace ByteStore

variable {α : Type} {store : ByteStore σ} {view : σ → String → Option ByteArray}
  {key : String} {kind : Kind} {op : Operation α} {s : σ} {e : StoreError}

theorem IsMap.class_of_refuses (h : store.IsMap view) (hr : store.Refuses op s e) :
    e.class = .backend := by
  cases op with
  | set key p =>
    simp only [Refuses] at hr
    cases hb : Image.encode p.toValue with
    | none => rw [hb] at hr; exact h.delete_error hr
    | some bytes => rw [hb] at hr; exact h.put_error hr
  | setBytes key bytes =>
    cases bytes with
    | none => exact h.delete_error hr
    | some bytes => exact h.put_error hr
  | remove key => exact h.delete_error hr
  | clear => exact h.truncate_error hr
  | get | getOr | getValue => exact h.get_error hr

theorem fetch_of_get_error (h : store.get key s = .error e) :
    store.packed.fetch key kind s = .error e := by
  simp only [packed, fetchValue, h]; rfl

theorem fetch_of_absent (h : store.get key s = .ok none) :
    store.packed.fetch key kind s = .error (.keyNotFound key) := by
  simp only [packed, fetchValue, h]; rfl

theorem fetch_of_image {bytes : ByteArray} (h : store.get key s = .ok (some bytes)) :
    store.packed.fetch key kind s = (Image.decode bytes kind).mapError (.badValue key) := by
  simp only [packed, fetchValue, h]; rfl

/-- What a byte store reads is what it finds. -/
theorem fetch_congr {τ : Type} {store' : ByteStore τ} {t : τ}
    (h : store.get key s = store'.get key t) (kind : Kind) :
    store.packed.fetch key kind s = store'.packed.fetch key kind t := by
  show (store.get key s).bind _ = (store'.get key t).bind _
  rw [h]

/-- Fetching fails as the engine does, because the key is absent, or because
    the image does not fit. -/
theorem fetch_eq_error (h : store.packed.fetch key kind s = .error e) :
    store.get key s = .error e ∨ e = .keyNotFound key ∨ ∃ c, e = .badValue key c := by
  cases hg : store.get key s with
  | error e' =>
    rw [fetch_of_get_error hg] at h
    exact Or.inl (congrArg Except.error (Except.error.inj h))
  | ok found =>
    cases found with
    | none =>
      rw [fetch_of_absent hg] at h
      exact Or.inr (Or.inl (Except.error.inj h).symm)
    | some bytes =>
      rw [fetch_of_image hg] at h
      obtain ⟨c, -, hc⟩ := Except.mapError_eq_error_iff.1 h
      exact Or.inr (Or.inr ⟨c, hc.symm⟩)

/-- Writing through a facade on the store makes one call of the store. -/
theorem set_packed (key : String) (v : Value) (s : σ) :
    (Facade.ofBackend store.packed).set key v s =
      (Image.encode v).elim (store.delete key s) (store.put key · s) := by
  cases v <;> rfl

/-- An error of the engine comes back as it is, and no default takes its
    place. -/
theorem perform_of_refuses (h : store.IsMap view) (hr : store.Refuses op s e) :
    ((Facade.ofBackend store.packed).perform op s).1 = .error e := by
  have hclass : e.class = .backend := h.class_of_refuses hr
  cases op with
  | set key p => exact settle_fst_eq_error_iff.2 ((set_packed key _ s).trans hr)
  | setBytes key bytes =>
    refine settle_fst_eq_error_iff.2 ?_
    cases bytes <;> exact hr
  | remove key => exact settle_fst_eq_error_iff.2 hr
  | clear => exact settle_fst_eq_error_iff.2 hr
  | get key t => exact Facade.get_of_fetch_error (fetch_of_get_error hr)
  | getOr key t default =>
    exact Facade.getOr_eq_error_iff.2 ⟨Facade.get_of_fetch_error (fetch_of_get_error hr), hclass⟩
  | getValue key kind => exact Facade.getValue_of_fetch_error (fetch_of_get_error hr)

/-- What fails and was not refused by the engine is a read, and the error names
    the key that was asked for. -/
theorem perform_eq_error (h : ((Facade.ofBackend store.packed).perform op s).1 = .error e) :
    store.Refuses op s e ∨
      ∃ key, op.asked? = some key ∧ (e = .keyNotFound key ∨ ∃ c, e = .badValue key c) := by
  have hread {t : Kind} {key : String}
      (hf : store.packed.fetch key t s = .error e ∨ ∃ c, e = .badValue key c) :
      store.get key s = .error e ∨ e = .keyNotFound key ∨ ∃ c, e = .badValue key c :=
    hf.elim fetch_eq_error fun hc => Or.inr (Or.inr hc)
  cases op with
  | set key p => exact Or.inl ((set_packed key _ s).symm.trans (settle_fst_eq_error_iff.1 h))
  | setBytes key bytes =>
    have hset := settle_fst_eq_error_iff.1 h
    refine Or.inl ?_
    cases bytes <;> exact hset
  | remove key => exact Or.inl (settle_fst_eq_error_iff.1 h)
  | clear => exact Or.inl (settle_fst_eq_error_iff.1 h)
  | get key t => exact (hread (Facade.get_eq_error h)).imp_right fun hc => ⟨key, rfl, hc⟩
  | getOr key t default =>
    have hget := (Facade.getOr_eq_error_iff.1 h).1
    exact (hread (Facade.get_eq_error hget)).imp_right fun hc => ⟨key, rfl, hc⟩
  | getValue key kind =>
    exact (hread (Facade.getValue_eq_error h)).imp_right fun hc => ⟨key, rfl, hc⟩

end ByteStore

/-! ## Runs -/

/-- **What a facade over a byte store does in any run.**  Under each key the
    store has the image of the value that stands there by the operations that
    succeeded.  An operation that fails has no effect, so that without those
    that fail the store and the other answers are the same.  A write fails
    only with an error of the engine, a read that fails otherwise names its
    key, and an error of the engine comes back as it is. -/
theorem packed_run (store : ByteStore σ) {view : σ → String → Option ByteArray}
    (h : store.IsMap view) {s₀ : σ} (hempty : ∀ key, view s₀ key = none)
    (run : List (Step Operation)) :
    let db := Facade.ofBackend store.packed
    let changes := db.machine.changes Operation.change? run s₀
    (∀ key bytes, view (db.machine.after run s₀) key = some bytes ↔
      ∃ v, Change.Stands key v changes ∧ Image.encode v = some bytes) ∧
    (∀ i s, (db.machine.answer i s).isOk = false → db.machine.next i s = s) ∧
    db.machine.after (db.machine.successes run s₀) s₀ = db.machine.after run s₀ ∧
    db.machine.answers (db.machine.successes run s₀) s₀ =
      (db.machine.answers run s₀).filter Answer.isOk ∧
    (∀ {α : Type} (op : Operation α) s e, (db.perform op s).1 = .error e →
      (op.change?.isSome → e.class = .backend) ∧
      (e.class ≠ .backend → ∃ key, op.asked? = some key ∧
        (e = .keyNotFound key ∨ ∃ c, e = .badValue key c))) ∧
    (∀ {α : Type} (op : Operation α) s e, store.Refuses op s e →
      e.class = .backend ∧ (db.perform op s).1 = .error e) := by
  intro db changes
  have hatomic : db.machine.IsAtomic := Facade.isAtomic_machine db
  refine ⟨fun key bytes => ?_, hatomic, Machine.after_successes hatomic run s₀,
    Machine.answers_successes hatomic run s₀, fun op s e he => ⟨fun hop => ?_, fun hclass => ?_⟩,
    fun op s e hr => ⟨h.class_of_refuses hr, ByteStore.perform_of_refuses h hr⟩⟩
  · have hview : view (db.machine.after run s₀) key =
        (Change.standing key changes).bind Image.encode :=
      h.records.facade.view_after run (hempty key)
    simp only [hview, Option.bind_eq_some_iff, Change.standing_eq_some_iff]
  · rcases ByteStore.perform_eq_error he with hr | ⟨key, hkey, -⟩
    · exact h.class_of_refuses hr
    · rw [Operation.asked?_of_change hop] at hkey
      cases hkey
  · rcases ByteStore.perform_eq_error he with hr | hread
    · exact absurd (h.class_of_refuses hr) hclass
    · exact hread

/-- With a key that is refused, a null and a removal in between. -/
theorem packed_run_byteMap :
    ByteMap.byteStore.IsMap (fun m key => m.get? key) ∧
    (∀ key, (Entries.empty : ByteMap).get? key = none) ∧
    ((Facade.ofBackend ByteMap.byteStore.packed).machine.after
      [⟨_, .set "k" (.value (.bool true))⟩, ⟨_, .set "!fail" (.value (.bool true))⟩,
        ⟨_, .set "k" .absent⟩, ⟨_, .set "k" (.native (.int .u8) 7#8)⟩, ⟨_, .remove "!fail"⟩,
        ⟨_, .get "!fail" .bool⟩] .empty).get? "k" = some ⟨#[7]⟩ := by
  have hmap : ByteMap.byteStore.IsMap (fun m key => m.get? key) :=
    ByteStore.isMap_plain _ _ _ fun _ => rfl
  refine ⟨hmap, fun _ => rfl, ((packed_run ByteMap.byteStore hmap (fun _ => rfl) _).1 "k" _).2 ?_⟩
  refine ⟨.int .u8 7#8, ⟨[.put "k" (.bool true), .put "k" .null], [], ?_, by simp, by simp⟩, rfl⟩
  rfl

end TypedStore
