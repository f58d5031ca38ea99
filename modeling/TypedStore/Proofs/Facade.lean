/-
  TypedStore — operations by what the backend below them does.

  * `Facade.set_ofBackend`: writing is a call of the backend, which removes if
    the value is null; `Facade.set_null`: so does every facade;
  * `Facade.get_eq_ok_iff`, `Facade.get_eq_error`: a read succeeds if a value
    is fetched that fits, and fails as its backend does, or because the value
    does not fit; the same for `Facade.getValue`;
  * `Facade.perform_closed`: a closed facade refuses everything;
  * `Facade.isAtomic_machine`: an operation that fails has no effect;
  * `Backend.Preserves.facade`: what the calls of a backend preserve, the
    operations of a facade on it preserve.
-/
import TypedStore.Operation
import TypedStore.Proofs.Result
import TypedStore.Proofs.Run

namespace TypedStore

theorem Value.isNull_iff {v : Value} : v.isNull = true ↔ v = .null := by cases v <;> simp [isNull]

theorem Value.isNull_eq_false {v : Value} (h : v ≠ .null) : v.isNull = false := by
  cases v <;> first | rfl | exact absurd rfl h

section
variable {σ : Type} {s : σ} {result : Except StoreError σ}

@[simp] theorem settle_ok (s t : σ) : settle s (.ok t) = (.ok (), t) := rfl

@[simp] theorem settle_error (s : σ) (e : StoreError) : settle s (.error e) = (.error e, s) := rfl

theorem eq_of_settle_isOk (h : (settle s result).1.isOk = true) :
    result = .ok (settle s result).2 := by
  cases result with
  | ok t => rfl
  | error e => cases h

theorem settle_snd_of_not_isOk (h : (settle s result).1.isOk = false) : (settle s result).2 = s := by
  cases result with
  | ok t => cases h
  | error e => rfl

theorem settle_isOk : (settle s result).1.isOk = result.isOk := by
  cases result <;> rfl

theorem settle_fst_eq_error_iff {e : StoreError} :
    (settle s result).1 = .error e ↔ result = .error e := by
  cases result <;> simp

end

namespace Facade

variable {σ α : Type} (b : Backend σ) (db : Facade σ)

/-! ## Open facades -/

theorem set_ofBackend (key : String) (v : Value) (s : σ) :
    (ofBackend b).set key v s = if v.isNull then b.remove key s else b.put key v s := by
  cases v <;> rfl

theorem get_ofBackend (key : String) (t : NativeType α) (s : σ) :
    (ofBackend b).get key t s =
      (b.fetch key t.kind s).bind fun v => (t.read v).mapError (.badValue key) := rfl

theorem getValue_ofBackend (key : String) (kind : Kind) (s : σ) :
    (ofBackend b).getValue key kind s =
      (b.fetch key kind s).bind fun v => (v.coerce kind).mapError (.badValue key) := rfl

theorem setBytes_eq (key : String) (bytes : Option ByteArray) (s : σ) :
    db.setBytes key bytes s = db.set key (.ofOption .blob bytes) s := rfl

/-- Writing null is removing. -/
theorem set_null (key : String) (s : σ) : db.set key .null s = db.remove key s := rfl

/-! ## Reads -/

section
variable {b} {key : String} {t : NativeType α} {kind : Kind} {s : σ} {e : StoreError}

/-- A read succeeds if there is something that is read as the result. -/
theorem cast_eq_ok_iff {β : Type} {found : Except StoreError β} {cast : β → Except CastError α}
    {x : α} : (found.bind fun v => (cast v).mapError (.badValue key)) = .ok x ↔
      ∃ v, found = .ok v ∧ cast v = .ok x := by
  simp only [Except.bind_eq_ok_iff, Except.mapError_eq_ok_iff]

theorem get_eq_ok_iff {x : α} :
    (ofBackend b).get key t s = .ok x ↔ ∃ v, b.fetch key t.kind s = .ok v ∧ t.read v = .ok x :=
  cast_eq_ok_iff

theorem getValue_eq_ok_iff {w : Value} :
    (ofBackend b).getValue key kind s = .ok w ↔
      ∃ v, b.fetch key kind s = .ok v ∧ v.coerce kind = .ok w :=
  cast_eq_ok_iff

theorem get_of_fetch_error (h : b.fetch key t.kind s = .error e) :
    (ofBackend b).get key t s = .error e := by
  rw [get_ofBackend, h]; rfl

theorem getValue_of_fetch_error (h : b.fetch key kind s = .error e) :
    (ofBackend b).getValue key kind s = .error e := by
  rw [getValue_ofBackend, h]; rfl

/-- Only an error of the backend keeps the default back. -/
theorem getOr_eq_error_iff {db : Facade σ} {default : α} :
    db.getOr key t default s = .error e ↔ db.get key t s = .error e ∧ e.class = .backend := by
  unfold getOr
  cases db.get key t s with
  | ok x => simp
  | error e' =>
    by_cases h : e'.class = .backend
    · simp only [StoreError.isRecoverable, h, ne_eq, not_true_eq_false, decide_false,
        Bool.false_eq_true, if_false, Except.error.injEq]
      exact ⟨fun he => ⟨he, he ▸ h⟩, And.left⟩
    · simp only [StoreError.isRecoverable, ne_eq, h, not_false_eq_true, decide_true, if_true,
        reduceCtorEq, Except.error.injEq, false_iff, not_and]
      rintro rfl; exact h

/-- Any other error gives the default. -/
theorem getOr_of_get_error {db : Facade σ} (h : db.get key t s = .error e)
    (he : e.class ≠ .backend) (default : α) : db.getOr key t default s = .ok default := by
  unfold getOr
  simp only [h, StoreError.isRecoverable, ne_eq, he, not_false_eq_true, decide_true, if_true]

/-- A read fails as its backend does, or because the value does not fit. -/
theorem cast_eq_error {β : Type} {found : Except StoreError β} {cast : β → Except CastError α}
    (h : (found.bind fun v => (cast v).mapError (.badValue key)) = .error e) :
    found = .error e ∨ ∃ c, e = .badValue key c := by
  rcases Except.bind_eq_error_iff.1 h with h | ⟨v, -, h⟩
  · exact Or.inl h
  · obtain ⟨c, -, hc⟩ := Except.mapError_eq_error_iff.1 h
    exact Or.inr ⟨c, hc.symm⟩

theorem get_eq_error (h : (ofBackend b).get key t s = .error e) :
    b.fetch key t.kind s = .error e ∨ ∃ c, e = .badValue key c :=
  cast_eq_error h

theorem getValue_eq_error (h : (ofBackend b).getValue key kind s = .error e) :
    b.fetch key kind s = .error e ∨ ∃ c, e = .badValue key c :=
  cast_eq_error h

end

/-! ## Closed facades -/

theorem perform_closed (op : Operation α) (s : σ) :
    (⟨none⟩ : Facade σ).perform op s = (.error .closed, s) := by
  cases op <;> rfl

/-- A facade is shown without a backend exactly while it is closed. -/
theorem debug_eq_iff : db.debug = "KvDatabase \x7b backend: None \x7d" ↔ db.isOpen = false := by
  obtain ⟨backend⟩ := db
  cases backend with
  | none => exact iff_of_true rfl rfl
  | some b =>
    refine iff_of_false (fun h => ?_) nofun
    have hshown : ("KvDatabase \x7b backend: " ++ ("Some(" ++ Text.quoted b.name ++ ")") ++ " \x7d").toList =
        ("KvDatabase \x7b backend: " ++ "None" ++ " \x7d").toList := congrArg String.toList h
    simp only [String.toList_append] at hshown
    have hname := List.append_cancel_left (List.append_cancel_right hshown)
    have hfirst := congrArg List.head? hname
    simp at hfirst

/-! ## Failing -/

theorem perform_of_not_isOk (op : Operation α) (s : σ) (h : (db.perform op s).1.isOk = false) :
    (db.perform op s).2 = s := by
  cases op with
  | set | setBytes | remove | clear => exact settle_snd_of_not_isOk h
  | get | getOr | getValue => rfl

/-- If the backend refuses every change, so does a facade on it. -/
theorem isOk_of_change {b : Backend σ} {s : σ} (hput : ∀ key v, (b.put key v s).isOk = false)
    (hremove : ∀ key, (b.remove key s).isOk = false) (hclear : (b.clear s).isOk = false)
    {op : Operation α} (hop : op.change?.isSome) : ((ofBackend b).perform op s).1.isOk = false := by
  have hset (key : String) (v : Value) : ((ofBackend b).set key v s).isOk = false := by
    rw [set_ofBackend]
    split
    · exact hremove key
    · exact hput key v
  cases op with
  | set key p => exact settle_isOk.trans (hset key p.toValue)
  | setBytes key bytes => exact settle_isOk.trans (hset key _)
  | remove key => exact settle_isOk.trans (hremove key)
  | clear => exact settle_isOk.trans hclear
  | get | getOr | getValue => cases hop

/-- A read asks the backend for a value only. -/
theorem answer_congr_of_fetch {τ : Type} {b : Backend σ} {b' : Backend τ} {s : σ} {t : τ}
    (hfetch : ∀ key kind, b.fetch key kind s = b'.fetch key kind t) {op : Operation α}
    (hop : op.change? = none) : ((ofBackend b).perform op s).1 = ((ofBackend b').perform op t).1 := by
  have hget {β : Type} (key : String) (type : NativeType β) :
      (ofBackend b).get key type s = (ofBackend b').get key type t := by
    rw [get_ofBackend, get_ofBackend, hfetch]
  cases op with
  | set | setBytes | remove | clear => cases hop
  | get key type => exact hget key type
  | getOr key type default => simp only [perform, getOr, hget]
  | getValue key kind => simp only [perform, getValue_ofBackend, hfetch]

theorem perform_read {op : Operation α} (hop : op.change? = none) (s : σ) :
    (db.perform op s).2 = s := by
  cases op with
  | set | setBytes | remove | clear => cases hop
  | get | getOr | getValue => rfl

theorem perform_congr_of_fetch {b b' : Backend σ} (hfetch : b.fetch = b'.fetch)
    {op : Operation α} (hop : op.change? = none) (s : σ) :
    (ofBackend b).perform op s = (ofBackend b').perform op s :=
  Prod.ext (answer_congr_of_fetch (fun key kind => by rw [hfetch]) hop)
    ((perform_read _ hop s).trans (perform_read _ hop s).symm)

/-- An operation that fails has no effect. -/
theorem isAtomic_machine : db.machine.IsAtomic := fun i s h => db.perform_of_not_isOk i.2 s h

end Facade

theorem Backend.perform_of_not_isOk {σ α : Type} (b : Backend σ) (call : Backend.Call α) (s : σ)
    (h : (b.perform call s).1.isOk = false) : (b.perform call s).2 = s := by
  cases call with
  | put | remove | clear => exact settle_snd_of_not_isOk h
  | fetch => rfl

/-! ## What a backend preserves -/

theorem settle_snd {σ : Type} {P : σ → Prop} {s : σ} {result : Except StoreError σ} (hs : P s)
    (h : ∀ t, result = .ok t → P t) : P (settle s result).2 := by
  cases result with
  | ok t => exact h t rfl
  | error e => exact hs

/-- Every call that succeeds keeps `P`. -/
structure Backend.Preserves {σ : Type} (b : Backend σ) (P : σ → Prop) : Prop where
  put {key v s t} : b.put key v s = .ok t → P s → P t
  remove {key s t} : b.remove key s = .ok t → P s → P t
  clear {s t} : b.clear s = .ok t → P s → P t

namespace Backend.Preserves

variable {σ α : Type} {b : Backend σ} {P : σ → Prop} (h : b.Preserves P)
include h

theorem perform (call : Backend.Call α) {s : σ} (hs : P s) : P (b.perform call s).2 := by
  cases call with
  | put => exact settle_snd hs fun _ ht => h.put ht hs
  | remove => exact settle_snd hs fun _ ht => h.remove ht hs
  | clear => exact settle_snd hs fun _ ht => h.clear ht hs
  | fetch => exact hs

theorem set {key : String} {v : Value} {s t : σ} (ht : (Facade.ofBackend b).set key v s = .ok t)
    (hs : P s) : P t := by
  rw [Facade.set_ofBackend] at ht
  split at ht
  · exact h.remove ht hs
  · exact h.put ht hs

/-- So does every operation of a facade. -/
theorem facade (op : Operation α) {s : σ} (hs : P s) :
    P ((Facade.ofBackend b).perform op s).2 := by
  cases op with
  | set | setBytes => exact settle_snd hs fun _ ht => h.set ht hs
  | remove => exact settle_snd hs fun _ ht => h.remove ht hs
  | clear => exact settle_snd hs fun _ ht => h.clear ht hs
  | get | getOr | getValue => exact hs

end Backend.Preserves

end TypedStore
