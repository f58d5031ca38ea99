/-
  TypedStore — backends that keep what they are told.

  `Backend.Records` says of a backend that its calls change what is seen under
  the keys as they ask to, if they succeed.  Nothing is said of when they do.

  * `Backend.Records.facade`, `Backend.Records.shared`: then so do the
    operations of a facade on it, and all that can happen where facades share
    it.
-/
import TypedStore.Proofs.History
import TypedStore.Shared

namespace TypedStore

variable {σ β : Type}

/-- A backend on which every call that succeeds makes the change that it asks
    for; `image` is what is kept of a value. -/
structure Backend.Records (b : Backend σ) (view : σ → String → Option β)
    (image : Value → Option β) : Prop where
  null : image .null = none
  put {key v s t} : b.put key v s = .ok t → ∀ other,
    view t other = (Change.put key v).apply image other (view s other)
  remove {key s t} : b.remove key s = .ok t → ∀ other,
    view t other = (Change.remove key).apply image other (view s other)
  clear {s t} : b.clear s = .ok t → ∀ other, view t other = none

namespace Backend.Records

variable {b : Backend σ} {view : σ → String → Option β} {image : Value → Option β}
  (h : b.Records view image)
include h

/-- Writing through a facade changes what is seen as putting does, also where
    the facade removes instead. -/
theorem set {key : String} {v : Value} {s t : σ} (hset : (Facade.ofBackend b).set key v s = .ok t)
    (other : String) : view t other = (Change.put key v).apply image other (view s other) := by
  rw [Facade.set_ofBackend] at hset
  split at hset
  · next hv =>
    rw [Value.isNull_iff.1 hv, Change.apply_put_null h.null]
    exact h.remove hset other
  · exact h.put hset other

/-- An operation through an open facade that succeeds makes the change that it
    asks for. -/
theorem view_perform {α : Type} (op : Operation α) (s : σ) (key : String)
    (hok : ((Facade.ofBackend b).perform op s).1.isOk = true) :
    view ((Facade.ofBackend b).perform op s).2 key =
      op.change?.elim (view s key) (·.apply image key (view s key)) := by
  cases op with
  | set | setBytes => exact h.set (eq_of_settle_isOk hok) key
  | remove => exact h.remove (eq_of_settle_isOk hok) key
  | clear => exact h.clear (eq_of_settle_isOk hok) key
  | get | getOr | getValue => rfl

/-- So does a call of the backend. -/
theorem view_call {α : Type} (call : Backend.Call α) (s : σ) (key : String)
    (hok : (b.perform call s).1.isOk = true) :
    view (b.perform call s).2 key =
      call.change?.elim (view s key) (·.apply image key (view s key)) := by
  cases call with
  | put => exact h.put (eq_of_settle_isOk hok) key
  | remove => exact h.remove (eq_of_settle_isOk hok) key
  | clear => exact h.clear (eq_of_settle_isOk hok) key
  | fetch => rfl

/-- **A facade on the backend keeps what it is told.** -/
theorem facade : (Facade.ofBackend b).machine.Records Operation.change? view image where
  atomic := Facade.isAtomic_machine _
  null := h.null
  change i s key hok := h.view_perform i.2 s key hok

end Backend.Records

namespace Shared

/-- What fails leaves a shared backend and its facades as they were. -/
theorem isAtomic_machine (b : Backend σ) : (machine b).IsAtomic := by
  rintro ⟨α, action⟩ s hfail
  cases action with
  | join | close | take => cases hfail
  | through name op =>
    have hs := (s.facade b name).perform_of_not_isOk op s.store hfail
    exact congrArg (fun store => { s with store }) hs
  | directly call =>
    have hs := b.perform_of_not_isOk call s.store hfail
    exact congrArg (fun store => { s with store }) hs

/-- **All that can happen where facades share the backend keeps what it is
    told.** -/
theorem records {b : Backend σ} {view : σ → String → Option β} {image : Value → Option β}
    (h : b.Records view image) :
    (machine b).Records Action.change? (fun s => view s.store) image where
  atomic := isAtomic_machine b
  null := h.null
  change := by
    rintro ⟨α, action⟩ s key hok
    cases action with
    | join | close | take => rfl
    | through name op =>
      -- a closed facade would have failed
      cases ho : s.isOpen name with
      | true =>
        have hf : s.facade b name = .ofBackend b := by simp [facade, ho, Facade.ofBackend]
        have hok : ((s.facade b name).perform op s.store).1.isOk = true := hok
        show view ((s.facade b name).perform op s.store).2 key = _
        rw [hf] at hok ⊢
        exact h.view_perform op s.store key hok
      | false =>
        have hf : s.facade b name = ⟨none⟩ := by simp [facade, ho]
        have hok : ((s.facade b name).perform op s.store).1.isOk = true := hok
        rw [hf, Facade.perform_closed] at hok
        cases hok
    | directly call => exact h.view_call call s.store key hok

end Shared

end TypedStore
