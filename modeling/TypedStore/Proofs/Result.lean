/-
  TypedStore — results that are errors or not.

  What a result is tells what the results were that it was made of.
-/

namespace TypedStore.Except

variable {ε ε' α β : Type} {x : Except ε α}

/-- A result that is no error. -/
theorem isOk_iff : x.isOk = true ↔ ∃ a, x = .ok a := by
  cases x <;> simp [Except.isOk, Except.toBool]

theorem map_eq_ok_iff {f : α → β} {b : β} : x.map f = .ok b ↔ ∃ a, x = .ok a ∧ f a = b := by
  cases x <;> simp [Except.map]

theorem map_eq_error_iff {f : α → β} {e : ε} : x.map f = .error e ↔ x = .error e := by
  cases x <;> simp [Except.map]

theorem isOk_map {f : α → β} : (x.map f).isOk = x.isOk := by
  cases x <;> rfl

theorem bind_eq_ok_iff {f : α → Except ε β} {b : β} :
    x.bind f = .ok b ↔ ∃ a, x = .ok a ∧ f a = .ok b := by
  cases x <;> simp [Except.bind]

theorem bind_eq_error_iff {f : α → Except ε β} {e : ε} :
    x.bind f = .error e ↔ x = .error e ∨ ∃ a, x = .ok a ∧ f a = .error e := by
  cases x <;> simp [Except.bind]

/-- An error that no part of a computation has. -/
theorem bind_ne_error {f : α → Except ε β} {e : ε} (hx : x ≠ .error e)
    (hf : ∀ a, x = .ok a → f a ≠ .error e) : x.bind f ≠ .error e := by
  intro h
  rcases bind_eq_error_iff.1 h with h | ⟨a, ha, h⟩
  · exact hx h
  · exact hf a ha h

theorem mapError_eq_ok_iff {f : ε → ε'} {a : α} : x.mapError f = .ok a ↔ x = .ok a := by
  cases x with
  | ok b => constructor <;> rintro ⟨⟩ <;> rfl
  | error c => exact ⟨nofun, nofun⟩

theorem mapError_eq_error_iff {f : ε → ε'} {e : ε'} :
    x.mapError f = .error e ↔ ∃ c, x = .error c ∧ f c = e := by
  cases x with
  | ok a => exact ⟨nofun, nofun⟩
  | error c =>
    constructor
    · intro h
      exact ⟨c, rfl, Except.error.inj h⟩
    · rintro ⟨_, ⟨⟩, rfl⟩
      rfl

/-- A result beside a state, mapped. -/
theorem pair_map_eq_ok_iff {σ : Type} {r : Except ε α × σ} {f : α → β} {b : β} {s : σ} :
    (r.1.map f, r.2) = (.ok b, s) ↔ ∃ a, r = (.ok a, s) ∧ f a = b := by
  obtain ⟨x, s'⟩ := r
  simp only [Prod.mk.injEq, map_eq_ok_iff]
  constructor
  · rintro ⟨⟨a, rfl, hb⟩, rfl⟩
    exact ⟨a, ⟨rfl, rfl⟩, hb⟩
  · rintro ⟨a, ⟨rfl, rfl⟩, hb⟩
    exact ⟨⟨a, rfl, hb⟩, rfl⟩

end TypedStore.Except
