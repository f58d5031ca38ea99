/-
  TypedStore — how native types read values.

  * `kind_of_coerce`: a value that is coerced has the kind that was asked for;
  * `read_congr`: a type reads of a value what the value coerces to, so that
    values that coerce alike are read alike;
  * `decode_coerce`: coercing a value and reading its image in the same kind
    come to the same, except where the value is not a number and where the two
    kinds have nothing in common.
-/
import TypedStore.Native.Type
import TypedStore.Proofs.Image

namespace TypedStore

/-! ## Coercion -/

namespace Value

theorem coerce_self (v : Value) : v.coerce v.kind = .ok v := if_pos rfl

theorem coerce_float (f l : FloatKind) (w : f.Word) :
    ∃ x, (float f w).coerce (.float l) = .ok (float l x) := by
  by_cases h : f = l
  · subst h; exact ⟨w, coerce_self _⟩
  · refine ⟨f.convert l w, ?_⟩
    simp [coerce, kind, h]

theorem coerce_blob_text (bytes : ByteArray) :
    (blob bytes).coerce .text = (Utf8.decode? bytes).elim (.error .invalidUtf8) (.ok ∘ text) := by
  simp only [coerce, kind, reduceCtorEq, if_false]
  cases Utf8.decode? bytes <;> rfl

theorem kind_of_coerce {v w : Value} {k : Kind} (h : v.coerce k = .ok w) : w.kind = k := by
  unfold coerce at h
  split at h
  · next hk => cases h; exact hk
  · split at h
    · cases h; rfl
    · cases h; rfl
    · split at h <;> cases h
      rfl
    · cases h

theorem coerce_ne_null {v w : Value} {k : Kind} (hv : v ≠ .null) (h : v.coerce k = .ok w) :
    w ≠ .null := by
  rintro rfl
  unfold coerce at h
  split at h
  · cases h; exact hv rfl
  · split at h
    · cases h
    · cases h
    · split at h <;> cases h
    · cases h

end Value

/-! ## Native types -/

namespace NativeType

variable {α : Type}

theorem read_option (t : NativeType α) {v : Value} (hv : v ≠ .null) :
    (option t).read v = some <$> t.read v := by
  cases v <;> first | rfl | exact absurd rfl hv

/-- A type reads of a value what the value coerces to. -/
theorem read_congr (t : NativeType α) {v u : Value} (hv : v ≠ .null) (hu : u ≠ .null)
    (h : v.coerce t.kind = u.coerce t.kind) : t.read v = t.read u := by
  induction t with
  | bool => simp only [kind] at h; simp only [read, readBool, h]
  | int k => simp only [kind] at h; simp only [read, readInt, h]
  | float k => simp only [kind] at h; simp only [read, readFloat, h]
  | text => simp only [kind] at h; simp only [read, readText, h]
  | blob => simp only [kind] at h; simp only [read, readBlob, h]
  | domain d placeholder ih => simp only [read, ih h]
  | option inner ih => rw [read_option inner hv, read_option inner hu, ih h]

/-- What does not coerce is not read. -/
theorem read_of_coerce_error (t : NativeType α) {v : Value} {c : CastError} (hv : v ≠ .null)
    (h : v.coerce t.kind = .error c) : t.read v = .error c := by
  induction t with
  | bool => simp only [kind] at h; simp only [read, readBool, h]; rfl
  | int k => simp only [kind] at h; simp only [read, readInt, h]; rfl
  | float k => simp only [kind] at h; simp only [read, readFloat, h]; rfl
  | text => simp only [kind] at h; simp only [read, readText, h]; rfl
  | blob => simp only [kind] at h; simp only [read, readBlob, h]; rfl
  | domain d placeholder ih => simp only [read, ih h]; rfl
  | option inner ih => rw [read_option inner hv, ih h]; rfl

/-- Only null is read as absent. -/
theorem read_option_ne_none (t : NativeType α) {v : Value} (hv : v ≠ .null) :
    (option t).read v ≠ .ok none := by
  rw [read_option t hv]
  cases t.read v with
  | error c => exact fun h => nomatch h
  | ok x => exact fun h => nomatch h

/-- A domain type that is stored as a floating-point number. -/
def isFloatDomain {α : Type} : NativeType α → Bool
  | domain _ placeholder => placeholder.kind.isFloat
  | option inner => inner.isFloatDomain
  | bool | int _ | float _ | text | blob => false

/-- A floating-point type reads every stored number, of either precision, and
    also what is not a number.  Only a domain type that is stored as a
    floating-point number can refuse one, under its own name. -/
theorem read_float (t : NativeType α) (hk : t.kind.isFloat = true) (f : FloatKind) (w : f.Word) :
    (∃ x, t.read (.float f w) = .ok x) ∨
      t.isFloatDomain = true ∧ ∃ name, t.read (.float f w) = .error (.malformed name) := by
  induction t with
  | bool | int _ | text | blob => cases hk
  | float k =>
    obtain ⟨x, hx⟩ := Value.coerce_float f k w
    exact Or.inl ⟨x, by simp [read, readFloat, hx, bind, Except.bind, pure, Except.pure]⟩
  | domain d placeholder ih =>
    rcases ih hk with ⟨y, hy⟩ | ⟨-, name, hname⟩
    · cases hd : d.ofPlaceholder y with
      | some x => exact Or.inl ⟨x, by simp only [read, hy, hd, bind, Except.bind]; rfl⟩
      | none => exact Or.inr ⟨hk, d.name, by simp only [read, hy, hd, bind, Except.bind]; rfl⟩
    · exact Or.inr ⟨hk, name, by simp only [read, hname, bind, Except.bind]⟩
  | option inner ih =>
    have hread := read_option inner (v := .float f w) (by simp)
    rcases ih hk with ⟨x, hx⟩ | ⟨hd, name, hname⟩
    · exact Or.inl ⟨some x, by rw [hread, hx]; rfl⟩
    · exact Or.inr ⟨hd, name, by rw [hread, hname]; rfl⟩

end NativeType

/-! ## Values and their images -/

namespace Image

/-- **Coercing a value and reading its image.**  In a kind that the value
    coerces to, its image is read as a value that coerces to the same, or
    fails alike.  A pattern that is not a number is refused by either
    floating-point kind, and kinds that have nothing in common are not
    compared. -/
theorem decode_coerce {v : Value} {bytes : ByteArray} (h : encode v = some bytes) (k : Kind) :
    (∃ u, decode bytes k = .ok u ∧ u.coerce k = v.coerce k) ∨
    (∃ c, c = .invalidUtf8 ∧ v.coerce k = .error c ∧ decode bytes k = .error c) ∨
    (∃ f w, v = .float f w ∧ f.isNaN w = true ∧ k.isFloat = true ∧
      decode bytes k = .error (.nan f)) ∨
    v.coerce k = .error (.mismatch k v.kind) := by
  by_cases hk : v.kind = k
  · subst hk
    cases hv : v.isNaN with
    | false => exact Or.inl ⟨v, decode_encode h hv, rfl⟩
    | true =>
      cases v with
      | float f w =>
        cases h
        have hw : f.isNaN w = true := hv
        refine Or.inr (Or.inr (Or.inl ⟨f, w, rfl, hw, rfl, ?_⟩))
        rw [Value.kind, decode_encode_float, hw]; rfl
      | _ => cases hv
  · -- three pairs of different kinds have something in common
    cases v with
    | null => cases h
    | float f w =>
      cases k with
      | float l =>
        cases h
        rw [decode_encode_float]
        cases hw : f.isNaN w with
        | false => exact Or.inl ⟨.float f w, rfl, rfl⟩
        | true => exact Or.inr (Or.inr (Or.inl ⟨f, w, rfl, hw, rfl, rfl⟩))
      | _ => exact Or.inr (Or.inr (Or.inr (if_neg hk)))
    | text s =>
      cases k with
      | blob =>
        cases h
        exact Or.inl ⟨.blob s.toByteArray, rfl, rfl⟩
      | text => exact absurd rfl hk
      | _ => exact Or.inr (Or.inr (Or.inr (if_neg hk)))
    | blob =>
      cases k with
      | text =>
        cases h
        simp only [Value.coerce_blob_text, decode]
        cases Utf8.decode? bytes with
        | some s => exact Or.inl ⟨.text s, rfl, rfl⟩
        | none => exact Or.inr (Or.inl ⟨_, rfl, rfl, rfl⟩)
      | blob => exact absurd rfl hk
      | _ => exact Or.inr (Or.inr (Or.inr (if_neg hk)))
    | bool | int => exact Or.inr (Or.inr (Or.inr (if_neg hk)))

end Image

end TypedStore
