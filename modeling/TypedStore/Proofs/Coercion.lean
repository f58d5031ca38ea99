/-
  TypedStore — coercion of values, there and back.

  A value is coerced to its own kind, from one floating-point type to the other,
  from text to its bytes, and from bytes to the text that they encode.

  * `coerce_cases`: all that coercion does;
  * `coerce_eq_error_iff`: what it refuses, and how;
  * `coerce_back`, `coerce_narrowed`: coercing back undoes it, but for numbers
    of double precision, which come back as what single precision holds of them;
  * `Handle.get_float_of_set`: what is read, in either precision, of a number
    that was written;
  * `coercions_are_reversible`: all this, and that a number of single precision
    survives being read, written and read again in the other precision.
-/
import TypedStore.Proofs.Acceptance
import TypedStore.Proofs.Keys
import TypedStore.Proofs.Reading
import TypedStore.Proofs.Rounding

namespace TypedStore

namespace Value

variable {v w : Value} {kind : Kind}

/-! ## Which values are coerced -/

/-- What a value can be coerced to. -/
inductive Coercible (v : Value) : Kind → Prop where
  | own : Coercible v v.kind
  | widen : v.kind = .float .f32 → Coercible v (.float .f64)
  | narrow : v.kind = .float .f64 → Coercible v (.float .f32)
  | bytes : v.kind = .text → Coercible v .blob
  | text {bytes : ByteArray} : v = .blob bytes → Utf8.IsWellFormed bytes.data.toList →
      Coercible v .text

/-- The error for a value that cannot be coerced. -/
def refusal (v : Value) (kind : Kind) : CastError :=
  if v.kind = .blob ∧ kind = .text then .invalidUtf8 else .mismatch kind v.kind

/-- **All that coercion does.** -/
theorem coerce_cases (h : v.coerce kind = .ok w) :
    (v.kind = kind ∧ w = v) ∨
    (∃ k l x, k ≠ l ∧ v = .float k x ∧ kind = .float l ∧ w = .float l (k.convert l x)) ∨
    (∃ s, v = .text s ∧ kind = .blob ∧ w = .blob s.toByteArray) ∨
    ∃ s, v = .blob s.toByteArray ∧ kind = .text ∧ w = .text s := by
  unfold coerce at h
  split at h
  · next hk =>
    cases h
    exact Or.inl ⟨hk, rfl⟩
  · next hk =>
    split at h
    · next k x l =>
      cases h
      exact Or.inr (Or.inl ⟨k, l, x, fun hkl => hk (congrArg Kind.float hkl), rfl, rfl, rfl⟩)
    · next s =>
      cases h
      exact Or.inr (Or.inr (Or.inl ⟨s, rfl, rfl, rfl⟩))
    · next b =>
      split at h
      · next s hs =>
        cases h
        obtain rfl := Utf8.decode?_eq_some_iff.1 hs
        exact Or.inr (Or.inr (Or.inr ⟨s, rfl, rfl, rfl⟩))
      · cases h
    · cases h

/-- What cannot be coerced is refused. -/
theorem coerce_eq_error (h : ¬ v.Coercible kind) : v.coerce kind = .error (v.refusal kind) := by
  have hk : v.kind ≠ kind := fun hk => h (hk ▸ .own)
  unfold coerce
  rw [if_neg hk]
  split
  · next k x l =>
    cases k <;> cases l
    · exact absurd rfl hk
    · exact absurd (.widen rfl) h
    · exact absurd (.narrow rfl) h
    · exact absurd rfl hk
  · exact absurd (.bytes rfl) h
  · next b =>
    split
    · next s hs =>
      have htext := Utf8.isWellFormed_iff.2 ⟨s, Utf8.decode?_eq_some_iff.1 hs⟩
      exact absurd (.text rfl htext) h
    · rfl
  · next hblob =>
    have hother : ¬ (v.kind = .blob ∧ kind = .text) := by
      rintro ⟨hv, rfl⟩
      cases v with
      | blob b => exact hblob b rfl rfl
      | _ => cases hv
    rw [refusal, if_neg hother]

theorem coercible_of_coerce (h : v.coerce kind = .ok w) : v.Coercible kind := by
  obtain ⟨rfl, -⟩ | ⟨k, l, x, hkl, rfl, rfl, -⟩ | ⟨s, rfl, rfl, -⟩ | ⟨s, rfl, rfl, -⟩ := coerce_cases h
  · exact .own
  · cases k <;> cases l
    · exact absurd rfl hkl
    · exact .widen rfl
    · exact .narrow rfl
    · exact absurd rfl hkl
  · exact .bytes rfl
  · exact .text rfl (Utf8.isWellFormed_iff.2 ⟨s, rfl⟩)

theorem coerce_text_blob (s : String) : (text s).coerce .blob = .ok (blob s.toByteArray) := rfl

theorem coerce_toByteArray (s : String) : (blob s.toByteArray).coerce .text = .ok (text s) := by
  rw [coerce_blob_text, Utf8.decode?_toByteArray]
  rfl

theorem coerce_float_of_ne {k l : FloatKind} (hkl : k ≠ l) (x : k.Word) :
    (float k x).coerce (.float l) = .ok (float l (k.convert l x)) := by
  simp [coerce, kind, hkl]

/-- What can be coerced is. -/
theorem coerce_of_coercible (h : v.Coercible kind) : ∃ w, v.coerce kind = .ok w := by
  cases h with
  | own => exact ⟨v, v.coerce_self⟩
  | widen hv | narrow hv =>
    cases v with
    | float k x => exact ⟨_, (coerce_float k _ x).choose_spec⟩
    | _ => cases hv
  | bytes hv =>
    cases v with
    | text s => exact ⟨_, coerce_text_blob s⟩
    | _ => cases hv
  | text hv htext =>
    obtain ⟨s, rfl⟩ := Utf8.isWellFormed_iff.1 htext
    exact ⟨_, hv ▸ coerce_toByteArray s⟩

theorem coerce_isOk_iff : (∃ w, v.coerce kind = .ok w) ↔ v.Coercible kind :=
  ⟨fun ⟨_, hw⟩ => coercible_of_coerce hw, coerce_of_coercible⟩

theorem coerce_eq_error_iff {c : CastError} :
    v.coerce kind = .error c ↔ ¬ v.Coercible kind ∧ c = v.refusal kind := by
  constructor
  · intro h
    have hno : ¬ v.Coercible kind := by
      intro hv
      obtain ⟨w, hw⟩ := coerce_of_coercible hv
      rw [hw] at h
      cases h
    rw [coerce_eq_error hno] at h
    exact ⟨hno, (Except.error.inj h).symm⟩
  · rintro ⟨hno, rfl⟩
    exact coerce_eq_error hno

/-! ## There and back -/

/-- A number of double precision that is read in single precision. -/
def IsNarrowing (v : Value) (kind : Kind) : Prop := v.kind = .float .f64 ∧ kind = .float .f32

/-- A coerced value is coerced to the same kind as itself. -/
theorem coerce_again (h : v.coerce kind = .ok w) : w.coerce kind = .ok w := by
  rw [← kind_of_coerce h]
  exact w.coerce_self

/-- **Coercing back gives the value back**, bit for bit. -/
theorem coerce_back (h : v.coerce kind = .ok w) (hv : v.isNaN = false)
    (hnarrow : ¬ v.IsNarrowing kind) : w.coerce v.kind = .ok v := by
  obtain ⟨-, rfl⟩ | ⟨k, l, x, hkl, rfl, rfl, rfl⟩ | ⟨s, rfl, rfl, rfl⟩ | ⟨s, rfl, rfl, rfl⟩ :=
    coerce_cases h
  · exact w.coerce_self
  · cases k with
    | f32 =>
      cases l with
      | f32 => exact absurd rfl hkl
      | f64 =>
        have hback := coerce_float_of_ne hkl.symm (FloatKind.f32.convert .f64 x)
        rwa [FloatKind.convert_convert hv] at hback
    | f64 =>
      cases l with
      | f32 => exact absurd ⟨rfl, rfl⟩ hnarrow
      | f64 => exact absurd rfl hkl
  · exact coerce_toByteArray s
  · exact coerce_text_blob s

/-- A number of double precision comes back as the number that single precision
    holds of it, and that number stays. -/
theorem coerce_narrowed (h : v.coerce kind = .ok w) (hv : v.isNaN = false)
    (hnarrow : v.IsNarrowing kind) : ∃ (y : FloatKind.f32.Word) (z : FloatKind.f64.Word),
      w = .float .f32 y ∧ w.coerce v.kind = .ok (.float .f64 z) ∧ FloatKind.SameNumber y z ∧
        (Value.float .f64 z).coerce kind = .ok w := by
  obtain ⟨hkind, rfl⟩ := hnarrow
  cases v with
  | float k x =>
    cases hkind
    have hne : FloatKind.f64 ≠ FloatKind.f32 := nofun
    have hw := Except.ok.inj ((coerce_float_of_ne hne x).symm.trans h)
    have hnumber : FloatKind.f32.isNaN (FloatKind.f64.convert .f32 x) = false :=
      FloatKind.isNaN_convert .f32 hv
    refine ⟨_, _, hw.symm, hw ▸ coerce_float_of_ne hne.symm _, FloatKind.sameNumber_convert hnumber, ?_⟩
    have hback := coerce_float_of_ne hne (FloatKind.f32.convert .f64 (FloatKind.f64.convert .f32 x))
    rwa [FloatKind.convert_convert hnumber, hw] at hback
  | _ => cases hkind

end Value

/-! ## Through a facade -/

/-- The other precision reads a number as it converts it. -/
theorem NativeType.read_float_of_ne {k l : FloatKind} (hkl : k ≠ l) (x : k.Word) :
    (NativeType.float l).read (.float k x) = .ok (k.convert l x) := by
  cases k <;> cases l <;> first | rfl | exact absurd rfl hkl

/-- A number that was written is read in either precision. -/
theorem Handle.get_float_of_set {handle : Handle} {key : String} {k l : FloatKind} {x : k.Word}
    {z : l.Word} {h t : Host} (hx : k.isNaN x = false)
    (hread : (NativeType.float l).read (.float k x) = .ok z)
    (hset : (Facade.ofBackend handle.backend).set key (.float k x) h = .ok t) :
    (Facade.ofBackend handle.backend).get key (.float l) t = .ok z := by
  have hput : handle.backend.put key (.float k x) h = .ok t := hset
  exact Facade.get_eq_ok_iff.2 ⟨_, fetch_float_of_put hx hput l, hread⟩

/-- **Coercions are exact in their kind, and reversible.**  A value is coerced
    to its own kind, from one precision to the other, from text to bytes, and
    from the bytes of a text to the text, and to nothing else.  The result has
    the kind that was asked for and is coerced to it as itself.  Unless the
    value is not a number, coercing the result back gives the value; but a
    number of double precision comes back as the number that single precision
    holds of it.

    So a number of single precision that was written over any engine, that is
    read in double precision, written as it was read and read again in single
    precision, is the one it was. -/
theorem coercions_are_reversible :
    (∀ (v : Value) (kind : Kind),
      ((∃ w, v.coerce kind = .ok w) ↔ v.Coercible kind) ∧
      (∀ c, v.coerce kind = .error c ↔ ¬ v.Coercible kind ∧ c = v.refusal kind) ∧
      ∀ w, v.coerce kind = .ok w → w.kind = kind ∧ w.coerce kind = .ok w ∧
        (v.isNaN = false → (¬ v.IsNarrowing kind → w.coerce v.kind = .ok v) ∧
          (v.IsNarrowing kind → ∃ (y : FloatKind.f32.Word) (z : FloatKind.f64.Word),
            w = .float .f32 y ∧ w.coerce v.kind = .ok (.float .f64 z) ∧
              FloatKind.SameNumber y z ∧ (Value.float .f64 z).coerce kind = .ok w))) ∧
    ∀ (handle : Handle) (key : String) (y : FloatKind.f32.Word) (h h₁ : Host),
      FloatKind.f32.isNaN y = false →
      (Facade.ofBackend handle.backend).set key ((NativeType.float .f32).write y) h = .ok h₁ →
      ∃ z, (Facade.ofBackend handle.backend).get key (.float .f64) h₁ = .ok z ∧
        FloatKind.SameNumber y z ∧
        ∀ h₂, (Facade.ofBackend handle.backend).set key ((NativeType.float .f64).write z) h₁ =
            .ok h₂ →
          (Facade.ofBackend handle.backend).get key (.float .f32) h₂ = .ok y := by
  refine ⟨fun v kind => ⟨Value.coerce_isOk_iff, fun c => Value.coerce_eq_error_iff,
    fun w hw => ⟨Value.kind_of_coerce hw, Value.coerce_again hw, fun hv =>
      ⟨Value.coerce_back hw hv, Value.coerce_narrowed hw hv⟩⟩⟩, fun handle key y h h₁ hy hset => ?_⟩
  have hne : FloatKind.f32 ≠ .f64 := nofun
  have hwide := NativeType.read_float_of_ne hne y
  refine ⟨_, Handle.get_float_of_set hy hwide hset, FloatKind.sameNumber_convert hy,
    fun h₂ hset₂ => ?_⟩
  have hback := NativeType.read_float_of_ne hne.symm (FloatKind.f32.convert .f64 y)
  rw [FloatKind.convert_convert hy] at hback
  exact Handle.get_float_of_set (FloatKind.isNaN_convert .f64 hy) hback hset₂

/-- The least number of single precision, which is no subnormal in double
    precision, in a byte store; and a tenth of double precision, which single
    precision does not hold. -/
theorem coercions_are_reversible_subnormal :
    let db := Facade.ofBackend (Handle.store "bytes").backend
    let y : FloatKind.f32.Word := 1#32
    FloatKind.f32.isNaN y = false ∧
      (∃ h₁ z h₂, db.set "key" ((NativeType.float .f32).write y) {} = .ok h₁ ∧
        db.get "key" (.float .f64) h₁ = .ok z ∧ FloatKind.SameNumber y z ∧
        db.set "key" ((NativeType.float .f64).write z) h₁ = .ok h₂ ∧
        db.get "key" (.float .f32) h₂ = .ok y) ∧
      ∃ (x : FloatKind.f32.Word) (z : FloatKind.f64.Word),
        (Value.float .f64 0x3FB999999999999A#64).coerce (.float .f32) = .ok (.float .f32 x) ∧
        (Value.float .f32 x).coerce (.float .f64) = .ok (.float .f64 z) ∧
        (Value.float .f64 z).coerce (.float .f32) = .ok (.float .f32 x) := by
  intro db y
  have hy : FloatKind.f32.isNaN y = false := by decide
  refine ⟨hy, ?_, ?_⟩
  · obtain ⟨z, hget, hsame, hback⟩ :=
      coercions_are_reversible.2 (.store "bytes") "key" y {} _ hy rfl
    exact ⟨_, z, _, rfl, hget, hsame, rfl, hback _ rfl⟩
  · obtain ⟨hcoerce, -, hresult⟩ :=
      coercions_are_reversible.1 (.float .f64 0x3FB999999999999A#64) (.float .f32)
    obtain ⟨w, hw⟩ := hcoerce.2 (.narrow rfl)
    obtain ⟨-, -, hnumber⟩ := hresult w hw
    obtain ⟨x, z, rfl, hwide, -, hback⟩ := (hnumber (by decide)).2 ⟨rfl, rfl⟩
    exact ⟨x, z, hw, hwide, hback⟩

end TypedStore
