/-
  TypedStore — keeping values and keeping their images.

  A facade over the tagged backend and one over a byte store that refuses
  nothing are given the same operations.  The first keeps each value with its
  kind, the second only the image.

  * `ReadsAgree`: what is known on the first from what is known on the second,
    of one read;
  * `tagged_packed_agree`: after any run the writes answer the same on both,
    and the reads agree;
  * `refused_by_type_and_by_image`: a domain type that is stored as a
    floating-point number may refuse what is not a number.  Values are then
    malformed, and images are refused for what they are.
-/
import TypedStore.Native.Domain
import TypedStore.Proofs.Packed
import TypedStore.Proofs.Reading
import TypedStore.Proofs.ValueMap

namespace TypedStore

variable {σ α : Type}

/-! ## Casts of a kind -/

/-- A cast that sees of a value only what the value coerces to in a kind.  Of
    floating-point numbers it refuses some only if it is a domain type's. -/
structure Casts (kind : Kind) (isFloatDomain : Bool) (cast : Value → Except CastError α) :
    Prop where
  congr {v u : Value} : v ≠ .null → u ≠ .null → v.coerce kind = u.coerce kind → cast v = cast u
  error {v : Value} {c : CastError} : v ≠ .null → v.coerce kind = .error c → cast v = .error c
  float : kind.isFloat = true → ∀ (f : FloatKind) (w : f.Word), (∃ x, cast (.float f w) = .ok x) ∨
    isFloatDomain = true ∧ ∃ name, cast (.float f w) = .error (.malformed name)

theorem NativeType.casts (t : NativeType α) : Casts t.kind t.isFloatDomain t.read where
  congr := t.read_congr
  error := t.read_of_coerce_error
  float := t.read_float

theorem Value.casts (kind : Kind) : Casts kind false (·.coerce kind) where
  congr _ _ h := h
  error _ h := h
  float hk f w := by
    cases kind with
    | float l =>
      obtain ⟨x, hx⟩ := Value.coerce_float f l w
      exact Or.inl ⟨_, hx⟩
    | _ => cases hk

/-! ## Reads that agree -/

/-- A read in a floating-point kind of a stored pattern that is not a
    number. -/
def IsNaNRead (stored : Option Value) (kind : Kind) (f : FloatKind) : Prop :=
  kind.isFloat = true ∧ ∃ w, stored = some (.float f w) ∧ f.isNaN w = true

/-- There is one precision that it is stored in. -/
theorem IsNaNRead.eq {stored : Option Value} {kind : Kind} {f g : FloatKind}
    (hf : IsNaNRead stored kind f) (hg : IsNaNRead stored kind g) : g = f := by
  obtain ⟨-, _, rfl, -⟩ := hf
  obtain ⟨-, _, hstored, -⟩ := hg
  cases hstored
  rfl

/-- **What a read of values says of a read of images.**  Both fail for want of
    the key or neither does; what is read of values is read of images, but for
    patterns that are not numbers, which images refuse; and text or elements
    that are malformed are so for both, but for the same patterns.  Values that
    hold such a pattern are read, unless the type is a domain type that is
    stored as a floating-point number: it may find them malformed, where images
    still refuse the pattern. -/
structure ReadsAgree (key : String) (kind : Kind) (isFloatDomain : Bool) (stored : Option Value)
    (tagged packed : Except StoreError α) : Prop where
  keyNotFound (k : String) : tagged = .error (.keyNotFound k) ↔ packed = .error (.keyNotFound k)
  ok (x : α) : tagged = .ok x → packed = .ok x ∨ ∃ f, IsNaNRead stored kind f
  nan (f : FloatKind) : IsNaNRead stored kind f → packed = .error (.badValue key (.nan f)) ∧
    ((∃ x, tagged = .ok x) ∨
      isFloatDomain = true ∧ ∃ name, tagged = .error (.badValue key (.malformed name)))
  invalidUtf8 : tagged = .error (.badValue key .invalidUtf8) →
    packed = .error (.badValue key .invalidUtf8)
  malformed (name : String) : tagged = .error (.badValue key (.malformed name)) →
    packed = .error (.badValue key (.malformed name)) ∨
      isFloatDomain = true ∧ ∃ f, IsNaNRead stored kind f

theorem decode_of_isNaNRead {v : Value} {bytes : ByteArray} {kind : Kind} {f : FloatKind}
    (hbytes : Image.encode v = some bytes) (h : IsNaNRead (some v) kind f) :
    Image.decode bytes kind = .error (.nan f) := by
  obtain ⟨hkind, w, hv, hw⟩ := h
  cases hv
  cases hbytes
  cases kind with
  | float l => rw [Image.decode_encode_float, hw]; rfl
  | _ => cases hkind

/-- A pattern that is not a number: as a value it is read, or malformed for a
    domain type; as an image it is refused. -/
theorem readsAgree_of_isNaNRead {key : String} {kind : Kind} {isFloatDomain : Bool}
    {cast : Value → Except CastError α} (hcast : Casts kind isFloatDomain cast) {v : Value}
    {f : FloatKind} (h : IsNaNRead (some v) kind f) :
    ReadsAgree key kind isFloatDomain (some v) ((cast v).mapError (.badValue key))
      (.error (.badValue key (.nan f))) := by
  obtain ⟨hkind, w, hv, -⟩ := id h
  cases hv
  rcases hcast.float hkind f w with ⟨x, hx⟩ | ⟨hd, name, hname⟩
  · rw [hx]
    refine ⟨fun _ => ⟨nofun, nofun⟩, fun _ _ => Or.inr ⟨f, h⟩, fun g hg => ?_, nofun,
      fun _ => nofun⟩
    rw [h.eq hg]
    exact ⟨rfl, Or.inl ⟨x, rfl⟩⟩
  · rw [hname]
    refine ⟨fun _ => ⟨nofun, nofun⟩, fun _ => nofun, fun g hg => ?_, nofun,
      fun _ _ => Or.inr ⟨hd, f, h⟩⟩
    rw [h.eq hg]
    exact ⟨rfl, Or.inr ⟨hd, name, rfl⟩⟩

/-- A value that is read, and its image that is read. -/
theorem readsAgree_of_image {key : String} {kind : Kind} {isFloatDomain : Bool}
    {cast : Value → Except CastError α} (hcast : Casts kind isFloatDomain cast)
    {v : Value} {bytes : ByteArray} (hbytes : Image.encode v = some bytes) :
    ReadsAgree key kind isFloatDomain (some v) ((cast v).mapError (.badValue key))
      (((Image.decode bytes kind).mapError (.badValue key)).bind fun u =>
        (cast u).mapError (.badValue key)) := by
  have hv : v ≠ .null := by rintro rfl; cases hbytes
  by_cases hnan : ∃ f, IsNaNRead (some v) kind f
  · obtain ⟨f, hf⟩ := hnan
    rw [decode_of_isNaNRead hbytes hf]
    exact readsAgree_of_isNaNRead hcast hf
  · have hno (f : FloatKind) (hf : IsNaNRead (some v) kind f) : False := hnan ⟨f, hf⟩
    rcases Image.decode_coerce hbytes kind with
      ⟨u, hu, hcoerce⟩ | ⟨c, rfl, hc, hd⟩ | ⟨f, w, hfw, hw, hkind, -⟩ | hc
    · -- the image is read as a value that is cast alike
      have hne : u ≠ .null := by rintro rfl; exact Image.decode_ne_null bytes kind hu
      have hsame : cast u = cast v := hcast.congr hne hv hcoerce
      have hpacked : (((Image.decode bytes kind).mapError (.badValue key)).bind fun u =>
          (cast u).mapError (.badValue key)) = (cast v).mapError (StoreError.badValue key) := by
        rw [hu, ← hsame]; rfl
      rw [hpacked]
      exact ⟨fun _ => Iff.rfl, fun _ h => Or.inl h, fun f hf => (hno f hf).elim, id,
        fun _ h => Or.inl h⟩
    · rw [hd, hcast.error hv hc]
      exact ⟨fun _ => ⟨nofun, nofun⟩, fun _ => nofun, fun f hf => (hno f hf).elim, fun _ => rfl,
        fun _ => nofun⟩
    · exact (hno f ⟨hkind, w, congrArg some hfw, hw⟩).elim
    · -- the kinds have nothing in common
      rw [hcast.error hv hc]
      refine ⟨fun k => ⟨nofun, fun h => ?_⟩, fun _ => nofun, fun f hf => (hno f hf).elim, nofun,
        fun _ => nofun⟩
      rcases Facade.cast_eq_error h with h | ⟨c, h⟩
      · obtain ⟨c, -, hc⟩ := Except.mapError_eq_error_iff.1 h
        cases hc
      · cases h

/-- No value is read, and no image. -/
theorem readsAgree_of_absent {key : String} {kind : Kind} {isFloatDomain : Bool} :
    ReadsAgree (α := α) key kind isFloatDomain none (.error (.keyNotFound key))
      (.error (.keyNotFound key)) where
  keyNotFound _ := Iff.rfl
  ok _ h := Or.inl h
  nan := by rintro f ⟨-, _, hstored, -⟩; cases hstored
  invalidUtf8 h := h
  malformed _ h := Or.inl h

/-- Fetching and casting, where the store has the image of the value. -/
theorem readsAgree_fetch {store : ByteStore σ} {key : String} {kind : Kind} {isFloatDomain : Bool}
    {cast : Value → Except CastError α} (hcast : Casts kind isFloatDomain cast) {name : String} {m : ValueMap} {s : σ} (hnull : m.get? key ≠ some .null)
    (hget : store.get key s = .ok ((m.get? key).bind Image.encode)) :
    ReadsAgree key kind isFloatDomain (m.get? key)
      (((Backend.tagged name).fetch key kind m).bind fun v => (cast v).mapError (.badValue key))
      ((store.packed.fetch key kind s).bind fun v => (cast v).mapError (.badValue key)) := by
  cases hm : m.get? key with
  | none =>
    rw [hm] at hget
    have hfetch : (Backend.tagged name).fetch key kind m = .error (.keyNotFound key) :=
      (ValueMap.fetch_eq_error_iff key m _).2 ⟨hm, rfl⟩
    rw [hfetch, ByteStore.fetch_of_absent hget]
    exact readsAgree_of_absent
  | some v =>
    have hfetch : (Backend.tagged name).fetch key kind m = .ok v :=
      (ValueMap.fetch_eq_ok_iff key m v).2 hm
    cases hbytes : Image.encode v with
    | none => exact absurd (hm.trans (congrArg some (Image.encode_eq_none_iff.1 hbytes))) hnull
    | some bytes =>
      rw [hm, Option.bind_some, hbytes] at hget
      rw [hfetch, ByteStore.fetch_of_image hget]
      exact readsAgree_of_image hcast hbytes

/-! ## Writes -/

/-- The engine of a byte store refuses nothing that it is asked. -/
def ByteStore.RefusesNothing (store : ByteStore σ) : Prop :=
  ∀ {α : Type} (op : Operation α) s e, ¬ store.Refuses op s e

theorem ByteStore.refusesNothing_plain (name : String) (refusal : String → StoreError) :
    (plain name (fun _ => false) refusal).RefusesNothing := by
  intro α op s e
  cases op with
  | set key p => cases hb : Image.encode p.toValue <;> simp [Refuses, hb, plain]
  | setBytes key bytes => cases bytes <;> simp [Refuses, plain]
  | remove | clear | get | getOr | getValue => simp [Refuses, plain]

/-- What asks for a change answers nothing but that it succeeded. -/
theorem Operation.eq_of_change {op : Operation α} (h : op.change?.isSome) (x y : α) : x = y := by
  cases op with
  | set | setBytes | remove | clear => rfl
  | get | getOr | getValue => cases h

theorem Backend.perform_tagged_isOk (name : String) {op : Operation α} (h : op.change?.isSome)
    (m : ValueMap) : ((Facade.ofBackend (tagged name)).perform op m).1.isOk = true := by
  have hset (key : String) (v : Value) :
      ∃ t, (Facade.ofBackend (tagged name)).set key v m = .ok t := by
    rw [Facade.set_ofBackend]
    split <;> exact ⟨_, rfl⟩
  cases op with
  | set key p => obtain ⟨t, ht⟩ := hset key p.toValue; simp only [Facade.perform, ht]; rfl
  | setBytes key bytes =>
    obtain ⟨t, ht⟩ := hset key (.ofOption .blob bytes)
    simp only [Facade.perform, Facade.setBytes_eq, ht]; rfl
  | remove | clear => rfl
  | get | getOr | getValue => cases h

theorem ByteStore.perform_packed_isOk {store : ByteStore σ} (hall : store.RefusesNothing)
    {op : Operation α} (h : op.change?.isSome) (s : σ) :
    ((Facade.ofBackend store.packed).perform op s).1.isOk = true := by
  cases hanswer : ((Facade.ofBackend store.packed).perform op s).1 with
  | ok x => rfl
  | error e =>
    rcases perform_eq_error hanswer with hr | ⟨key, hkey, -⟩
    · exact absurd hr (hall op s e)
    · rw [Operation.asked?_of_change h] at hkey
      cases hkey

/-! ## Runs -/

theorem get?_after_ne_null (name : String) (run : List (Step Operation)) (key : String) :
    ((Facade.ofBackend (Backend.tagged name)).machine.after run .empty).get? key ≠ some .null := by
  have hget := (Backend.records_tagged name).facade.view_after run
    (rfl : (Entries.empty : ValueMap).get? key = none)
  rw [hget]
  intro h
  obtain ⟨v, -, hv⟩ := Option.bind_eq_some_iff.1 h
  obtain ⟨rfl, hne⟩ := Value.present?_eq_some_iff.1 hv
  exact hne rfl

section
variable {store : ByteStore σ} {view : σ → String → Option ByteArray}

/-- Nothing that is read is refused. -/
theorem ByteStore.IsMap.get_eq (h : store.IsMap view) (hall : store.RefusesNothing) (key : String)
    (s : σ) : store.get key s = .ok (view s key) := by
  cases hg : store.get key s with
  | ok found => rw [h.get hg]
  | error e => exact absurd hg (hall (.getValue key .null) s e)

/-- After the same run the store has the images of what the map has. -/
theorem view_after_eq_bind (h : store.IsMap view) (hall : store.RefusesNothing) {s₀ : σ}
    {key : String} (hempty : view s₀ key = none) (name : String) (run : List (Step Operation)) :
    view ((Facade.ofBackend store.packed).machine.after run s₀) key =
      (((Facade.ofBackend (Backend.tagged name)).machine.after run .empty).get? key).bind
        Image.encode := by
  have htagged : (Facade.ofBackend (Backend.tagged name)).machine.changes Operation.change? run
      .empty = run.filterMap fun i => i.2.change? := by
    refine Machine.changes_eq_filterMap (fun i m hi => ?_) run _
    exact Backend.perform_tagged_isOk name hi m
  have hpacked : (Facade.ofBackend store.packed).machine.changes Operation.change? run s₀ =
      run.filterMap fun i => i.2.change? := by
    refine Machine.changes_eq_filterMap (fun i s hi => ?_) run _
    exact ByteStore.perform_packed_isOk hall hi s
  have hget := (Backend.records_tagged name).facade.view_after run
    (rfl : (Entries.empty : ValueMap).get? key = none)
  rw [h.records.facade.view_after run hempty, hget, htagged, hpacked,
    Change.present?_bind h.records.null]

end

/-- **Values and images agree.**  After the same run over a map of values and
    over a byte store that refuses nothing, every operation that changes
    something succeeds on both, and every read, as a native type or in a kind,
    agrees.  The exception is for domain types that are stored as floating-point
    numbers: of a pattern that is not a number they may make what they will
    where values are kept, and images refuse it. -/
theorem tagged_packed_agree (name : String) (store : ByteStore σ)
    {view : σ → String → Option ByteArray} (h : store.IsMap view) (hall : store.RefusesNothing)
    {s₀ : σ} (hempty : ∀ key, view s₀ key = none) (run : List (Step Operation)) :
    let tagged := Facade.ofBackend (Backend.tagged name)
    let packed := Facade.ofBackend store.packed
    let m := tagged.machine.after run .empty
    let s := packed.machine.after run s₀
    (∀ {α : Type} (op : Operation α), op.change?.isSome →
      ∃ x, (tagged.perform op m).1 = .ok x ∧ (packed.perform op s).1 = .ok x) ∧
    (∀ {α : Type} (key : String) (t : NativeType α),
      ReadsAgree key t.kind t.isFloatDomain (m.get? key) (tagged.get key t m)
        (packed.get key t s)) ∧
    (∀ key kind, ReadsAgree key kind false (m.get? key) (tagged.getValue key kind m)
      (packed.getValue key kind s)) := by
  intro tagged packed m s
  have hget (key : String) : store.get key s = .ok ((m.get? key).bind Image.encode) := by
    rw [h.get_eq hall, view_after_eq_bind h hall (hempty key)]
  have hnull (key : String) : m.get? key ≠ some .null := get?_after_ne_null name run key
  refine ⟨fun op hop => ?_, fun key t => ?_, fun key kind => ?_⟩
  · obtain ⟨x, hx⟩ := Except.isOk_iff.1 (Backend.perform_tagged_isOk name hop m)
    obtain ⟨y, hy⟩ := Except.isOk_iff.1 (ByteStore.perform_packed_isOk hall hop s)
    exact ⟨x, hx, Operation.eq_of_change hop y x ▸ hy⟩
  · exact readsAgree_fetch t.casts (hnull key) (hget key)
  · exact readsAgree_fetch (Value.casts kind) (hnull key) (hget key)

/-- A number of one precision that is read in the other, a text that is read
    as a blob, and a pattern that is not a number. -/
theorem tagged_packed_agree_plain :
    let store := ByteStore.plain "bytes" (fun _ => false) ByteMap.refusal
    let run : List (Step Operation) := [⟨_, .set "f" (.native (.float .f32) 0x3fc00000#32)⟩,
      ⟨_, .set "n" (.native (.float .f32) 0x7fc00000#32)⟩, ⟨_, .set "t" (.native .text "ok")⟩]
    store.IsMap (fun m key => m.get? key) ∧ store.RefusesNothing ∧
    (∀ key, (Entries.empty : ByteMap).get? key = none) ∧
    ReadsAgree "n" (.float .f64) false (some (.float .f32 0x7fc00000#32))
      ((Facade.ofBackend (Backend.tagged "map")).getValue "n" (.float .f64)
        ((Facade.ofBackend (Backend.tagged "map")).machine.after run .empty))
      ((Facade.ofBackend store.packed).getValue "n" (.float .f64)
        ((Facade.ofBackend store.packed).machine.after run .empty)) := by
  intro store run
  have hmap : store.IsMap (fun m key => m.get? key) := ByteStore.isMap_plain _ _ _ fun _ => rfl
  have hall : store.RefusesNothing := ByteStore.refusesNothing_plain _ _
  exact ⟨hmap, hall, fun _ => rfl,
    (tagged_packed_agree "map" store hmap hall (fun _ => rfl) run).2.2 "n" (.float .f64)⟩

/-- The numbers among the patterns of double precision, as a domain type. -/
def DomainType.number : DomainType FloatKind.f64.Word {w // FloatKind.f64.isNaN w = false} where
  name := "number"
  toPlaceholder := Subtype.val
  ofPlaceholder w := if h : FloatKind.f64.isNaN w = false then some ⟨w, h⟩ else none

/-- **A type may refuse what images refuse.**  Numbers are read back from their
    patterns.  A pattern that is not one is malformed where values are kept; its
    image is refused before the type is asked. -/
theorem refused_by_type_and_by_image :
    let number := NativeType.domain .number (.float .f64)
    let store := ByteStore.plain "bytes" (fun _ => false) ByteMap.refusal
    let run : List (Step Operation) := [⟨_, .set "n" (.native (.float .f64) 0x7ff8000000000000#64)⟩]
    let tagged := Facade.ofBackend (Backend.tagged "map")
    let packed := Facade.ofBackend store.packed
    (store.IsMap (fun m key => m.get? key) ∧ store.RefusesNothing) ∧
    (∀ x, DomainType.number.ofPlaceholder (DomainType.number.toPlaceholder x) = some x) ∧
    tagged.get "n" number (tagged.machine.after run .empty) =
      .error (.badValue "n" (.malformed "number")) ∧
    packed.get "n" number (packed.machine.after run .empty) =
      .error (.badValue "n" (.nan .f64)) :=
  ⟨⟨ByteStore.isMap_plain _ _ _ fun _ => rfl, ByteStore.refusesNothing_plain _ _⟩,
    fun x => dif_pos x.2, rfl, rfl⟩

/-- The domain types of the library are stored as text or as integers. -/
example : [NativeType.path.isFloatDomain, NativeType.uuid.isFloatDomain,
    NativeType.digest.isFloatDomain, NativeType.utc.isFloatDomain,
    NativeType.localTime.isFloatDomain, NativeType.level.isFloatDomain].any id = false := rfl

end TypedStore
