/-
  TypedStore — writing null.

  Null is turned into a removal by the facade, by a store of images and by a
  map of values.  All of them do what a removal does, also where it fails.

  * `Backend.RemovesNull`: so do all backends of the library;
  * `Facade.ReadsNoNull`: so that no read finds a null;
  * `nullWrite_is_removal`: writes of null and removals can be exchanged
    anywhere in a run, of one store or of a session with all engines, and no
    state that is reached has a null to be read.
-/
import TypedStore.Proofs.Maps
import TypedStore.Proofs.Packed
import TypedStore.Proofs.Reading

namespace TypedStore

/-! ## Writes of null -/

/-- A write of null through a facade, and the removal that it comes to. -/
inductive Operation.NullWrite : Operation Unit → Operation Unit → Prop where
  | set (key : String) {p : Payload} : p.toValue = .null → NullWrite (.set key p) (.remove key)
  | setBytes (key : String) : NullWrite (.setBytes key none) (.remove key)

/-- A call that puts null, and the removal that it comes to. -/
inductive Backend.Call.NullWrite : Backend.Call Unit → Backend.Call Unit → Prop where
  | put (key : String) : NullWrite (.put key .null) (.remove key)

/-- A write of null to a shared backend, and its removal. -/
inductive Shared.Action.NullWrite : Step Shared.Action → Step Shared.Action → Prop where
  | through (name : String) {op op' : Operation Unit} :
    op.NullWrite op' → NullWrite ⟨_, .through name op⟩ ⟨_, .through name op'⟩
  | directly {call call' : Backend.Call Unit} :
    call.NullWrite call' → NullWrite ⟨_, .directly call⟩ ⟨_, .directly call'⟩

/-- A write of null in a session, and its removal. -/
inductive Session.Action.NullWrite : Step Session.Action → Step Session.Action → Prop where
  | through (name : String) {op op' : Operation Unit} :
    op.NullWrite op' → NullWrite ⟨_, .through name op⟩ ⟨_, .through name op'⟩
  | directly (handle : Handle) {call call' : Backend.Call Unit} :
    call.NullWrite call' → NullWrite ⟨_, .directly handle call⟩ ⟨_, .directly handle call'⟩

/-- Every facade, open or closed, takes a write of null as a removal. -/
theorem Facade.perform_nullWrite {σ : Type} (db : Facade σ) {op op' : Operation Unit}
    (h : op.NullWrite op') (s : σ) : db.perform op' s = db.perform op s := by
  cases h with
  | set key hp =>
    simp only [perform, hp, db.set_null]
  | setBytes key => rfl

/-! ## Backends -/

/-- Putting null does what removing does, in every state. -/
def Backend.RemovesNull {σ : Type} (b : Backend σ) : Prop :=
  ∀ key s, b.put key .null s = b.remove key s

theorem Backend.removesNull_tagged (name : String) : (tagged name).RemovesNull := fun _ _ => rfl

theorem ByteStore.removesNull_packed {σ : Type} (store : ByteStore σ) :
    store.packed.RemovesNull := fun _ _ => rfl

theorem Backend.RemovesNull.within {σ τ : Type} {b : Backend σ} (h : b.RemovesNull) (part : τ → σ)
    (update : σ → τ → τ) : (b.within part update).RemovesNull := by
  intro key t
  simp only [Backend.within, h key]

/-- Putting null is removing in every engine. -/
theorem Handle.removesNull (handle : Handle) : handle.backend.RemovesNull := by
  cases handle with
  | map name => exact (Backend.removesNull_tagged name.backendName).within _ _
  | store | table | journal | environment | rows => exact ByteStore.removesNull_packed _

theorem Backend.RemovesNull.perform {σ : Type} {b : Backend σ} (h : b.RemovesNull)
    {call call' : Backend.Call Unit} (hcall : call.NullWrite call') (s : σ) :
    b.perform call' s = b.perform call s := by
  cases hcall with
  | put key => simp only [Backend.perform, h key]

theorem Shared.same_of_nullWrite {σ : Type} {b : Backend σ} (h : b.RemovesNull)
    (i j : Step Shared.Action) (hij : Action.NullWrite i j) : (machine b).Same i j := by
  intro s
  cases hij with
  | through name hop =>
    have hdo := (s.facade b name).perform_nullWrite hop s.store
    constructor <;> simp only [Machine.answer, Machine.next, machine, onStore, hdo]
  | directly hcall =>
    have hdo := h.perform hcall s.store
    constructor <;> simp only [Machine.answer, Machine.next, machine, onStore, hdo]

theorem Session.same_of_nullWrite (i j : Step Session.Action) (hij : Action.NullWrite i j) :
    machine.Same i j := by
  intro s
  cases hij with
  | through name hop =>
    have hdo := (s.facade name).perform_nullWrite hop s.host
    constructor <;> simp only [Machine.answer, Machine.next, machine, onHost, hdo]
  | directly handle hcall =>
    have hdo := handle.removesNull.perform hcall s.host
    constructor <;> simp only [Machine.answer, Machine.next, machine, onHost, hdo]

/-! ## Reads of null -/

/-- No read finds a null: nothing is read as absent, and nothing as null. -/
def Facade.ReadsNoNull {σ : Type} (db : Facade σ) (s : σ) : Prop :=
  ∀ key, (∀ {α : Type} (t : NativeType α), db.get key (.option t) s ≠ .ok none) ∧
    ∀ kind, db.getValue key kind s ≠ .ok .null

/-- A facade finds no null if its backend fetches none. -/
theorem Facade.readsNoNull_ofBackend {σ : Type} {b : Backend σ} {s : σ}
    (h : ∀ key kind, b.fetch key kind s ≠ .ok .null) : (ofBackend b).ReadsNoNull s := by
  intro key
  refine ⟨fun t hget => ?_, fun kind hget => ?_⟩
  · obtain ⟨v, hv, hread⟩ := get_eq_ok_iff.1 hget
    have hne : v ≠ .null := by rintro rfl; exact h key _ hv
    exact t.read_option_ne_none hne hread
  · obtain ⟨v, hv, hcoerce⟩ := getValue_eq_ok_iff.1 hget
    have hne : v ≠ .null := by rintro rfl; exact h key _ hv
    exact Value.coerce_ne_null hne hcoerce rfl

theorem Facade.readsNoNull_closed {σ : Type} (s : σ) : (⟨none⟩ : Facade σ).ReadsNoNull s :=
  fun _ => ⟨fun _ => nofun, fun _ => nofun⟩

/-- No null is fetched from images. -/
theorem ByteStore.fetch_ne_null {σ : Type} (store : ByteStore σ) (key : String) (kind : Kind)
    (s : σ) : store.packed.fetch key kind s ≠ .ok .null := by
  intro hfetch
  cases hg : store.get key s with
  | error e => rw [fetch_of_get_error hg] at hfetch; cases hfetch
  | ok found =>
    cases found with
    | none => rw [fetch_of_absent hg] at hfetch; cases hfetch
    | some bytes =>
      rw [fetch_of_image hg] at hfetch
      exact Image.decode_ne_null bytes kind (Except.mapError_eq_ok_iff.1 hfetch)

/-- No null is fetched from any engine while no map has one. -/
theorem Handle.fetch_ne_null (handle : Handle) {h : Host} (hh : h.NoNull) (key : String)
    (kind : Kind) : handle.backend.fetch key kind h ≠ .ok .null := by
  cases hs : handle.byteStore? with
  | some store => rw [backend_of_byteStore? hs]; exact store.fetch_ne_null key kind h
  | none =>
    cases handle with
    | map name =>
      intro hfetch
      exact hh name key ((ValueMap.fetch_eq_ok_iff key _ _).1 hfetch)
    | store | table | journal | environment | rows => cases hs

theorem Session.readsNoNull {s : Session} (hs : s.host.NoNull) (name : String) :
    (s.facade name).ReadsNoNull s.host := by
  cases hh : s.handle? name with
  | none => rw [facade, hh]; exact Facade.readsNoNull_closed _
  | some handle =>
    rw [facade, hh]
    exact Facade.readsNoNull_ofBackend (handle.fetch_ne_null hs)

/-! ## Absent keys -/

/-- Every read of the key says that it is not found. -/
def Facade.NotFound {σ : Type} (db : Facade σ) (key : String) (s : σ) : Prop :=
  (∀ {α : Type} (t : NativeType α), db.get key t s = .error (.keyNotFound key)) ∧
    ∀ kind, db.getValue key kind s = .error (.keyNotFound key)

theorem Facade.notFound_ofBackend {σ : Type} {b : Backend σ} {key : String} {s : σ}
    (h : ∀ kind, b.fetch key kind s = .error (.keyNotFound key)) : (ofBackend b).NotFound key s :=
  ⟨fun t => get_of_fetch_error (h t.kind), fun kind => getValue_of_fetch_error (h kind)⟩

/-- The key is absent from what the handle stands for, and the engine does not
    refuse to look for it. -/
def Handle.IsAbsent (handle : Handle) (key : String) (h : Host) : Prop :=
  (∃ name, handle = .map name ∧ (h.map name).get? key = none) ∨
    ∃ store, handle.byteStore? = some store ∧ store.get key h = .ok none

theorem Handle.fetch_of_isAbsent {handle : Handle} {key : String} {h : Host}
    (ha : handle.IsAbsent key h) (kind : Kind) :
    handle.backend.fetch key kind h = .error (.keyNotFound key) := by
  rcases ha with ⟨name, rfl, hmap⟩ | ⟨store, hs, hget⟩
  · exact (ValueMap.fetch_eq_error_iff key _ _).2 ⟨hmap, rfl⟩
  · rw [backend_of_byteStore? hs]
    exact ByteStore.fetch_of_absent hget

/-! ## Runs -/

/-- **A write of null is a removal.**  In any session and on any byte store at
    all, some of the writes of null can be exchanged for removals, and neither
    an answer changes nor the state in the end.  In every state of a session
    that is reached from empty maps, whatever else was on the host, no read
    finds a null, and a key that is absent is not found; the same holds of any
    byte store in any state. -/
theorem nullWrite_is_removal :
    (∀ (run run' : List (Step Session.Action)) (s : Session),
      Machine.Exchanged Session.Action.NullWrite run run' →
        Session.machine.answers run' s = Session.machine.answers run s ∧
        Session.machine.after run' s = Session.machine.after run s) ∧
    (∀ {σ : Type} (store : ByteStore σ) (run run' : List (Step Shared.Action)) (s : Shared σ),
      Machine.Exchanged Shared.Action.NullWrite run run' →
        (Shared.machine store.packed).answers run' s = (Shared.machine store.packed).answers run s ∧
        (Shared.machine store.packed).after run' s = (Shared.machine store.packed).after run s) ∧
    (∀ (host : Host) (run : List (Step Session.Action)),
      let s := Session.machine.after run { host := { host with maps := .empty } }
      (∀ name, (s.facade name).ReadsNoNull s.host) ∧
      (∀ (handle : Handle) key kind, handle.backend.fetch key kind s.host ≠ .ok .null) ∧
      (∀ name handle key, s.handle? name = some handle → handle.IsAbsent key s.host →
        (s.facade name).NotFound key s.host)) ∧
    (∀ {σ : Type} (store : ByteStore σ) (s : σ),
      (Facade.ofBackend store.packed).ReadsNoNull s ∧
      ∀ key, store.get key s = .ok none → (Facade.ofBackend store.packed).NotFound key s) := by
  refine ⟨fun run run' s h => ⟨?_, ?_⟩, fun store run run' s h => ⟨?_, ?_⟩, fun host run => ?_,
    fun store s => ⟨?_, fun key hget => ?_⟩⟩
  · exact Machine.answers_exchanged Session.same_of_nullWrite h s
  · exact Machine.after_exchanged Session.same_of_nullWrite h s
  · exact Machine.answers_exchanged (Shared.same_of_nullWrite store.removesNull_packed) h s
  · exact Machine.after_exchanged (Shared.same_of_nullWrite store.removesNull_packed) h s
  · intro s
    have hempty : Host.NoNull { host with maps := .empty } := fun _ _ => nofun
    have hs : s.host.NoNull := Session.noNull_after run hempty
    refine ⟨Session.readsNoNull hs, fun handle => handle.fetch_ne_null hs,
      fun name handle key hh ha => ?_⟩
    rw [Session.facade, hh]
    exact Facade.notFound_ofBackend (Handle.fetch_of_isAbsent ha)
  · exact Facade.readsNoNull_ofBackend fun key kind => store.fetch_ne_null key kind s
  · exact Facade.notFound_ofBackend fun kind => ByteStore.fetch_of_absent hget

/-- With a key that the engine refuses, a call below the facade, and a read in
    between. -/
theorem nullWrite_is_removal_byteMap :
    let run : List (Step Session.Action) := [⟨_, .openStore "db" "s"⟩,
      ⟨_, .through "db" (.set "!fail" (.present .absent))⟩, ⟨_, .through "db" (.get "k" .bool)⟩,
      ⟨_, .directly (.store "s") (.put "k" .null)⟩]
    let run' : List (Step Session.Action) := [⟨_, .openStore "db" "s"⟩,
      ⟨_, .through "db" (.remove "!fail")⟩, ⟨_, .through "db" (.get "k" .bool)⟩,
      ⟨_, .directly (.store "s") (.remove "k")⟩]
    let s := Session.machine.after run { host := { ({} : Host) with maps := .empty } }
    Machine.Exchanged Session.Action.NullWrite run run' ∧
    Session.machine.answers run' {} = Session.machine.answers run {} ∧
    (Shared.machine ByteMap.byteStore.packed).answers [⟨_, .directly (.remove "!fail")⟩]
        { store := .empty } =
      (Shared.machine ByteMap.byteStore.packed).answers [⟨_, .directly (.put "!fail" .null)⟩]
        { store := .empty } ∧
    (Handle.store "s").IsAbsent "k" s.host ∧
    (s.facade "db").NotFound "k" s.host ∧
    (Facade.ofBackend ByteMap.byteStore.packed).NotFound "k" .empty := by
  intro run run' s
  have hrun : Machine.Exchanged Session.Action.NullWrite run run' :=
    .cons (Or.inl rfl) (.cons (Or.inr (.through "db" (.set "!fail" rfl)))
      (.cons (Or.inl rfl) (.cons (Or.inr (.directly _ (.put "k"))) .nil)))
  have hshared : Machine.Exchanged Shared.Action.NullWrite [⟨_, .directly (.put "!fail" .null)⟩]
      [⟨_, .directly (.remove "!fail")⟩] :=
    .cons (Or.inr (.directly (.put "!fail"))) .nil
  have habsent : (Handle.store "s").IsAbsent "k" s.host := Or.inr ⟨_, rfl, rfl⟩
  exact ⟨hrun, (nullWrite_is_removal.1 run run' {} hrun).1,
    (nullWrite_is_removal.2.1 ByteMap.byteStore _ _ _ hshared).1, habsent,
    (nullWrite_is_removal.2.2.1 {} run).2.2 "db" _ "k" rfl habsent,
    (nullWrite_is_removal.2.2.2 ByteMap.byteStore .empty).2 "k" rfl⟩

end TypedStore
