/-
  TypedStore — every way to read comes to the same.

  A key is read as a native type, as a value of a kind, as an optional type,
  with a default, or with a slot for the error.

  * `NativeType.IsScalar.map_write_read`: a scalar type reads what coercion
    gives;
  * `Facade.ReadsAgree`: so reading as the type and reading as a value of its
    kind succeed and fail together, and what the other ways come to;
    `Facade.readsAgree` says so of every facade in every state;
  * `Facade.ReadsOptions`: an optional type is read as the type in it, where no
    null is fetched, as in every state that a session reaches;
  * `read_paths_agree`: all this, and that reads can be left out of a run.
-/
import TypedStore.Proofs.Coercion
import TypedStore.Proofs.NullWrite
import TypedStore.Proofs.Reachable

namespace TypedStore

variable {σ α : Type}

/-! ## Scalar types -/

namespace NativeType

/-- A type that is stored as what it is, neither a domain type nor optional. -/
def IsScalar : NativeType α → Prop
  | bool | int _ | float _ | text | blob => True
  | domain .. | option _ => False

theorem kind_ne_null (t : NativeType α) : t.kind ≠ .null := by
  induction t with
  | bool | int | float | text | blob => exact nofun
  | domain d placeholder ih => exact ih
  | option inner ih => exact ih

namespace IsScalar

variable {t : NativeType α} (ht : t.IsScalar)
include ht

theorem read_write (x : α) : t.read (t.write x) = .ok x := by
  cases t with
  | bool | text | blob => rfl
  | int k | float k => cases k <;> rfl
  | domain | option => exact ht.elim

theorem kind_write (x : α) : (t.write x).kind = t.kind := by
  cases t with
  | bool | int | float | text | blob => rfl
  | domain | option => exact ht.elim

theorem write_ne_null (x : α) : t.write x ≠ .null := by
  intro h
  have hkind := ht.kind_write x
  rw [h] at hkind
  exact t.kind_ne_null hkind.symm

theorem write_inj {x y : α} (h : t.write x = t.write y) : x = y := by
  have hread := ht.read_write x
  rw [h, ht.read_write] at hread
  exact (Except.ok.inj hread).symm

/-- The values of its kind are those that the type writes. -/
theorem exists_write {v : Value} (h : v.kind = t.kind) : ∃ x, v = t.write x := by
  cases t with
  | domain | option => exact ht.elim
  | bool | int k | float k | text | blob =>
    cases v <;> cases h
    exact ⟨_, rfl⟩

theorem read_null : t.read .null = .error (.mismatch t.kind .null) := by
  cases t with
  | bool | int k | float k | text | blob => rfl
  | domain | option => exact ht.elim

/-- **A scalar type reads what coercion gives**, and fails as coercion fails. -/
theorem map_write_read (v : Value) : (t.read v).map t.write = v.coerce t.kind := by
  by_cases hv : v = .null
  · subst hv
    rw [ht.read_null]
    exact (if_neg t.kind_ne_null.symm).symm
  · cases h : v.coerce t.kind with
    | error c =>
      rw [t.read_of_coerce_error hv h]
      rfl
    | ok w =>
      obtain ⟨x, rfl⟩ := ht.exists_write (Value.kind_of_coerce h)
      rw [t.read_congr hv (ht.write_ne_null x) (h.trans (Value.coerce_again h).symm),
        ht.read_write]
      rfl

end IsScalar

end NativeType

/-! ## Facades -/

/-- The errors that say that nothing of a type is there. -/
def StoreError.IsMiss (e : StoreError) : Prop :=
  (∃ key, e = .keyNotFound key) ∨ ∃ key c, e = .badValue key c

theorem StoreError.isRecoverable_iff {e : StoreError} : e.isRecoverable = true ↔ e.IsMiss := by
  cases e <;> simp [isRecoverable, «class», IsMiss]

namespace Facade

variable {db : Facade σ} {key : String} {s : σ}

/-- What the ways to read a key come to. -/
structure ReadsAgree (db : Facade σ) (key : String) (s : σ) : Prop where
  /-- As a scalar type, and as a value of its kind. -/
  value {α : Type} (t : NativeType α) (ht : t.IsScalar) :
    (∀ x, db.get key t s = .ok x ↔ db.getValue key t.kind s = .ok (t.write x)) ∧
      ∀ e, db.get key t s = .error e ↔ db.getValue key t.kind s = .error e
  /-- A value is of the kind that was asked for. -/
  kind (kind : Kind) (w : Value) : db.getValue key kind s = .ok w → w.kind = kind
  /-- With a default. -/
  default {α : Type} (t : NativeType α) (d : α) :
    (∀ x, db.get key t s = .ok x → db.getOr key t d s = .ok x) ∧
      ∀ e, db.get key t s = .error e →
        (e.IsMiss → db.getOr key t d s = .ok d) ∧ (¬ e.IsMiss → db.getOr key t d s = .error e)
  /-- With a slot for the error. -/
  slot {α : Type} [Inhabited α] (t : NativeType α) (slot : Option StoreError) :
    (∀ x, db.get key t s = .ok x → report (db.get key t s) slot = (x, slot)) ∧
      ∀ e, db.get key t s = .error e → report (db.get key t s) slot = (Inhabited.default, some e)

/-- As an optional type, a key is read as the type in it. -/
def ReadsOptions (db : Facade σ) (key : String) (s : σ) : Prop :=
  ∀ {α : Type} (t : NativeType α), db.get key (.option t) s = (db.get key t s).map some

/-- Reading a key as a scalar type is reading it as a value of its kind. -/
theorem map_write_get {t : NativeType α} (ht : t.IsScalar) (db : Facade σ) (key : String) (s : σ) :
    (db.get key t s).map t.write = db.getValue key t.kind s := by
  obtain ⟨backend⟩ := db
  cases backend with
  | none => rfl
  | some b =>
    show ((ofBackend b).get key t s).map t.write = (ofBackend b).getValue key t.kind s
    rw [get_ofBackend, getValue_ofBackend]
    cases b.fetch key t.kind s with
    | error e => rfl
    | ok v =>
      show ((t.read v).mapError (StoreError.badValue key)).map t.write =
        (v.coerce t.kind).mapError (StoreError.badValue key)
      rw [← ht.map_write_read v]
      cases t.read v <;> rfl

theorem kind_of_getValue {kind : Kind} {w : Value} (h : db.getValue key kind s = .ok w) :
    w.kind = kind := by
  obtain ⟨backend⟩ := db
  cases backend with
  | none => cases h
  | some b =>
    obtain ⟨v, -, hcoerce⟩ := getValue_eq_ok_iff.1 h
    exact Value.kind_of_coerce hcoerce

/-- **The ways to read a key agree**, over any facade and in any state. -/
theorem readsAgree (db : Facade σ) (key : String) (s : σ) : db.ReadsAgree key s where
  value t ht := by
    have hwrite := map_write_get ht db key s
    refine ⟨fun x => ⟨fun h => ?_, fun h => ?_⟩, fun e => ?_⟩
    · rw [← hwrite, h]
      rfl
    · rw [← hwrite] at h
      obtain ⟨y, hy, hxy⟩ := Except.map_eq_ok_iff.1 h
      rw [hy, ht.write_inj hxy]
    · rw [← hwrite, Except.map_eq_error_iff]
  kind _ _ h := kind_of_getValue h
  default t d := by
    refine ⟨fun x h => ?_, fun e h => ⟨fun he => ?_, fun he => ?_⟩⟩
    · rw [getOr, h]
    · simp only [getOr, h, StoreError.isRecoverable_iff.2 he, if_true]
    · simp only [getOr, h, mt StoreError.isRecoverable_iff.1 he, if_false, Bool.false_eq_true]
  slot t slot := by
    refine ⟨fun x h => ?_, fun e h => ?_⟩ <;> rw [h] <;> rfl

/-- Where no null is fetched, only what is there is read as optional. -/
theorem readsOptions_ofBackend {b : Backend σ}
    (h : ∀ key kind, b.fetch key kind s ≠ .ok .null) : (ofBackend b).ReadsOptions key s := by
  intro α t
  rw [get_ofBackend, get_ofBackend, NativeType.kind]
  cases hv : b.fetch key t.kind s with
  | error e => rfl
  | ok v =>
    have hnull : v ≠ .null := by
      rintro rfl
      exact h key _ hv
    show ((NativeType.option t).read v).mapError (StoreError.badValue key) =
      ((t.read v).mapError (StoreError.badValue key)).map some
    rw [t.read_option hnull]
    cases t.read v <;> rfl

end Facade

/-! ## Sessions -/

namespace Session

variable {s : Session}

theorem Reachable.noNull (hs : s.Reachable) : s.host.NoNull := by
  induction hs with
  | start => exact fun _ _ => nofun
  | next i _ _ ih => exact noNull_next i _ ih

/-- Every facade reads optional types as what is in them, whatever it is open
    on, or closed. -/
theorem Reachable.readsOptions (hs : s.Reachable) (name key : String) :
    (s.facade name).ReadsOptions key s.host := by
  cases hh : s.handle? name with
  | none =>
    rw [facade_of_closed hh]
    exact fun _ => rfl
  | some handle =>
    rw [facade_of_handle? hh]
    exact Facade.readsOptions_ofBackend (handle.fetch_ne_null hs.noNull)

/-- A read through a facade. -/
inductive IsRead : Step Action → Prop where
  | through {α : Type} (name : String) {op : Operation α} :
    op.change? = none → IsRead ⟨_, .through name op⟩

theorem next_of_isRead {i : Step Action} (hi : IsRead i) (s : Session) : machine.next i s = s := by
  obtain @⟨α, name, op, hop⟩ := hi
  show { s with host := ((s.facade name).perform op s.host).2 } = s
  rw [Facade.perform_read _ hop]

end Session

/-! ## Agreement -/

/-- **All ways to read agree.**  Over any facade, open or closed, and in any
    state: a key is read as a scalar type exactly if the value of its kind is
    what the type writes, and both fail with one error; a value has the kind
    that was asked for; a default stands in for a key that is not found and for
    a bad value, and for nothing else; and an error is put into the slot
    together with the default of the type.

    In every state that a session reaches, and over every byte store, an
    optional type is read as the type in it.  Reads change nothing, so that
    they can be left out of any run without changing the other answers. -/
theorem read_paths_agree :
    (∀ {σ : Type} (db : Facade σ) (key : String) (s : σ), db.ReadsAgree key s) ∧
    (∀ s : Session, s.Reachable → ∀ name key, (s.facade name).ReadsOptions key s.host) ∧
    (∀ {σ : Type} (store : ByteStore σ) (key : String) (s : σ),
      (Facade.ofBackend store.packed).ReadsOptions key s) ∧
    (∀ (run : List (Step Session.Action)) (p : Step Session.Action → Bool) (s : Session),
      (∀ i ∈ run, p i = false → Session.IsRead i) →
      Session.machine.answers (run.filter p) s = Session.machine.answersOf p run s ∧
        Session.machine.after (run.filter p) s = Session.machine.after run s) ∧
    ∀ {σ : Type} (db : Facade σ) (run : List (Step Operation)) (p : Step Operation → Bool) (s : σ),
      (∀ i ∈ run, p i = false → i.2.change? = none) →
      db.machine.answers (run.filter p) s = db.machine.answersOf p run s ∧
        db.machine.after (run.filter p) s = db.machine.after run s := by
  refine ⟨Facade.readsAgree, fun s hs => hs.readsOptions, fun store key s => ?_,
    fun run p s hrun => ?_, fun db run p s hrun => ?_⟩
  · exact Facade.readsOptions_ofBackend fun key kind => store.fetch_ne_null key kind s
  · exact Session.machine.answers_filter
      (fun i hi hp => Session.next_of_isRead (hrun i hi hp)) s
  · exact db.machine.answers_filter
      (fun i hi hp => Facade.perform_read db (hrun i hi hp)) s

/-- A number stored in single precision and read in double precision, a key
    that is absent, a closed facade, and a run without its reads. -/
theorem read_paths_agree_widened :
    let run : List (Step Session.Action) := [⟨_, .openStore "db" "s"⟩,
      ⟨_, .through "db" (.get "k" .bool)⟩,
      ⟨_, .putImage "s" "k" (Image.ofWord 4 0x3FC00000)⟩]
    let writes : Step Session.Action → Bool := fun i => match i.2 with
      | .through _ op => op.change?.isSome
      | _ => true
    let s := Session.machine.after run {}
    let db := s.facade "db"
    let x := FloatKind.f32.convert .f64 0x3FC00000#32
    s.Reachable ∧ (NativeType.float .f64).IsScalar ∧
      db.getValue "k" (.float .f64) s.host = .ok (.float .f64 x) ∧
      db.get "k" (.float .f64) s.host = .ok x ∧
      db.get "k" (.option (.float .f64)) s.host = .ok (some x) ∧
      db.getOr "absent" .bool true s.host = .ok true ∧
      Facade.report ((s.facade "other").get "k" .text s.host) none = ("", some .closed) ∧
      Session.machine.after (run.filter writes) {} = s := by
  intro run writes s db x
  have hs : s.Reachable := .next _ (.next _ (.next _ .start trivial) trivial) trivial
  have hscalar : (NativeType.float .f64).IsScalar := trivial
  have hne : FloatKind.f32 ≠ .f64 := nofun
  have hvalue : db.getValue "k" (.float .f64) s.host = .ok (.float .f64 x) :=
    Facade.getValue_eq_ok_iff.2 ⟨.float .f32 0x3FC00000#32, rfl, Value.coerce_float_of_ne hne _⟩
  have habsent : db.get "absent" .bool s.host = .error (.keyNotFound "absent") := rfl
  have hclosed : (s.facade "other").get "k" .text s.host = .error .closed := rfl
  have hreads : ∀ i ∈ run, writes i = false → Session.IsRead i := by
    intro i hi hwrites
    simp only [run, List.mem_cons, List.not_mem_nil, or_false] at hi
    rcases hi with rfl | rfl | rfl
    · exact absurd hwrites Bool.noConfusion
    · exact .through "db" rfl
    · exact absurd hwrites Bool.noConfusion
  have hget : db.get "k" (.float .f64) s.host = .ok x :=
    ((read_paths_agree.1 db "k" s.host).value (.float .f64) hscalar).1 x |>.2 hvalue
  have hoption : db.get "k" (.option (.float .f64)) s.host = .ok (some x) :=
    (read_paths_agree.2.1 s hs "db" "k" (.float .f64)).trans (congrArg (Except.map some) hget)
  have hdefault : db.getOr "absent" .bool true s.host = .ok true :=
    (((read_paths_agree.1 db "absent" s.host).default .bool true).2 _ habsent).1 (Or.inl ⟨_, rfl⟩)
  have hslot : Facade.report ((s.facade "other").get "k" .text s.host) none = ("", some .closed) :=
    ((read_paths_agree.1 (s.facade "other") "k" s.host).slot .text none).2 _ hclosed
  have hrun : Session.machine.after (run.filter writes) {} = s :=
    (read_paths_agree.2.2.2.1 run writes {} hreads).2
  exact ⟨hs, hscalar, hvalue, hget, hoption, hdefault, hslot, hrun⟩

end TypedStore
