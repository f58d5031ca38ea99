/-
  TypedStore — what an operation on one key depends on, and what it leaves
  alone.

  A backend is local if a call with a key is answered by what is under that
  key, whatever else is stored.  What the call changes is told by
  `Backend.Records`.

  * `Backend.isLocal_tagged`, `ByteStore.IsLocal.packed`: a map of values is
    local, and a store of images is if its engine is;
  * `Backend.IsLocal.answer_eq`: so is every operation of a facade on it;
  * `Backend.Records.view_other`, `Backend.Records.view_congr`: an operation on
    one key leaves the others alone, and what it makes of its own key depends
    on nothing else.
-/
import TypedStore.Proofs.Packed
import TypedStore.Proofs.ValueMap

namespace TypedStore

variable {σ α β : Type}

/-- The key that an operation is on; clearing is on all keys. -/
def Operation.key? : Operation α → Option String
  | set key _ | setBytes key _ | remove key | get key _ | getOr key _ _ | getValue key _ => some key
  | clear => none

/-- Whether a change succeeds, and why not. -/
def outcome (result : Except StoreError σ) : Except StoreError Unit := result.map fun _ => ()

theorem settle_fst (s : σ) (result : Except StoreError σ) :
    (settle s result).1 = outcome result := by
  cases result <;> rfl

/-! ## Local backends -/

/-- What a call with a key answers depends on what is under the key alone. -/
structure Backend.IsLocal (b : Backend σ) (view : σ → String → Option β) : Prop where
  put {key v s t} : view s key = view t key → outcome (b.put key v s) = outcome (b.put key v t)
  fetch {key kind s t} : view s key = view t key → b.fetch key kind s = b.fetch key kind t
  remove {key s t} : view s key = view t key → outcome (b.remove key s) = outcome (b.remove key t)

/-- Whether the engine refuses a call with a key, and what it finds, depends on
    what is under the key alone. -/
structure ByteStore.IsLocal (store : ByteStore σ) (view : σ → String → Option ByteArray) :
    Prop where
  put {key bytes s t} : view s key = view t key →
    outcome (store.put key bytes s) = outcome (store.put key bytes t)
  get {key s t} : view s key = view t key → store.get key s = store.get key t
  delete {key s t} : view s key = view t key →
    outcome (store.delete key s) = outcome (store.delete key t)

theorem Backend.isLocal_tagged (name : String) :
    (tagged name).IsLocal (fun m key => m.get? key) where
  put _ := rfl
  fetch {key kind m m'} h := by
    have h : m.get? key = m'.get? key := h
    simp only [tagged, ValueMap.fetch, h]
  remove _ := rfl

/-- Refusing some keys is local. -/
theorem ByteStore.isLocal_plain (name : String) (refuses : String → Bool)
    (refusal : String → StoreError) :
    (plain name refuses refusal).IsLocal (fun m key => m.get? key) where
  put {key bytes m m'} _ := by
    simp only [plain]
    cases refuses key <;> rfl
  get {key m m'} h := by
    have h : m.get? key = m'.get? key := h
    simp only [plain, h]
  delete {key m m'} _ := by
    simp only [plain]
    cases refuses key <;> rfl

/-- Packing keeps locality. -/
theorem ByteStore.IsLocal.packed {store : ByteStore σ} {view : σ → String → Option ByteArray}
    (h : store.IsLocal view) : store.packed.IsLocal view where
  put {key v s t} hview := by
    simp only [ByteStore.packed, putValue]
    cases Image.encode v with
    | none => exact h.delete hview
    | some bytes => exact h.put hview
  fetch {key kind s t} hview := by
    simp only [ByteStore.packed, fetchValue, h.get hview]
  remove hview := h.delete hview

/-! ## Operations on one key -/

namespace Backend.IsLocal

variable {b : Backend σ} {view : σ → String → Option β} (h : b.IsLocal view)
include h

theorem outcome_set {key : String} {v : Value} {s t : σ} (hview : view s key = view t key) :
    outcome ((Facade.ofBackend b).set key v s) = outcome ((Facade.ofBackend b).set key v t) := by
  rw [Facade.set_ofBackend, Facade.set_ofBackend]
  cases v.isNull with
  | true => exact h.remove hview
  | false => exact h.put hview

theorem get_eq {key : String} {t : NativeType α} {s u : σ} (hview : view s key = view u key) :
    (Facade.ofBackend b).get key t s = (Facade.ofBackend b).get key t u := by
  rw [Facade.get_ofBackend, Facade.get_ofBackend, h.fetch hview]

/-- What an operation on a key answers depends on what is under the key. -/
theorem answer_eq {op : Operation α} {key : String} {s t : σ} (hkey : op.key? = some key)
    (hview : view s key = view t key) :
    ((Facade.ofBackend b).perform op s).1 = ((Facade.ofBackend b).perform op t).1 := by
  cases op with
  | set | setBytes =>
    cases hkey
    simp only [Facade.perform, settle_fst]
    exact h.outcome_set hview
  | remove =>
    cases hkey
    simp only [Facade.perform, settle_fst]
    exact h.remove hview
  | clear => cases hkey
  | get =>
    cases hkey
    exact h.get_eq hview
  | getOr =>
    cases hkey
    simp only [Facade.perform, Facade.getOr, h.get_eq hview]
  | getValue =>
    cases hkey
    simp only [Facade.perform, Facade.getValue_ofBackend, h.fetch hview]

end Backend.IsLocal

/-- An operation that changes something on one key touches no other. -/
theorem Operation.not_touches {op : Operation α} {key other : String} {c : Change}
    (hkey : op.key? = some key) (hc : op.change? = some c) (hne : other ≠ key) :
    ¬ c.Touches other := by
  cases op with
  | set | setBytes | remove =>
    cases hkey
    cases hc
    exact hne.symm
  | clear => cases hkey
  | get | getOr | getValue => cases hc

namespace Backend.Records

variable {b : Backend σ} {view : σ → String → Option β} {image : Value → Option β}
  (h : b.Records view image)
include h

/-- An operation on a key leaves the other keys alone. -/
theorem view_other {op : Operation α} {key other : String} (hkey : op.key? = some key)
    (hne : other ≠ key) (s : σ) :
    view ((Facade.ofBackend b).perform op s).2 other = view s other := by
  cases hok : ((Facade.ofBackend b).perform op s).1.isOk with
  | false => rw [Facade.perform_of_not_isOk _ op s hok]
  | true =>
    rw [h.view_perform op s other hok]
    cases hc : op.change? with
    | none => rfl
    | some c => exact Change.apply_of_not_touches (op.not_touches hkey hc hne) _

/-- What an operation makes of its key depends on what is under the key. -/
theorem view_congr (hlocal : b.IsLocal view) {op : Operation α} {key : String} {s t : σ}
    (hkey : op.key? = some key) (hview : view s key = view t key) :
    view ((Facade.ofBackend b).perform op s).2 key =
      view ((Facade.ofBackend b).perform op t).2 key := by
  have hanswer := hlocal.answer_eq hkey hview
  cases hok : ((Facade.ofBackend b).perform op s).1.isOk with
  | false =>
    rw [Facade.perform_of_not_isOk _ op s hok, Facade.perform_of_not_isOk _ op t (hanswer ▸ hok),
      hview]
  | true =>
    rw [h.view_perform op s key hok, h.view_perform op t key (hanswer ▸ hok), hview]

end Backend.Records

end TypedStore
