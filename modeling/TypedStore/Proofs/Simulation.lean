/-
  TypedStore — backends that answer alike in related states.

  * `Backend.Simulates`: from related states the calls of a backend answer the
    same as those of another one, and leave related states;
  * `ByteStore.Simulates.packed`, `Backend.Simulates.perform`: packing keeps
    this, and then the operations of facades answer the same.
-/
import TypedStore.Proofs.Facade

namespace TypedStore

variable {σ τ : Type}

/-- Two results of a change: related states, or one error. -/
inductive Matches (R : σ → τ → Prop) : Except StoreError σ → Except StoreError τ → Prop where
  | ok {s : σ} {t : τ} : R s t → Matches R (.ok s) (.ok t)
  | error (e : StoreError) : Matches R (.error e) (.error e)

/-- From related states the calls of both backends answer the same, and leave
    related states. -/
structure Backend.Simulates (b : Backend σ) (b' : Backend τ) (R : σ → τ → Prop) : Prop where
  put {key v s t} : R s t → Matches R (b.put key v s) (b'.put key v t)
  fetch {key kind s t} : R s t → b.fetch key kind s = b'.fetch key kind t
  remove {key s t} : R s t → Matches R (b.remove key s) (b'.remove key t)
  clear {s t} : R s t → Matches R (b.clear s) (b'.clear t)

/-- From related states both byte stores find the same, and changes leave
    related states. -/
structure ByteStore.Simulates (store : ByteStore σ) (store' : ByteStore τ) (R : σ → τ → Prop) :
    Prop where
  put {key bytes s t} : R s t → Matches R (store.put key bytes s) (store'.put key bytes t)
  get {key s t} : R s t → store.get key s = store'.get key t
  delete {key s t} : R s t → Matches R (store.delete key s) (store'.delete key t)
  truncate {s t} : R s t → Matches R (store.truncate s) (store'.truncate t)

variable {R : σ → τ → Prop}

theorem Matches.settle {x : Except StoreError σ} {y : Except StoreError τ} (h : Matches R x y)
    {s : σ} {t : τ} (hst : R s t) :
    (settle s x).1 = (settle t y).1 ∧ R (settle s x).2 (settle t y).2 := by
  cases h with
  | ok h => exact ⟨rfl, h⟩
  | error e => exact ⟨rfl, hst⟩

/-- Packing keeps this. -/
theorem ByteStore.Simulates.packed {store : ByteStore σ} {store' : ByteStore τ}
    (h : store.Simulates store' R) : store.packed.Simulates store'.packed R where
  put {key v s t} hst := by
    show Matches R (store.putValue key v s) (store'.putValue key v t)
    unfold putValue
    cases Image.encode v with
    | none => exact h.delete hst
    | some bytes => exact h.put hst
  fetch {key kind s t} hst := by
    show store.fetchValue key kind s = store'.fetchValue key kind t
    unfold fetchValue
    rw [h.get hst]
  remove hst := h.delete hst
  clear hst := h.truncate hst

namespace Backend.Simulates

variable {b : Backend σ} {b' : Backend τ} (h : b.Simulates b' R) {α : Type} {s : σ} {t : τ}
include h

theorem set (key : String) (v : Value) (hst : R s t) :
    Matches R ((Facade.ofBackend b).set key v s) ((Facade.ofBackend b').set key v t) := by
  rw [Facade.set_ofBackend, Facade.set_ofBackend]
  cases v.isNull with
  | true => exact h.remove hst
  | false => exact h.put hst

theorem get (key : String) (type : NativeType α) (hst : R s t) :
    (Facade.ofBackend b).get key type s = (Facade.ofBackend b').get key type t := by
  rw [Facade.get_ofBackend, Facade.get_ofBackend, h.fetch hst]

/-- Operations of facades on both answer the same, and leave related states. -/
theorem perform (op : Operation α) (hst : R s t) :
    ((Facade.ofBackend b).perform op s).1 = ((Facade.ofBackend b').perform op t).1 ∧
      R ((Facade.ofBackend b).perform op s).2 ((Facade.ofBackend b').perform op t).2 := by
  cases op with
  | set key p => exact (h.set key p.toValue hst).settle hst
  | setBytes key bytes => exact (h.set key _ hst).settle hst
  | remove key => exact (h.remove hst).settle hst
  | clear => exact (h.clear hst).settle hst
  | get key type => exact ⟨h.get key type hst, hst⟩
  | getOr key type default =>
    refine ⟨?_, hst⟩
    simp only [Facade.perform, Facade.getOr, h.get key type hst]
  | getValue key kind =>
    refine ⟨?_, hst⟩
    simp only [Facade.perform, Facade.getValue_ofBackend, h.fetch hst]

end Backend.Simulates

end TypedStore
