/-
  TypedStore — what owners of one backend see of each other.

  Any number of facades own references to one backend and work on it in any
  order, while they are made, turned into plain ones, moved and closed.

  * `Owners.answers_heard`, `Owners.after_heard`: what reaches the backend is
    answered as if one facade had asked for all of it;
  * `Owners.Alike.run`: owners that look alike to some names go on so, so that
    what happens to the other facades does not matter;
  * `Owners.alone`: owners that keep to keys of their own are answered as if
    each were alone;
  * `owners_act_as_one`: all this, with what follows for two runs in which
    each facade does the same.
-/
import Mathlib
import TypedStore.Owners
import TypedStore.Proofs.Locality

namespace TypedStore

variable {σ β : Type}

namespace Owner

@[simp] theorem facade_ofBackend (b : Backend σ) (isSync : Bool) :
    (ofBackend b isSync).facade = .ofBackend b := by
  cases isSync <;> rfl

@[simp] theorem facade_toPlain (o : Owner σ) : o.toPlain.facade = o.facade := by cases o <;> rfl

@[simp] theorem facade_close (o : Owner σ) : o.close.facade = ⟨none⟩ := by cases o <;> rfl

end Owner

namespace Owners

/-! ## Owners of a backend -/

/-- A facade that is closed or works on the backend. -/
def IsOn (b : Backend σ) (db : Facade σ) : Prop := db = .ofBackend b ∨ db = ⟨none⟩

/-- Every facade is closed or works on the backend. -/
def On (b : Backend σ) (s : Owners σ) : Prop := ∀ name, IsOn b (s.owner name).facade

variable {b : Backend σ} {s t : Owners σ}

/-- At first no facade is open. -/
theorem on_start (store : σ) : On b { store } := fun _ => Or.inr rfl

theorem owner_hold_of_ne {name other : String} (h : other ≠ name) (o : Owner σ) :
    (s.hold name o).owner other = s.owner other := if_neg h

theorem On.hold (hs : s.On b) {name : String} {o : Owner σ} (ho : IsOn b o.facade) :
    (s.hold name o).On b := by
  intro other
  show IsOn b (if other = name then o else s.owner other).facade
  split
  · exact ho
  · exact hs other

/-- Whatever owners do, they keep to the backend. -/
theorem On.next (hs : s.On b) (i : Step Action) : ((machine b).next i s).On b := by
  obtain ⟨α, action⟩ := i
  cases action with
  | own name isSync => exact hs.hold (Or.inl (Owner.facade_ofBackend _ _))
  | toPlain name => exact hs.hold ((Owner.facade_toPlain _).symm ▸ hs name)
  | close name => exact hs.hold (Or.inr (Owner.facade_close _))
  | take source target => exact (hs.hold (Or.inr (Owner.facade_close _))).hold (hs source)
  | through name op => exact hs

theorem On.after (hs : s.On b) (run : List (Step Action)) : ((machine b).after run s).On b :=
  (machine b).after_invariant (fun i _ h => h.next i) run hs

/-! ## What reaches the backend -/

/-- The operation that reaches the backend in an action: what is asked of a
    closed facade does not. -/
def reaching? (s : Owners σ) : Step Action → Option (Step Operation)
  | ⟨_, .through name op⟩ => if (s.owner name).facade.isOpen then some ⟨_, op⟩ else none
  | ⟨_, .own ..⟩ | ⟨_, .toPlain _⟩ | ⟨_, .close _⟩ | ⟨_, .take ..⟩ => none

/-- The operations of a run that reach the backend, in order and with their
    answers. -/
def heard (b : Backend σ) : List (Step Action) → Owners σ → List (Step Operation × Answer)
  | [], _ => []
  | i :: rest, s =>
    match s.reaching? i with
    | some op => (op, (machine b).answer i s) :: heard b rest ((machine b).next i s)
    | none => heard b rest ((machine b).next i s)

/-- What reaches the backend is done as by one facade. -/
theorem On.next_of_reaching (hs : s.On b) {i : Step Action} {op : Step Operation}
    (h : s.reaching? i = some op) :
    (machine b).answer i s = (Facade.ofBackend b).machine.answer op s.store ∧
      ((machine b).next i s).store = (Facade.ofBackend b).machine.next op s.store := by
  obtain ⟨α, action⟩ := i
  cases action with
  | own | toPlain | close | take => cases h
  | through name op =>
    rcases hs name with hdb | hdb
    · simp only [reaching?, hdb] at h
      cases h
      simp only [Machine.answer, Machine.next, machine, Facade.machine, hdb, and_self]
    · simp only [reaching?, hdb] at h
      cases h

/-- What does not reach the backend leaves the store alone. -/
theorem store_of_not_reaching {i : Step Action} (h : s.reaching? i = none) :
    ((machine b).next i s).store = s.store := by
  obtain ⟨α, action⟩ := i
  cases action with
  | own | toPlain | close | take => rfl
  | through name op =>
    cases hdb : (s.owner name).facade with
    | mk backend =>
      cases backend with
      | some b => simp [reaching?, hdb, Facade.isOpen] at h
      | none => simp only [Machine.next, machine, hdb, Facade.perform_closed]

/-- What is asked of a closed facade is refused, and does nothing. -/
theorem act_closed {α : Type} {name : String} (op : Operation α)
    (h : (s.owner name).facade.isOpen = false) :
    (machine b).act (.through name op) s = (.error .closed, s) := by
  cases hdb : (s.owner name).facade with
  | mk backend =>
    cases backend with
    | some b => rw [hdb] at h; cases h
    | none => simp only [machine, hdb, Facade.perform_closed]

/-- One facade gives all the answers that owners hear. -/
theorem On.answers_heard (hs : s.On b) (run : List (Step Action)) :
    (Facade.ofBackend b).machine.answers ((heard b run s).map Prod.fst) s.store =
      (heard b run s).map Prod.snd := by
  induction run generalizing s with
  | nil => rfl
  | cons i run ih =>
    rw [heard]
    cases h : s.reaching? i with
    | none =>
      rw [← store_of_not_reaching (b := b) h]
      exact ih (hs.next i)
    | some op =>
      obtain ⟨hanswer, hstore⟩ := hs.next_of_reaching h
      simp only [List.map_cons, Machine.answers, ← hanswer, ← hstore, ih (hs.next i)]

/-- One facade leaves the same store. -/
theorem On.after_heard (hs : s.On b) (run : List (Step Action)) :
    (Facade.ofBackend b).machine.after ((heard b run s).map Prod.fst) s.store =
      ((machine b).after run s).store := by
  induction run generalizing s with
  | nil => rfl
  | cons i run ih =>
    rw [heard, Machine.after_cons]
    cases h : s.reaching? i with
    | none =>
      rw [← store_of_not_reaching (b := b) h]
      exact ih (hs.next i)
    | some op =>
      obtain ⟨-, hstore⟩ := hs.next_of_reaching h
      simp only [List.map_cons, Machine.after_cons, ← hstore, ih (hs.next i)]

/-! ## Owners that look alike -/

/-- Two states whose stores are related, and whose facades of some names are
    the same but for their form. -/
structure Alike (R : σ → σ → Prop) (names : Set String) (s t : Owners σ) : Prop where
  store : R s.store t.store
  facade : ∀ name ∈ names, (s.owner name).facade = (t.owner name).facade

/-- What is asked of the backend in an action is answered alike in related
    stores, and leaves them related. -/
def Respects (b : Backend σ) (R : σ → σ → Prop) : Step Action → Prop
  | ⟨_, .through _ op⟩ => ∀ db s t, IsOn b db → R s t →
    (db.perform op s).1 = (db.perform op t).1 ∧ R (db.perform op s).2 (db.perform op t).2
  | ⟨_, .own ..⟩ | ⟨_, .toPlain _⟩ | ⟨_, .close _⟩ | ⟨_, .take ..⟩ => True

theorem respects_eq (b : Backend σ) (i : Step Action) : Respects b Eq i := by
  obtain ⟨α, action⟩ := i
  cases action with
  | own | toPlain | close | take => trivial
  | through name op =>
    rintro db s t - rfl
    exact ⟨rfl, rfl⟩

section
variable {R : σ → σ → Prop} {names : Set String}

theorem Alike.hold (h : Alike R names s t) {name : String} {o o' : Owner σ}
    (ho : o.facade = o'.facade) : Alike R names (s.hold name o) (t.hold name o') where
  store := h.store
  facade := by
    intro other hother
    show (if other = name then o else s.owner other).facade =
      (if other = name then o' else t.owner other).facade
    split
    · exact ho
    · exact h.facade other hother

/-- An action on facades that look alike is answered alike. -/
theorem Alike.step (h : Alike R names s t) (hs : s.On b) {i : Step Action}
    (hi : ∀ name, concerns name i = true → name ∈ names) (hR : Respects b R i) :
    (machine b).answer i s = (machine b).answer i t ∧
      Alike R names ((machine b).next i s) ((machine b).next i t) := by
  obtain ⟨α, action⟩ := i
  cases action with
  | own name isSync => exact ⟨rfl, h.hold rfl⟩
  | toPlain name =>
    have hname : name ∈ names := hi name (by simp [concerns])
    exact ⟨rfl, h.hold (by simp only [Owner.facade_toPlain, h.facade name hname])⟩
  | close name => exact ⟨rfl, h.hold (by simp only [Owner.facade_close])⟩
  | take source target =>
    have hsource : source ∈ names := hi source (by simp [concerns])
    exact ⟨rfl, (h.hold (by simp only [Owner.facade_close])).hold (h.facade source hsource)⟩
  | through name op =>
    have hname : name ∈ names := hi name (by simp [concerns])
    obtain ⟨hanswer, hstore⟩ := hR _ s.store t.store (hs name) h.store
    rw [Machine.answer, Machine.answer, Machine.next, Machine.next]
    simp only [machine, ← h.facade name hname, hanswer, true_and]
    exact ⟨hstore, h.facade⟩

/-- **A run on facades that look alike is answered alike.** -/
theorem Alike.run (h : Alike R names s t) (hs : s.On b) {run : List (Step Action)}
    (hrun : ∀ i ∈ run, (∀ name, concerns name i = true → name ∈ names) ∧ Respects b R i) :
    (machine b).answers run s = (machine b).answers run t ∧
      Alike R names ((machine b).after run s) ((machine b).after run t) := by
  induction run generalizing s t with
  | nil => exact ⟨rfl, h⟩
  | cons i run ih =>
    obtain ⟨hi, hR⟩ := hrun i List.mem_cons_self
    obtain ⟨hanswer, hnext⟩ := h.step hs hi hR
    obtain ⟨hanswers, hafter⟩ := ih hnext (hs.next i) fun j hj => hrun j (List.mem_cons_of_mem i hj)
    exact ⟨by rw [Machine.answers, Machine.answers, hanswer, hanswers], hafter⟩

/-- An action on other facades is not seen, if the stores stay related. -/
theorem Alike.other (h : Alike R names s t) {i : Step Action}
    (hi : ∀ name ∈ names, concerns name i = false)
    (hstore : R ((machine b).next i s).store t.store) :
    Alike R names ((machine b).next i s) t where
  store := hstore
  facade := by
    intro name hname
    rw [← h.facade name hname]
    have hi := hi name hname
    obtain ⟨α, action⟩ := i
    cases action with
    | own other | toPlain other | close other =>
      simp only [concerns, decide_eq_false_iff_not] at hi
      exact congrArg Owner.facade (owner_hold_of_ne (Ne.symm hi) _)
    | take source target =>
      simp only [concerns, Bool.or_eq_false_iff, decide_eq_false_iff_not] at hi
      exact congrArg Owner.facade
        ((owner_hold_of_ne (Ne.symm hi.2) _).trans (owner_hold_of_ne (Ne.symm hi.1) _))
    | through => rfl

end

/-! ## Making, moving and closing facades -/

/-- An action that asks nothing of the backend. -/
def Action.IsLifecycle {α : Type} : Action α → Prop
  | own .. | toPlain _ | close _ | take .. => True
  | through .. => False

theorem store_of_isLifecycle {i : Step Action} (hi : i.2.IsLifecycle) :
    ((machine b).next i s).store = s.store := by
  obtain ⟨α, action⟩ := i
  cases action with
  | own | toPlain | close | take => rfl
  | through => exact hi.elim

/-- Making, moving or closing a facade changes nothing for the others. -/
theorem On.run_lifecycle (hs : s.On b) {i : Step Action} (hi : i.2.IsLifecycle)
    {run : List (Step Action)}
    (hrun : ∀ j ∈ run, ∀ name, concerns name j = true → concerns name i = false) :
    (machine b).answers run ((machine b).next i s) = (machine b).answers run s ∧
      ((machine b).after run ((machine b).next i s)).store = ((machine b).after run s).store := by
  have halike : Alike Eq {name | concerns name i = false} ((machine b).next i s) s :=
    Alike.other ⟨rfl, fun _ _ => rfl⟩ (fun _ h => h) (store_of_isLifecycle hi)
  obtain ⟨hanswers, hafter⟩ := halike.run (hs.next i) fun j hj =>
    ⟨hrun j hj, respects_eq b j⟩
  exact ⟨hanswers, hafter.store⟩

/-- Turning a facade into a plain one changes nothing, not even for itself. -/
theorem On.run_toPlain (hs : s.On b) (name : String) (run : List (Step Action)) :
    (machine b).answers run ((machine b).next ⟨_, .toPlain name⟩ s) = (machine b).answers run s ∧
      ((machine b).after run ((machine b).next ⟨_, .toPlain name⟩ s)).store =
        ((machine b).after run s).store := by
  have halike : Alike Eq Set.univ ((machine b).next ⟨_, .toPlain name⟩ s) s := by
    refine ⟨rfl, fun other _ => ?_⟩
    show (if other = name then (s.owner name).toPlain else s.owner other).facade = _
    split
    · next h => rw [Owner.facade_toPlain, h]
    · rfl
  obtain ⟨hanswers, hafter⟩ := halike.run (hs.next _) fun j _ =>
    ⟨fun _ _ => Set.mem_univ _, respects_eq b j⟩
  exact ⟨hanswers, hafter.store⟩

/-! ## Owners that keep to keys of their own -/

/-- An action on one facade, in which only its own keys are worked with and
    not all keys are removed. -/
def Action.Within {α : Type} (K : String → Set String) : Action α → Prop
  | own .. | toPlain _ | close _ => True
  | take .. => False
  | through name op => ∃ key ∈ K name, op.key? = some key

/-- Two stores show the same under some keys. -/
def AgreeOn (view : σ → String → Option β) (keys : Set String) (s t : σ) : Prop :=
  ∀ key ∈ keys, view s key = view t key

/-- Everyone has keys of their own. -/
abbrev AreApart (K : String → Set String) : Prop := Pairwise (Function.onFun Disjoint K)

section
variable {view : σ → String → Option β} {image : Value → Option β} {K : String → Set String}
  (hrecords : b.Records view image)
include hrecords

/-- Operations on a key leave the other keys alone, open or closed. -/
theorem view_perform_other {α : Type} {db : Facade σ} (hdb : IsOn b db) {op : Operation α}
    {key other : String} (hkey : op.key? = some key) (hne : other ≠ key) (store : σ) :
    view (db.perform op store).2 other = view store other := by
  rcases hdb with rfl | rfl
  · exact hrecords.view_other hkey hne store
  · rw [Facade.perform_closed]

theorem respects_agreeOn (hlocal : b.IsLocal view) {i : Step Action} {name : String}
    (hi : i.2.Within K) (hname : concerns name i = true) :
    Respects b (AgreeOn view (K name)) i := by
  obtain ⟨α, action⟩ := i
  cases action with
  | own | toPlain | close | take => trivial
  | through other op =>
    simp only [concerns, decide_eq_true_eq] at hname
    subst hname
    obtain ⟨key, hmem, hkey⟩ := hi
    intro db s t hdb hagree
    refine ⟨?_, fun other hother => ?_⟩
    · rcases hdb with rfl | rfl
      · exact hlocal.answer_eq hkey (hagree key hmem)
      · rw [Facade.perform_closed, Facade.perform_closed]
    · by_cases hne : other = key
      · subst hne
        rcases hdb with rfl | rfl
        · exact hrecords.view_congr hlocal hkey (hagree other hmem)
        · rw [Facade.perform_closed, Facade.perform_closed]
          exact hagree other hmem
      · rw [view_perform_other hrecords hdb hkey hne, view_perform_other hrecords hdb hkey hne]
        exact hagree other hother

/-- An action leaves alone the keys that are not those of its facade. -/
theorem On.view_next (hs : s.On b) {i : Step Action} (hi : i.2.Within K) {key : String}
    (hkey : ∀ name, concerns name i = true → key ∉ K name) :
    view ((machine b).next i s).store key = view s.store key := by
  obtain ⟨α, action⟩ := i
  cases action with
  | own | toPlain | close => rfl
  | take => exact hi.elim
  | through name op =>
    obtain ⟨own, hmem, hown⟩ := hi
    have hne : key ≠ own := by
      rintro rfl
      exact hkey name (by simp [concerns]) hmem
    exact view_perform_other hrecords (hs name) hown hne s.store

/-- A key of no facade stays as it is. -/
theorem On.view_after (hs : s.On b) {run : List (Step Action)} (hrun : ∀ i ∈ run, i.2.Within K)
    {key : String} (hkey : ∀ name, key ∉ K name) :
    view ((machine b).after run s).store key = view s.store key := by
  induction run generalizing s with
  | nil => rfl
  | cons i run ih =>
    rw [Machine.after_cons, ih (hs.next i) fun j hj => hrun j (List.mem_cons_of_mem i hj)]
    exact hs.view_next hrecords (hrun i List.mem_cons_self) fun name _ => hkey name

/-- **A facade is answered as if it were alone.**  The other facades can be
    left out of the run, if everyone keeps to keys of their own. -/
theorem alone (hlocal : b.IsLocal view) (hK : AreApart K) (name : String) {run : List (Step Action)}
    (hrun : ∀ i ∈ run, i.2.Within K) (hs : s.On b)
    (h : Alike (AgreeOn view (K name)) {name} s t) :
    (machine b).answersOf (concerns name) run s =
        (machine b).answers (run.filter (concerns name)) t ∧
      Alike (AgreeOn view (K name)) {name} ((machine b).after run s)
        ((machine b).after (run.filter (concerns name)) t) := by
  induction run generalizing s t with
  | nil => exact ⟨rfl, h⟩
  | cons i run ih =>
    have hi : i.2.Within K := hrun i List.mem_cons_self
    have hrest : ∀ j ∈ run, j.2.Within K := fun j hj => hrun j (List.mem_cons_of_mem i hj)
    cases hname : concerns name i with
    | true =>
      -- nobody else is concerned
      have honly : ∀ other, concerns other i = true → other ∈ ({name} : Set String) := by
        obtain ⟨α, action⟩ := i
        cases action with
        | own | toPlain | close | through =>
          simp only [concerns, decide_eq_true_eq] at hname ⊢
          exact fun other hother => hother.symm.trans hname
        | take => exact hi.elim
      obtain ⟨hanswer, hnext⟩ := h.step hs honly (respects_agreeOn hrecords hlocal hi hname)
      obtain ⟨hanswers, hafter⟩ := ih hrest (hs.next i) hnext
      rw [Machine.answersOf_cons_of_pos _ hname, List.filter_cons_of_pos hname, Machine.answers,
        hanswer, hanswers]
      exact ⟨rfl, hafter⟩
    | false =>
      have hstore : AgreeOn view (K name) ((machine b).next i s).store t.store := by
        intro key hkey
        rw [hs.view_next hrecords hi, h.store key hkey]
        intro other hother hmem
        have hne : name ≠ other := by rintro rfl; rw [hname] at hother; cases hother
        exact Set.disjoint_left.1 (hK hne) hkey hmem
      have hnext := h.other (fun other hother => hother ▸ hname) hstore
      rw [Machine.answersOf_cons_of_neg _ hname, List.filter_cons_of_neg (by simp [hname])]
      exact ih hrest (hs.next i) hnext

end

/-! ## Interleavings -/

/-- **Owners that keep to keys of their own do not interfere.**  In a run of
    many facades each is answered as in the run that has only its own actions,
    which also leaves the same under its keys; other keys stay as they are.
    So, whatever the order of the same actions of each, each has the same
    answers, and the store shows the same under every key. -/
def InterleavingsAgree (b : Backend σ) (view : σ → String → Option β) : Prop :=
  ∀ (K : String → Set String) (s : Owners σ) (run : List (Step Action)), AreApart K → s.On b →
    (∀ i ∈ run, i.2.Within K) →
    (∀ name,
      let own := run.filter (concerns name)
      (machine b).answersOf (concerns name) run s = (machine b).answers own s ∧
      ∀ key ∈ K name,
        view ((machine b).after run s).store key = view ((machine b).after own s).store key) ∧
    (∀ key, (∀ name, key ∉ K name) → view ((machine b).after run s).store key = view s.store key) ∧
    ∀ run', (∀ name, run'.filter (concerns name) = run.filter (concerns name)) →
      (∀ name, (machine b).answersOf (concerns name) run' s =
        (machine b).answersOf (concerns name) run s) ∧
      ∀ key, view ((machine b).after run' s).store key = view ((machine b).after run s).store key

/-- Every action is on some facade. -/
theorem exists_concerns (i : Step Action) : ∃ name, concerns name i = true := by
  obtain ⟨α, action⟩ := i
  cases action with
  | own name | toPlain name | close name | through name => exact ⟨name, by simp [concerns]⟩
  | take source => exact ⟨source, by simp [concerns]⟩

theorem interleavingsAgree {view : σ → String → Option β} {image : Value → Option β}
    (hrecords : b.Records view image) (hlocal : b.IsLocal view) : InterleavingsAgree b view := by
  intro K s run hK hs hrun
  have halone (run : List (Step Action)) (hrun : ∀ i ∈ run, i.2.Within K) (name : String) :=
    alone hrecords hlocal hK name hrun hs ⟨fun _ _ => rfl, fun _ _ => rfl⟩
  refine ⟨fun name => ⟨(halone run hrun name).1, (halone run hrun name).2.store⟩,
    fun key hkey => hs.view_after hrecords hrun hkey, fun run' hsame => ?_⟩
  have hrun' : ∀ i ∈ run', i.2.Within K := by
    intro i hi
    obtain ⟨name, hname⟩ := exists_concerns i
    have hmem : i ∈ run.filter (concerns name) :=
      hsame name ▸ List.mem_filter.2 ⟨hi, hname⟩
    exact hrun i (List.mem_filter.1 hmem).1
  refine ⟨fun name => ?_, fun key => ?_⟩
  · rw [(halone run' hrun' name).1, (halone run hrun name).1, hsame name]
  · by_cases hkey : ∃ name, key ∈ K name
    · obtain ⟨name, hkey⟩ := hkey
      rw [(halone run' hrun' name).2.store key hkey, (halone run hrun name).2.store key hkey,
        hsame name]
    · have hkey : ∀ name, key ∉ K name := fun name hmem => hkey ⟨name, hmem⟩
      rw [hs.view_after hrecords hrun' hkey, hs.view_after hrecords hrun hkey]

end Owners

/-- **Owners of one backend act as one.**  On any backend, whatever facades
    own it, as plain ones or not: in every run the operations that reach the
    backend have the answers, and leave the store, that one facade has which
    carries them out in that order; a closed facade refuses everything; to
    make, move or close a facade changes nothing for the others, and to make it
    plain changes nothing at all.  And owners that keep to keys of their own do
    not interfere, on a map of values and on every byte store whose engine is a
    map that may refuse keys. -/
theorem owners_act_as_one :
    (∀ {σ : Type} (b : Backend σ) (s : Owners σ), s.On b →
      (∀ run, let heard := Owners.heard b run s
        (Facade.ofBackend b).machine.answers (heard.map Prod.fst) s.store = heard.map Prod.snd ∧
        (Facade.ofBackend b).machine.after (heard.map Prod.fst) s.store =
          ((Owners.machine b).after run s).store ∧
        ((Owners.machine b).after run s).On b) ∧
      (∀ {α : Type} name (op : Operation α), (s.owner name).facade.isOpen = false →
        (Owners.machine b).act (.through name op) s = (.error .closed, s)) ∧
      (∀ (i : Step Owners.Action) run, i.2.IsLifecycle →
        (∀ j ∈ run, ∀ name, Owners.concerns name j = true → Owners.concerns name i = false) →
        (Owners.machine b).answers run ((Owners.machine b).next i s) =
            (Owners.machine b).answers run s ∧
          ((Owners.machine b).after run ((Owners.machine b).next i s)).store =
            ((Owners.machine b).after run s).store) ∧
      (∀ name run,
        (Owners.machine b).answers run ((Owners.machine b).next ⟨_, .toPlain name⟩ s) =
            (Owners.machine b).answers run s ∧
          ((Owners.machine b).after run ((Owners.machine b).next ⟨_, .toPlain name⟩ s)).store =
            ((Owners.machine b).after run s).store)) ∧
    (∀ name, Owners.InterleavingsAgree (Backend.tagged name) fun m key => m.get? key) ∧
    (∀ {σ : Type} (store : ByteStore σ) {view : σ → String → Option ByteArray}, store.IsMap view →
      store.IsLocal view → Owners.InterleavingsAgree store.packed view) := by
  refine ⟨fun b s hs => ⟨fun run => ?_, fun name op => Owners.act_closed op,
    fun i run hi hrun => hs.run_lifecycle hi hrun, fun name run => hs.run_toPlain name run⟩,
    fun name => ?_, fun store view hmap hlocal => ?_⟩
  · exact ⟨hs.answers_heard run, hs.after_heard run, hs.after run⟩
  · exact Owners.interleavingsAgree (Backend.records_tagged name) (Backend.isLocal_tagged name)
  · exact Owners.interleavingsAgree hmap.records hlocal.packed

/-- Two facades on one byte store, one of which was made for many threads and
    then made plain; it works with a key that is refused, and is closed in the
    end.  In the other order of their actions the answers are the same. -/
theorem owners_act_as_one_byteMap :
    let b := ByteMap.byteStore.packed
    let s : Owners ByteMap := { store := .empty }
    let K (name : String) : Set String :=
      if name = "a" then {"x"} else if name = "b" then {"y", "!fail"} else ∅
    let ownA : List (Step Owners.Action) := [⟨_, .own "a" false⟩,
      ⟨_, .through "a" (.set "x" (.value (.bool true)))⟩, ⟨_, .through "a" (.get "x" .bool)⟩]
    let ownB : List (Step Owners.Action) := [⟨_, .own "b" true⟩, ⟨_, .toPlain "b"⟩,
      ⟨_, .through "b" (.set "!fail" (.value .null))⟩, ⟨_, .through "b" (.set "y" .absent)⟩]
    let closing : Step Owners.Action := ⟨_, .close "b"⟩
    s.On b ∧ Owners.AreApart K ∧ (∀ i ∈ ownA ++ ownB, i.2.Within K) ∧
    (∀ name, (ownB ++ ownA).filter (Owners.concerns name) =
      (ownA ++ ownB).filter (Owners.concerns name)) ∧
    ByteMap.byteStore.IsMap (fun m key => m.get? key) ∧
    ByteMap.byteStore.IsLocal (fun m key => m.get? key) ∧
    (Owners.machine b).answersOf (Owners.concerns "a") (ownB ++ ownA) s =
      (Owners.machine b).answersOf (Owners.concerns "a") (ownA ++ ownB) s ∧
    ((Owners.machine b).act (.through "a" .clear) s).1 = .error .closed ∧
    (Owners.machine b).answers ownA ((Owners.machine b).next closing s) =
      (Owners.machine b).answers ownA s := by
  intro b s K ownA ownB closing
  have hs : s.On b := Owners.on_start _
  have hK : Owners.AreApart K := by
    intro i j hij
    rw [Function.onFun, Set.disjoint_left]
    intro key hi hj
    simp only [K] at hi hj
    split_ifs at hi hj <;> simp_all
  have hwithin : ∀ i ∈ ownA ++ ownB, i.2.Within K := by
    simp [ownA, ownB, K, Owners.Action.Within, Operation.key?]
  have hsame : ∀ name, (ownB ++ ownA).filter (Owners.concerns name) =
      (ownA ++ ownB).filter (Owners.concerns name) := by
    intro name
    by_cases ha : "a" = name
    · subst ha; rfl
    · by_cases hb : "b" = name
      · subst hb; rfl
      · simp [ownA, ownB, Owners.concerns, ha, hb]
  have hmap : ByteMap.byteStore.IsMap (fun m key => m.get? key) :=
    ByteStore.isMap_plain _ _ _ fun _ => rfl
  have hlocal : ByteMap.byteStore.IsLocal (fun m key => m.get? key) := ByteStore.isLocal_plain _ _ _
  have halone := owners_act_as_one.2.2 ByteMap.byteStore hmap hlocal K s (ownA ++ ownB) hK hs hwithin
  obtain ⟨-, hclosed, hothers, -⟩ := owners_act_as_one.1 b s hs
  refine ⟨hs, hK, hwithin, hsame, hmap, hlocal, (halone.2.2 (ownB ++ ownA) hsame).1 "a", ?_,
    (hothers closing ownA trivial ?_).1⟩
  · rw [hclosed "a" .clear rfl]
  · simp [ownA, closing, Owners.concerns]

end TypedStore
