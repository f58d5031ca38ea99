/-
  TypedStore — tables have each of their keys once.

  * `Datum.same_iff`: whether two data are the same can be decided;
  * `Datum.Distinct`: no table in a datum has a key twice;
  * `Datum.Distinct.descend`: what changes a table deep in a document keeps
    this, if the change itself does;
  * `distinct_ofText?`: so it is in every document that is read;
  * `Datum.Shuffles`: a datum with the keys of one of its tables in another
    order, and `Datum.Shuffles.lookup`: what is found in it.
-/
import TypedStore.Toml.Document

namespace TypedStore.Toml

/-! ## Comparing data -/

mutual

/-- Whether two data are the same. -/
def Datum.same : Datum → Datum → Bool
  | .text s, .text s' => s == s'
  | .integer n, .integer n' => n == n'
  | .float w, .float w' => w == w'
  | .boolean b, .boolean b' => b == b'
  | .datetime, .datetime => true
  | .array grows items, .array grows' items' => grows == grows' && sameItems items items'
  | .table form entries, .table form' entries' => form == form' && sameEntries entries entries'
  | _, _ => false

/-- Whether the items of two arrays are the same. -/
def sameItems : List Datum → List Datum → Bool
  | [], [] => true
  | v :: items, w :: items' => v.same w && sameItems items items'
  | _, _ => false

/-- Whether the entries of two tables are the same. -/
def sameEntries : List (String × Datum) → List (String × Datum) → Bool
  | [], [] => true
  | (key, v) :: entries, (key', w) :: entries' =>
    key == key' && v.same w && sameEntries entries entries'
  | _, _ => false

end

mutual

theorem Datum.same_iff (v w : Datum) : v.same w = true ↔ v = w := by
  cases v <;> cases w <;> simp [Datum.same, sameItems_iff, sameEntries_iff]

theorem sameItems_iff (items items' : List Datum) :
    sameItems items items' = true ↔ items = items' := by
  cases items <;> cases items' <;> simp [sameItems, Datum.same_iff, sameItems_iff]

theorem sameEntries_iff (t t' : Table) : sameEntries t t' = true ↔ t = t' := by
  cases t with
  | nil => cases t' <;> simp [sameEntries]
  | cons e t =>
    cases t' with
    | nil => simp [sameEntries]
    | cons e' t' => simp [sameEntries, Datum.same_iff, sameEntries_iff, Prod.ext_iff]

end

instance : DecidableEq Datum := fun v w => decidable_of_iff (v.same w = true) (v.same_iff w)

/-! ## Keys -/

variable {form form' : Form} {t t' : Table} {key : String} {v : Datum}

/-- No table in a datum has a key twice. -/
inductive Datum.Distinct : Datum → Prop where
  | text (s : String) : Distinct (.text s)
  | integer (n : Int) : Distinct (.integer n)
  | float (w : Option FloatKind.f64.Word) : Distinct (.float w)
  | boolean (b : Bool) : Distinct (.boolean b)
  | datetime : Distinct .datetime
  | array {grows : Bool} {items : List Datum} : (∀ v ∈ items, Distinct v) →
      Distinct (.array grows items)
  | table {form : Form} {entries : Table} : (entries.map Prod.fst).Nodup →
      (∀ e ∈ entries, Distinct e.2) → Distinct (.table form entries)

namespace Datum.Distinct

theorem form_eq (h : (Datum.table form t).Distinct) (form' : Form) :
    (Datum.table form' t).Distinct := by
  cases h with
  | table hkeys hentries => exact .table hkeys hentries

theorem empty (form : Form) : (Datum.table form []).Distinct := .table List.nodup_nil nofun

theorem of_lookup (h : (Datum.table form t).Distinct) (hv : t.lookup key = some v) :
    v.Distinct := by
  cases h with
  | table _ hentries =>
    obtain ⟨before, after, rfl, -⟩ := List.lookup_eq_some_iff.1 hv
    exact hentries (key, v) (by simp)

end Datum.Distinct

/-! ## Adding to a table -/

theorem mem_put {e : String × Datum} (h : e ∈ put key v t) : e = (key, v) ∨ e ∈ t := by
  induction t with
  | nil => exact Or.inl (List.mem_singleton.1 h)
  | cons first rest ih =>
    obtain ⟨k, w⟩ := first
    rw [put] at h
    split at h
    · next hk =>
      subst hk
      exact (List.mem_cons.1 h).imp_right (List.mem_cons_of_mem _)
    · rcases List.mem_cons.1 h with rfl | h
      · exact Or.inr List.mem_cons_self
      · exact (ih h).imp_right (List.mem_cons_of_mem _)

theorem nodup_put (h : (t.map Prod.fst).Nodup) : ((put key v t).map Prod.fst).Nodup := by
  induction t with
  | nil => exact List.nodup_cons.2 ⟨nofun, List.nodup_nil⟩
  | cons first rest ih =>
    obtain ⟨k, w⟩ := first
    rw [List.map_cons, List.nodup_cons] at h
    rw [put]
    split
    · exact List.nodup_cons.2 h
    · next hk =>
      refine List.nodup_cons.2 ⟨fun hmem => ?_, ih h.2⟩
      obtain ⟨e, he, heq⟩ := List.mem_map.1 hmem
      rcases mem_put he with rfl | he
      · exact hk heq.symm
      · exact h.1 (List.mem_map.2 ⟨e, he, heq⟩)

namespace Datum.Distinct

theorem put (h : (Datum.table form t).Distinct) (hv : v.Distinct) :
    (Datum.table form' (put key v t)).Distinct := by
  cases h with
  | table hkeys hentries =>
    refine .table (nodup_put hkeys) fun e he => ?_
    rcases mem_put he with rfl | he
    · exact hv
    · exact hentries e he

/-- **A change deep in a table keeps keys apart**, if it does so where it is
    made. -/
theorem descend {byKey : Bool} {change : Form → Table → Option Table}
    (hchange : ∀ {form t t'}, (Datum.table form t).Distinct → change form t = some t' →
      (Datum.table form t').Distinct)
    {path : List String} (h : (Datum.table form t).Distinct)
    (hdescend : descend byKey change path form t = some t') : (Datum.table form t').Distinct := by
  induction path generalizing form t t' with
  | nil => exact hchange h hdescend
  | cons name path ih =>
    unfold Toml.descend at hdescend
    split at hdescend
    · -- the table is made
      obtain ⟨u, hu, ht⟩ := Option.bind_eq_some_iff.1 hdescend
      cases ht
      exact h.put (ih (empty _) hu)
    · next form' entries hlookup =>
      split at hdescend
      · obtain ⟨u, hu, ht⟩ := Option.bind_eq_some_iff.1 hdescend
        cases ht
        exact h.put (ih (h.of_lookup hlookup) hu)
      · cases hdescend
    · next items hlookup =>
      split at hdescend
      · next form' entries hlast =>
        obtain ⟨u, hu, ht⟩ := Option.bind_eq_some_iff.1 hdescend
        cases ht
        cases h.of_lookup hlookup with
        | array hitems =>
          have hmem := List.mem_of_getLast? hlast
          refine h.put (.array fun w hw => ?_)
          rcases List.mem_append.1 hw with hw | hw
          · exact hitems w (List.dropLast_subset _ hw)
          · rw [List.mem_singleton.1 hw]
            exact ih (hitems _ hmem) hu
      · cases hdescend
    · cases hdescend

theorem insert {path : List String} (h : (Datum.table form t).Distinct) (hv : v.Distinct)
    (hinsert : insert path key v form t = some t') : (Datum.table form t').Distinct := by
  refine h.descend (fun {form u u'} hu hu' => ?_) hinsert
  split at hu'
  · cases hu'
  · cases hu'
    exact hu.put hv

theorem openTable {path : List String} (h : (Datum.table .header t).Distinct)
    (hopen : openTable path key t = some t') : (Datum.table .header t').Distinct := by
  refine h.descend (fun {form u u'} hu hu' => ?_) hopen
  split at hu'
  · cases hu'
    exact hu.put (empty _)
  · next entries hlookup =>
    cases hu'
    exact hu.put ((hu.of_lookup hlookup).form_eq _)
  · cases hu'

theorem openElement {path : List String} (h : (Datum.table .header t).Distinct)
    (hopen : openElement path key t = some t') : (Datum.table .header t').Distinct := by
  refine h.descend (fun {form u u'} hu hu' => ?_) hopen
  split at hu'
  · cases hu'
    exact hu.put (.array (List.forall_mem_singleton.2 (empty _)))
  · next items hlookup =>
    cases hu'
    cases hu.of_lookup hlookup with
    | array hitems =>
      exact hu.put (.array (List.forall_mem_append.2
        ⟨hitems, List.forall_mem_singleton.2 (empty _)⟩))
  · cases hu'

end Datum.Distinct

/-! ## Reading values -/

variable {cs rest : List Char}

theorem distinct_word? (h : word? cs = some v) : v.Distinct := by
  unfold word? at h
  split at h
  · cases h
    exact .boolean true
  · cases h
    exact .boolean false
  · split at h
    · cases h
      exact .integer _
    · cases h
      exact .float _
    · split at h <;> cases h
      exact .datetime

theorem distinct_readWord (h : readWord cs = some (v, rest)) : v.Distinct := by
  have hword {word rest' : List Char} (h : (word? word).map (·, rest') = some (v, rest)) :
      v.Distinct := by
    obtain ⟨w, hw, heq⟩ := Option.map_eq_some_iff.1 h
    cases heq
    exact distinct_word? hw
  unfold readWord at h
  split at h
  · dsimp only at h
    split at h <;> exact hword h
  · exact hword h

/-- **Values keep keys apart**: a value, the rest of an array, and the rest of a
    table, read with the same fuel. -/
theorem distinct_reads (fuel : Nat) :
    (∀ {depth cs v rest}, readValueOf fuel depth cs = some (v, rest) → v.Distinct) ∧
    (∀ {depth items cs v rest}, (∀ w ∈ items, Datum.Distinct w) →
      readItems fuel depth items cs = some (v, rest) → v.Distinct) ∧
    ∀ {depth t cs v rest}, (Datum.table .inline t).Distinct →
      readPairs fuel depth t cs = some (v, rest) → v.Distinct := by
  induction fuel with
  | zero => exact ⟨fun h => (nomatch h), fun _ h => (nomatch h), fun _ h => (nomatch h)⟩
  | succ fuel ih =>
    obtain ⟨hvalue, hitems, hpairs⟩ := ih
    refine ⟨fun {depth cs v rest} h => ?_, fun {depth items cs v rest} hall h => ?_,
      fun {depth t cs v rest} ht h => ?_⟩
    · unfold readValueOf at h
      split at h
      · cases h
      · cases h
      · exact hitems (List.forall_mem_nil _) h
      · exact hpairs (.empty _) h
      · obtain ⟨s, -, heq⟩ := Option.map_eq_some_iff.1 h
        cases heq
        exact .text _
      · obtain ⟨s, -, heq⟩ := Option.map_eq_some_iff.1 h
        cases heq
        exact .text _
      · exact distinct_readWord h
    · unfold readItems at h
      obtain ⟨cs', -, h⟩ := Option.bind_eq_some_iff.1 h
      split at h
      · cases h
        exact .array fun w hw => hall w (List.mem_reverse.1 hw)
      · obtain ⟨⟨w, cs''⟩, hw, h⟩ := Option.bind_eq_some_iff.1 h
        have hmore : ∀ u ∈ w :: items, Datum.Distinct u :=
          List.forall_mem_cons.2 ⟨hvalue hw, hall⟩
        obtain ⟨cs₃, -, h⟩ := Option.bind_eq_some_iff.1 h
        split at h
        · cases h
          exact .array fun u hu => hmore u (List.mem_reverse.1 hu)
        · exact hitems hmore h
        · cases h
    · unfold readPairs at h
      obtain ⟨cs', -, h⟩ := Option.bind_eq_some_iff.1 h
      split at h
      · cases h
        exact ht
      · obtain ⟨⟨⟨path, key⟩, cs''⟩, -, h⟩ := Option.bind_eq_some_iff.1 h
        obtain ⟨cs₃, -, h⟩ := Option.bind_eq_some_iff.1 h
        obtain ⟨⟨w, cs₄⟩, hw, h⟩ := Option.bind_eq_some_iff.1 h
        obtain ⟨t', ht', h⟩ := Option.bind_eq_some_iff.1 h
        have hmore := ht.insert (hvalue hw) ht'
        obtain ⟨cs₅, -, h⟩ := Option.bind_eq_some_iff.1 h
        split at h
        · cases h
          exact hmore
        · exact hpairs hmore h
        · cases h

theorem distinct_readValue (h : readValue cs = some (v, rest)) : v.Distinct :=
  (distinct_reads _).1 h

/-! ## Reading documents -/

/-- A line adds to a table, opens one, or adds one to an array. -/
theorem distinct_readEntry {p p' : Progress} (hp : (Datum.table .header p.document).Distinct)
    (h : readEntry p cs = some (p', rest)) : (Datum.table .header p'.document).Distinct := by
  unfold readEntry at h
  split at h
  · obtain ⟨⟨⟨path, key⟩, cs'⟩, -, h⟩ := Option.bind_eq_some_iff.1 h
    obtain ⟨cs₂, -, h⟩ := Option.bind_eq_some_iff.1 h
    obtain ⟨cs₃, -, h⟩ := Option.bind_eq_some_iff.1 h
    obtain ⟨cs₄, -, h⟩ := Option.bind_eq_some_iff.1 h
    obtain ⟨document, hdocument, h⟩ := Option.bind_eq_some_iff.1 h
    cases h
    exact hp.openElement hdocument
  · obtain ⟨⟨⟨path, key⟩, cs'⟩, -, h⟩ := Option.bind_eq_some_iff.1 h
    obtain ⟨cs₂, -, h⟩ := Option.bind_eq_some_iff.1 h
    obtain ⟨cs₃, -, h⟩ := Option.bind_eq_some_iff.1 h
    obtain ⟨document, hdocument, h⟩ := Option.bind_eq_some_iff.1 h
    cases h
    exact hp.openTable hdocument
  · obtain ⟨⟨⟨path, key⟩, cs'⟩, -, h⟩ := Option.bind_eq_some_iff.1 h
    obtain ⟨cs₂, -, h⟩ := Option.bind_eq_some_iff.1 h
    obtain ⟨⟨v, cs₃⟩, hv, h⟩ := Option.bind_eq_some_iff.1 h
    obtain ⟨p'', hadd, h⟩ := Option.bind_eq_some_iff.1 h
    obtain ⟨cs₄, -, h⟩ := Option.bind_eq_some_iff.1 h
    cases h
    obtain ⟨document, hdocument, heq⟩ := Option.bind_eq_some_iff.1 hadd
    cases heq
    exact hp.descend (fun hu hu' => hu.insert (distinct_readValue hv) hu') hdocument

theorem distinct_readEntries {fuel : Nat} {p : Progress}
    (hp : (Datum.table .header p.document).Distinct) (h : readEntries fuel p cs = some t) :
    (Datum.table .header t).Distinct := by
  induction fuel generalizing p cs with
  | zero => cases h
  | succ fuel ih =>
    unfold readEntries at h
    obtain ⟨cs', -, h⟩ := Option.bind_eq_some_iff.1 h
    split at h
    · cases h
      exact hp
    · obtain ⟨⟨p', cs''⟩, hp', h⟩ := Option.bind_eq_some_iff.1 h
      exact ih (distinct_readEntry hp hp') h

/-- **In a document that is read, every table has each of its keys once.** -/
theorem distinct_ofText? {text : String} (h : ofText? text = some t) :
    (Datum.table .header t).Distinct :=
  distinct_readEntries (.empty _) h

/-! ## Orders of keys -/

/-- The same datum, with the keys of one table anywhere in it in another
    order. -/
inductive Datum.Reorders : Datum → Datum → Prop where
  | here {form : Form} {entries entries' : Table} : entries.Perm entries' →
      Reorders (.table form entries) (.table form entries')
  | entry {form : Form} {key : String} {v w : Datum} {before after : Table} : Reorders v w →
      Reorders (.table form (before ++ (key, v) :: after))
        (.table form (before ++ (key, w) :: after))
  | item {grows : Bool} {v w : Datum} {before after : List Datum} : Reorders v w →
      Reorders (.array grows (before ++ v :: after)) (.array grows (before ++ w :: after))

/-- The same datum in another order, where no table has a key twice. -/
structure Datum.Shuffles (v w : Datum) : Prop where
  distinct : v.Distinct
  reorders : v.Reorders w

/-- What is found in a datum and in the same datum in another order. -/
inductive Alike : Option Datum → Option Datum → Prop where
  | refl (x : Option Datum) : Alike x x
  | shuffled {v w : Datum} : v.Shuffles w → Alike (some v) (some w)

/-- In which order keys stand does not matter to finding them. -/
theorem lookup_eq_of_perm (h : t.Perm t') (hkeys : (t.map Prod.fst).Nodup) (key : String) :
    t.lookup key = t'.lookup key := by
  induction h with
  | nil => rfl
  | @cons e t t' _ ih =>
    obtain ⟨k, v⟩ := e
    rw [List.map_cons, List.nodup_cons] at hkeys
    rw [List.lookup_cons, List.lookup_cons, ih hkeys.2]
  | swap e e' t =>
    obtain ⟨k, v⟩ := e
    obtain ⟨k', v'⟩ := e'
    have hne : k' ≠ k := by
      simp only [List.map_cons, List.nodup_cons, List.mem_cons, not_or] at hkeys
      exact hkeys.1.1
    simp only [List.lookup_cons]
    cases hk : key == k with
    | false => rfl
    | true =>
      have hk' : (key == k') = false := by
        rw [eq_of_beq hk]
        exact beq_eq_false_iff_ne.2 hne.symm
      rw [hk']
  | trans h _ ih ih' => rw [ih hkeys, ih' ((h.map Prod.fst).nodup_iff.1 hkeys)]

namespace Datum.Shuffles

theorem lookup (h : (Datum.table form t).Shuffles (.table form' t')) (key : String) :
    Alike (t.lookup key) (t'.lookup key) := by
  obtain ⟨hdistinct, hreorders⟩ := h
  cases hdistinct with
  | table hkeys hentries =>
    cases hreorders with
    | here hperm =>
      rw [lookup_eq_of_perm hperm hkeys]
      exact .refl _
    | @entry _ k v w before after hvw =>
      rw [List.lookup_append, List.lookup_append, List.lookup_cons, List.lookup_cons]
      cases before.lookup key with
      | some _ => exact .refl _
      | none =>
        cases key == k with
        | false => exact .refl _
        | true => exact .shuffled ⟨hentries (k, v) (by simp), hvw⟩

theorem getElem? {grows grows' : Bool} {items items' : List Datum}
    (h : (Datum.array grows items).Shuffles (.array grows' items')) (i : Nat) :
    Alike items[i]? items'[i]? := by
  obtain ⟨hdistinct, hreorders⟩ := h
  cases hdistinct with
  | array hitems =>
    cases hreorders with
    | @item _ v w before after hvw =>
      rw [List.getElem?_append, List.getElem?_append]
      split
      · exact .refl _
      · cases i - before.length with
        | zero => exact .shuffled ⟨hitems v (by simp), hvw⟩
        | succ j => exact .refl _

end Datum.Shuffles

end TypedStore.Toml
