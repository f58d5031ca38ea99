/-
  TypedStore — finite maps.

  A finite map is a list of entries no two of which have the same key.  What
  counts about it is the value under each key, `get?`; two maps with the same
  values under all keys are the same to every operation.

  * `get?_insert`, `get?_erase` and `get?_empty` say what an operation does to
    the value under each key;
  * `mem_keys` and `mem_toList` tie the keys and entries of a map to its
    values.
-/

namespace TypedStore

/-- A finite map from keys to values. -/
structure Entries (κ β : Type) where
  toList : List (κ × β)
  nodup : (toList.map Prod.fst).Nodup := by simp

namespace Entries

variable {κ β : Type} [DecidableEq κ]

/-- The map without entries. -/
def empty : Entries κ β := ⟨[], List.nodup_nil⟩

instance : EmptyCollection (Entries κ β) := ⟨empty⟩

instance : Inhabited (Entries κ β) := ⟨empty⟩

/-- The value under a key. -/
def get? (m : Entries κ β) (key : κ) : Option β := m.toList.lookup key

/-- The keys of a map. -/
def keys (m : Entries κ β) : List κ := m.toList.map Prod.fst

/-- The number of entries. -/
def size (m : Entries κ β) : Nat := m.toList.length

/-- Whether a map has no entries. -/
def isEmpty (m : Entries κ β) : Bool := m.toList.isEmpty

/-- Whether a key has a value. -/
def contains (m : Entries κ β) (key : κ) : Bool := (m.get? key).isSome

/-- Keeps the entries whose key satisfies `p`. -/
def filterKeys (m : Entries κ β) (p : κ → Bool) : Entries κ β where
  toList := m.toList.filter fun e => p e.1
  nodup := m.nodup.sublist (List.filter_sublist.map Prod.fst)

/-- Removes the entry of a key, if there is one. -/
def erase (m : Entries κ β) (key : κ) : Entries κ β := m.filterKeys (· ≠ key)

theorem not_mem_keys_erase (m : Entries κ β) (key : κ) : key ∉ (m.erase key).keys := by
  simp [erase, filterKeys, keys]

/-- Puts a value under a key, in place of the one that was there. -/
def insert (m : Entries κ β) (key : κ) (value : β) : Entries κ β where
  toList := (key, value) :: (m.erase key).toList
  nodup := List.nodup_cons.mpr ⟨m.not_mem_keys_erase key, (m.erase key).nodup⟩

/-- Replaces the value under a key by its image, if there is one. -/
def modify (m : Entries κ β) (key : κ) (change : β → β) : Entries κ β :=
  match m.get? key with
  | some value => m.insert key (change value)
  | none => m

/-! ## The value under a key -/

@[simp] theorem get?_empty (key : κ) : (empty : Entries κ β).get? key = none := rfl

theorem lookup_filter (entries : List (κ × β)) (p : κ → Bool) (key : κ) :
    (entries.filter fun e => p e.1).lookup key = if p key then entries.lookup key else none := by
  induction entries with
  | nil => simp
  | cons e rest ih =>
    obtain ⟨k, v⟩ := e
    by_cases hk : key = k
    · subst hk
      by_cases hp : p key <;> simp [hp, ih]
    · have hne : (key == k) = false := by simpa using hk
      by_cases hp : p k <;> simp [List.lookup_cons, hp, hne, ih]

theorem get?_filterKeys (m : Entries κ β) (p : κ → Bool) (key : κ) :
    (m.filterKeys p).get? key = if p key then m.get? key else none :=
  lookup_filter m.toList p key

theorem get?_erase (m : Entries κ β) (key other : κ) :
    (m.erase key).get? other = if other = key then none else m.get? other := by
  by_cases h : other = key <;> simp [erase, get?_filterKeys, h]

theorem get?_insert (m : Entries κ β) (key other : κ) (value : β) :
    (m.insert key value).get? other = if other = key then some value else m.get? other := by
  by_cases h : other = key
  · subst h
    simp [insert, get?]
  · have hne : (other == key) = false := by simpa using h
    have he := m.get?_erase key other
    simp only [get?] at he
    simp [insert, get?, List.lookup_cons, hne, he, h]

theorem mem_keys (m : Entries κ β) (key : κ) : key ∈ m.keys ↔ (m.get? key).isSome := by
  have h : ∀ entries : List (κ × β),
      key ∈ entries.map Prod.fst ↔ (entries.lookup key).isSome := by
    intro entries
    induction entries with
    | nil => simp
    | cons e rest ih =>
      obtain ⟨k, v⟩ := e
      by_cases hk : key = k
      · subst hk; simp
      · have hne : (key == k) = false := by simpa using hk
        simp [List.lookup_cons, hne, hk, ih]
  exact h m.toList

/-- An entry is what its key has. -/
theorem mem_toList (m : Entries κ β) (key : κ) (value : β) :
    (key, value) ∈ m.toList ↔ m.get? key = some value := by
  have h : ∀ entries : List (κ × β), (entries.map Prod.fst).Nodup →
      ((key, value) ∈ entries ↔ entries.lookup key = some value) := by
    intro entries hnodup
    induction entries with
    | nil => simp
    | cons e rest ih =>
      obtain ⟨k, v⟩ := e
      obtain ⟨hk, hrest⟩ := List.nodup_cons.1 hnodup
      by_cases hkey : key = k
      · subst hkey
        have hnot : (key, value) ∉ rest := fun hmem => hk (List.mem_map.2 ⟨_, hmem, rfl⟩)
        simp [hnot, eq_comm]
      · have hne : (key == k) = false := by simpa using hkey
        simp [List.lookup_cons, hne, hkey, ih hrest]
  exact h m.toList m.nodup

/-- A map is empty if no key has a value. -/
theorem isEmpty_iff (m : Entries κ β) : m.isEmpty = true ↔ ∀ key, m.get? key = none := by
  obtain ⟨entries, hnodup⟩ := m
  cases entries with
  | nil => simp [isEmpty, get?]
  | cons e rest =>
    simp only [isEmpty, List.isEmpty_cons, Bool.false_eq_true, false_iff, get?]
    intro h
    have hfirst := h e.1
    simp at hfirst

end Entries

end TypedStore
