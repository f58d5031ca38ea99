/-
  TypedStore — the statements on a table.

  * `Identifier.read?_quoteChars_append`: a quoted name is read back, whatever
    it contains, and reading stops where its quotes close;
  * `Identifier.pieces?` splits a text of SQL into the characters outside quotes
    and the names inside them; `Identifier.pieces?_append`: around a quoted name
    everything is outside, and nothing of the name is;
  * `Statements.frames`: the fixed texts in front of the table and behind it, in
    each of the five statements, and `Statements.all_ofQuoted` puts the statements
    together from them;
  * `Statements.read?`: what a statement does, and the table that it does it to;
    `Statements.map_read?_all`: the five statements on a table do the five deeds,
    each to the table of its name and to no other;
  * `Statements.Runs`: a byte store that does what the statements say, and
    `RowServer.drop_dropDatabase`: what is dropped by the statement for it.
-/
import TypedStore.Engine.Handle
import TypedStore.Proofs.Result

namespace TypedStore

/-! ## Quoted names -/

namespace Identifier

theorem readInner_double_append (name : List Char) {after : List Char}
    (hafter : after.head? ≠ some '"') :
    readInner (double name ++ '"' :: after) = some (name, after) := by
  induction name with
  | nil =>
    -- the closing quote is followed by no other
    cases after with
    | nil => rfl
    | cons c after =>
      have hc : c ≠ '"' := fun heq => hafter (by rw [heq]; rfl)
      simp [double, readInner, hc]
  | cons c name ih =>
    by_cases hc : c = '"'
    · subst hc
      simp [double, readInner, ih]
    · simp [double, hc, readInner, ih]

/-- A quoted name is read back, and what follows it is left. -/
theorem read?_quoteChars_append (name : List Char) {after : List Char}
    (hafter : after.head? ≠ some '"') : read? (quoteChars name ++ after) = some (name, after) := by
  simp only [quoteChars, List.cons_append, List.append_assoc, read?]
  exact readInner_double_append name hafter

/-! ## Splitting a text at its quotes -/

/-- A piece of a text of SQL: a character outside quotes, or a name in quotes. -/
inductive Piece where
  | plain (c : Char)
  | name (name : List Char)
  deriving DecidableEq, Repr

/-- Reading on inside the quotes takes at least the closing one. -/
theorem length_of_readInner {cs name after : List Char} (h : readInner cs = some (name, after)) :
    after.length < cs.length := by
  induction cs using readInner.induct generalizing name after with
  | case1 => cases h
  | case2 rest ih =>
    obtain ⟨⟨inner, left⟩, hinner, heq⟩ := Option.map_eq_some_iff.1 h
    cases heq
    have hlt := ih hinner
    simp only [List.length_cons]
    omega
  | case3 after hnone =>
    rw [readInner] at h
    · cases h
      exact Nat.lt_succ_self _
    · exact hnone
  | case4 c rest hdouble hquote ih =>
    rw [readInner] at h
    · obtain ⟨⟨inner, left⟩, hinner, heq⟩ := Option.map_eq_some_iff.1 h
      cases heq
      exact Nat.lt_succ_of_lt (ih hinner)
    · exact hdouble
    · exact hquote

/-- Splits a text into the characters outside quotes and the names inside
    them; there are none if a quote is not closed. -/
def pieces? : List Char → Option (List Piece)
  | [] => some []
  | c :: rest =>
    if c = '"' then
      match _h : readInner rest with
      | none => none
      | some (name, after) => (pieces? after).map (.name name :: ·)
    else (pieces? rest).map (.plain c :: ·)
  termination_by cs => cs.length
  decreasing_by
    · exact Nat.lt_succ_of_lt (length_of_readInner _h)
    · exact Nat.lt_succ_self _

/-- Where there is no quote, everything is outside quotes. -/
theorem pieces?_of_not_mem {cs : List Char} (h : '"' ∉ cs) :
    pieces? cs = some (cs.map .plain) := by
  induction cs with
  | nil => rw [pieces?, List.map_nil]
  | cons c cs ih =>
    rw [List.mem_cons, not_or] at h
    rw [pieces?, if_neg (Ne.symm h.1), ih h.2]
    rfl

/-- A quoted name is one piece, whatever it contains. -/
theorem pieces?_quoteChars_append (name : List Char) {after : List Char}
    (hafter : after.head? ≠ some '"') :
    pieces? (quoteChars name ++ after) = (pieces? after).map (.name name :: ·) := by
  have hread := readInner_double_append name hafter
  have htext : quoteChars name ++ after = '"' :: (double name ++ '"' :: after) := by
    simp [quoteChars]
  rw [htext, pieces?, if_pos rfl]
  split
  · next hnone => cases hnone.symm.trans hread
  · next name' after' hsome =>
    cases hsome.symm.trans hread
    rfl

/-- Around a quoted name everything is outside quotes, and nothing of the name
    is. -/
theorem pieces?_append {front back : List Char} (hfront : '"' ∉ front) (hback : '"' ∉ back)
    (name : List Char) : pieces? (front ++ (quoteChars name ++ back)) =
      some (front.map .plain ++ .name name :: back.map .plain) := by
  induction front with
  | nil =>
    rw [List.nil_append, pieces?_quoteChars_append _ fun h => hback (List.mem_of_head? h),
      pieces?_of_not_mem hback]
    rfl
  | cons c front ih =>
    rw [List.mem_cons, not_or] at hfront
    rw [List.cons_append, pieces?, if_neg (Ne.symm hfront.1), ih hfront.2]
    rfl

/-- The characters of pieces that are all outside quotes. -/
def plains? : List Piece → Option (List Char)
  | [] => some []
  | .plain c :: rest => (plains? rest).map (c :: ·)
  | .name _ :: _ => none

/-- The one name among pieces, with the characters in front of it and behind
    it. -/
def single? : List Piece → Option (List Char × List Char × List Char)
  | [] => none
  | .plain c :: rest => (single? rest).map fun found => (c :: found.1, found.2)
  | .name name :: rest => (plains? rest).map fun back => ([], name, back)

theorem plains?_map (cs : List Char) : plains? (cs.map .plain) = some cs := by
  induction cs with
  | nil => rfl
  | cons c cs ih =>
    rw [List.map_cons, plains?, ih]
    rfl

theorem single?_append (front name back : List Char) :
    single? (front.map .plain ++ .name name :: back.map .plain) = some (front, name, back) := by
  induction front with
  | nil =>
    rw [List.map_nil, List.nil_append, single?, plains?_map]
    rfl
  | cons c front ih =>
    rw [List.map_cons, List.cons_append, single?, ih]
    rfl

theorem mem_double {c : Char} (hc : c ≠ '"') {name : List Char} : c ∈ double name ↔ c ∈ name := by
  induction name with
  | nil => rfl
  | cons d name ih =>
    unfold double
    split
    · next hd => simp [hd, hc, ih]
    · simp [ih]

/-- Quoting adds nothing but quotes. -/
theorem mem_toList_quote {c : Char} (hc : c ≠ '"') {name : String} :
    c ∈ (quote name).toList ↔ c ∈ name.toList := by
  simp [quote, quoteChars, mem_double hc, hc]

end Identifier

/-! ## The fixed texts of the statements -/

namespace Statements

/-- The five statements. -/
def all (s : Statements) : List String := [s.createTable, s.put, s.get, s.remove, s.clear]

/-- The name that is quoted first in a statement. -/
def target? (text : String) : Option String :=
  (Identifier.read? (text.toList.dropWhile (· ≠ '"'))).map fun found => String.ofList found.1

/-- What stands in front of a quoted name and behind it is not taken for a part
    of it. -/
theorem target?_append {front back : String} (hfront : '"' ∉ front.toList)
    (hback : back.toList.head? ≠ some '"') (name : String) :
    target? (front ++ Identifier.quote name ++ back) = some name := by
  have hskip : ((front ++ Identifier.quote name ++ back).toList.dropWhile (· ≠ '"')) =
      Identifier.quoteChars name.toList ++ back.toList := by
    rw [String.toList_append, String.toList_append, List.append_assoc, List.dropWhile_append_of_pos]
    · simp [Identifier.quote, Identifier.quoteChars]
    · intro c hc
      have hne : c ≠ '"' := fun heq => hfront (heq ▸ hc)
      simpa using hne
  rw [target?, hskip, Identifier.read?_quoteChars_append _ hback]
  simp

theorem ofTable_eq_ok_iff {d : Dialect} {table : String} {s : Statements} :
    ofTable d table = .ok s ↔
      checkTableName table = .ok () ∧ s = ofQuoted d (Identifier.quote table) := by
  unfold ofTable
  cases checkTableName table with
  | error e => exact ⟨nofun, fun h => nomatch h.1⟩
  | ok =>
    constructor
    · intro h
      exact ⟨rfl, (Except.ok.inj h).symm⟩
    · rintro ⟨-, rfl⟩
      rfl

/-- What stands in front of the table in a statement, and behind it. -/
structure Frame where
  front : String
  back : String
  deriving DecidableEq, Repr

/-- The statement on a table that is quoted already. -/
def Frame.around (f : Frame) (table : String) : String := f.front ++ table ++ f.back

/-- The fixed texts of the five statements. -/
def frames (d : Dialect) : List Frame := [
  ⟨"CREATE TABLE IF NOT EXISTS ", " (key " ++ d.columnType .text ++
    " NOT NULL PRIMARY KEY, value " ++ d.columnType .blob ++ ")"⟩,
  ⟨"INSERT INTO ", " (key, value) VALUES (" ++ d.placeholder 1 ++ ", " ++ d.placeholder 2 ++
    ") ON CONFLICT (key) DO UPDATE SET value = excluded.value"⟩,
  ⟨"SELECT value FROM ", " WHERE key = " ++ d.placeholder 1⟩,
  ⟨"DELETE FROM ", " WHERE key = " ++ d.placeholder 1⟩,
  ⟨"DELETE FROM ", ""⟩]

/-- Whether a character is a letter, a digit, a blank or one of the few marks
    that open neither a quoted text nor a comment, and end no statement. -/
def isPlain (c : Char) : Bool := c.isAlphanum || [' ', '(', ')', ',', '.', '=', '?', '$'].contains c

/-- Whether nothing is quoted, left out or ended around the table. -/
def Frame.isPlain (f : Frame) : Bool :=
  f.front.toList.all Statements.isPlain && f.back.toList.all Statements.isPlain

theorem all_isPlain_frames (d : Dialect) : (frames d).all Frame.isPlain = true := by
  cases d <;> decide +kernel

theorem isPlain_of_mem_frames {d : Dialect} {f : Frame} (hf : f ∈ frames d) : f.isPlain = true :=
  List.all_eq_true.1 (all_isPlain_frames d) f hf

theorem Frame.not_mem_of_isPlain {f : Frame} (h : f.isPlain = true) :
    '"' ∉ f.front.toList ∧ '"' ∉ f.back.toList := by
  have hquote : Statements.isPlain '"' = false := by decide
  obtain ⟨hfront, hback⟩ := Bool.and_eq_true_iff.1 h
  rw [List.all_eq_true] at hfront hback
  refine ⟨fun hmem => ?_, fun hmem => ?_⟩
  · cases hquote.symm.trans (hfront _ hmem)
  · cases hquote.symm.trans (hback _ hmem)

theorem all_ofQuoted (d : Dialect) (table : String) :
    (ofQuoted d table).all = (frames d).map (·.around table) := by
  unfold all ofQuoted frames Frame.around
  simp only [List.map_cons, List.map_nil, String.append_assoc, String.append_empty]

/-- A statement on a quoted name splits into its fixed text and the name. -/
theorem Frame.pieces?_around {f : Frame} (hf : f.isPlain = true) (name : String) :
    Identifier.pieces? (f.around (Identifier.quote name)).toList =
      some (f.front.toList.map .plain ++ .name name.toList :: f.back.toList.map .plain) := by
  obtain ⟨hfront, hback⟩ := Frame.not_mem_of_isPlain hf
  rw [Frame.around, String.toList_append, String.toList_append, List.append_assoc,
    Identifier.quote, String.toList_ofList]
  exact Identifier.pieces?_append hfront hback _

/-- Each of the five statements is of this form. -/
theorem splits_of_mem_frames {d : Dialect} {f : Frame} (hf : f ∈ frames d) (name : String) :
    f.isPlain = true ∧ Identifier.pieces? (f.around (Identifier.quote name)).toList =
      some (f.front.toList.map .plain ++ .name name.toList :: f.back.toList.map .plain) :=
  ⟨isPlain_of_mem_frames hf, Frame.pieces?_around (isPlain_of_mem_frames hf) name⟩

theorem exists_frame_of_mem {d : Dialect} {table text : String}
    (h : text ∈ (ofQuoted d table).all) : ∃ f ∈ frames d, text = f.around table := by
  rw [all_ofQuoted] at h
  obtain ⟨f, hf, rfl⟩ := List.mem_map.1 h
  exact ⟨f, hf, rfl⟩

/-- **Each of the five statements on a table is about the table of its name**,
    whatever the name contains. -/
theorem target?_of_mem {d : Dialect} {table text : String} {s : Statements}
    (hs : ofTable d table = .ok s) (htext : text ∈ s.all) : target? text = some table := by
  obtain ⟨-, rfl⟩ := ofTable_eq_ok_iff.1 hs
  obtain ⟨f, hf, rfl⟩ := exists_frame_of_mem htext
  obtain ⟨hfront, hback⟩ := Frame.not_mem_of_isPlain (isPlain_of_mem_frames hf)
  exact target?_append hfront (fun h => hback (List.mem_of_head? h)) table

/-! ## What statements do -/

/-- What a statement does. -/
inductive Deed where
  | createTable | put | get | remove | clear
  deriving DecidableEq, Repr

/-- What the five statements do, in their order. -/
def deeds : List Deed := [.createTable, .put, .get, .remove, .clear]

/-- Reads a statement: what it does, and the name of the table that it does it
    to.  It is nothing but a fixed text around one quoted name. -/
def read? (d : Dialect) (text : String) : Option (Deed × String) := do
  let pieces ← Identifier.pieces? text.toList
  let (front, name, back) ← Identifier.single? pieces
  let found ← (deeds.zip (frames d)).find? fun e =>
    e.2.front.toList == front && e.2.back.toList == back
  return (found.1, String.ofList name)

/-- The fixed texts tell what is done. -/
theorem find?_frames (d : Dialect) : ∀ e ∈ deeds.zip (frames d),
    (deeds.zip (frames d)).find? (fun e' =>
      e'.2.front.toList == e.2.front.toList && e'.2.back.toList == e.2.back.toList) = some e := by
  cases d <;> decide +kernel

theorem read?_around {d : Dialect} {deed : Deed} {f : Frame} (h : (deed, f) ∈ deeds.zip (frames d))
    (name : String) : read? d (f.around (Identifier.quote name)) = some (deed, name) := by
  have hpieces := (splits_of_mem_frames (List.of_mem_zip h).2 name).2
  simp only [read?, hpieces, Option.bind_eq_bind, Option.bind_some,
    Identifier.single?_append, find?_frames d _ h, String.ofList_toList, Option.pure_def]

/-- **The five statements on a table do the five deeds**, each to the table of
    its name and to no other. -/
theorem map_read?_all {d : Dialect} {table : String} {s : Statements}
    (hs : ofTable d table = .ok s) :
    s.all.map (read? d) = deeds.map fun deed => some (deed, table) := by
  obtain ⟨-, rfl⟩ := ofTable_eq_ok_iff.1 hs
  have hread : ∀ e ∈ deeds.zip (frames d), read? d (e.2.around (Identifier.quote table)) =
      some (e.1, table) := fun e he => read?_around he table
  have hfst : (deeds.zip (frames d)).map Prod.fst = deeds := List.map_fst_zip (Nat.le_refl 5)
  have hsnd : (deeds.zip (frames d)).map Prod.snd = frames d := List.map_snd_zip (Nat.le_refl 5)
  rw [all_ofQuoted, ← hsnd, ← hfst, List.map_map, List.map_map, List.map_map]
  exact List.map_congr_left hread

/-- What a statement with a key and bytes makes of a database, whose tables are
    byte stores. -/
def change? {σ : Type} (d : Dialect) (tables : String → Option (ByteStore σ)) (text key : String)
    (bytes : ByteArray) (s : σ) : Option (Except StoreError σ) :=
  match read? d text with
  | some (.put, table) => (tables table).map fun t => t.put key bytes s
  | some (.remove, table) => (tables table).map fun t => t.delete key s
  | some (.clear, table) => (tables table).map fun t => t.truncate s
  | some (.createTable, _) | some (.get, _) | none => none

/-- What a statement with a key finds in a database. -/
def find? {σ : Type} (d : Dialect) (tables : String → Option (ByteStore σ)) (text key : String)
    (s : σ) : Option (Except StoreError (Option ByteArray)) :=
  match read? d text with
  | some (.get, table) => (tables table).map fun t => t.get key s
  | some (.createTable, _) | some (.put, _) | some (.remove, _) | some (.clear, _) | none => none

/-- A byte store that does what the statements make of a database. -/
structure Runs {σ : Type} (statements : Statements) (d : Dialect)
    (tables : String → Option (ByteStore σ)) (store : ByteStore σ) : Prop where
  put (key : String) (bytes : ByteArray) (s : σ) :
    change? d tables statements.put key bytes s = some (store.put key bytes s)
  get (key : String) (s : σ) : find? d tables statements.get key s = some (store.get key s)
  delete (key : String) (bytes : ByteArray) (s : σ) :
    change? d tables statements.remove key bytes s = some (store.delete key s)
  truncate (key : String) (bytes : ByteArray) (s : σ) :
    change? d tables statements.clear key bytes s = some (store.truncate s)

/-- **A table is worked with through the statements of its name.** -/
theorem runs_ofTable {σ : Type} {d : Dialect} {table : String} {s : Statements}
    (hs : ofTable d table = .ok s) {tables : String → Option (ByteStore σ)} {store : ByteStore σ}
    (ht : tables table = some store) : s.Runs d tables store := by
  have hall := map_read?_all hs
  simp only [all, deeds, List.map_cons, List.map_nil, List.cons.injEq, and_true] at hall
  obtain ⟨-, hput, hget, hremove, hclear⟩ := hall
  refine ⟨fun key bytes st => ?_, fun key st => ?_, fun key bytes st => ?_, fun key bytes st => ?_⟩
  · simp only [change?, hput, ht, Option.map_some]
  · simp only [find?, hget, ht, Option.map_some]
  · simp only [change?, hremove, ht, Option.map_some]
  · simp only [change?, hclear, ht, Option.map_some]

/-! ## Removing a database -/

/-- The fixed text of the statement that removes a database. -/
def dropFrame : Frame := ⟨dropFront, ""⟩

theorem isPlain_dropFrame : dropFrame.isPlain = true := by decide +kernel

theorem dropDatabase_eq_around (database : String) :
    dropDatabase database = dropFrame.around (Identifier.quote database) :=
  String.append_empty.symm

/-- The statement on the quoted name of a database removes that database. -/
theorem dropped?_dropDatabase (database : String) :
    dropped? (dropDatabase database) = some database := by
  have htext : (dropDatabase database).toList =
      dropFront.toList ++ (Identifier.quoteChars database.toList ++ []) := by
    simp [dropDatabase, Identifier.quote]
  rw [dropped?, htext, if_pos (List.isPrefixOf_iff_prefix.2 (List.prefix_append _ _)),
    List.drop_left, Identifier.read?_quoteChars_append _ (by simp)]
  exact congrArg some String.ofList_toList

end Statements

namespace RowServer

/-- A statement can be sent if the name in it can. -/
theorem isSendable_dropDatabase (database : String) :
    isSendable (Statements.dropDatabase database) = isSendable database := by
  have hnul : Char.ofNat 0 ∉ Statements.dropFront.toList := by decide
  have hmem : Char.ofNat 0 ∈ (Statements.dropDatabase database).toList ↔
      Char.ofNat 0 ∈ database.toList := by
    rw [Statements.dropDatabase, String.toList_append, List.mem_append,
      Identifier.mem_toList_quote (by decide)]
    exact or_iff_right hnul
  rw [isSendable, isSendable, Bool.not_inj_iff, Bool.eq_iff_iff, String.contains_char_eq,
    String.contains_char_eq, decide_eq_true_eq, decide_eq_true_eq]
  exact hmem

/-- **The database that a statement names is removed**, and no other. -/
theorem drop_dropDatabase (database : String) (server : Server) :
    drop (Statements.dropDatabase database) server =
      if !isSendable database then .error .encoding
      else if database = Server.maintenance then .error .statement
      else .ok (server.dropDatabase database) := by
  unfold drop
  rw [isSendable_dropDatabase, Statements.dropped?_dropDatabase]

end RowServer

end TypedStore
