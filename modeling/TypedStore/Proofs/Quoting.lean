/-
  TypedStore — the names of tables stay in their quotes.

  * `Statements.ofTable_eq_error_iff`: the names that are refused;
  * `names_stay_in_quotes`: quoting, the five statements on a table and the one
    that removes a database, and opening a table under a name that is refused.
-/
import TypedStore.Proofs.Tables

namespace TypedStore

/-! ## Names that are refused -/

namespace Statements

/-- Whether a name cannot be the name of a table: it is empty, or a zero
    character in it would end the statement. -/
def IsRefused (name : String) : Prop := name = "" ∨ Char.ofNat 0 ∈ name.toList

theorem checkTableName_eq_error_iff {name : String} {e : StoreError} :
    checkTableName name = .error e ↔ e = .invalidTableName name ∧ IsRefused name := by
  have hrefused : isTableName name = false ↔ IsRefused name := by
    simp [isTableName, IsRefused, String.contains_char_eq, or_iff_not_imp_left]
  unfold checkTableName
  split_ifs with h
  · simp [← hrefused, h]
  · rw [Bool.not_eq_true, hrefused] at h
    simp [h, eq_comm]

/-- A name is refused exactly if it is empty or contains a zero character. -/
theorem ofTable_eq_error_iff {d : Dialect} {name : String} {e : StoreError} :
    ofTable d name = .error e ↔ e = .invalidTableName name ∧ IsRefused name := by
  rw [← checkTableName_eq_error_iff]
  unfold ofTable
  cases checkTableName name with
  | error fault =>
    exact ⟨fun h => congrArg _ (Except.error.inj h), fun h => congrArg _ (Except.error.inj h)⟩
  | ok => exact ⟨nofun, nofun⟩

end Statements

/-- A table whose name is refused is not opened, whatever else the settings say
    and whatever is on the host, and the host stays as it is. -/
theorem EngineConfig.open_of_isRefused {c : EngineConfig} {d : Dialect} {name : String}
    (hsql : c.sql? = some (d, name)) (hname : Statements.IsRefused name) (held : List Handle)
    (h : Host) : c.open held h = (.error (.invalidTableName name), h) := by
  have hcheck := Statements.checkTableName_eq_error_iff.2 ⟨rfl, hname⟩
  cases c with
  | memory | lmdb | mdbx | rocksdb | fjall => cases hsql
  | sqlite path table create =>
    cases hsql
    simp only [«open», TableFile.open, hcheck]
    rfl
  | postgres conninfo table =>
    cases hsql
    simp only [«open», RowServer.open, hcheck]
    rfl

/-! ## Names in quotes -/

/-- **No name leaves its quotes.**  A quoted name that no further quote follows
    is read back as the name, with everything that follows it left.

    Each of the five statements on a table is a fixed text of plain characters
    with the quoted name in it: read with its quotes, it has the fixed text
    outside of them and the name inside, so that it does one deed to one table.
    Statements on tables of different names differ, in the same dialect or
    another.  The statement that removes a database is such a text around the
    name of the database.

    The names that are refused are the empty one and those with a zero
    character, with an error that gives the name; opening a table under such a
    name fails with this error and leaves the host as it is. -/
theorem names_stay_in_quotes (name : String) :
    (∀ after : List Char, after.head? ≠ some '"' →
      Identifier.read? ((Identifier.quote name).toList ++ after) = some (name.toList, after)) ∧
    (∀ d s, Statements.ofTable d name = .ok s →
      s.all = (Statements.frames d).map (·.around (Identifier.quote name)) ∧
      (∀ f ∈ Statements.frames d, f.isPlain = true ∧
        Identifier.pieces? (f.around (Identifier.quote name)).toList =
          some (f.front.toList.map .plain ++ .name name.toList :: f.back.toList.map .plain)) ∧
      s.all.map (Statements.read? d) = Statements.deeds.map (fun deed => some (deed, name)) ∧
      ∀ d' other s', Statements.ofTable d' other = .ok s' → other ≠ name →
        ∀ text ∈ s.all, text ∉ s'.all) ∧
    (Statements.dropFrame.isPlain = true ∧
      Identifier.pieces? (Statements.dropDatabase name).toList =
        some (Statements.dropFront.toList.map .plain ++ [.name name.toList]) ∧
      Statements.dropped? (Statements.dropDatabase name) = some name) ∧
    (∀ d e, Statements.ofTable d name = .error e ↔
      e = .invalidTableName name ∧ (name = "" ∨ Char.ofNat 0 ∈ name.toList)) ∧
    ∀ (c : EngineConfig) (d : Dialect), c.sql? = some (d, name) →
      (name = "" ∨ Char.ofNat 0 ∈ name.toList) →
        ∀ held h, c.open held h = (.error (.invalidTableName name), h) := by
  refine ⟨fun after hafter => ?_, fun d s hs => ⟨?_,
      fun f hf => Statements.splits_of_mem_frames hf name, Statements.map_read?_all hs, ?_⟩,
    ⟨Statements.isPlain_dropFrame, ?_, Statements.dropped?_dropDatabase name⟩,
    fun _ _ => Statements.ofTable_eq_error_iff,
    fun c d hsql hname => EngineConfig.open_of_isRefused hsql hname⟩
  · rw [Identifier.quote, String.toList_ofList]
    exact Identifier.read?_quoteChars_append _ hafter
  · rw [(Statements.ofTable_eq_ok_iff.1 hs).2]
    exact Statements.all_ofQuoted d _
  · -- a statement has the name of its table to tell it by
    intro d' other s' hs' hne text htext htext'
    have hname := Statements.target?_of_mem hs htext
    have hother := Statements.target?_of_mem hs' htext'
    exact hne (Option.some.inj (hother.symm.trans hname))
  · rw [Statements.dropDatabase_eq_around]
    exact Statements.Frame.pieces?_around Statements.isPlain_dropFrame name

/-- A name that would drop the table, were it not for its quotes. -/
theorem names_stay_in_quotes_drop :
    let name := "kv\"; DROP TABLE \"kv"
    ∃ s, Statements.ofTable .sqlite name = .ok s ∧
      s.all = (Statements.frames .sqlite).map (·.around (Identifier.quote name)) ∧
      ∀ f ∈ Statements.frames .sqlite,
        Identifier.pieces? (f.around (Identifier.quote name)).toList =
          some (f.front.toList.map .plain ++ .name name.toList :: f.back.toList.map .plain) := by
  intro name
  have hname : Statements.checkTableName name = .ok () := by cbv
  have hs : Statements.ofTable .sqlite name = .ok (.ofQuoted .sqlite (Identifier.quote name)) :=
    Statements.ofTable_eq_ok_iff.2 ⟨hname, rfl⟩
  obtain ⟨hall, hpieces, -⟩ := (names_stay_in_quotes name).2.1 .sqlite _ hs
  exact ⟨_, hs, hall, fun f hf => (hpieces f hf).2⟩

end TypedStore
