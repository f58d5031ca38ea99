/-
  TypedStore — floating-point numbers that are printed and passed on.

  A number is printed with the fewest digits that are read as it, so that what
  one command line prints can be given to another one, which then stores the
  same number with all its bits.

  * `Value.parse_print_float`: what is printed of a number is read as it;
  * `CommandLine.exists_of_code_eq_zero`: what a command line has done that
    succeeds, on any host;
  * `CommandLine.exists_of_run_get`, `CommandLine.exists_of_run_set`: so one that
    prints a number has read it, and it is no NaN, and one that sets what was
    printed has written that number;
  * `printed_floats_read_back`: all this together.
-/
import Mathlib
import TypedStore.Proofs.Coercion
import TypedStore.Proofs.Commands
import TypedStore.Proofs.Positional
import TypedStore.Proofs.ReadPaths

namespace TypedStore

/-! ## One number -/

/-- **What is printed of a number is read as that number.** -/
theorem Value.parse_print_float {k : FloatKind} {w : k.Word} (hw : k.isNaN w = false) :
    parse (.float k) (Value.float k w).print = .ok (.float k w) := by
  have hread : FloatLiteral.read k (Value.float k w).print = .ok w := FloatLiteral.read_text hw
  rw [parse, hread]

/-! ## Nothing that is no number is read -/

theorem Image.isNaN_of_decode {bytes : ByteArray} {kind : Kind} {v : Value}
    (h : decode bytes kind = .ok v) : v.isNaN = false := by
  have hfloat {l : FloatKind} (h : decodeFloat l bytes = .ok v) : v.isNaN = false := by
    simp only [decodeFloat] at h
    split_ifs at h with hnan
    cases h
    exact Bool.eq_false_iff.2 hnan
  cases kind with
  | null => cases h
  | bool =>
    obtain ⟨-, -, h⟩ := Except.bind_eq_ok_iff.1 h
    unfold decodeBool at h
    split at h <;> cases h <;> rfl
  | int k =>
    obtain ⟨-, -, h⟩ := Except.bind_eq_ok_iff.1 h
    cases h
    rfl
  | float k =>
    rw [decode] at h
    split_ifs at h
    · exact hfloat h
    · exact hfloat h
  | text =>
    rw [decode] at h
    split at h <;> cases h
    rfl
  | blob =>
    cases h
    rfl

theorem Value.isNaN_of_coerce {v w : Value} {kind : Kind} (h : v.coerce kind = .ok w)
    (hv : v.isNaN = false) : w.isNaN = false := by
  obtain ⟨-, rfl⟩ | ⟨k, l, x, -, rfl, -, rfl⟩ | ⟨s, -, -, rfl⟩ | ⟨s, -, -, rfl⟩ := coerce_cases h
  · exact hv
  · exact FloatKind.isNaN_convert l hv
  · rfl
  · rfl

/-- An engine that has just been opened keeps images, or it is empty. -/
theorem EngineConfig.exists_of_open {c : EngineConfig} {held : List Handle} {handle : Handle}
    {h u : Host} (hopen : c.open held h = (.ok handle, u)) :
    (∃ name, handle = .map name ∧ u.map name = .empty) ∨
      ∃ store, handle.byteStore? = some store := by
  cases c with
  | memory shared =>
    cases hopen
    refine Or.inl ⟨_, rfl, ?_⟩
    simp only [Host.map, Host.putMap, Entries.get?_insert, if_true, Option.getD_some]
  | lmdb | fjall | sqlite | postgres =>
    obtain ⟨_, -, rfl⟩ := Except.pair_map_eq_ok_iff.1 hopen
    exact Or.inr ⟨_, rfl⟩
  | mdbx | rocksdb => cases hopen

/-- What is read of an engine that has just been opened is no NaN. -/
theorem EngineConfig.isNaN_of_getValue {c : EngineConfig} {held : List Handle} {handle : Handle}
    {h u : Host} {key : String} {kind : Kind} {v : Value}
    (hopen : c.open held h = (.ok handle, u))
    (hget : (Facade.ofBackend handle.backend).getValue key kind u = .ok v) : v.isNaN = false := by
  obtain ⟨found, hfetch, hcoerce⟩ := Facade.getValue_eq_ok_iff.1 hget
  refine Value.isNaN_of_coerce hcoerce ?_
  obtain ⟨name, rfl, hempty⟩ | ⟨store, hstore⟩ := exists_of_open hopen
  · have hnone : ValueMap.fetch key (u.map name) = .ok found := hfetch
    rw [hempty, ValueMap.fetch, Entries.get?_empty] at hnone
    cases hnone
  · rw [Handle.backend_of_byteStore? hstore] at hfetch
    obtain ⟨stored, -, hstored⟩ := Except.bind_eq_ok_iff.1 hfetch
    cases stored with
    | none => cases hstored
    | some bytes => exact Image.isNaN_of_decode (Except.mapError_eq_ok_iff.1 hstored)

namespace CommandLine

variable {args : List String} {i : Invocation} {h u t : Host} {file key text : String}
  {handle : Handle} {k : FloatKind} {w : k.Word}

/-- The configuration in a file opens an engine, which leads from the first host
    to the second. -/
def Starts (file : String) (handle : Handle) (h u : Host) : Prop :=
  ∃ config, Config.ofFile file h.files = .ok config ∧ config.database.open [] h = (.ok handle, u)

/-- What a command line has done that succeeds. -/
theorem exists_of_code_eq_zero (hread : read args = .ok i) (hcommand : i.command ≠ .wipe)
    (hcode : (run args h).1.code = 0) : ∃ handle u result, Starts i.config handle h u ∧
      work (.ofBackend handle.backend) i.command u = .ok result ∧
      run args h = ({ code := 0, output := result.1 }, result.2) := by
  simp only [run, hread, runInvocation] at hcode ⊢
  cases hconfig : Config.ofFile i.config h.files with
  | error fault =>
    simp only [hconfig] at hcode
    cases hcode
  | ok config =>
    simp only [hconfig] at hcode ⊢
    cases hfilter : LogFilter.check config.logging.level with
    | error fault =>
      simp only [hfilter] at hcode
      cases hcode
    | ok =>
      simp only [hfilter, runOn, if_neg hcommand] at hcode ⊢
      rcases hopen : config.database.open [] h with ⟨_ | handle, u⟩
      · simp only [hopen] at hcode
        cases hcode
      · simp only [hopen] at hcode ⊢
        cases hwork : work (.ofBackend handle.backend) i.command u with
        | error e =>
          simp only [hwork] at hcode
          cases hcode
        | ok result => exact ⟨handle, u, result, ⟨config, hconfig, hopen⟩, hwork, rfl⟩

/-- What is printed has been read, and is a number. -/
theorem exists_of_run_get (hread : read args = .ok ⟨file, .get key (.float k)⟩)
    (hcode : (run args h).1.code = 0) : ∃ handle u w, Starts file handle h u ∧
      (Facade.ofBackend handle.backend).getValue key (.float k) u = .ok (.float k w) ∧
      k.isNaN w = false ∧ (run args h).1.output = (Value.float k w).print ++ "\n" := by
  obtain ⟨handle, u, result, hstarts, hwork, hrun⟩ := exists_of_code_eq_zero hread nofun hcode
  obtain ⟨v, hget, hresult⟩ := Except.map_eq_ok_iff.1 (Except.mapError_eq_ok_iff.1 hwork)
  obtain ⟨config, -, hopen⟩ := id hstarts
  have hnumber := EngineConfig.isNaN_of_getValue hopen hget
  cases v with
  | float l w =>
    cases Facade.kind_of_getValue hget
    refine ⟨handle, u, w, hstarts, hget, hnumber, ?_⟩
    rw [hrun, ← hresult]
  | null | bool | int | text | blob => cases Facade.kind_of_getValue hget

/-- What is set is written, and then read. -/
theorem exists_of_run_set (hread : read args = .ok ⟨file, .set key text (.float k)⟩)
    (hw : k.isNaN w = false) (htext : text = (Value.float k w).print)
    (hcode : (run args h).1.code = 0) : ∃ handle u, Starts file handle h u ∧
      (Facade.ofBackend handle.backend).set key (.float k w) u = .ok (run args h).2 ∧
      (Facade.ofBackend handle.backend).getValue key (.float k) (run args h).2 =
        .ok (.float k w) := by
  obtain ⟨handle, u, result, hstarts, hwork, hrun⟩ := exists_of_code_eq_zero hread nofun hcode
  simp only [work, htext, Value.parse_print_float hw] at hwork
  obtain ⟨t, ht, hresult⟩ := Except.map_eq_ok_iff.1 (Except.mapError_eq_ok_iff.1 hwork)
  have hput : handle.backend.put key (.float k w) u = .ok t := ht
  rw [hrun, ← hresult]
  exact ⟨handle, u, hstarts, ht, Facade.getValue_eq_ok_iff.2
    ⟨_, Handle.fetch_float_of_put hw hput k, Value.coerce_self _⟩⟩

/-- Any text can be given as a value, a minus notwithstanding, after a mark that
    ends the options. -/
theorem read_set_operands (k : FloatKind) (key text : String) :
    read ["set", "--type", k.name, "--", key, text] =
      .ok ⟨defaultConfig, .set key text (.float k)⟩ := by
  cases k <;> cbv

end CommandLine

open CommandLine

/-- **Printed floating-point numbers are read back.**  What is printed of a number
    in either precision is read, in that precision, as the same number: zeros
    keep their sign, and infinities and the least numbers are read as such.  If
    it is finite and no zero, the text is a decimal that is read as the number,
    with as few digits as any that is.

    Whatever the host, what a command line prints that reads a key in a precision
    has been read there and is a number.  The text of it, without the end of the
    line, can be given to another command line, on any host, for any file and
    under any key; if that succeeds, it has written the number with all its bits,
    and so it is read. -/
theorem printed_floats_read_back :
    (∀ (k : FloatKind) (w : k.Word), k.isNaN w = false →
      Value.parse (.float k) (Value.float k w).print = .ok (.float k w) ∧
      (0 < k.format.rank w.toNat → k.format.rank w.toNat < k.format.infinity →
        ∃ d, k.format.IsShortest (k.format.rank w.toNat) d ∧ (Value.float k w).print.toList =
          (if k.format.negative w.toNat then ['-'] else []) ++ d.chars)) ∧
    ∀ (k : FloatKind) (args : List String) (file key : String) (h : Host),
      read args = .ok ⟨file, .get key (.float k)⟩ → (run args h).1.code = 0 →
      ∃ handle u w, Starts file handle h u ∧
        (Facade.ofBackend handle.backend).getValue key (.float k) u = .ok (.float k w) ∧
        k.isNaN w = false ∧ (run args h).1.output = (Value.float k w).print ++ "\n" ∧
        ∀ text other, (run args h).1.output = text ++ "\n" →
          read ["set", "--type", k.name, "--", other, text] =
            .ok ⟨defaultConfig, .set other text (.float k)⟩ ∧
          ∀ args' file' t, read args' = .ok ⟨file', .set other text (.float k)⟩ →
            (run args' t).1.code = 0 → ∃ handle' u', Starts file' handle' t u' ∧
              (Facade.ofBackend handle'.backend).set other (.float k w) u' =
                .ok (run args' t).2 ∧
              (Facade.ofBackend handle'.backend).getValue other (.float k) (run args' t).2 =
                .ok (.float k w) := by
  refine ⟨fun k w hw => ⟨Value.parse_print_float hw, fun hpos hfinite => ?_⟩,
    fun k args file key h hread hcode => ?_⟩
  · obtain ⟨d, hd, hchars⟩ :=
      Format.exists_shortest_chars k.fraction_pos k.exponent_pos hpos hfinite
    exact ⟨d, hd, (String.toList_ofList).trans hchars⟩
  · obtain ⟨handle, u, w, hstarts, hget, hw, houtput⟩ := exists_of_run_get hread hcode
    refine ⟨handle, u, w, hstarts, hget, hw, houtput, fun text other htext => ?_⟩
    refine ⟨read_set_operands k other text, fun args' file' t hread' hcode' => ?_⟩
    have hsame : text = (Value.float k w).print := by
      have happend := congrArg String.toList (htext.symm.trans houtput)
      rw [String.toList_append, String.toList_append] at happend
      exact String.toList_inj.1 (List.append_cancel_right happend)
    exact exists_of_run_set hread' hw hsame hcode'

/-- A tenth below zero is stored in a database file, printed, and stored as it
    was printed. -/
theorem printed_floats_read_back_tenth :
    let h : Host := { files := configured "kv.db" }
    let line := ["set", "--type", "f32", "--", "k", "-0.1"]
    let u := (run line h).2
    Value.parse (.float .f32) (Value.float .f32 0xBDCCCCCD#32).print =
        .ok (.float .f32 0xBDCCCCCD#32) ∧
      (run ["get", "k", "--type", "f32"] u).1 = { code := 0, output := "-0.1\n" } ∧
      ∃ handle v w, Starts "unikv.toml" handle h v ∧ FloatKind.f32.isNaN w = false ∧
        (Value.float .f32 w).print ++ "\n" = "-0.1\n" ∧
        (Facade.ofBackend handle.backend).set "k" (.float .f32 w) v = .ok u := by
  intro h line u
  obtain ⟨hprint, hcommands⟩ := printed_floats_read_back
  have hnumber : FloatKind.f32.isNaN 0xBDCCCCCD#32 = false := by decide
  have hparse : Value.parse (.float .f32) "-0.1" = .ok (.float .f32 0xBDCCCCCD#32) := by
    decide +kernel
  have htext : (Value.float .f32 0xBDCCCCCD#32).print ++ "\n" = "-0.1\n" := by decide +kernel
  have hset : read line = .ok ⟨"unikv.toml", .set "k" "-0.1" (.float .f32)⟩ := by cbv
  have hget : read ["get", "k", "--type", "f32"] = .ok ⟨"unikv.toml", .get "k" (.float .f32)⟩ := by
    cbv
  have hname : FileTree.IsName "kv.db" := by decide +kernel
  have hplain : TablePath.IsPlain "kv.db" := ⟨by decide +kernel, by decide, by decide⟩
  have hconfig : Config.ofFile "unikv.toml" (configured "kv.db") = .ok (tableConfig "kv.db") :=
    ofFile_configured rfl (by decide +kernel) (by decide +kernel)
  obtain ⟨-, hcode, -, hfinds⟩ := run_set_of_missing hset hparse hplain hconfig target_kv
    (FileTree.locate_of_resolve (hname.resolve _))
  have hkey : (tableConfig "kv.db").database.Accepts "k" := trivial
  have hprinted := Finds.get_image (v := .float .f32 0xBDCCCCCD#32) hkey rfl hnumber hfinds hget
  rw [htext] at hprinted
  obtain ⟨-, -, w, -, -, hw, houtput, hagain⟩ := hcommands .f32 ["get", "k", "--type", "f32"]
    "unikv.toml" "k" u hget (by rw [hprinted])
  obtain ⟨handle, v, hstarts, hwritten, -⟩ :=
    (hagain "-0.1" "k" (by rw [hprinted]; rfl)).2 line "unikv.toml" h hset hcode
  rw [hprinted] at houtput
  exact ⟨(hprint .f32 _ hnumber).1, hprinted, handle, v, w, hstarts, hw, houtput.symm, hwritten⟩

end TypedStore
