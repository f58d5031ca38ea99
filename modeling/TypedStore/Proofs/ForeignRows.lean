/-
  TypedStore — rows that other programs have stored.

  Another program can store a row with a value of any storage class, or with
  none.  A facade reads such a row by its bytes alone, as it reads its own: a
  text and a blob are their bytes, a number is the eight bytes of its word, and
  null is no bytes at all.

  * `Facade.ReadsOnly`: a key is read as if a value had been set under it;
  * `Facade.ReadsWord`, `Facade.ReadsEmpty`: a key is read as a word of eight
    bytes, and as no bytes;
  * `Cell.readBy`: so the cells of a database file are read, each by its class;
  * `Facade.AnswersFrom`: after a key has been set, what is read does not depend
    on what was there before;
  * `foreign_rows_are_read_by_one_rule`: all this of the engines with tables.
-/
import Mathlib
import TypedStore.Proofs.Coercion
import TypedStore.Proofs.Engines
import TypedStore.Proofs.Names

namespace TypedStore

/-! ## What is read of bytes -/

/-- Each byte of a number by its place, the least significant first. -/
theorem Image.getElem?_bytesOf {n i : Nat} (hi : i < n) (m : Nat) :
    (bytesOf n m)[i]? = some (UInt8.ofNat (m / 256 ^ i)) := by
  induction n generalizing i m with
  | zero => exact absurd hi (Nat.not_lt_zero i)
  | succ n ih =>
    cases i with
    | zero =>
      rw [bytesOf, List.getElem?_cons_zero, Nat.pow_zero, Nat.div_one, Option.some.injEq,
        ← UInt8.toNat_inj, UInt8.toNat_ofNat', UInt8.toNat_ofNat', Nat.mod_mod]
    | succ i =>
      rw [bytesOf, List.getElem?_cons_succ, ih (Nat.lt_of_succ_lt_succ hi), Nat.div_div_eq_div_mul,
        ← Nat.pow_succ']

namespace Facade

variable {db : Facade Host} {key : String} {h : Host} {v : Value} {bytes : ByteArray}

/-- The bytes under a key are what it is read by, whatever is asked for. -/
def ReadsBytes (db : Facade Host) (key : String) (bytes : ByteArray) (h : Host) : Prop :=
  (∀ kind, db.getValue key kind h =
    ((Image.decode bytes kind).bind fun v => v.coerce kind).mapError (.badValue key)) ∧
  ∀ {α : Type} (type : NativeType α), db.get key type h =
    ((Image.decode bytes type.kind).bind type.read).mapError (.badValue key)

/-- A key is read as if a value had been set under it: as itself in its kind,
    unless it is a NaN, and in every kind and type as after the value has been
    set through any facade that stores bytes. -/
structure ReadsOnly (db : Facade Host) (key : String) (v : Value) (h : Host) : Prop where
  own : v.isNaN = false → db.getValue key v.kind h = .ok v
  same {handle : Handle} {store : ByteStore Host} {h' u : Host} :
    handle.byteStore? = some store → (ofBackend handle.backend).set key v h' = .ok u →
    (∀ kind, db.getValue key kind h = (ofBackend handle.backend).getValue key kind u) ∧
      ∀ {α : Type} (type : NativeType α),
        db.get key type h = (ofBackend handle.backend).get key type u

/-- A key is read as a word of eight bytes: as an integer in the types of its
    width, as the floating-point number that has its bits, and as its bytes.  Any
    other width is refused. -/
structure ReadsWord (db : Facade Host) (key : String) (w : IntKind.i64.Word) (h : Host) : Prop where
  i64 : db.getValue key (.int .i64) h = .ok (.int .i64 w)
  u64 : ∃ u, db.getValue key (.int .u64) h = .ok (.int .u64 u) ∧ u.toNat = w.toNat ∧
    IntKind.u64.toInt u = IntKind.i64.toInt w % 2 ^ 64
  blob : ∃ bytes, db.getValue key .blob h = .ok (.blob bytes) ∧ bytes.size = 8 ∧
    ∀ i < 8, bytes.data.toList[i]? = some (UInt8.ofNat (w.toNat / 256 ^ i))
  f64 : FloatKind.f64.isNaN w = false → db.getValue key (.float .f64) h = .ok (.float .f64 w)
  f32 : FloatKind.f64.isNaN w = false →
    db.getValue key (.float .f32) h = .ok (.float .f32 (FloatKind.f64.convert .f32 w))
  nan : FloatKind.f64.isNaN w = true → ∀ k,
    db.getValue key (.float k) h = .error (.badValue key (.nan .f64))
  width {kind n} : Kind.width kind = some n → kind.isFloat = false → n ≠ 8 →
    db.getValue key kind h = .error (.badValue key (.width n 8))

/-- A key is read as no bytes: it is there, and every fixed width is refused. -/
structure ReadsEmpty (db : Facade Host) (key : String) (h : Host) : Prop where
  text : db.getValue key .text h = .ok (.text "")
  blob : db.getValue key .blob h = .ok (.blob ByteArray.empty)
  width {kind n} : Kind.width kind = some n →
    db.getValue key kind h = .error (.badValue key (.width n 0))
  present (kind : Kind) : db.getValue key kind h ≠ .error (.keyNotFound key)

/-- What is read under a key after it has been set depends on the value alone:
    it is read as the value, and not at all if that is null. -/
def AnswersFrom (db : Facade Host) (key : String) (h : Host) : Prop :=
  ∀ v u, db.set key v h = .ok u → (v ≠ .null → db.ReadsOnly key v u) ∧
    (v = .null → ∀ kind, db.getValue key kind u = .error (.keyNotFound key))

theorem readsBytes_of_fetch {b : Backend Host} (hfetch : ∀ kind, b.fetch key kind h =
    (Image.decode bytes kind).mapError (.badValue key)) : (ofBackend b).ReadsBytes key bytes h := by
  constructor
  · intro kind
    rw [getValue_ofBackend, hfetch]
    cases Image.decode bytes kind <;> rfl
  · intro α type
    rw [get_ofBackend, hfetch]
    cases Image.decode bytes type.kind <;> rfl

namespace ReadsBytes

theorem getValue_eq_ok {kind : Kind} {w : Value} (hb : db.ReadsBytes key bytes h)
    (hdecode : Image.decode bytes kind = .ok v) (hcoerce : v.coerce kind = .ok w) :
    db.getValue key kind h = .ok w := by
  rw [hb.1, hdecode]
  exact Except.mapError_eq_ok_iff.2 hcoerce

theorem getValue_eq_error {kind : Kind} {c : CastError} (hb : db.ReadsBytes key bytes h)
    (hdecode : Image.decode bytes kind = .error c) :
    db.getValue key kind h = .error (.badValue key c) := by
  rw [hb.1, hdecode]
  rfl

/-- The image of a value is read as the value. -/
theorem readsOnly (hb : db.ReadsBytes key bytes h) (hv : Image.encode v = some bytes) :
    db.ReadsOnly key v h where
  own hnan := hb.getValue_eq_ok (Image.decode_encode hv hnan) v.coerce_self
  same {handle store h' u} hstore hset := by
    have hnull : v ≠ .null := by
      rintro rfl
      cases hv
    rw [Handle.backend_of_byteStore? hstore, set_ofBackend, Value.isNull_eq_false hnull] at hset
    obtain ⟨bytes', hv', hfetch⟩ :=
      (Handle.isMap hstore).fetch_of_put (Handle.serves hstore) hnull hset
    obtain rfl := Option.some.inj (hv.symm.trans hv')
    have hother := readsBytes_of_fetch hfetch
    rw [Handle.backend_of_byteStore? hstore]
    exact ⟨fun kind => (hb.1 kind).trans (hother.1 kind).symm,
      fun type => (hb.2 type).trans (hother.2 type).symm⟩

/-- **Eight bytes are read as a word.** -/
theorem readsWord {w : IntKind.i64.Word} (hb : db.ReadsBytes key (Image.ofWord 8 w.toNat) h) :
    db.ReadsWord key w h where
  i64 := hb.getValue_eq_ok (Image.decode_int .i64 w) (Value.coerce_self _)
  u64 := by
    refine ⟨w, hb.getValue_eq_ok (Image.decode_int .u64 w) (Value.coerce_self _), rfl, ?_⟩
    have hword : (w.toNat : Int) < 2 ^ 64 := by exact_mod_cast w.isLt
    calc IntKind.u64.toInt w = w.toNat % 2 ^ 64 :=
          (Int.emod_eq_of_lt (Int.natCast_nonneg _) hword).symm
      _ = IntKind.i64.toInt w % 2 ^ 64 := (IntKind.toInt_modEq .i64 w).symm
  blob := ⟨_, hb.getValue_eq_ok rfl (Value.coerce_self _), Image.size_ofWord 8 _,
    fun _ hi => Image.getElem?_bytesOf hi _⟩
  f64 hnumber := hb.getValue_eq_ok ((Image.decode_encode_float .f64 .f64 w).trans
    (if_neg (Bool.eq_false_iff.1 hnumber))) (Value.coerce_self _)
  f32 hnumber := by
    have hne : FloatKind.f64 ≠ .f32 := nofun
    exact hb.getValue_eq_ok ((Image.decode_encode_float .f64 .f32 w).trans
      (if_neg (Bool.eq_false_iff.1 hnumber))) (Value.coerce_float_of_ne hne w)
  nan hnan k := hb.getValue_eq_error ((Image.decode_encode_float .f64 k w).trans (if_pos hnan))
  width {kind n} hwidth hfloat hn := by
    have hsize := Image.size_ofWord 8 w.toNat
    have hdecode := Image.decode_of_width_ne hwidth hfloat (hsize ▸ hn)
    rw [hsize] at hdecode
    exact hb.getValue_eq_error hdecode

/-- **No bytes are read as an empty text or blob, and as no number.** -/
theorem readsEmpty (hb : db.ReadsBytes key ByteArray.empty h) : db.ReadsEmpty key h where
  text := hb.getValue_eq_ok (Image.decode_text "") (Value.coerce_self _)
  blob := hb.getValue_eq_ok rfl (Value.coerce_self _)
  width {kind n} hwidth := by
    refine hb.getValue_eq_error ?_
    cases kind with
    | null | text | blob => cases hwidth
    | bool => exact Image.decode_of_width_ne hwidth rfl (by cases hwidth; decide)
    | int k =>
      refine Image.decode_of_width_ne hwidth rfl ?_
      cases k <;> cases hwidth <;> decide
    | float k => cases k <;> cases hwidth <;> rfl
  present kind hmissing := by
    rw [hb.1, Except.mapError_eq_error_iff] at hmissing
    obtain ⟨c, -, hc⟩ := hmissing
    cases hc

end ReadsBytes

/-- After a key has been set in an engine that stores bytes, it is read as the
    value. -/
theorem answersFrom {handle : Handle} {store : ByteStore Host}
    (hstore : handle.byteStore? = some store) (key : String) (h : Host) :
    (ofBackend handle.backend).AnswersFrom key h := by
  intro v u hset
  rw [Handle.backend_of_byteStore? hstore, set_ofBackend] at hset
  rw [Handle.backend_of_byteStore? hstore]
  refine ⟨fun hnull => ?_, fun hnull kind => ?_⟩
  · rw [Value.isNull_eq_false hnull] at hset
    obtain ⟨bytes, hv, hfetch⟩ :=
      (Handle.isMap hstore).fetch_of_put (Handle.serves hstore) hnull hset
    exact (readsBytes_of_fetch hfetch).readsOnly hv
  · subst hnull
    have hreads := (Handle.isMap hstore).readsBack (Handle.serves hstore)
    exact getValue_of_fetch_error (hreads.remove hset kind)

end Facade

/-! ## Rows of a database file -/

/-- What a key is read as that has a cell under it, by its storage class. -/
def Cell.ReadBy (db : Facade Host) (key : String) (h : Host) : Cell → Prop
  | null => db.ReadsEmpty key h
  | integer w => db.ReadsWord key w h
  | real w => db.ReadsWord key w h
  | text s => db.ReadsOnly key (.text s) h
  | blob bytes => db.ReadsOnly key (.blob bytes) h

variable {key : String} {h u : Host}

/-- A row is read by the bytes of its cell. -/
theorem TableHandle.readsBytes (t : TableHandle) {cell : Cell}
    (hcell : (t.rows h).get? key = some cell) :
    (Facade.ofBackend (Handle.table t).backend).ReadsBytes key cell.image h := by
  have hget : t.byteStore.get key h = .ok (some cell.image) := by
    show Except.ok (((t.rows h).get? key).map Cell.image) = _
    rw [hcell]
    rfl
  exact Facade.readsBytes_of_fetch fun _ => ByteStore.fetch_of_image hget

/-- **A cell is read by its class.** -/
theorem TableHandle.readBy (t : TableHandle) {cell : Cell}
    (hcell : (t.rows h).get? key = some cell) :
    cell.ReadBy (.ofBackend (Handle.table t).backend) key h := by
  have hbytes := t.readsBytes hcell
  cases cell with
  | null => exact hbytes.readsEmpty
  | integer w => exact hbytes.readsWord
  | real w => exact hbytes.readsWord
  | text s => exact hbytes.readsOnly rfl
  | blob bytes => exact hbytes.readsOnly rfl

/-- The row that another program puts into the table of a file is in the table of
    every facade on it. -/
theorem TableHandle.exists_of_putRow {t : TableHandle} {path table : String}
    (hfile : h.files.at? path = some (.file (.database t.number)))
    (htable : foldName table = foldName t.table) (cell : Cell) :
    ∃ u, h.putRow path table key cell = .ok u ∧ u.files = h.files ∧
      (t.rows u).get? key = some cell := by
  refine ⟨h.putCells t.number table ((h.cells t.number table).insert key cell), ?_, rfl, ?_⟩
  · rw [Host.putRow, hfile]
  · rw [TableHandle.rows, Host.cells_putCells, if_pos ⟨rfl, htable.symm⟩, Entries.get?_insert,
      if_pos rfl]

/-- A null of the server is read as no bytes. -/
theorem RowHandle.readsEmpty (t : RowHandle) {server : Server} {rows : RowTable}
    (hreach : t.reach key h = .ok (server, rows)) (hrow : rows.get? key = some none) :
    (Facade.ofBackend (Handle.rows t).backend).ReadsEmpty key h := by
  have hget : t.byteStore.get key h = .ok (some ByteArray.empty) := by
    refine Except.bind_eq_ok_iff.2 ⟨_, hreach, ?_⟩
    show Except.ok ((rows.get? key).map (·.getD ByteArray.empty)) = _
    rw [hrow]
    rfl
  exact (Facade.readsBytes_of_fetch fun _ => ByteStore.fetch_of_image hget).readsEmpty

/-- **Foreign rows are read by one rule.**  What another program puts into the
    table of a database file is in the table of every facade on it, and every row
    there is read by its bytes, that is, by its storage class: a text and a blob
    as if they had been set, an integer and a floating-point number as a word of
    eight bytes, and null as no bytes.  What is not a number is stored as null.
    A null of the server is read as no bytes, too.

    Whatever is under a key, once it has been set what is read depends on the
    value alone. -/
theorem foreign_rows_are_read_by_one_rule :
    (∀ (t : TableHandle) (key : String) (h : Host),
      let db := Facade.ofBackend (Handle.table t).backend
      (∀ cell, (t.rows h).get? key = some cell →
        db.ReadsBytes key cell.image h ∧ cell.ReadBy db key h) ∧
      (∀ path table, h.files.at? path = some (.file (.database t.number)) →
        foldName table = foldName t.table →
          (∀ cell, ∃ u, h.putRow path table key cell = .ok u ∧ u.files = h.files ∧
            (t.rows u).get? key = some cell ∧ cell.ReadBy db key u) ∧
          ∀ x, ∃ u, h.putRow path table key (Cell.ofReal x) = .ok u ∧
            (FloatKind.f64.isNaN x = false → db.ReadsWord key x u) ∧
            (FloatKind.f64.isNaN x = true → db.ReadsEmpty key u)) ∧
      db.AnswersFrom key h) ∧
    ∀ (r : RowHandle) (key : String) (h : Host) (server : Server) (rows : RowTable),
      let db := Facade.ofBackend (Handle.rows r).backend
      r.reach key h = .ok (server, rows) → rows.get? key = some none →
        db.ReadsEmpty key h ∧ db.AnswersFrom key h := by
  refine ⟨fun t key h => ⟨fun cell hcell => ?_, fun path table hfile htable => ⟨fun cell => ?_,
    fun x => ?_⟩, Facade.answersFrom rfl key h⟩, fun r key h server rows hreach hrow => ?_⟩
  · exact ⟨t.readsBytes hcell, t.readBy hcell⟩
  · obtain ⟨u, hput, hfiles, hcell⟩ := TableHandle.exists_of_putRow hfile htable cell
    exact ⟨u, hput, hfiles, hcell, t.readBy hcell⟩
  · obtain ⟨u, hput, -, hcell⟩ := TableHandle.exists_of_putRow hfile htable (Cell.ofReal x)
    have hread := t.readBy hcell
    refine ⟨u, hput, fun hnumber => ?_, fun hnan => ?_⟩
    · rwa [Cell.ofReal, if_neg (Bool.eq_false_iff.1 hnumber)] at hread
    · rwa [Cell.ofReal, if_pos hnan] at hread
  · exact ⟨r.readsEmpty hreach hrow, Facade.answersFrom rfl key h⟩

/-- Another program puts a negative number into a table and a null into another,
    and the number is replaced through a facade. -/
theorem foreign_rows_are_read_by_one_rule_negative :
    let t : TableHandle := { number := 0, table := "kv", location := some ["tmp", "work", "kv.db"] }
    let db := Facade.ofBackend (Handle.table t).backend
    let h : Host :=
      { files := ({} : FileTree).put ["tmp", "work", "kv.db"] (.file (.database 0)) }
    (∃ u v, h.putRow "kv.db" "KV" "key" (.integer (-1)) = .ok u ∧
      db.getValue "key" (.int .i64) u = .ok (.int .i64 (-1)) ∧
      (∃ n, db.getValue "key" (.int .u64) u = .ok (.int .u64 n) ∧
        IntKind.u64.toInt n = 2 ^ 64 - 1) ∧
      db.getValue "key" (.float .f32) u = .error (.badValue "key" (.nan .f64)) ∧
      db.set "key" (.text "abc") u = .ok v ∧ db.getValue "key" .text v = .ok (.text "abc")) ∧
    let server :=
      (Server.start "/tmp" ["app"]).putTable "app" "kv" (Entries.empty.insert "key" none)
    let rows := Facade.ofBackend (Handle.rows ⟨"app", "kv"⟩).backend
    rows.getValue "key" .blob { server := some server } = .ok (.blob ByteArray.empty) ∧
      rows.getValue "key" (.int .i8) { server := some server } =
        .error (.badValue "key" (.width 1 0)) := by
  intro t db h
  obtain ⟨htables, hserver⟩ := foreign_rows_are_read_by_one_rule
  constructor
  · have hname : FileTree.IsName "kv.db" := by decide +kernel
    have hfile : h.files.at? "kv.db" = some (.file (.database t.number)) := by
      rw [FileTree.at?, hname.resolve]
      rfl
    obtain ⟨-, hput, -⟩ := htables t "key" h
    have hfold : foldName "KV" = foldName t.table := by
      rw [← String.toList_inj, foldName, foldName, String.toList_map, String.toList_map]
      decide
    obtain ⟨u, hu, hfiles, -, hread⟩ := (hput "kv.db" "KV" hfile hfold).1 (.integer (-1))
    obtain ⟨-, -, hset⟩ := htables t "key" u
    obtain ⟨n, hn, -, hvalue⟩ := hread.u64
    have hwritable : t.canWrite u = true := by
      rw [TableHandle.canWrite, TableHandle.isAttached, hfiles]
      rfl
    obtain ⟨v, hv⟩ : ∃ v, db.set "key" (.text "abc") u = .ok v := ⟨_, if_pos hwritable⟩
    have htext : Value.text "abc" ≠ .null := by rintro ⟨⟩
    exact ⟨u, v, hu, hread.i64, ⟨n, hn, hvalue⟩, hread.nan (by decide) .f32, hv,
      ((hset _ v hv).1 htext).own rfl⟩
  · intro server rows
    have hkey : "key".contains (Char.ofNat 0) = false := by
      rw [String.contains_char_eq]
      decide
    have hreach : (RowHandle.mk "app" "kv").reach "key" { server := some server } =
        .ok (server, Entries.empty.insert "key" none) := RowHandle.reach_of_ok rfl rfl hkey
    obtain ⟨hempty, -⟩ := hserver _ _ _ _ _ hreach rfl
    exact ⟨hempty.blob, hempty.width rfl⟩

end TypedStore
