import MiniDb.Sql.ListBounds
import MiniDb.Storage.RowCodec

/-! # The schema a CREATE TABLE installs

`parse_create_table` takes the number behind VARCHAR as it comes and stores it in 16 bits. The
schema that `exec_create_table` makes of it is one that rows can be written and read with exactly
when every such number is, in 16 bits, a length between 1 and 255. -/

set_option autoImplicit false

namespace MiniDb

open Lib

/-! ## The registered columns -/

/-- The column that `exec_create_table` makes of a parsed one. -/
def ColumnDef.toMeta (cd : ColumnDef) : ColumnMeta :=
  { name := cd.name, type := cd.type, size := cd.size, offset := 0, isSystem := false }

/-- The parsed columns that are registered: those not called `id`. -/
def Statement.userDefs (stmt : Statement) : List ColumnDef :=
  stmt.colDefs.filter (·.name ≠ cstr "id")

/-- The columns of the new table, before their offsets are computed. -/
def Statement.tableColumns (stmt : Statement) : List ColumnMeta :=
  idColumn :: stmt.userDefs.map (·.toMeta)

theorem registerColumns_eq {columns cols : List ColumnMeta} {defs : List ColumnDef}
    (h : registerColumns columns defs = some cols) :
    cols = columns ++ (defs.filter (·.name ≠ cstr "id")).map (·.toMeta) := by
  induction defs generalizing columns with
  | nil =>
    cases h
    simp
  | cons cd defs ih =>
    by_cases hid : cd.name = cstr "id"
    · rw [registerColumns, if_pos hid] at h
      simpa [hid] using ih h
    · rw [registerColumns, if_neg hid, pushColumn] at h
      split at h
      · rw [Option.bind_eq_bind, Option.bind_some] at h
        rw [ih h, List.filter_cons_of_pos (by simpa using hid), List.map_cons, List.append_assoc]
        rfl
      · cases h

/-- The header after a CREATE TABLE. -/
def Statement.installed (stmt : Statement) (hdr : DbHeader) : DbHeader :=
  schemaComputeLayout { hdr with columns := stmt.tableColumns }

/-- `exec_create_table` fails on a table that exists, and installs the schema otherwise. -/
theorem execCreateTable_cases {stmt : Statement} {st st' : Pager} {res : ExecResult}
    (h : (execCreateTable stmt).run st = some (res, st')) :
    (res.status = -1 ∧ st.header.columns ≠ [] ∧ st' = st) ∨
    (res.status = 0 ∧ st.header.columns = [] ∧ stmt.userDefs.length < maxColumns ∧
      st' = st.setHeader (stmt.installed st.header)) := by
  unfold execCreateTable at h
  by_cases hcols : st.header.columns = []
  · right
    rcases hreg : registerColumns [idColumn] stmt.colDefs with _ | cols
    · simp [hcols, hreg, orUndefined] at h
    · have hlen := (registerColumns_isSome [idColumn] stmt.colDefs).mp (by rw [hreg]; rfl)
      have heq := registerColumns_eq hreg
      subst heq
      simp only [hcols, hreg, orUndefined, StateT.run_bind, StateT.run_get, Option.pure_def,
        Option.bind_eq_bind, Option.bind_some, ne_eq, not_true, if_false, StateT.run_pure,
        StateT.run_modify, Option.some.injEq, Prod.mk.injEq] at h
      obtain ⟨rfl, rfl⟩ := h
      refine ⟨rfl, hcols, ?_, rfl⟩
      rw [Statement.userDefs]
      rcases hlen with hzero | hle
      · rw [hzero]
        decide
      · rw [List.length_singleton] at hle
        omega
  · left
    simp only [hcols, StateT.run_bind, StateT.run_get, Option.pure_def, Option.bind_eq_bind,
      Option.bind_some, ne_eq, not_false_eq_true, if_true, StateT.run_pure, Option.some.injEq,
      Prod.mk.injEq] at h
    obtain ⟨rfl, rfl⟩ := h
    exact ⟨rfl, hcols, rfl⟩

/-! ## Usable schemas -/

/-- Every VARCHAR column has a size between 1 and 255. -/
def VarcharUsable (columns : List ColumnMeta) : Prop :=
  ∀ c ∈ columns, c.type = .varchar → 1 ≤ c.size ∧ c.size ≤ 255

/-- What the serializer, the deserializer and the heap rely on: VARCHAR sizes between 1 and 255,
offsets and row size that are the sums they stand for, and so column ranges that are disjoint and
inside the row. -/
structure UsableSchema (hdr : DbHeader) : Prop where
  varchar : ∀ c ∈ hdr.columns, c.type = .varchar → 1 ≤ c.size ∧ c.size ≤ 255
  offset : ∀ (i : Nat) (c : ColumnMeta), hdr.columns[i]? = some c →
    c.offset = sizeSum (hdr.columns.take i)
  rowSize : hdr.rowSize = sizeSum hdr.columns
  disjoint : ∀ (i j : Nat) (c d : ColumnMeta), i < j → hdr.columns[i]? = some c →
    hdr.columns[j]? = some d → c.offset + c.size ≤ d.offset
  inside : ∀ c ∈ hdr.columns, c.offset + c.size ≤ hdr.rowSize

theorem SoundSchema.usable {hdr : DbHeader} (h : SoundSchema hdr) : UsableSchema hdr where
  varchar c hc ht := by
    have hs := h.sound c hc
    rwa [ColumnMeta.Sound, ht] at hs
  offset i c hc := by
    rw [h.contiguous.offset_eq hc, Nat.zero_add]
  rowSize := h.rowSize
  disjoint i j c d hij hc hd := h.contiguous.disjoint hij hc hd
  inside c hc := by
    obtain ⟨i, hi⟩ := List.getElem?_of_mem hc
    have hin := h.contiguous.inside hi
    rw [h.rowSize]
    omega

/-- A parsed column whose size is right for its type. -/
def ColumnDef.Sound (cd : ColumnDef) : Prop := cd.toMeta.Sound

theorem bare_sound {c : ColumnMeta} : c.bare.Sound ↔ c.Sound := Iff.rfl

section

variable {stmt : Statement} {hdr : DbHeader}

theorem installed_bare :
    (stmt.installed hdr).columns.map (·.bare) = stmt.tableColumns.map (·.bare) :=
  layoutFrom_bare 0 stmt.tableColumns

/-- A property of columns that does not look at their offset. -/
theorem installed_forall {P : ColumnMeta → Prop} (hP : ∀ c : ColumnMeta, P c.bare ↔ P c) :
    (∀ c ∈ (stmt.installed hdr).columns, P c) ↔ ∀ c ∈ stmt.tableColumns, P c := by
  have hmap : ∀ l : List ColumnMeta, (∀ c ∈ l, P c) ↔ ∀ c ∈ l.map (·.bare), P c := by
    intro l
    simp [hP]
  rw [hmap, installed_bare, ← hmap]

theorem sizeSum_le_of_sound {cols : List ColumnMeta} (h : ∀ c ∈ cols, c.Sound) :
    sizeSum cols ≤ 255 * cols.length := by
  induction cols with
  | nil => exact Nat.le_refl 0
  | cons c cols ih =>
    have hc : c.size ≤ 255 := by
      have hs := h c (by simp)
      unfold ColumnMeta.Sound at hs
      split at hs
      · omega
      · omega
      · exact hs.2
    have hrest := ih fun d hd => h d (by simp [hd])
    rw [sizeSum_cons, List.length_cons]
    omega

/-- The id and fifteen columns of 255 bytes at most. -/
theorem sizeSum_installed_le (hlen : stmt.userDefs.length < maxColumns)
    (h : ∀ cd ∈ stmt.userDefs, cd.Sound) : sizeSum (stmt.installed hdr).columns ≤ 3833 := by
  have hcols : ∀ c ∈ stmt.userDefs.map ColumnDef.toMeta, c.Sound := by
    intro c hc
    obtain ⟨cd, hcd, rfl⟩ := List.mem_map.mp hc
    exact h cd hcd
  have hsum := sizeSum_le_of_sound hcols
  have hid : sizeSum stmt.tableColumns = 8 + sizeSum (stmt.userDefs.map ColumnDef.toMeta) := rfl
  rw [sizeSum_of_bare installed_bare, hid]
  simp only [List.length_map, maxColumns] at hsum hlen
  omega

/-- Sound columns make a sound schema: sixteen of them are too short for the offset to wrap. -/
theorem installed_sound (hlen : stmt.userDefs.length < maxColumns)
    (h : ∀ cd ∈ stmt.userDefs, cd.Sound) : SoundSchema (stmt.installed hdr) := by
  have hcols : ∀ c ∈ stmt.tableColumns, c.Sound := by
    intro c hc
    rcases List.mem_cons.mp hc with rfl | hc
    · decide
    · obtain ⟨cd, hcd, rfl⟩ := List.mem_map.mp hc
      exact h cd hcd
  have hsum := sizeSum_le_of_sound hcols
  have hwrap : 0 + sizeSum stmt.tableColumns < 65536 := by
    simp only [Statement.tableColumns, List.length_cons, List.length_map, maxColumns] at hsum hlen ⊢
    omega
  obtain ⟨hcont, hend⟩ := layoutFrom_spec hwrap
  refine ⟨(installed_forall fun c => bare_sound).mpr hcols, hcont, ?_⟩
  rw [sizeSum_of_bare installed_bare]
  exact hend.trans (Nat.zero_add _)

/-- Where INT and BIGINT have their sizes, only VARCHAR columns can be unsound. -/
theorem VarcharUsable.sound (h : VarcharUsable (stmt.installed hdr).columns)
    (hfixed : ∀ cd ∈ stmt.userDefs, cd.type ≠ .varchar → cd.Sound) :
    ∀ cd ∈ stmt.userDefs, cd.Sound := by
  have hvarchar := (installed_forall
    (P := fun c => c.type = .varchar → 1 ≤ c.size ∧ c.size ≤ 255) fun c => Iff.rfl).mp h
  intro cd hcd
  by_cases ht : cd.type = .varchar
  · have hsize := hvarchar cd.toMeta
      (List.mem_cons_of_mem _ (List.mem_map.mpr ⟨cd, hcd, rfl⟩)) ht
    show cd.toMeta.Sound
    rw [ColumnMeta.Sound, show cd.toMeta.type = .varchar from ht]
    exact hsize
  · exact hfixed cd hcd ht

end

/-! ## The lengths of a text -/

/-- Where the items of a list begin: the first `n`, or those in front of the first that is not well
formed. -/
def itemTexts {α : Type} (item : CString → ParseM (α × CString)) : Nat → CString → List CString
  | 0, _ => []
  | n + 1, p =>
    if startsItem p then
      match item (skipWs p) with
      | .ok (_, rest) => skipWs p :: itemTexts item n (afterItem rest)
      | .error _ => []
    else []

theorem firstItems_texts {α : Type} (item : CString → ParseM (α × CString)) (n : Nat) (p : CString) :
    List.Forall₂ (fun q a => ∃ rest, item q = .ok (a, rest)) (itemTexts item n p)
      (firstItems item n p) := by
  induction n generalizing p with
  | zero => exact .nil
  | succ n ih =>
    rw [itemTexts, firstItems]
    split
    · cases hread : item (skipWs p) with
      | error e => exact .nil
      | ok r => exact .cons ⟨r.2, hread⟩ (ih _)
    · exact .nil

/-- The name of a column, from where its text begins. -/
def columnName (q : CString) : CString :=
  (spanUpTo (fun c => !isspace c && c != ch ',' && c != ch ')') 31 q).1

/-- The type word of a column and the text behind it. -/
def columnTypeSpan (q : CString) : CString × CString :=
  spanUpTo (fun c => c != ch ',' && c != ch ')' && c != ch '(' && !isspace c) 31
    (skipWs (spanUpTo (fun c => !isspace c && c != ch ',' && c != ch ')') 31 q).2)

/-- The length that the text gives a VARCHAR column: the number in brackets, 32 without brackets. -/
def writtenLength (q : CString) : Option Int :=
  let t := columnTypeSpan q
  if keyword (cstr "VARCHAR") t.1 then
    let p := skipWs t.2
    some (if deref p = ch '(' then atoi p.tail else 32)
  else none

/-- What `parse_create_table` makes of the text of a column. -/
theorem parseColumn_ok {q rest : CString} {cd : ColumnDef} (h : parseColumn q = .ok (cd, rest)) :
    cd.name = columnName q ∧
      match writtenLength q with
      | some w => cd.type = .varchar ∧ cd.size = toU16 w
      | none => cd.type ≠ .varchar ∧ cd.Sound := by
  unfold parseColumn at h
  simp only [readInto_name, ParseM.ok_bind, ParseM.pure_eq, ParseM.throw_eq] at h
  rw [writtenLength]
  split at h
  · rename_i hint
    have hnot : ¬ keyword (cstr "VARCHAR") (columnTypeSpan q).1 = true :=
      keyword_exclusive (by decide) (by decide) (by decide) (Bool.and_eq_true _ _ ▸ hint).1
    cases h
    refine ⟨rfl, ?_⟩
    rw [if_neg hnot]
    exact ⟨by simp, rfl⟩
  split at h
  · rename_i hbig
    have hnot : ¬ keyword (cstr "VARCHAR") (columnTypeSpan q).1 = true :=
      keyword_exclusive (by decide) (by decide) (by decide) hbig
    cases h
    refine ⟨rfl, ?_⟩
    rw [if_neg hnot]
    exact ⟨by simp, rfl⟩
  split at h
  · rename_i hvarchar
    cases h
    refine ⟨rfl, ?_⟩
    rw [if_pos (show keyword (cstr "VARCHAR") (columnTypeSpan q).1 = true from hvarchar)]
    refine ⟨rfl, ?_⟩
    show (varcharSize (columnTypeSpan q).2).1 = _
    unfold varcharSize
    by_cases hopen : deref (skipWs (columnTypeSpan q).2) = ch '('
    · simp only [hopen, if_true]
    · simp only [hopen, if_false]
      rfl
  · cases h

/-- Every length that the text gives a column not called `id` is, in 16 bits, between 1 and 255. -/
def LengthsUsable (text : CString) : Prop :=
  ∀ l ∈ columnList (commandText text), ∀ q ∈ itemTexts parseColumn maxColumns l,
    columnName q ≠ cstr "id" → ∀ w ∈ writtenLength q, 1 ≤ w % 2 ^ 16 ∧ w % 2 ^ 16 ≤ 255

instance (text : CString) : Decidable (LengthsUsable text) :=
  inferInstanceAs (Decidable (∀ l ∈ columnList (commandText text), _))

section

variable {text : CString} {stmt : Statement}

/-- A parsed CREATE TABLE has the columns of its text. -/
theorem parse_createTable (hparse : parse text = .ok stmt) (htype : stmt.type = .createTable) :
    ∃ l, columnList (commandText text) = some l ∧
      stmt.colDefs = firstItems parseColumn maxColumns l := by
  by_cases hexplain : keyword (cstr "EXPLAIN") (commandText text) = true
  · rw [parse_explain hexplain] at hparse
    cases hinner : parse (skipWs ((commandText text).drop 7)) with
    | error e =>
      rw [hinner] at hparse
      cases hparse
    | ok inner =>
      rw [hinner] at hparse
      cases hparse
      cases htype
  rw [parse_command hexplain] at hparse
  rcases hcols : columnList (commandText text) with _ | l
  · rcases hvals : valueList (commandText text) with _ | l
    · exact absurd htype ((parseCommand_noList hcols hvals).2 stmt hparse)
    · obtain ⟨stmt₀, hinsert, hrun⟩ := parseCommand_valueList hvals
      rw [hrun] at hparse
      cases hvalues : parseItems parseInsertValue maxColumns l with
      | error e =>
        rw [hvalues] at hparse
        cases hparse
      | ok values =>
        rw [hvalues] at hparse
        cases hparse
        rw [show stmt₀.type = .createTable from htype] at hinsert
        cases hinsert
  · obtain ⟨stmt₀, -, hrun⟩ := parseCommand_columnList hcols
    rw [hrun] at hparse
    rcases parseItems_spec parseColumn_inBounds maxColumns l with ⟨-, h⟩ | ⟨-, h, -⟩ | ⟨-, h⟩
    · rw [h] at hparse
      cases hparse
    · rw [h] at hparse
      cases hparse
    · rw [h] at hparse
      cases hparse
      exact ⟨l, rfl, rfl⟩

/-- A parsed column is sound exactly when the length that its text gives it is usable. -/
theorem parseColumn_sound_iff {q rest : CString} {cd : ColumnDef}
    (h : parseColumn q = .ok (cd, rest)) :
    cd.Sound ↔ ∀ w ∈ writtenLength q, 1 ≤ w % 2 ^ 16 ∧ w % 2 ^ 16 ≤ 255 := by
  obtain ⟨-, hlength⟩ := parseColumn_ok h
  cases hw : writtenLength q with
  | none =>
    rw [hw] at hlength
    simpa using hlength.2
  | some w =>
    rw [hw] at hlength
    obtain ⟨ht, hsize⟩ := hlength
    have hnonneg := Int.emod_nonneg w (show (2 ^ 16 : Int) ≠ 0 by decide)
    rw [ColumnDef.Sound, ColumnMeta.Sound, show cd.toMeta.type = .varchar from ht,
      show cd.toMeta.size = toU16 w from hsize]
    simp only [toU16, Option.mem_some_iff, forall_eq']
    omega

theorem userDefs_sound_iff (hparse : parse text = .ok stmt) (htype : stmt.type = .createTable) :
    (∀ cd ∈ stmt.userDefs, cd.Sound) ↔ LengthsUsable text := by
  obtain ⟨l, hcols, hdefs⟩ := parse_createTable hparse htype
  have htexts := firstItems_texts parseColumn maxColumns l
  simp only [LengthsUsable, hcols, Option.mem_some_iff, forall_eq', Statement.userDefs, hdefs,
    List.mem_filter, decide_eq_true_eq, and_imp]
  generalize itemTexts parseColumn maxColumns l = qs at htexts ⊢
  generalize firstItems parseColumn maxColumns l = cds at htexts ⊢
  induction htexts with
  | nil => simp
  | @cons q cd qs cds hread _ ih =>
    obtain ⟨rest, hread⟩ := hread
    simp only [List.forall_mem_cons, ih, parseColumn_sound_iff hread, (parseColumn_ok hread).1]

theorem parseColumn_fixed (hparse : parse text = .ok stmt) (htype : stmt.type = .createTable) :
    ∀ cd ∈ stmt.userDefs, cd.type ≠ .varchar → cd.Sound := by
  obtain ⟨l, -, hdefs⟩ := parse_createTable hparse htype
  have htexts := firstItems_texts parseColumn maxColumns l
  have hall : ∀ cd ∈ firstItems parseColumn maxColumns l, cd.type ≠ .varchar → cd.Sound := by
    generalize itemTexts parseColumn maxColumns l = qs at htexts
    generalize firstItems parseColumn maxColumns l = cds at htexts ⊢
    clear hdefs
    induction htexts with
    | nil => simp
    | @cons q cd qs cds hread _ ih =>
      obtain ⟨rest, hread⟩ := hread
      obtain ⟨-, hlength⟩ := parseColumn_ok hread
      refine List.forall_mem_cons.mpr ⟨fun ht => ?_, ih⟩
      cases hw : writtenLength q with
      | none =>
        rw [hw] at hlength
        exact hlength.2
      | some w =>
        rw [hw] at hlength
        exact absurd hlength.1 ht
  intro cd hcd
  rw [Statement.userDefs, hdefs] at hcd
  exact hall cd (List.mem_of_mem_filter hcd)

/-- The schema that a CREATE TABLE installs is usable exactly when the lengths in its text are. -/
theorem createTable_usable_iff {st st' : Pager} {res : ExecResult} (hparse : parse text = .ok stmt)
    (htype : stmt.type = .createTable) (hrun : (execCreateTable stmt).run st = some (res, st'))
    (hstatus : res.status = 0) : UsableSchema st'.header ↔ LengthsUsable text := by
  rw [← userDefs_sound_iff hparse htype]
  rcases execCreateTable_cases hrun with ⟨hfail, -, -⟩ | ⟨-, -, hlen, rfl⟩
  · rw [hfail] at hstatus
    cases hstatus
  · constructor
    · intro h
      exact VarcharUsable.sound h.varchar (parseColumn_fixed hparse htype)
    · intro h
      exact (installed_sound hlen h).usable

end

/-- A table with a name of ten characters. -/
theorem createTable_usable_iff_ten :
    UsableSchema ((Statement.installed
        { tableName := cstr "t", colDefs := [⟨cstr "a", .varchar, 10⟩] }
        (pagerOpenCreate 4096).header)) ↔
      LengthsUsable (cstr "CREATE TABLE t (a VARCHAR(10))") := by
  let stmt : Statement := { tableName := cstr "t", colDefs := [⟨cstr "a", .varchar, 10⟩] }
  let st := pagerOpenCreate 4096
  have hparse : parse (cstr "CREATE TABLE t (a VARCHAR(10))") = .ok stmt := by
    decide +kernel
  have hrun : (execCreateTable stmt).run st =
      some (.done (.tableCreated (cstr "t") 18 2), st.setHeader (stmt.installed st.header)) := rfl
  exact createTable_usable_iff hparse rfl hrun rfl

/-- A text of length 0 is accepted, and has no room for its NUL. -/
theorem varchar_zero_not_usable :
    ∃ stmt res st', parse (cstr "CREATE TABLE t (a VARCHAR(0))") = .ok stmt ∧
      stmt.type = .createTable ∧
      (execCreateTable stmt).run (pagerOpenCreate 4096) = some (res, st') ∧ res.status = 0 ∧
      ¬ UsableSchema st'.header := by
  refine ⟨{ tableName := cstr "t", colDefs := [⟨cstr "a", .varchar, 0⟩] }, _, _,
    by decide +kernel, rfl, rfl, rfl, ?_⟩
  intro h
  have hsize := (h.varchar
    { name := cstr "a", type := .varchar, size := 0, offset := 8, isSystem := false }
    (.tail _ (.head _)) rfl).1
  cases hsize

example : ¬ LengthsUsable (cstr "CREATE TABLE t (a VARCHAR(0))") := by decide +kernel

end MiniDb
