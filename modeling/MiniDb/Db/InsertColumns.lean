import MiniDb.Db.ScanDml
import MiniDb.Sql.CreateSchema

/-! # Values and the columns they are written for

`exec_create_table` leaves out the columns that are called `id`, and `exec_insert` hands the values
of an INSERT to the columns that are left, one after the other. So a value that is written for a
column behind a declared `id` goes to a column further on. -/

set_option autoImplicit false

namespace MiniDb

open Lib

/-- What a column holds of a text: the text converted to the type of the column, and cut to its
size. -/
def ColumnDef.stored (cd : ColumnDef) (text : CString) : RowValue :=
  storedValue cd.toMeta (cd.type.ofText text)

/-- How many of the declared columns in front of a place are registered. -/
def registeredBefore (defs : List ColumnDef) (i : Nat) : Nat :=
  ((defs.take i).filter (·.name ≠ cstr "id")).length

/-- The row of an id. -/
def StoredRow (st : Pager) (id : Nat) (row : List UInt8) : Prop :=
  ∃ entries rows ref, (∃ st', allEntries.run st = some (entries, st')) ∧ HasRows st rows ∧
    (id, ref) ∈ entries ∧ (ref, row) ∈ rows

/-- Each declared column other than `id` is a column of the table, and is read from the row as the
value that stands at the place where the column was declared. -/
def HoldsDeclared (create insert : Statement) (hdr : DbHeader) (row : List UInt8) : Prop :=
  ∀ (i : Nat) (cd : ColumnDef) (text : CString), create.colDefs[i]? = some cd →
    cd.name ≠ cstr "id" → insert.insertValues[i]? = some text →
    ∃ col, hdr.columns[registeredBefore create.colDefs i + 1]? = some col ∧ col.name = cd.name ∧
      deserializeColumn col row = some (cd.stored text)

/-- A value that is written for a column behind declared `id`s reads, in that column, like the value
that stands as many places in front of it as there are such `id`s. -/
def Unshifted (create insert : Statement) : Prop :=
  ∀ (i : Nat) (cd : ColumnDef) (text taken : CString), create.colDefs[i]? = some cd →
    cd.name ≠ cstr "id" → insert.insertValues[i]? = some text →
    insert.insertValues[registeredBefore create.colDefs i]? = some taken →
    cd.stored text = cd.stored taken

/-! ## Places -/

section

variable {create insert : Statement} {hdr : DbHeader} {i : Nat} {cd : ColumnDef}

theorem registeredBefore_le (defs : List ColumnDef) (i : Nat) : registeredBefore defs i ≤ i := by
  apply (List.length_filter_le _ _).trans
  rw [List.length_take]
  exact Nat.min_le_left i _

/-- Where there is no `id` in front, nothing is left out. -/
theorem registeredBefore_eq {defs : List ColumnDef} (hi : i ≤ defs.length)
    (h : ∀ cd ∈ defs.take i, cd.name ≠ cstr "id") : registeredBefore defs i = i := by
  have hall : (defs.take i).filter (·.name ≠ cstr "id") = defs.take i :=
    List.filter_eq_self.mpr fun cd hcd => decide_eq_true (h cd hcd)
  rw [registeredBefore, hall, List.length_take]
  exact Nat.min_eq_left hi

/-- Without an `id` in front of another column every value goes where it was written for. -/
theorem unshifted_of_idLast (h : ∀ i cd, create.colDefs[i]? = some cd → cd.name ≠ cstr "id" →
    ∀ cd' ∈ create.colDefs.take i, cd'.name ≠ cstr "id") : Unshifted create insert := by
  intro i cd text taken hcd hname htext htaken
  have hi : i ≤ create.colDefs.length :=
    Nat.le_of_lt (List.getElem?_eq_some_iff.mp hcd).1
  rw [registeredBefore_eq hi (h i cd hcd hname), htext] at htaken
  rw [Option.some.inj htaken]

theorem filter_getElem? {α : Type} {p : α → Bool} {l : List α} {a : α} (h : l[i]? = some a)
    (ha : p a = true) : (l.filter p)[((l.take i).filter p).length]? = some a := by
  induction l generalizing i with
  | nil => simp at h
  | cons b l ih =>
    cases i with
    | zero =>
      obtain rfl : b = a := by simpa using h
      simp [ha]
    | succ i =>
      have hrest := ih (show l[i]? = some a by simpa using h)
      rw [List.take_succ_cons]
      by_cases hb : p b = true
      · simpa [hb] using hrest
      · simpa [hb] using hrest

/-- A declared column is behind the `id` and the registered columns in front of it. -/
theorem installed_getElem? (hcd : create.colDefs[i]? = some cd) (hname : cd.name ≠ cstr "id") :
    ∃ col, (create.installed hdr).columns[registeredBefore create.colDefs i + 1]? = some col ∧
      col.name = cd.name ∧ col.type = cd.type ∧ col.size = cd.size := by
  have huser : create.userDefs[registeredBefore create.colDefs i]? = some cd :=
    filter_getElem? hcd (decide_eq_true hname)
  have hbare := congrArg (·[registeredBefore create.colDefs i + 1]?)
    (@installed_bare create hdr)
  simp only [Statement.tableColumns, List.getElem?_map, List.getElem?_cons_succ, huser,
    Option.map_some] at hbare
  obtain ⟨col, hcol, heq⟩ := Option.map_eq_some_iff.mp hbare
  exact ⟨col, hcol, congrArg ColumnMeta.name heq, congrArg ColumnMeta.type heq,
    congrArg ColumnMeta.size heq⟩

end

/-! ## Values -/

section

variable {cols : List ColumnMeta} {col : ColumnMeta} {svs : List CString} {j : Nat}

theorem assignValues_getElem? {sv : CString} (hcol : cols[j]? = some col)
    (hsv : svs[j]? = some sv) : (assignValues cols svs)[j]? = some (col.type.ofText sv) := by
  induction cols generalizing svs j with
  | nil => simp at hcol
  | cons c cols ih =>
    cases svs with
    | nil => simp at hsv
    | cons s svs =>
      cases j with
      | zero =>
        obtain rfl : c = col := by simpa using hcol
        obtain rfl : s = sv := by simpa using hsv
        rfl
      | succ j => exact ih (by simpa using hcol) (by simpa using hsv)

variable {hdr : DbHeader} {insert : Statement} {row : List UInt8} {id : Nat}

/-- The row of an INSERT is read as its columns store the values. -/
theorem rowDeserialize_inserted (hs : SoundSchema hdr) (hhead : hdr.columns.head? = some idColumn)
    (hrow : rowSerialize hdr (insertRowValues hdr id insert) = some row) :
    rowDeserialize hdr row = some (storedRow hdr.columns (insertRowValues hdr id insert)) := by
  have hwt : WellTyped hdr.columns (insertRowValues hdr id insert) :=
    insertRowValues_wellTyped hhead
  rw [hs.rowSerialize hwt] at hrow
  obtain rfl := Option.some.inj hrow
  exact hs.rowDeserialize hwt

/-- What is read from the row of an INSERT, in a column behind the `id`. -/
theorem deserialize_inserted {sv : CString} (hs : SoundSchema hdr)
    (hhead : hdr.columns.head? = some idColumn)
    (hrow : rowSerialize hdr (insertRowValues hdr id insert) = some row)
    (hcol : hdr.columns[j + 1]? = some col) (hsv : insert.insertValues[j]? = some sv) :
    deserializeColumn col row = some (storedValue col (col.type.ofText sv)) := by
  obtain ⟨v, hv, hdes⟩ := mapM_getElem? (rowDeserialize_inserted hs hhead hrow) hcol
  have hvalue : (insertRowValues hdr id insert)[j + 1]? = some (col.type.ofText sv) := by
    rw [insertRowValues, List.getElem?_cons_succ]
    exact assignValues_getElem? (by rw [List.getElem?_tail]; exact hcol) hsv
  rw [storedRow, List.getElem?_zipWith, hcol, hvalue] at hv
  rw [hdes]
  exact hv.symm

end

/-! ## Rows -/

section

variable {create insert : Statement} {hdr hdr₀ : DbHeader} {row : List UInt8} {id : Nat}

/-- With a usable schema the row holds what was declared where nothing is shifted. -/
theorem holdsDeclared_iff_unshifted (hs : SoundSchema hdr)
    (hcols : hdr.columns = (create.installed hdr₀).columns)
    (hhead : hdr.columns.head? = some idColumn)
    (hlen : insert.insertValues.length = create.colDefs.length)
    (hrow : rowSerialize hdr (insertRowValues hdr id insert) = some row) :
    HoldsDeclared create insert hdr row ↔ Unshifted create insert := by
  -- what is read is the value at the place among the registered columns
  have hread : ∀ (i : Nat) (cd : ColumnDef), create.colDefs[i]? = some cd → cd.name ≠ cstr "id" →
      ∃ col taken, hdr.columns[registeredBefore create.colDefs i + 1]? = some col ∧
        col.name = cd.name ∧
        insert.insertValues[registeredBefore create.colDefs i]? = some taken ∧
        deserializeColumn col row = some (cd.stored taken) := by
    intro i cd hcd hname
    obtain ⟨col, hcol, hcolName, hcolType, hcolSize⟩ := @installed_getElem? create hdr₀ i cd hcd hname
    rw [← hcols] at hcol
    have hlt : registeredBefore create.colDefs i < insert.insertValues.length := by
      have hi := (List.getElem?_eq_some_iff.mp hcd).1
      have hle := registeredBefore_le create.colDefs i
      omega
    have htaken := List.getElem?_eq_getElem hlt
    have hdes := deserialize_inserted hs hhead hrow hcol htaken
    refine ⟨col, _, hcol, hcolName, htaken, ?_⟩
    rw [hdes, ColumnDef.stored, hcolType]
    generalize cd.type.ofText _ = v
    cases v with
    | varchar t => exact congrArg (fun n => some (RowValue.varchar (storedText n t))) hcolSize
    | _ => rfl
  constructor
  · intro h i cd text taken hcd hname htext htaken
    obtain ⟨col, hcol, -, hholds⟩ := h i cd text hcd hname htext
    obtain ⟨col', taken', hcol', -, htaken', hdes⟩ := hread i cd hcd hname
    rw [hcol] at hcol'
    obtain rfl := Option.some.inj hcol'
    rw [htaken] at htaken'
    obtain rfl := Option.some.inj htaken'
    exact Option.some.inj (hholds.symm.trans hdes)
  · intro h i cd text hcd hname htext
    obtain ⟨col, taken, hcol, hcolName, htaken, hdes⟩ := hread i cd hcd hname
    refine ⟨col, hcol, hcolName, ?_⟩
    rw [hdes, h i cd text taken hcd hname htext htaken]

/-- A row that holds what was declared has columns of at most 255 characters, since a longer one
cannot be read. -/
theorem HoldsDeclared.varchar_le (h : HoldsDeclared create insert hdr row)
    (hcols : hdr.columns = (create.installed hdr₀).columns)
    (hlen : insert.insertValues.length = create.colDefs.length) {cd : ColumnDef}
    (hcd : cd ∈ create.userDefs) (ht : cd.type = .varchar) : cd.size ≤ 255 := by
  obtain ⟨hmem, hname⟩ := List.mem_filter.mp hcd
  have hname := of_decide_eq_true hname
  obtain ⟨i, hi⟩ := List.getElem?_of_mem hmem
  have hlt : i < insert.insertValues.length := by
    have hlt := (List.getElem?_eq_some_iff.mp hi).1
    omega
  obtain ⟨col, hcol, -, hdes⟩ := h i cd _ hi hname (List.getElem?_eq_getElem hlt)
  obtain ⟨col', hcol', -, hcolType, hcolSize⟩ := @installed_getElem? create hdr₀ i cd hi hname
  rw [← hcols, hcol] at hcol'
  obtain rfl := Option.some.inj hcol'
  rw [deserializeColumn, hcolType, ht] at hdes
  obtain ⟨u, hguard, -⟩ := Option.bind_eq_some_iff.mp hdes
  by_contra hbig
  rw [guard, if_neg (by simp only [strValSize]; omega)] at hguard
  cases hguard

/-- So the columns that were declared are sound. -/
theorem HoldsDeclared.sound (h : HoldsDeclared create insert hdr row)
    (hcols : hdr.columns = (create.installed hdr₀).columns)
    (hlen : insert.insertValues.length = create.colDefs.length)
    (hpos : ∀ c ∈ hdr.columns, c.type = .varchar → 1 ≤ c.size)
    (hfixed : ∀ cd ∈ create.userDefs, cd.type ≠ .varchar → cd.Sound) :
    ∀ cd ∈ create.userDefs, cd.Sound := by
  intro cd hcd
  by_cases ht : cd.type = .varchar
  · obtain ⟨hmem, hname⟩ := List.mem_filter.mp hcd
    obtain ⟨i, hi⟩ := List.getElem?_of_mem hmem
    obtain ⟨col, hcol, -, hcolType, hcolSize⟩ :=
      @installed_getElem? create hdr₀ i cd hi (of_decide_eq_true hname)
    rw [← hcols] at hcol
    have hone : 1 ≤ cd.size := by
      rw [← hcolSize]
      exact hpos col (List.mem_of_getElem? hcol) (hcolType.trans ht)
    show cd.toMeta.Sound
    rw [ColumnMeta.Sound, show cd.toMeta.type = .varchar from ht]
    exact ⟨hone, h.varchar_le hcols hlen hcd ht⟩
  · exact hfixed cd hcd ht

end

/-! ## Insertions -/

section

variable {create insert : Statement} {st st' : Pager} {env : ExecEnv} {res : ExecResult}

theorem dbRun_createTable (h : create.type = .createTable) :
    dbRun env create = execCreateTable create := by
  simp [dbRun, determineLock, lockModeOf, execute, plannerCreatePlan, planByType, h]

/-- A CREATE TABLE that does not fail has installed its columns. -/
theorem run_createTable (h : create.type = .createTable)
    (hrun : (dbRun env create).run st = some (res, st')) (hstatus : res.status = 0) :
    create.userDefs.length < maxColumns ∧ st' = st.setHeader (create.installed st.header) := by
  rw [dbRun_createTable h] at hrun
  rcases execCreateTable_cases hrun with ⟨hfail, -⟩ | ⟨-, -, hcreated⟩
  · rw [hstatus] at hfail
    cases hfail
  · exact hcreated

/-- The entry and the row of an id. -/
theorem DbInv.storedRow {entries : List (Nat × RowRef)} {chain : HeapChain} {id : Nat}
    {ref : RowRef} {row : List UInt8} (h : DbInv st entries chain) (hentry : (id, ref) ∈ entries)
    (hrow : (ref, row) ∈ heapRows chain st.header.rowSize) : StoredRow st id row :=
  ⟨entries, _, ref, run_allEntries h.stored, h.hasRows, hentry, hrow⟩

/-- Nothing keeps an INSERT from storing its row: the lock is granted, ids for rows and for pages are
left, and offsets in a page have 16 bits. -/
structure Unhindered (st : Pager) (env : ExecEnv) : Prop where
  lock : env.lockAcquire st.header.nextId .x = true
  rounds : 0 < env.rounds
  ids : st.header.nextId + 1 < 2 ^ 64
  pages : st.header.nextPageId + maxTreeDepth + 2 < pageIdCount
  pageSize : st.pageSize < 65536

/-- The row of a usable schema is stored, and the INSERT reports its id. -/
theorem DbInv.insertStores {entries : List (Nat × RowRef)} {chain : HeapChain} {hdr : DbHeader}
    (h : DbInv st entries chain) (hfew : create.userDefs.length < maxColumns)
    (hcols : st.header.columns = (create.installed hdr).columns)
    (hdefs : ∀ cd ∈ create.userDefs, cd.Sound) (hready : Unhindered st env) :
    ∃ st', (execInsert env insert).run st = some (.done (.inserted st.header.nextId), st') := by
  have hne : st.header.columns ≠ [] := by
    rw [hcols]
    exact List.cons_ne_nil _ _
  have hsound : SoundSchema st.header := by
    apply h.schema
    rw [hcols]
    exact (installed_sound hfew hdefs).usable.varchar
  have hfit : RowFits st.pageSize st.header.rowSize := by
    refine ⟨?_, hready.pageSize⟩
    have hmin := h.pageSize.le
    have hle := @sizeSum_installed_le _ hdr hfew hdefs
    rw [hsound.rowSize, hcols]
    simp only [heapHeaderSize, slotSize]
    omega
  obtain ⟨free, leaves, rows, hat, rfl⟩ := h.stored
  have hroom : st.HasRoom free (maxTreeDepth + 2) := by
    have hpages := hready.pages
    rw [Pager.HasRoom]
    omega
  obtain ⟨st', -, -, -, -, hrun, -⟩ := h.run_execInsert hat
    ⟨hready.lock, hready.rounds, hready.ids, hroom⟩ hne hfit
    (hsound.rowSerialize (@insertRowValues_wellTyped _ insert _ (h.idFirst hne)))
  exact ⟨st', hrun⟩

/-- What becomes of the values of an INSERT that has stored its row. -/
theorem DbInv.insertHolds {entries : List (Nat × RowRef)} {chain : HeapChain} {hdr : DbHeader}
    {createText : CString} (hinv : DbInv st entries chain) (hcreate : parse createText = .ok create)
    (hcreateType : create.type = .createTable) (hfew : create.userDefs.length < maxColumns)
    (hcols : st.header.columns = (create.installed hdr).columns)
    (hlen : insert.insertValues.length = create.colDefs.length)
    (hrun : (execInsert env insert).run st = some (res, st')) (hstatus : res.status = 0) :
    ∃ id row, res.message = .inserted id ∧ StoredRow st' id row ∧
      (HoldsDeclared create insert st'.header row ↔
        LengthsUsable createText ∧ Unshifted create insert) := by
  rcases execInsert_cases hinv hrun with ⟨message, -, rfl, -⟩ |
    ⟨ref, row, l, r, chain', rfl, hrow, hkept, -, hinv', hmem⟩
  · cases hstatus
  have hschema := hkept.schema
  have hentry : (st.header.nextId, ref) ∈ l ++ (st.header.nextId, ref) :: r :=
    List.mem_append_right l List.mem_cons_self
  refine ⟨_, row, rfl, hinv'.storedRow hentry hmem, ?_⟩
  have hinstalled : st'.header.columns = (create.installed hdr).columns :=
    hschema.columns.trans hcols
  have hhead : st'.header.columns.head? = some idColumn := (hinstalled ▸ rfl)
  have hrow' : rowSerialize st'.header (insertRowValues st'.header st.header.nextId insert) =
      some row := by
    rw [rowSerialize, insertRowValues, hschema.columns, hschema.rowSize]
    exact hrow
  -- lengths that are usable make a schema that is
  have hsound : (∀ cd ∈ create.userDefs, cd.Sound) → SoundSchema st'.header := by
    intro h
    apply hinv'.schema
    rw [hinstalled]
    exact (installed_sound hfew h).usable.varchar
  rw [← userDefs_sound_iff hcreate hcreateType]
  constructor
  · intro h
    have hdefs := h.sound hinstalled hlen (varchar_pos_of_serialize hrow')
      (parseColumn_fixed hcreate hcreateType)
    exact ⟨hdefs, (holdsDeclared_iff_unshifted (hsound hdefs) hinstalled hhead hlen hrow').mp h⟩
  · rintro ⟨hdefs, hunshifted⟩
    exact (holdsDeclared_iff_unshifted (hsound hdefs) hinstalled hhead hlen hrow').mpr hunshifted

/-- **What an INSERT stores is what the columns were declared for, or not**: with one value for each
declared column, the new row holds each under its column exactly when the lengths of the texts are
usable and no value is shifted to a column where it reads otherwise. With usable lengths there is a
new row, as long as nothing keeps the INSERT from it. -/
theorem insert_holdsDeclared_iff {pageSize : Nat} {createText insertText : CString}
    {st₀ st₁ : Pager} {env₀ : ExecEnv} {res₀ : ExecResult} (hps : IsPageSize pageSize)
    (hcreate : parse createText = .ok create) (hcreateType : create.type = .createTable)
    (hcreated : (dbExecute env₀ createText).run st₀ = some (res₀, st₁)) (hstatus₀ : res₀.status = 0)
    (hst : DbReach pageSize st) (hcols : st.header.columns = st₁.header.columns)
    (hinsert : parse insertText = .ok insert) (hinsertType : insert.type = .insert)
    (hlen : insert.insertValues.length = create.colDefs.length) :
    (∀ res st', (dbExecute env insertText).run st = some (res, st') → res.status = 0 →
      ∃ id row, res.message = .inserted id ∧ StoredRow st' id row ∧
        (HoldsDeclared create insert st'.header row ↔
          LengthsUsable createText ∧ Unshifted create insert)) ∧
    (LengthsUsable createText → Unhindered st env → ∃ st',
      (dbExecute env insertText).run st = some (.done (.inserted st.header.nextId), st')) := by
  rw [dbExecute_of_parse hcreate] at hcreated
  rw [dbExecute_of_parse hinsert, dbRun_insert hinsertType]
  obtain ⟨hfew, rfl⟩ := run_createTable hcreateType hcreated hstatus₀
  obtain ⟨entries, chain, hinv, -⟩ := hst.inv hps
  constructor
  · intro res st' hrun hstatus
    exact hinv.insertHolds hcreate hcreateType hfew hcols hlen hrun hstatus
  · intro hlengths hready
    exact hinv.insertStores hfew hcols ((userDefs_sound_iff hcreate hcreateType).mpr hlengths) hready

end

/-- The column of a table without a declared `id` holds what is written for it. -/
theorem insert_holdsDeclared_iff_seven :
    ∃ st' row, (dbExecute grantingEnv (cstr "INSERT INTO t VALUES (7)")).run intTable =
        some (.done (.inserted 1), st') ∧ StoredRow st' 1 row ∧
      HoldsDeclared { tableName := cstr "t", colDefs := [⟨cstr "a", .int, 4⟩] }
        { type := .insert, tableName := cstr "t", insertValues := [cstr "7"] } st'.header row := by
  have hcreate : parse (cstr "CREATE TABLE t (a INT)") =
      .ok { tableName := cstr "t", colDefs := [⟨cstr "a", .int, 4⟩] } := by
    decide +kernel
  have hcreated : (dbExecute grantingEnv (cstr "CREATE TABLE t (a INT)")).run
      (pagerOpenCreate 4096) = some (.done (.tableCreated (cstr "t") 12 2), intTable) := by
    rw [dbExecute_of_parse hcreate]
    rfl
  have hinsert : parse (cstr "INSERT INTO t VALUES (7)") =
      .ok { type := .insert, tableName := cstr "t", insertValues := [cstr "7"] } := by
    decide +kernel
  have hlengths : LengthsUsable (cstr "CREATE TABLE t (a INT)") := by
    decide +kernel
  obtain ⟨hholds, hstores⟩ := @insert_holdsDeclared_iff _ _ _ grantingEnv _ _ _ _ _ _ _
    ⟨12, le_refl _, rfl⟩ hcreate rfl hcreated rfl dbReach_intTable rfl hinsert rfl rfl
  obtain ⟨st', hrun⟩ := hstores hlengths ⟨rfl, by decide, by decide, by decide, by decide⟩
  obtain ⟨id, row, hid, hrow, hiff⟩ := hholds _ st' hrun rfl
  obtain rfl := ExecMessage.inserted.inj hid
  refine ⟨st', row, hrun, hrow, hiff.mpr ⟨hlengths, unshifted_of_idLast ?_⟩⟩
  intro i cd hcd hname cd' hcd'
  obtain rfl : cd' = ⟨cstr "a", .int, 4⟩ := List.mem_singleton.mp (List.mem_of_mem_take hcd')
  decide

/-- The column behind a declared `id` gets the value that is written for the `id`. -/
theorem not_insert_holdsDeclared :
    ∃ create insert res₀ res st' row, parse (cstr "CREATE TABLE t (id BIGINT, a INT)") = .ok create ∧
      create.type = .createTable ∧ parse (cstr "INSERT INTO t VALUES (0, 7)") = .ok insert ∧
      insert.type = .insert ∧ insert.insertValues.length = create.colDefs.length ∧
      (dbExecute grantingEnv (cstr "CREATE TABLE t (id BIGINT, a INT)")).run (pagerOpenCreate 4096) =
        some (res₀, intTable) ∧ res₀.status = 0 ∧
      (dbExecute grantingEnv (cstr "INSERT INTO t VALUES (0, 7)")).run intTable = some (res, st') ∧
      res.message = .inserted 1 ∧ StoredRow st' 1 row ∧
      ¬ HoldsDeclared create insert st'.header row := by
  let create : Statement :=
    { tableName := cstr "t", colDefs := [⟨cstr "id", .bigint, 8⟩, ⟨cstr "a", .int, 4⟩] }
  let insert : Statement :=
    { type := .insert, tableName := cstr "t", insertValues := [cstr "0", cstr "7"] }
  have hcreate : parse (cstr "CREATE TABLE t (id BIGINT, a INT)") = .ok create := by
    decide +kernel
  have hcreated : (dbExecute grantingEnv (cstr "CREATE TABLE t (id BIGINT, a INT)")).run
      (pagerOpenCreate 4096) = some (.done (.tableCreated (cstr "t") 12 2), intTable) := by
    rw [dbExecute_of_parse hcreate]
    rfl
  have hinsert : parse (cstr "INSERT INTO t VALUES (0, 7)") = .ok insert := by
    decide +kernel
  have hrun : (execInsert grantingEnv insert).run intTable = some (.done (.inserted 1),
      (((execInsert grantingEnv insert).run intTable).map Prod.snd).getD intTable) :=
    run_of_result (by decide +kernel)
  generalize (((execInsert grantingEnv insert).run intTable).map Prod.snd).getD intTable = st' at hrun
  obtain ⟨entries, chain, hinv, -⟩ := dbReach_intTable.inv ⟨12, le_refl _, rfl⟩
  rcases execInsert_cases hinv hrun with ⟨message, -, hfail, -⟩ |
    ⟨ref, row, l, r, chain', -, hrow, hkept, -, hinv', hmem⟩
  · cases hfail
  have hschema := hkept.schema
  have hstored : StoredRow st' 1 row :=
    hinv'.storedRow (List.mem_append_right l List.mem_cons_self) hmem
  refine ⟨create, insert, _, .done (.inserted 1), st', row, hcreate, rfl, hinsert, rfl, rfl,
    hcreated, rfl, ?_, rfl, hstored, ?_⟩
  · rw [dbExecute_of_parse hinsert, dbRun_insert rfl]
    exact hrun
  intro h
  obtain ⟨col, hcol, -, hholds⟩ := h 1 ⟨cstr "a", .int, 4⟩ (cstr "7") rfl (by decide) rfl
  have hs : SoundSchema intTable.header := ⟨by decide, ⟨rfl, rfl, trivial⟩, by decide⟩
  rw [hschema.columns] at hcol
  have hdes := deserialize_inserted hs rfl hrow hcol (show insert.insertValues[0]? = _ from rfl)
  obtain rfl : (⟨cstr "a", .int, 4, 8, false⟩ : ColumnMeta) = col := Option.some.inj hcol
  rw [hdes] at hholds
  exact absurd (Option.some.inj hholds) (by decide)

end MiniDb
