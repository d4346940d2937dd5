import MiniDb.Db.InsertColumns
import MiniDb.Db.PointStatements
import MiniDb.Sql.ListText

/-! # From text to text

What the text of a CREATE TABLE declares and the text of an INSERT says is what a SELECT by id
prints: through the parser, the layout of the row, the heap page that takes it and the index that
finds it. The values go into the declared columns that are not called `id`, from left to right. -/

set_option autoImplicit false

namespace MiniDb

open Lib

/-- A SELECT of the row with this id through the index. -/
structure Statement.SelectsRow (stmt : Statement) (id : Nat) : Prop where
  type : stmt.type = .select
  kind : stmt.predicateKind = .idEq
  predId : stmt.predId = id
  count : stmt.selectCount = false
  order : stmt.hasOrderBy = false
  limit : stmt.hasLimit = false

/-- The lengths that the text gives its VARCHAR columns are, in 16 bits, between 1 and 255. -/
def ColumnWord.Usable (w : ColumnWord) : Prop :=
  ∀ n, w.type = .varchar (some n) → 1 ≤ digitsValue 0 n % 2 ^ 16 ∧ digitsValue 0 n % 2 ^ 16 ≤ 255

theorem ColumnWord.Usable.sound {w : ColumnWord} (h : w.Usable) : w.column.Sound := by
  rw [ColumnDef.Sound, ColumnMeta.Sound, ColumnWord.column]
  cases ht : w.type with
  | int => rfl
  | bigint => rfl
  | varchar length =>
    cases length with
    | none => exact ⟨show 1 ≤ 32 by decide, show 32 ≤ 255 by decide⟩
    | some n => exact h n ht

section TextRoundTrip

variable {st st' : Pager} {entries : List (Nat × RowRef)} {chain : HeapChain} {env : ExecEnv}
  {res : ExecResult} {sel : Statement} {sql : CString} {id : Nat} {ref : RowRef} {row : List UInt8}

/-- A text that has an outcome is run as the statement that is meant. -/
theorem ListText.WellFormed.run {s : ListText} (h : s.WellFormed)
    (hrun : (dbExecute env s.text).run st = some (res, st')) :
    (dbRun env s.statement).run st = some (res, st') := by
  rw [dbExecute, ListText.parse_text h] at hrun
  by_cases hfits : s.count ≤ maxColumns
  · rwa [if_pos hfits] at hrun
  · rw [if_neg hfits] at hrun
    cases hrun

theorem dbExecute_selectsRow (hparse : parse sql = .ok sel) (h : sel.SelectsRow id)
    (hlock : env.lockAcquire id .s = true) : dbExecute env sql = execIndexLookup sel := by
  have hneed : determineLock sel = some ⟨.point id, .s⟩ := by
    simp [determineLock, lockModeOf, h.type, h.kind, h.predId]
  have hplan : execute env sel = execIndexLookup sel := by
    simp [execute, plannerCreatePlan, planByType, h.type, h.kind, h.count, h.order, h.limit]
  rw [dbExecute_of_parse hparse, dbRun, hneed]
  dsimp only
  rw [show env.lock ⟨.point id, .s⟩ = true from hlock, if_pos rfl, hplan]

/-- The row behind a key is what a lookup of the key prints. -/
theorem DbInv.lookup_row (h : DbInv st entries chain)
    (hle : ∀ c ∈ st.header.columns, c.type = .varchar → c.size ≤ 255)
    (hentry : (id, ref) ∈ entries) (hrow : (ref, row) ∈ heapRows chain st.header.rowSize)
    (hsel : sel.SelectsRow id) : ∃ st', (execIndexLookup sel).run st =
      some (.printed .lookedUp (.rows st.header.columns [rowValues st.header row]), st') := by
  have hlt : id < 2 ^ 64 := (h.keys _ hentry).2.trans h.nextId_lt
  have hid : sel.predId < 2 ^ 64 := hsel.predId ▸ hlt
  -- the row is the only one that the predicate selects
  have hmem : (ref, row) ∈ matchingRows st.header sel (heapRows chain st.header.rowSize) := by
    refine List.mem_filter.mpr ⟨hrow, (h.rowMatches_idEq hle hsel.kind hid hrow).mpr ?_⟩
    rw [hsel.predId]
    exact h.rowKey_eq ⟨rfl, rfl⟩ hle hentry hrow
  have hone : matchingRows st.header sel (heapRows chain st.header.rowSize) = [(ref, row)] := by
    obtain ⟨st₁, -, ⟨ref', row', -, -, hmatching, -⟩ | ⟨hnone, -⟩⟩ :=
      h.search_idEq hle hsel.kind hid
    · rw [hmatching] at hmem ⊢
      rw [List.mem_singleton.mp hmem]
    · rw [hnone] at hmem
      cases hmem
  obtain ⟨res, st', hrun, -, hres⟩ := h.looksUpMatching hle hsel.kind hid
  rw [hone, if_neg (by simp)] at hres
  exact ⟨st', by rw [hrun, hres]; rfl⟩

/-- **What is written is what is read.** On a table whose CREATE TABLE text gives usable lengths, a
row that an INSERT text has stored is printed, by every SELECT of its id, with its values as its
columns store them. -/
theorem sqlText_roundTrip {pageSize : Nat} {table table' : CString} {columns : List ColumnWord}
    {values : List ValueWord} {st₀ st₁ : Pager} {env₀ : ExecEnv} {res₀ : ExecResult}
    (hps : IsPageSize pageSize) (hcreate : (ListText.create table columns).WellFormed)
    (husable : ∀ w ∈ columns, w.Usable)
    (hcreated : (dbExecute env₀ (ListText.create table columns).text).run st₀ = some (res₀, st₁))
    (hstatus₀ : res₀.status = 0)
    (hst : DbReach pageSize st) (hcols : st.header.columns = st₁.header.columns)
    (hinsert : (ListText.insert table' values).WellFormed)
    (hrun : (dbExecute env (ListText.insert table' values).text).run st = some (res, st'))
    (hstatus : res.status = 0) :
    ∃ id cols, res = .done (.inserted id) ∧
      cols.map (·.bare) = (idColumn :: ((columns.map ColumnWord.column).filter
        (·.name ≠ cstr "id")).map (·.toMeta)).map (·.bare) ∧
      ∀ env' sql sel, parse sql = .ok sel → sel.SelectsRow id → env'.lockAcquire id .s = true →
        ∃ st'', (dbExecute env' sql).run st' = some (.printed .lookedUp (.rows cols
          [storedRow cols (.bigint (toI64 id) ::
            assignValues cols.tail (values.map ValueWord.value))]), st'') := by
  have hcreated := hcreate.run hcreated
  have hrun := hinsert.run hrun
  obtain ⟨hfew, rfl⟩ := run_createTable rfl hcreated hstatus₀
  rw [dbRun_insert rfl] at hrun
  obtain ⟨entries, chain, hinv, -⟩ := hst.inv hps
  rcases execInsert_cases hinv hrun with ⟨message, -, rfl, -⟩ |
    ⟨ref, row, l, r, chain', rfl, hrow, hkept, -, hinv', hmem⟩
  · cases hstatus
  have hentry : (st.header.nextId, ref) ∈ l ++ (st.header.nextId, ref) :: r :=
    List.mem_append_right l List.mem_cons_self
  have hinstalled : st'.header.columns =
      ((ListText.create table columns).statement.installed st₀.header).columns :=
    hkept.schema.columns.trans hcols
  have hhead : st'.header.columns.head? = some idColumn := hinstalled ▸ rfl
  -- the declared columns are sound, and so is the schema
  have hdefs : ∀ cd ∈ (ListText.create table columns).statement.userDefs, cd.Sound := by
    intro cd hcd
    obtain ⟨w, hw, rfl⟩ := List.mem_map.mp (List.mem_of_mem_filter hcd)
    exact (husable w hw).sound
  have hvarchar : VarcharUsable st'.header.columns := by
    rw [hinstalled]
    exact (installed_sound hfew hdefs).usable.varchar
  have hsound := hinv'.schema hvarchar
  have hle : ∀ c ∈ st'.header.columns, c.type = .varchar → c.size ≤ 255 := fun c hc ht =>
    (hvarchar c hc ht).2
  have hvalues : rowValues st'.header row = storedRow st'.header.columns
      (.bigint (toI64 st.header.nextId) ::
        assignValues st'.header.columns.tail (values.map ValueWord.value)) := by
    have hrow' : rowSerialize st'.header (insertRowValues st'.header st.header.nextId
        (ListText.insert table' values).statement) = some row := by
      rw [rowSerialize, insertRowValues, hkept.schema.columns, hkept.schema.rowSize]
      exact hrow
    exact rowValues_eq (rowDeserialize_inserted hsound hhead hrow')
  refine ⟨st.header.nextId, st'.header.columns, rfl, ?_, ?_⟩
  · rw [hinstalled]
    exact installed_bare
  · intro env' sql sel hparse hsel hlock
    obtain ⟨st'', hlookup⟩ := hinv'.lookup_row hle hentry hmem hsel
    rw [hvalues] at hlookup
    exact ⟨st'', by rw [dbExecute_selectsRow hparse hsel hlock, hlookup]⟩

end TextRoundTrip

/-- The columns of `CREATE TABLE t (a INT, b VARCHAR(8))`. -/
def sampleColumns : List ColumnWord := [⟨cstr "a", .int⟩, ⟨cstr "b", .varchar (some (cstr "8"))⟩]

/-- The values of `INSERT INTO t VALUES (7, 'x, (y)')`. -/
def sampleValues : List ValueWord := [.bare (cstr "7"), .quoted (cstr "x, (y)")]

theorem wellFormed_sampleCreate : (ListText.create (cstr "t") sampleColumns).WellFormed := by
  refine ⟨⟨isName_singleton (c := ch 't') rfl, fun w hw => ?_⟩, by decide +kernel⟩
  rcases List.mem_pair.mp hw with rfl | rfl
  · exact ⟨isName_singleton (c := ch 'a') rfl, fun n hn => by cases hn⟩
  · refine ⟨isName_singleton (c := ch 'b') rfl, fun n hn => ?_⟩
    obtain rfl := Option.some.inj (TypeWord.varchar.inj hn)
    have hdigit : isdigit (ch '8') = true := by decide
    exact ⟨by decide, List.forall_mem_singleton.mpr hdigit, by decide⟩

theorem wellFormed_sampleInsert : (ListText.insert (cstr "t") sampleValues).WellFormed := by
  refine ⟨⟨isName_singleton (c := ch 't') rfl, fun w hw => ?_⟩, by decide +kernel⟩
  rcases List.mem_pair.mp hw with rfl | rfl
  · have hdigit : ValueWord.bareChar (ch '7') = true := by decide
    exact ⟨by decide, by decide, by decide, by decide, List.forall_mem_singleton.mpr hdigit⟩
  · exact ⟨by decide, by decide, by decide⟩

/-- A row of a number and of a quoted text with a comma and brackets in it. -/
theorem sqlText_roundTrip_sample :
    ∃ st₁ st' cols, (dbExecute grantingEnv (ListText.create (cstr "t") sampleColumns).text).run
        (pagerOpenCreate 4096) = some (.done (.tableCreated (cstr "t") 20 3), st₁) ∧
      (dbExecute grantingEnv (ListText.insert (cstr "t") sampleValues).text).run st₁ =
        some (.done (.inserted 1), st') ∧
      ∀ env' sql sel, parse sql = .ok sel → sel.SelectsRow 1 → env'.lockAcquire 1 .s = true →
        ∃ st'', (dbExecute env' sql).run st' = some (.printed .lookedUp (.rows cols
          [storedRow cols (.bigint 1 ::
            assignValues cols.tail (sampleValues.map ValueWord.value))]), st'') := by
  have husable : ∀ w ∈ sampleColumns, w.Usable := by
    intro w hw n hn
    rcases List.mem_pair.mp hw with rfl | rfl
    · cases hn
    · obtain rfl := Option.some.inj (TypeWord.varchar.inj hn)
      decide
  have hcreated : ((dbExecute grantingEnv
      (ListText.create (cstr "t") sampleColumns).text).run (pagerOpenCreate 4096)).map Prod.fst =
        some (.done (.tableCreated (cstr "t") 20 3)) := by
    decide +kernel
  obtain ⟨⟨res₀, st₁⟩, hcreated, rfl⟩ := Option.map_eq_some_iff.mp hcreated
  have hboth : ((dbExecute grantingEnv (ListText.create (cstr "t") sampleColumns).text >>= fun _ =>
      dbExecute grantingEnv (ListText.insert (cstr "t") sampleValues).text).run
        (pagerOpenCreate 4096)).map Prod.fst = some (.done (.inserted 1)) := by
    decide +kernel
  rw [run_bind_of hcreated] at hboth
  obtain ⟨⟨res, st'⟩, hrun, rfl⟩ := Option.map_eq_some_iff.mp hboth
  have hst₁ : DbReach 4096 st₁ := DbReach.start.run hcreated
  obtain ⟨id, cols, hid, -, hprints⟩ := sqlText_roundTrip ⟨12, le_refl _, rfl⟩
    wellFormed_sampleCreate husable hcreated rfl hst₁ rfl wellFormed_sampleInsert hrun rfl
  obtain rfl : 1 = id := ExecMessage.inserted.inj (congrArg ExecResult.message hid)
  exact ⟨st₁, st', cols, hcreated, hrun, hprints⟩

end MiniDb
