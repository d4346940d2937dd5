import MiniDb.Db.ScanDml

/-! # Statements on one id

SELECT, DELETE and UPDATE by id through the index, next to what a scan with the same predicate
selects. -/

set_option autoImplicit false

namespace MiniDb

open Lib

/-- The rows that a statement on an id finds through the index are those that a scan selects. -/
def LooksUpMatching (st : Pager) (stmt : Statement) (rows : List (RowRef × List UInt8)) : Prop :=
  ∃ res st', (execIndexLookup stmt).run st = some (res, st') ∧ HasRows st' rows ∧
    res = if matchingRows st.header stmt rows = [] then .done (.rowNotFound stmt.predId)
      else .printed .lookedUp (.rows st.header.columns
        ((matchingRows st.header stmt rows).map fun e => rowValues st.header e.2))

/-- The rows that it removes are those. -/
def IndexDeletesMatching (st : Pager) (stmt : Statement) (rows : List (RowRef × List UInt8)) :
    Prop :=
  ∃ res st', (execIndexDelete stmt).run st = some (res, st') ∧
    HasRows st' (rows.filter fun e => !rowMatches st.header stmt e.2) ∧
    res = if matchingRows st.header stmt rows = [] then .done (.rowNotFound stmt.predId)
      else .done (.deleted stmt.predId)

/-- The rows that it changes are those, and of them only the named column; or the column may not be
updated. -/
def IndexUpdatesMatching (st : Pager) (stmt : Statement) (rows : List (RowRef × List UInt8)) :
    Prop :=
  ∃ res st', (execIndexUpdate stmt).run st = some (res, st') ∧
    ((∃ message, validateUpdateTarget st.header stmt = .error message ∧ res = .failed message ∧
        HasRows st' rows) ∨
      ∃ colIdx col rows', validateUpdateTarget st.header stmt = .ok colIdx ∧
        st.header.columns[colIdx]? = some col ∧ HasRows st' rows' ∧
        List.Forall₂ (UpdatedRow st.header stmt colIdx col) rows rows' ∧
        res = if matchingRows st.header stmt rows = [] then .done (.notUpdated stmt.predId)
          else .done (.updated stmt.predId))

/-- With a LIMIT of at least one row, or an ORDER BY on a column of the table, the scan prints the
same rows. -/
def ScansSameRows (st : Pager) (stmt : Statement) (rows : List (RowRef × List UInt8)) : Prop :=
  ∀ env scan, env.Grants → scan.predicateKind = .idEq → scan.predId = stmt.predId →
    scan.selectCount = false → (scan.hasLimit = true → 1 ≤ scan.limitCount) →
    (scan.hasOrderBy = true → ∃ i, findColumnIndex st.header.columns scan.orderByField = some i) →
    (scan.hasOrderBy = true → scan.hasLimit = true → 1 ≤ allocatedRows scan.limitCount) →
    ∃ st', HasRows st' rows ∧ (execTableScan env scan).run st =
      some (.printed (.selected (matchingRows st.header stmt rows).length .tableScan)
        (rowsOutput st.header
          ((matchingRows st.header stmt rows).map fun e => rowValues st.header e.2)), st')

section Point

variable {st : Pager} {entries : List (Nat × RowRef)} {chain : HeapChain} {stmt : Statement}
  {e : RowRef × List UInt8} {pageSize : Nat}

/-- The predicate on the id picks the row with that key. -/
theorem DbInv.rowMatches_idEq (h : DbInv st entries chain)
    (hle : ∀ c ∈ st.header.columns, c.type = .varchar → c.size ≤ 255)
    (hkind : stmt.predicateKind = .idEq) (hid : stmt.predId < 2 ^ 64)
    (he : e ∈ heapRows chain st.header.rowSize) :
    rowMatches st.header stmt e.2 = true ↔ rowKey st.header e.2 = stmt.predId := by
  have hmem := h.mem_entries ⟨rfl, rfl⟩ hle he
  have hlt : rowKey st.header e.2 < 2 ^ 64 := lt_trans (h.keys _ hmem).2 h.nextId_lt
  rw [rowMatches, matchPredicate, hkind]
  dsimp only
  rw [beq_iff_eq, h.rowId_eq hle hmem he]
  constructor
  · exact toI64_inj hlt hid
  · exact congrArg toI64

/-- The search in the index, and the rows that a scan selects: one, or none. -/
theorem DbInv.search_idEq (h : DbInv st entries chain)
    (hle : ∀ c ∈ st.header.columns, c.type = .varchar → c.size ≤ 255)
    (hkind : stmt.predicateKind = .idEq) (hid : stmt.predId < 2 ^ 64) :
    ∃ st₁, st.SameData st₁ ∧
      ((∃ ref row, (ref, row) ∈ heapRows chain st.header.rowSize ∧
          rowKey st.header row = stmt.predId ∧
          matchingRows st.header stmt (heapRows chain st.header.rowSize) = [(ref, row)] ∧
          (bptreeSearch stmt.predId).run st = some (some ref, st₁)) ∨
        matchingRows st.header stmt (heapRows chain st.header.rowSize) = [] ∧
          (bptreeSearch stmt.predId).run st = some (none, st₁)) := by
  obtain ⟨res, st₁, hsearch⟩ := h.stored.exists_search stmt.predId
  obtain ⟨hsame, hres⟩ := h.stored.search hsearch
  refine ⟨st₁, hsame, ?_⟩
  cases res with
  | none =>
    refine .inr ⟨List.filter_eq_nil_iff.mpr fun e he hm => ?_, hsearch⟩
    have hkey := (h.rowMatches_idEq hle hkind hid he).mp hm
    have hmem := h.mem_entries ⟨rfl, rfl⟩ hle he
    rw [hkey] at hmem
    cases (hres e.1).mpr hmem
  | some ref =>
    have hmem := (hres ref).mp rfl
    obtain ⟨row, hrow⟩ := h.exists_row hmem
    have hkey := h.rowKey_eq ⟨rfl, rfl⟩ hle hmem hrow
    refine .inl ⟨ref, row, hrow, hkey, ?_, hsearch⟩
    -- the row matches, and any other one that matches has its key
    have hm : (ref, row) ∈ matchingRows st.header stmt (heapRows chain st.header.rowSize) :=
      List.mem_filter.mpr ⟨hrow, (h.rowMatches_idEq hle hkind hid hrow).mpr hkey⟩
    have honly : ∀ e ∈ matchingRows st.header stmt (heapRows chain st.header.rowSize),
        e = (ref, row) := by
      intro e he
      obtain ⟨hin, hme⟩ := List.mem_filter.mp he
      have hkey' := (h.rowMatches_idEq hle hkind hid hin).mp hme
      exact Prod.ext_iff.mpr (h.rowKey_inj ⟨rfl, rfl⟩ hle hin hrow (hkey'.trans hkey.symm))
    have hnodup : (matchingRows st.header stmt (heapRows chain st.header.rowSize)).Nodup :=
      (List.Nodup.of_map _ h.stored.refs_nodup).filter _
    exact List.perm_singleton.mp ((List.perm_ext_iff_of_nodup hnodup (List.nodup_singleton _)).mpr
      fun e => ⟨fun he => List.mem_singleton.mpr (honly e he),
        fun he => List.mem_singleton.mp he ▸ hm⟩)

theorem DbInv.looksUpMatching (h : DbInv st entries chain)
    (hle : ∀ c ∈ st.header.columns, c.type = .varchar → c.size ≤ 255)
    (hkind : stmt.predicateKind = .idEq) (hid : stmt.predId < 2 ^ 64) :
    LooksUpMatching st stmt (heapRows chain st.header.rowSize) := by
  obtain ⟨st₁, hsame₁, ⟨ref, row, hrow, -, hmatching, hsearch⟩ | ⟨hnone, hsearch⟩⟩ :=
    h.search_idEq hle hkind hid
  · have hsize₁ : st₁.header.rowSize = st.header.rowSize := hsame₁.sameTable.rowSize
    obtain ⟨st₂, hsame₂, hfetch⟩ := (h.sameData hsame₁).run_heapFetch (hsize₁.symm ▸ hrow)
    rw [hsize₁] at hfetch
    have hread := (h.rowValues_stored ⟨rfl, rfl⟩ hle hrow).2.1
    have hsame := (hsame₁.trans hsame₂).trans (Pager.SameData.log (e := .unlatchR ref.pageId))
    refine ⟨_, st₂.log (.unlatchR ref.pageId), ?_, hsame.sameTable.rowSize ▸
      (h.sameData hsame).hasRows, rfl⟩
    rw [execIndexLookup, run_bind_get]
    dsimp only
    rw [run_bind_of hsearch]
    dsimp only
    rw [run_bind_of hfetch]
    dsimp only
    rw [hread, hmatching, if_neg (by simp)]
    rfl
  · refine ⟨_, st₁, ?_, hsame₁.sameTable.rowSize ▸ (h.sameData hsame₁).hasRows, rfl⟩
    rw [execIndexLookup, run_bind_get]
    dsimp only
    rw [run_bind_of hsearch, hnone, if_pos rfl]
    rfl

theorem DbInv.indexDeletesMatching (h : DbInv st entries chain)
    (hle : ∀ c ∈ st.header.columns, c.type = .varchar → c.size ≤ 255)
    (hkind : stmt.predicateKind = .idEq) (hid : stmt.predId < 2 ^ 64) :
    IndexDeletesMatching st stmt (heapRows chain st.header.rowSize) := by
  obtain ⟨st₁, hsame₁, ⟨ref, row, hrow, hkey, hmatching, hsearch⟩ | ⟨hnone, hsearch⟩⟩ :=
    h.search_idEq hle hkind hid
  · obtain ⟨t, rfl⟩ := hsame₁
    have hhdr : SameSchema st.header st.header := ⟨rfl, rfl⟩
    obtain ⟨st₂, st₃, st₄, hheap, htree, hdecr, hhdr₄, entries', chain', hinv, -, hrows⟩ :=
      (h.sameData ⟨t, rfl⟩).run_erase hhdr hle hrow
    rw [hkey] at htree
    refine ⟨_, st₄, ?_, ?_, rfl⟩
    · rw [execIndexDelete, run_bind_of hsearch]
      dsimp only
      rw [run_bind_of hheap, run_bind_of htree, run_bind_of hdecr, hmatching, if_neg (by simp)]
      rfl
    · have hfilter : (heapRows chain st.header.rowSize).filter
            (fun e => decide (rowKey st.header e.2 ≠ rowKey st.header row)) =
          (heapRows chain st.header.rowSize).filter fun e => !rowMatches st.header stmt e.2 := by
        apply List.filter_congr
        intro e he
        rw [Bool.eq_iff_iff, decide_eq_true_iff, hkey, Bool.not_eq_true', ← Bool.not_eq_true,
          h.rowMatches_idEq hle hkind hid he]
      rw [← hfilter, ← hrows]
      have hall := hinv.hasRows
      rw [← hhdr₄.rowSize] at hall
      exact hall
  · refine ⟨_, st₁, ?_, ?_, rfl⟩
    · rw [execIndexDelete, run_bind_of hsearch, hnone, if_pos rfl]
      rfl
    · have hall : (heapRows chain st.header.rowSize).filter
          (fun e => !rowMatches st.header stmt e.2) = heapRows chain st.header.rowSize := by
        rw [List.filter_eq_self]
        intro e he
        rw [Bool.not_eq_true', ← Bool.not_eq_true]
        exact List.filter_eq_nil_iff.mp hnone e he
      rw [hall]
      exact hsame₁.sameTable.rowSize ▸ (h.sameData hsame₁).hasRows

theorem DbInv.indexUpdatesMatching (h : DbInv st entries chain)
    (hle : ∀ c ∈ st.header.columns, c.type = .varchar → c.size ≤ 255)
    (hkind : stmt.predicateKind = .idEq) (hid : stmt.predId < 2 ^ 64) :
    IndexUpdatesMatching st stmt (heapRows chain st.header.rowSize) := by
  cases hcol : validateUpdateTarget st.header stmt with
  | error message =>
    refine ⟨.failed message, st, ?_, .inl ⟨message, hcol, rfl, h.hasRows⟩⟩
    rw [execIndexUpdate, run_bind_get]
    dsimp only
    rw [hcol]
    rfl
  | ok colIdx =>
    obtain ⟨col, hget⟩ := validateUpdateTarget_column hcol
    obtain ⟨st₁, hsame₁, ⟨ref, row, hrow, hkey, hmatching, hsearch⟩ | ⟨hnone, hsearch⟩⟩ :=
      h.search_idEq hle hkind hid
    · have hsize₁ : st₁.header.rowSize = st.header.rowSize := hsame₁.sameTable.rowSize
      obtain ⟨st₂, hsame₂, hfetch⟩ := (h.sameData hsame₁).run_heapFetch (hsize₁.symm ▸ hrow)
      rw [hsize₁] at hfetch
      have hread := (h.rowValues_stored ⟨rfl, rfl⟩ hle hrow).2.1
      have hsame := (hsame₁.trans hsame₂).trans (Pager.SameData.log (e := .unlatchR ref.pageId))
      have hunlatch : (pagerUnlatchR ref.pageId).run st₂ =
          some ((), st₂.log (.unlatchR ref.pageId)) := rfl
      obtain ⟨t, ht⟩ := hsame
      rw [ht] at hunlatch
      have hhdr : SameSchema st.header st.header := ⟨rfl, rfl⟩
      obtain ⟨st₃, hupdate, hhdr₃, chain', hinv, hrows⟩ :=
        (h.sameData ⟨t, rfl⟩).run_updateRow hhdr hle hrow hcol
      refine ⟨_, st₃, ?_, .inr ⟨colIdx, col, _, hcol, hget, hinv.hasRows, ?_, rfl⟩⟩
      · rw [execIndexUpdate, run_bind_get]
        dsimp only
        rw [hcol]
        dsimp only
        rw [run_bind_of hsearch]
        dsimp only
        rw [run_bind_of hfetch]
        dsimp only
        rw [hread]
        show (do
          pagerUnlatchR ref.pageId
          MiniDb.updateRow st.header stmt colIdx ref (rowValues st.header row)
          return .done (.updated stmt.predId) : PagerM ExecResult).run st₂ = _
        rw [run_bind_of hunlatch, run_bind_of hupdate, hmatching, if_neg (by simp)]
        rfl
      · rw [← hhdr₃.rowSize]
        rw [show ({ st with trace := t } : Pager).header.rowSize = st.header.rowSize from rfl] at hrows
        rw [hrows, List.forall₂_map_right_iff, List.forall₂_same]
        intro e he
        have hiff := h.rowMatches_idEq hle hkind hid he
        rw [hkey]
        by_cases hm : rowMatches st.header stmt e.2 = true
        · rw [if_pos (hiff.mp hm)]
          refine ⟨rfl, ?_⟩
          rw [if_pos hm]
          exact (h.rowDeserialize_updatedRow stmt hhdr hle he hget).2
        · rw [if_neg (mt hiff.mpr hm)]
          refine ⟨rfl, ?_⟩
          rw [if_neg hm]
    · refine ⟨_, st₁, ?_, .inr ⟨colIdx, col, _, hcol, hget, hsame₁.sameTable.rowSize ▸
        (h.sameData hsame₁).hasRows, ?_, rfl⟩⟩
      · rw [execIndexUpdate, run_bind_get]
        dsimp only
        rw [hcol]
        dsimp only
        rw [run_bind_of hsearch, hnone, if_pos rfl]
        rfl
      · rw [List.forall₂_same]
        intro e he
        refine ⟨rfl, ?_⟩
        rw [if_neg (List.filter_eq_nil_iff.mp hnone e he)]

/-! ## The scan -/

theorem rowMatches_congr {hdr : DbHeader} {scan : Statement} (row : List UInt8)
    (hkind : stmt.predicateKind = .idEq) (hscan : scan.predicateKind = .idEq)
    (hid : scan.predId = stmt.predId) : rowMatches hdr scan row = rowMatches hdr stmt row := by
  rw [rowMatches, rowMatches, matchPredicate, matchPredicate, hkind, hscan, hid]

/-- A callback that keeps one row keeps a list of at most one row. -/
theorem visitMatches_one {γ : Type} {push : RowValues → γ → Bool × Option γ} {ctx : γ}
    {vs : List RowValues} (hlen : vs.length ≤ 1) {keep : List RowValues → γ} (hnil : keep [] = ctx)
    (hone : ∀ v, (push v ctx).2 = some (keep [v])) : visitMatches push vs ctx = some (keep vs) := by
  match vs, hlen with
  | [], _ => rw [hnil]; rfl
  | [v], _ =>
    have hv := hone v
    rw [visitMatches]
    rcases hpush : push v ctx with ⟨go, res⟩
    rw [hpush] at hv
    obtain rfl : res = some (keep [v]) := hv
    cases go <;> rfl

theorem run_printOrdered_one {hdr : DbHeader} {cmp : RowValues → RowValues → Option Int}
    {vs : List RowValues} (hlen : vs.length ≤ 1)
    (hlimit : stmt.hasLimit = true → 1 ≤ stmt.limitCount) :
    printOrdered hdr cmp stmt vs =
      pure (.printed (.selected vs.length .tableScan) (rowsOutput hdr vs)) := by
  have hout : (if stmt.hasLimit then vs.take stmt.limitCount else vs) = vs := by
    split
    · rename_i hl
      exact List.take_of_length_le (hlen.trans (hlimit hl))
    · rfl
  rw [printOrdered, if_neg (by omega), pure_bind]
  dsimp only
  rw [hout]

/-- The table scan, where at most one row matches. -/
theorem DbInv.scansSameRows (h : DbInv st entries chain)
    (hle : ∀ c ∈ st.header.columns, c.type = .varchar → c.size ≤ 255)
    (hkind : stmt.predicateKind = .idEq) (hid : stmt.predId < 2 ^ 64) :
    ScansSameRows st stmt (heapRows chain st.header.rowSize) := by
  intro env scan hgrants hscan hscanId hcount hlimit horder hbuffer
  have hsame : matchingRows st.header scan (heapRows chain st.header.rowSize) =
      matchingRows st.header stmt (heapRows chain st.header.rowSize) :=
    List.filter_congr fun e _ => rowMatches_congr e.2 hkind hscan hscanId
  have hone : (matchingRows st.header stmt (heapRows chain st.header.rowSize)).length ≤ 1 := by
    obtain ⟨-, -, ⟨ref, row, -, -, hmatching, -⟩ | ⟨hnone, -⟩⟩ := h.search_idEq hle hkind hid
    · rw [hmatching]
      exact le_refl 1
    · rw [hnone]
      exact Nat.zero_le 1
  set vs := (matchingRows st.header stmt (heapRows chain st.header.rowSize)).map
    fun e => rowValues st.header e.2 with hvs
  have hlen : vs.length ≤ 1 := by rwa [hvs, List.length_map]
  have hrun : ∀ {γ : Type} (push : RowValues → γ → Bool × Option γ) (ctx : γ)
      (keep : List RowValues → γ), keep [] = ctx → (∀ v, (push v ctx).2 = some (keep [v])) →
      ∃ st', st.SameData st' ∧ (scanMatching env scan push ctx).run st = some (keep vs, st') := by
    intro γ push ctx keep hnil hkeep
    obtain ⟨st', hdata, hscan⟩ := run_scanMatching h.stored (h.readable hle) env scan push ctx
    rw [hsame, ← hvs, visitMatches_one hlen hnil hkeep] at hscan
    exact ⟨st', hdata, hscan⟩
  have hall : ∀ st', st.SameData st' → HasRows st' (heapRows chain st.header.rowSize) :=
    fun st' hdata => hdata.sameTable.rowSize ▸ (h.sameData hdata).hasRows
  have hzero : ¬ (scan.hasLimit = true ∧ scan.limitCount = 0) := by
    rintro ⟨hl, hz⟩
    have hpos := hlimit hl
    omega
  rw [execTableScan, run_bind_get]
  simp only [hcount, Bool.false_eq_true, if_false, if_neg hzero]
  rw [← List.length_map (f := fun e => rowValues st.header e.2), ← hvs]
  by_cases hord : scan.hasOrderBy = true
  · obtain ⟨i, hi⟩ := horder hord
    rw [if_pos hord, execOrderedScan, run_bind_get]
    dsimp only
    rw [hi]
    dsimp only
    by_cases hl : scan.hasLimit = true
    · have hpos := hlimit hl
      have hpush : ∀ v, (topkScanPush (compareRowValues st.header.columns i scan.orderDesc)
          scan.limitCount v []).2 = some (id [v]) := by
        intro v
        have hfirst : topkPush (compareRowValues st.header.columns i scan.orderDesc)
            scan.limitCount [] v = some [v] := if_pos hpos
        rw [topkScanPush, hfirst]
        dsimp only
        rw [if_pos (show [v].length ≤ _ from hbuffer hord hl)]
        rfl
      obtain ⟨st', hdata, htopk⟩ := hrun _ [] id rfl hpush
      refine ⟨st', hall st' hdata, ?_⟩
      rw [if_pos hl, if_neg (by simp [hgrants.alloc]), run_bind_of htopk]
      exact congrArg (fun m : PagerM ExecResult => m.run st') (run_printOrdered_one hlen hlimit)
    · have hpush : ∀ v, (collectPush env v { items := [], cap := 256, allocFailed := false }).2 =
          some { items := [v], cap := 256, allocFailed := false } := by
        intro v
        have hfirst : Collector.push env 256 v { items := [], cap := 256, allocFailed := false } =
            some (true, { items := [v], cap := 256, allocFailed := false }) := rfl
        have hroom : [v].length ≤ allocatedRows 256 := show 1 ≤ allocatedRows 256 by decide
        rw [collectPush, hfirst]
        dsimp only
        rw [if_pos hroom]
      obtain ⟨st', hdata, hcollect⟩ := hrun (collectPush env) _
        (fun items => { items, cap := 256, allocFailed := false }) rfl hpush
      refine ⟨st', hall st' hdata, ?_⟩
      rw [if_neg hl, if_neg (by simp [hgrants.alloc]), run_bind_of hcollect]
      exact congrArg (fun m : PagerM ExecResult => m.run st') (run_printOrdered_one hlen hlimit)
  · obtain ⟨st', hdata, hplain⟩ := hrun (selectPush scan) [] id rfl fun v => rfl
    refine ⟨st', hall st' hdata, ?_⟩
    rw [if_neg hord, run_bind_of hplain]
    rfl

/-- **Statements on one id agree with the scan.** In every database that texts lead to and whose
VARCHAR columns have at most 255 bytes. -/
theorem point_agrees (hps : IsPageSize pageSize) (h : DbReach pageSize st)
    (hle : ∀ c ∈ st.header.columns, c.type = .varchar → c.size ≤ 255)
    (hkind : stmt.predicateKind = .idEq) (hid : stmt.predId < 2 ^ 64) :
    ∃ rows, HasRows st rows ∧ (matchingRows st.header stmt rows).length ≤ 1 ∧
      LooksUpMatching st stmt rows ∧ IndexDeletesMatching st stmt rows ∧
      IndexUpdatesMatching st stmt rows ∧ ScansSameRows st stmt rows := by
  obtain ⟨entries, chain, hinv, -⟩ := h.inv hps
  refine ⟨_, hinv.hasRows, ?_, hinv.looksUpMatching hle hkind hid,
    hinv.indexDeletesMatching hle hkind hid, hinv.indexUpdatesMatching hle hkind hid,
    hinv.scansSameRows hle hkind hid⟩
  obtain ⟨-, -, ⟨ref, row, -, -, hmatching, -⟩ | ⟨hnone, -⟩⟩ := hinv.search_idEq hle hkind hid
  · rw [hmatching]
    exact le_refl 1
  · rw [hnone]
    exact Nat.zero_le 1

theorem point_agrees_twoRowTable :
    let stmt : Statement :=
      { type := .select, tableName := cstr "t", predicateKind := .idEq, predField := cstr "id"
        predValue := cstr "2", predId := 2 }
    ∃ rows, HasRows twoRowTable rows ∧ (matchingRows twoRowTable.header stmt rows).length ≤ 1 ∧
      LooksUpMatching twoRowTable stmt rows ∧ IndexDeletesMatching twoRowTable stmt rows ∧
      IndexUpdatesMatching twoRowTable stmt rows ∧ ScansSameRows twoRowTable stmt rows :=
  point_agrees ⟨12, le_refl _, rfl⟩ dbReach_twoRowTable (by decide +kernel) rfl (by decide)

/-- With LIMIT 0 a SELECT by id returns no row. -/
theorem not_point_agrees_limit_zero :
    ∃ stmt limited : Statement,
      parse (cstr "SELECT * FROM t WHERE id = 1") = .ok stmt ∧
      parse (cstr "SELECT * FROM t WHERE id = 1 LIMIT 0") = .ok limited ∧
      DbReach 4096 oneRowTable ∧
      ((execute grantingEnv stmt).run oneRowTable).map Prod.fst =
        some (.printed .lookedUp
          (.rows oneRowTable.header.columns [[.bigint 1, .int 7]])) ∧
      ((execute grantingEnv limited).run oneRowTable).map Prod.fst =
        some (.done (.selected 0 .tableScan)) := by
  have hplain : parse (cstr "SELECT * FROM t WHERE id = 1") = .ok
      { type := .select, tableName := cstr "t", selectAll := true, predicateKind := .idEq
        predField := cstr "id", predValue := cstr "1", predId := 1 } := by
    decide +kernel
  have hlimited : parse (cstr "SELECT * FROM t WHERE id = 1 LIMIT 0") = .ok
      { type := .select, tableName := cstr "t", selectAll := true, predicateKind := .idEq
        predField := cstr "id", predValue := cstr "1", predId := 1, hasLimit := true } := by
    decide +kernel
  exact ⟨_, _, hplain, hlimited, dbReach_oneRowTable, by decide +kernel, by decide +kernel⟩

end Point

end MiniDb
