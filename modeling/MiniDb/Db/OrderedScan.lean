import MiniDb.Db.Matching
import MiniDb.Sql.Executor.Collect
import MiniDb.Sql.Executor.SortKey
import MiniDb.Sql.Executor.TopK

/-! # ORDER BY

A scan with ORDER BY collects the rows that match and sorts them. Under LIMIT its buffer is a heap
of the first rows, and what it prints has the first of the sort keys, as long as the memory it asks
for is the memory it needs: the size is computed in 32 bits. -/

set_option autoImplicit false

namespace MiniDb

open Lib

section Collecting

variable {κ : Type} [LinearOrder κ] {cmp : RowValues → RowValues → Option Int}
  {key : RowValues → κ} {P : RowValues → Prop} {rows seen vs : List RowValues} {limit : Nat}
  {hdr : DbHeader} {stmt : Statement} {st : Pager} {env : ExecEnv}

/-! ## Under LIMIT -/

/-- The scan keeps the first rows, while they fit the buffer. -/
theorem visitMatches_topk (hcmp : ComparesBy cmp key P) (hseen : ∀ a ∈ seen, P a)
    (hvs : ∀ a ∈ vs, P a) (hlimit : 1 ≤ limit) (hheap : HeapOrdered key rows)
    (hkeep : KeepsLeast key limit seen rows) :
    (min limit (seen ++ vs).length ≤ allocatedRows limit →
      ∃ rows', visitMatches (topkScanPush cmp limit) vs rows = some rows' ∧
        KeepsLeast key limit (seen ++ vs) rows') ∧
    (min limit seen.length ≤ allocatedRows limit →
      allocatedRows limit < min limit (seen ++ vs).length →
      visitMatches (topkScanPush cmp limit) vs rows = none) := by
  induction vs generalizing rows seen with
  | nil =>
    rw [List.append_nil]
    exact ⟨fun _ => ⟨rows, rfl, hkeep⟩, fun h h' => absurd h (by omega)⟩
  | cons v vs ih =>
    have hrows : ∀ a ∈ rows, P a := fun a ha => hseen a (hkeep.subperm.subset ha)
    obtain ⟨rows', hpush, hheap', hkeep'⟩ :=
      topkPush_spec hcmp hrows (hvs v List.mem_cons_self) hheap hkeep hlimit
    have hseen' : ∀ a ∈ seen ++ [v], P a := by
      intro a ha
      rcases List.mem_append.mp ha with ha | ha
      · exact hseen a ha
      · exact List.mem_singleton.mp ha ▸ hvs v List.mem_cons_self
    obtain ⟨hsome, hnone⟩ :=
      ih hseen' (fun a ha => hvs a (List.mem_cons_of_mem v ha)) hheap' hkeep'
    have hlen : rows'.length = min limit (seen ++ [v]).length := hkeep'.length_eq
    have happend : seen ++ v :: vs = (seen ++ [v]) ++ vs := by
      rw [List.append_assoc]
      rfl
    have hmono : (seen ++ [v]).length ≤ ((seen ++ [v]) ++ vs).length :=
      (List.sublist_append_left _ vs).length_le
    rw [happend]
    by_cases hroom : rows'.length ≤ allocatedRows limit
    · have hscan : topkScanPush cmp limit v rows = (true, some rows') := by
        rw [topkScanPush, hpush]
        exact if_pos hroom
      rw [visitMatches, hscan]
      exact ⟨hsome, fun _ => hnone (by omega)⟩
    · have hscan : topkScanPush cmp limit v rows = (false, none) := by
        rw [topkScanPush, hpush]
        exact if_neg hroom
      rw [visitMatches, hscan]
      exact ⟨fun h => absurd h (by omega), fun _ _ => rfl⟩

/-! ## Without LIMIT -/

/-- While the rows can be sorted, the array they are collected in has the memory they need. -/
theorem visitMatches_collect (hgrants : ∀ n, env.alloc n = true) (c : Collector RowValues)
    (hfailed : c.allocFailed = false) (hlen : c.items.length ≤ c.cap)
    (hcap : ∃ k ≤ 27, c.cap = 2 ^ k) (hroom : c.items.length + vs.length ≤ sortableRows) :
    ∃ c', visitMatches (collectPush env) vs c = some c' ∧ c'.allocFailed = false ∧
      c'.items = c.items ++ vs := by
  induction vs generalizing c with
  | nil => exact ⟨c, rfl, hfailed, (List.append_nil _).symm⟩
  | cons v vs ih =>
    rw [List.length_cons] at hroom
    obtain ⟨k, hk, hcapk⟩ := hcap
    obtain ⟨c₁, hpush, hitems, hflag, k₁, hk₁, hcap₁, hlen₁⟩ : ∃ c₁ : Collector RowValues,
        c.push env 256 v = some (true, c₁) ∧ c₁.items = c.items ++ [v] ∧ c₁.allocFailed = false ∧
          ∃ k₁ ≤ 27, c₁.cap = 2 ^ k₁ ∧ c₁.items.length ≤ c₁.cap := by
      rw [Collector.push]
      by_cases hfull : c.items.length ≥ c.cap
      · -- the array is full: there is a power of two above it that is still small enough
        have hne : k ≠ 27 := by
          rintro rfl
          rw [sortableRows] at hroom
          omega
        have hpos : c.cap ≠ 0 := by
          rw [hcapk]
          exact Nat.two_pow_pos k |>.ne'
        have hdouble : c.cap * 2 = 2 ^ (k + 1) := by rw [hcapk, Nat.pow_succ]
        have hle : 2 ^ (k + 1) ≤ 2 ^ 27 := Nat.pow_le_pow_right (by omega) (by omega)
        have hmod : c.cap * 2 % uint32Count = c.cap * 2 :=
          Nat.mod_eq_of_lt (by rw [uint32Count]; omega)
        rw [if_pos hfull, if_neg hpos, hmod]
        dsimp only
        rw [if_neg (by omega), if_pos (hgrants _)]
        refine ⟨_, rfl, rfl, hfailed, k + 1, by omega, hdouble, ?_⟩
        · simp only [List.length_append, List.length_singleton]
          omega
      · rw [if_neg hfull]
        refine ⟨_, rfl, rfl, hfailed, k, hk, hcapk, ?_⟩
        simp only [List.length_append, List.length_singleton]
        omega
    have halloc : allocatedRows c₁.cap = c₁.cap := by
      have hle : 2 ^ k₁ ≤ 2 ^ 27 := Nat.pow_le_pow_right (by omega) hk₁
      rw [allocatedRows, hcap₁, maxColumns, Nat.mod_eq_of_lt (by omega)]
      omega
    have hscan : collectPush env v c = (true, some c₁) := by
      rw [collectPush, hpush]
      exact if_pos (by omega)
    have hlength : c₁.items.length = c.items.length + 1 := by
      rw [hitems, List.length_append, List.length_singleton]
    obtain ⟨c', hrun, hflag', hall⟩ := ih c₁ hflag hlen₁ ⟨k₁, hk₁, hcap₁⟩ (by omega)
    refine ⟨c', ?_, hflag', ?_⟩
    · rw [visitMatches, hscan]
      exact hrun
    · rw [hall, hitems, List.append_assoc]
      rfl

/-! ## Sorting and printing -/

/-- The rows a SELECT prints of those that it has sorted. -/
def Statement.limited (stmt : Statement) (rows : List RowValues) : List RowValues :=
  if stmt.hasLimit then rows.take stmt.limitCount else rows

theorem Statement.length_limited_le (stmt : Statement) (rows : List RowValues) :
    (stmt.limited rows).length ≤ rows.length := by
  rw [Statement.limited]
  split
  · exact List.length_take_le' _ _
  · exact le_refl _

theorem run_printOrdered (hcmp : ComparesBy cmp key P) (hrows : ∀ a ∈ rows, P a)
    (hsize : rows.length ≤ sortableRows) (stmt : Statement) (hdr : DbHeader) :
    ∃ sorted, sorted.Perm rows ∧ sorted.Pairwise (fun a b => key a ≤ key b) ∧
      printOrdered hdr cmp stmt rows = pure (.printed
        (.selected (stmt.limited sorted).length .tableScan)
        (rowsOutput hdr (stmt.limited sorted))) := by
  rw [printOrdered]
  by_cases hlen : rows.length > 1
  · have hsort : ∃ sorted, quicksortRowBlocks cmp (rows.length + 1) rows 0 (rows.length - 1) =
        some sorted ∧ Rearranged 0 (rows.length - 1) rows sorted ∧
          SortedBetween key 0 (rows.length - 1) sorted := by
      have hpart : AllBetween P 0 (rows.length - 1) rows :=
        fun n a _ _ ha => hrows a (List.mem_of_getElem? ha)
      obtain ⟨sorted, hrun, hre, hsorted, -⟩ := quicksortRowBlocks_spec hcmp (rows.length + 1) hpart
        (by omega) (le_refl 0) (by omega) (by omega) (by omega)
      exact ⟨sorted, hrun, hre, hsorted⟩
    obtain ⟨sorted, hrun, hre, hsorted⟩ := hsort
    rw [if_pos hlen, hrun]
    refine ⟨sorted, hre.perm, SortedBetween.pairwise ?_, rfl⟩
    rw [hre.length_eq]
    exact hsorted
  · rw [if_neg hlen, pure_bind]
    refine ⟨rows, List.Perm.refl rows, ?_, rfl⟩
    match rows, hlen with
    | [], _ => exact .nil
    | [a], _ => exact List.pairwise_singleton _ a
    | a :: b :: rows, hlen => exact absurd (by simp) hlen

theorem run_printOrdered_none (hsize : sortableRows < rows.length) :
    (printOrdered hdr cmp stmt rows).run st = none := by
  have hmany : rows.length > 1 := by
    rw [sortableRows] at hsize
    omega
  rw [printOrdered, if_pos hmany, quicksortRowBlocks_none (by omega) (by omega)]
  rfl

/-- With too many rows for the buffer, or for the sort, there is no outcome. -/
theorem topk_then_sort_none (hcmp : ComparesBy cmp key P) (hvs : ∀ a ∈ vs, P a)
    (hpos : 1 ≤ stmt.limitCount)
    (hmany : allocatedRows stmt.limitCount < min stmt.limitCount vs.length ∨
      sortableRows < min stmt.limitCount vs.length) :
    visitMatches (topkScanPush cmp stmt.limitCount) vs [] = none ∨
      ∃ rows, visitMatches (topkScanPush cmp stmt.limitCount) vs [] = some rows ∧
        ∀ hdr st, (printOrdered hdr cmp stmt rows).run st = none := by
  have hnil : KeepsLeast key stmt.limitCount [] [] := keepsLeast_nil _
  obtain ⟨hsome, hnone⟩ :=
    visitMatches_topk hcmp (fun a ha => by cases ha) hvs hpos heapOrdered_nil hnil
  rw [List.nil_append] at hsome hnone
  by_cases hroom : min stmt.limitCount vs.length ≤ allocatedRows stmt.limitCount
  · obtain ⟨rows, hrun, hkeep⟩ := hsome hroom
    have hlen := hkeep.length_eq
    exact .inr ⟨rows, hrun, fun hdr st => run_printOrdered_none (by omega)⟩
  · exact .inl (hnone (by simp) (by omega))

/-- **Under LIMIT** the scan and the sort leave the first rows in order. -/
theorem topk_then_sort (hcmp : ComparesBy cmp key P) (hvs : ∀ a ∈ vs, P a)
    (hlimit : stmt.hasLimit = true) (hpos : 1 ≤ stmt.limitCount)
    (hroom : min stmt.limitCount vs.length ≤ allocatedRows stmt.limitCount)
    (hsize : min stmt.limitCount vs.length ≤ sortableRows) (hdr : DbHeader) :
    ∃ rows out, visitMatches (topkScanPush cmp stmt.limitCount) vs [] = some rows ∧
      printOrdered hdr cmp stmt rows = pure (.printed (.selected out.length .tableScan)
        (rowsOutput hdr out)) ∧
      KeepsLeast key stmt.limitCount vs out ∧ out.Pairwise fun a b => key a ≤ key b := by
  have hnil : KeepsLeast key stmt.limitCount [] [] := keepsLeast_nil _
  obtain ⟨rows, hrun, hkeep⟩ :=
    (visitMatches_topk hcmp (fun a ha => by cases ha) hvs hpos heapOrdered_nil hnil).1 hroom
  rw [List.nil_append] at hkeep
  have hlen := hkeep.length_eq
  obtain ⟨sorted, hperm, hsorted, hprint⟩ := run_printOrdered hcmp
    (fun a ha => hvs a (hkeep.subperm.subset ha)) (by omega) stmt hdr
  have hall : stmt.limited sorted = sorted := by
    rw [Statement.limited, if_pos hlimit]
    apply List.take_of_length_le
    rw [hperm.length_eq]
    omega
  rw [hall] at hprint
  exact ⟨rows, sorted, hrun, hprint, hkeep.perm hperm, hsorted⟩

end Collecting

/-! ## The statement -/

/-- The values of the rows that match. -/
def matchingValues (hdr : DbHeader) (stmt : Statement) (rows : List (RowRef × List UInt8)) :
    List RowValues :=
  (matchingRows hdr stmt rows).map fun e => rowValues hdr e.2

/-- The scan prints some of these rows, with the first of their sort keys in order. -/
def PrintsFirst (st : Pager) (env : ExecEnv) (stmt : Statement) (colIdx : Nat)
    (vs : List RowValues) : Prop :=
  ∃ out st', (execTableScan env stmt).run st =
      some (.printed (.selected out.length .tableScan) (rowsOutput st.header out), st') ∧
    out.map (sortKey colIdx) = (sortedKeys colIdx stmt.orderDesc vs).take stmt.limitCount ∧
    out.Subperm vs

section OrderBy

variable {st : Pager} {entries : List (Nat × RowRef)} {chain : HeapChain} {hdr : DbHeader}
  {stmt : Statement} {env : ExecEnv} {rows : List (RowRef × List UInt8)} {row : List UInt8}
  {values : RowValues} {col : ColumnMeta} {colIdx : Nat}

/-- What is read from a column is of its type. -/
theorem hasColumn_of_deserialize (h : rowDeserialize hdr row = some values)
    (hcol : hdr.columns[colIdx]? = some col) : HasColumn col.type colIdx values := by
  obtain ⟨v, hv, hread⟩ := mapM_getElem? h hcol
  refine ⟨v, hv, ?_⟩
  rw [deserializeColumn] at hread
  cases htype : col.type with
  | int =>
    rw [htype] at hread
    obtain ⟨b, -, hb⟩ := Option.bind_eq_some_iff.mp hread
    rw [← Option.some.inj hb]
    trivial
  | bigint =>
    rw [htype] at hread
    obtain ⟨b, -, hb⟩ := Option.bind_eq_some_iff.mp hread
    rw [← Option.some.inj hb]
    trivial
  | varchar =>
    rw [htype] at hread
    obtain ⟨_, -, hload⟩ := Option.bind_eq_some_iff.mp hread
    obtain ⟨b, -, hb⟩ := Option.bind_eq_some_iff.mp hload
    rw [← Option.some.inj hb]
    intro hzero
    simpa using List.mem_takeWhile_imp hzero

theorem hasColumn_matchingValues (stmt : Statement) (hread : Readable hdr rows)
    (hcol : hdr.columns[colIdx]? = some col) :
    ∀ v ∈ matchingValues hdr stmt rows, HasColumn col.type colIdx v := by
  intro v hv
  obtain ⟨e, he, rfl⟩ := List.mem_map.mp hv
  obtain ⟨values, hvalues⟩ := hread e (List.mem_filter.mp he).1
  rw [rowValues_eq hvalues]
  exact hasColumn_of_deserialize hvalues hcol

theorem findColumnIndex_getElem? {columns : List ColumnMeta} {name : CString}
    (h : findColumnIndex columns name = some colIdx) : ∃ col, columns[colIdx]? = some col := by
  have hlt : colIdx < columns.length := (List.findIdx?_eq_some_iff_getElem.mp h).1
  exact ⟨_, List.getElem?_eq_getElem hlt⟩

theorem run_execTableScan_topk (hcount : stmt.selectCount = false)
    (horder : stmt.hasOrderBy = true) (hlimit : stmt.hasLimit = true) (hpos : 1 ≤ stmt.limitCount)
    (hcol : findColumnIndex st.header.columns stmt.orderByField = some colIdx)
    (halloc : env.alloc stmt.limitCount = true) :
    (execTableScan env stmt).run st =
      (do
        let rows ← scanMatching env stmt (topkScanPush
          (compareRowValues st.header.columns colIdx stmt.orderDesc) stmt.limitCount) []
        printOrdered st.header (compareRowValues st.header.columns colIdx stmt.orderDesc) stmt
          rows : PagerM ExecResult).run st := by
  have hzero : ¬ (stmt.hasLimit = true ∧ stmt.limitCount = 0) := fun h => by omega
  rw [execTableScan, run_bind_get]
  simp only [hcount, Bool.false_eq_true, if_false, if_neg hzero]
  rw [if_pos horder, execOrderedScan, run_bind_get]
  dsimp only
  rw [hcol]
  dsimp only
  rw [if_pos hlimit, if_neg (by simp [halloc])]

/-- Without LIMIT the scan prints all rows that match. -/
theorem run_execTableScan_ordered (h : Stored st st.header.rowSize entries chain)
    (hread : Readable st.header (heapRows chain st.header.rowSize))
    (hcount : stmt.selectCount = false) (horder : stmt.hasOrderBy = true)
    (hlimit : stmt.hasLimit = false)
    (hcol : findColumnIndex st.header.columns stmt.orderByField = some colIdx)
    (hgrants : ∀ n, env.alloc n = true)
    (hsize : (matchingRows st.header stmt (heapRows chain st.header.rowSize)).length ≤
      sortableRows) :
    ∃ out st', out.Perm (matchingValues st.header stmt (heapRows chain st.header.rowSize)) ∧
      (execTableScan env stmt).run st =
        some (.printed (.selected out.length .tableScan) (rowsOutput st.header out), st') := by
  obtain ⟨col, hget⟩ := findColumnIndex_getElem? hcol
  have hvs := hasColumn_matchingValues stmt hread hget
  obtain ⟨vs, hvseq⟩ : ∃ vs, vs =
      matchingValues st.header stmt (heapRows chain st.header.rowSize) := ⟨_, rfl⟩
  have hlen : vs.length ≤ sortableRows := by
    rw [hvseq, matchingValues, List.length_map]
    exact hsize
  obtain ⟨st', -, hscan⟩ := run_scanMatching h hread env stmt (collectPush env)
    { items := [], cap := 256, allocFailed := false }
  obtain ⟨rc, hvisit, hok, hitems⟩ := visitMatches_collect hgrants
    { items := [], cap := 256, allocFailed := false } rfl (by simp) ⟨8, by omega, rfl⟩
    (by simpa using hlen)
  rw [List.nil_append] at hitems
  rw [hvseq] at hvisit
  have hscan' := hscan.trans (congrArg (Option.map fun ctx => (ctx, st')) hvisit)
  obtain ⟨out, hperm, hprint⟩ : ∃ out, out.Perm vs ∧
      printOrdered st.header (compareRowValues st.header.columns colIdx stmt.orderDesc) stmt
        rc.items = pure (.printed (.selected out.length .tableScan)
          (rowsOutput st.header out)) := by
    rw [hitems]
    have hall : ∀ sorted, stmt.limited sorted = sorted := by
      intro sorted
      rw [Statement.limited, hlimit]
      rfl
    rw [← hvseq] at hvs
    cases stmt.orderDesc with
    | false =>
      obtain ⟨out, hperm, -, hprint⟩ :=
        run_printOrdered (compareRowValues_asc hget) hvs hlen stmt st.header
      rw [hall] at hprint
      exact ⟨out, hperm, hprint⟩
    | true =>
      obtain ⟨out, hperm, -, hprint⟩ :=
        run_printOrdered (compareRowValues_desc hget) hvs hlen stmt st.header
      rw [hall] at hprint
      exact ⟨out, hperm, hprint⟩
  refine ⟨out, st', hvseq ▸ hperm, ?_⟩
  rw [execTableScan, run_bind_get]
  simp only [hcount, Bool.false_eq_true, if_false, hlimit, false_and]
  rw [if_pos horder, execOrderedScan, run_bind_get]
  dsimp only
  rw [hcol]
  dsimp only
  rw [if_neg (by simp [hlimit]), if_neg (by simp [hgrants]), run_bind_of hscan',
    if_neg (by simp [hok]), hprint]
  rfl

/-- The outcome of the scan, by what the comparison goes by. -/
theorem topk_outcome {κ : Type} [LinearOrder κ] {key : RowValues → κ} {P : RowValues → Prop}
    (h : Stored st st.header.rowSize entries chain)
    (hread : Readable st.header (heapRows chain st.header.rowSize))
    (hcount : stmt.selectCount = false) (horder : stmt.hasOrderBy = true)
    (hlimit : stmt.hasLimit = true) (hpos : 1 ≤ stmt.limitCount)
    (hcol : findColumnIndex st.header.columns stmt.orderByField = some colIdx)
    (halloc : env.alloc stmt.limitCount = true)
    (hcmp : ComparesBy (compareRowValues st.header.columns colIdx stmt.orderDesc) key P)
    (hvs : ∀ v ∈ matchingValues st.header stmt (heapRows chain st.header.rowSize), P v) :
    let vs := matchingValues st.header stmt (heapRows chain st.header.rowSize)
    (min stmt.limitCount vs.length ≤ allocatedRows stmt.limitCount ∧
        min stmt.limitCount vs.length ≤ sortableRows →
      ∃ out st', (execTableScan env stmt).run st =
          some (.printed (.selected out.length .tableScan) (rowsOutput st.header out), st') ∧
        KeepsLeast key stmt.limitCount vs out ∧ out.Pairwise fun a b => key a ≤ key b) ∧
    (¬ (min stmt.limitCount vs.length ≤ allocatedRows stmt.limitCount ∧
        min stmt.limitCount vs.length ≤ sortableRows) →
      (execTableScan env stmt).run st = none) := by
  intro vs
  rw [run_execTableScan_topk hcount horder hlimit hpos hcol halloc]
  obtain ⟨st', -, hscan⟩ := run_scanMatching h hread env stmt
    (topkScanPush (compareRowValues st.header.columns colIdx stmt.orderDesc) stmt.limitCount) []
  constructor
  · rintro ⟨hroom, hsize⟩
    obtain ⟨rows, out, hvisit, hprint, hkeep, hsorted⟩ :=
      topk_then_sort hcmp hvs hlimit hpos hroom hsize st.header
    refine ⟨out, st', ?_, hkeep, hsorted⟩
    have hscan' := hscan.trans (congrArg (Option.map fun ctx => (ctx, st')) hvisit)
    rw [run_bind_of hscan', hprint]
    rfl
  · intro hmany
    have hmany' : allocatedRows stmt.limitCount < min stmt.limitCount vs.length ∨
        sortableRows < min stmt.limitCount vs.length := by
      rw [not_and_or, not_le, not_le] at hmany
      exact hmany
    rcases topk_then_sort_none hcmp hvs hpos hmany' with hnone | ⟨rows, hvisit, hnone⟩
    · have hscan' := hscan.trans (congrArg (Option.map fun ctx => (ctx, st')) hnone)
      rw [StateT.run_bind, hscan']
      rfl
    · have hscan' := hscan.trans (congrArg (Option.map fun ctx => (ctx, st')) hvisit)
      rw [run_bind_of hscan']
      exact hnone _ _

/-- **The first rows are those of a full sort**, exactly when the memory that was asked for holds the
rows to be kept, and their indices can be computed. -/
theorem topk_agrees_iff (h : Stored st st.header.rowSize entries chain)
    (hread : Readable st.header (heapRows chain st.header.rowSize))
    (hcount : stmt.selectCount = false) (horder : stmt.hasOrderBy = true)
    (hlimit : stmt.hasLimit = true) (hpos : 1 ≤ stmt.limitCount)
    (hcol : findColumnIndex st.header.columns stmt.orderByField = some colIdx)
    (halloc : env.alloc stmt.limitCount = true) :
    let vs := matchingValues st.header stmt (heapRows chain st.header.rowSize)
    PrintsFirst st env stmt colIdx vs ↔
      min stmt.limitCount vs.length ≤ allocatedRows stmt.limitCount ∧
      min stmt.limitCount vs.length ≤ sortableRows := by
  intro vs
  obtain ⟨col, hget⟩ := findColumnIndex_getElem? hcol
  have hvs : ∀ v ∈ vs, HasColumn col.type colIdx v := hasColumn_matchingValues stmt hread hget
  cases hdesc : stmt.orderDesc with
  | false =>
    have hcmp := compareRowValues_asc hget
    rw [← hdesc] at hcmp
    obtain ⟨hok, hbad⟩ := topk_outcome h hread hcount horder hlimit hpos hcol halloc hcmp hvs
    constructor
    · rintro ⟨out, st', hrun, -⟩
      by_contra hmany
      rw [hbad hmany] at hrun
      cases hrun
    · intro hroom
      obtain ⟨out, st', hrun, hkeep, hsorted⟩ := hok hroom
      refine ⟨out, st', hrun, ?_, hkeep.subperm⟩
      rw [hdesc]
      exact hkeep.map_key_eq hsorted (sortedKeys_perm colIdx false vs) (sortedKeys_asc colIdx vs)
  | true =>
    have hcmp := compareRowValues_desc hget
    rw [← hdesc] at hcmp
    obtain ⟨hok, hbad⟩ := topk_outcome h hread hcount horder hlimit hpos hcol halloc hcmp hvs
    constructor
    · rintro ⟨out, st', hrun, -⟩
      by_contra hmany
      rw [hbad hmany] at hrun
      cases hrun
    · intro hroom
      obtain ⟨out, st', hrun, hkeep, hsorted⟩ := hok hroom
      refine ⟨out, st', hrun, ?_, hkeep.subperm⟩
      have hperm : ((sortedKeys colIdx true vs).map OrderDual.toDual).Perm
          (vs.map fun row => OrderDual.toDual (sortKey colIdx row)) := by
        have hmap := (sortedKeys_perm colIdx true vs).map OrderDual.toDual
        rwa [List.map_map] at hmap
      have hkeys := hkeep.map_key_eq hsorted hperm (sortedKeys_desc colIdx vs)
      rw [hdesc]
      apply List.map_injective_iff.mpr OrderDual.toDual.injective
      rw [List.map_map, List.map_take]
      exact hkeys

/-- The greater value of two, which the scan meets last. -/
theorem topk_agrees_iff_twoRowTable :
    let stmt : Statement :=
      { type := .select, tableName := cstr "t", hasOrderBy := true, orderByField := cstr "a"
        orderDesc := true, hasLimit := true, limitCount := 1 }
    PrintsFirst twoRowTable grantingEnv stmt 1 [[.bigint 1, .int 7], [.bigint 2, .int 9]] := by
  intro stmt
  obtain ⟨entries, chain, hinv, -⟩ := dbReach_twoRowTable.inv ⟨12, le_refl _, rfl⟩
  have hcol : findColumnIndex twoRowTable.header.columns stmt.orderByField = some 1 := by
    decide +kernel
  have hpos : 1 ≤ stmt.limitCount := by decide
  have hvs : matchingValues twoRowTable.header stmt (heapRows chain twoRowTable.header.rowSize) =
      [[.bigint 1, .int 7], [.bigint 2, .int 9]] := by
    rw [heapRows_twoRowTable hinv]
    decide +kernel
  have hiff := @topk_agrees_iff _ _ _ _ grantingEnv _ hinv.stored
    (hinv.readable (by decide +kernel)) rfl rfl rfl hpos hcol rfl
  rw [hvs] at hiff
  exact hiff.mpr (by decide)

/-- A LIMIT whose product with `MAX_COLUMNS` wraps to that of one row: the second of two rows is
written behind the buffer. -/
theorem not_topk_agrees :
    ∃ stmt : Statement, parse (cstr "SELECT * FROM t ORDER BY a LIMIT 268435457") = .ok stmt ∧
      stmt.limitCount = 268435457 ∧ allocatedRows 268435457 = 1 ∧ DbReach 4096 twoRowTable ∧
      (execute grantingEnv stmt).run twoRowTable = none := by
  have hparse : parse (cstr "SELECT * FROM t ORDER BY a LIMIT 268435457") = .ok
      { type := .select, tableName := cstr "t", selectAll := true, hasOrderBy := true
        orderByField := cstr "a", hasLimit := true, limitCount := 268435457 } := by
    decide +kernel
  exact ⟨_, hparse, rfl, rfl, dbReach_twoRowTable, by decide +kernel⟩

end OrderBy

end MiniDb
