import MiniDb.Db.Reach

/-! # Heap, index and counters in step

What a reader finds who lists the index with a range scan without bounds and the heap with a scan. -/

set_option autoImplicit false

namespace MiniDb

open Lib

/-- All entries of the index, in key order. -/
def allEntries : PagerM (List (Nat × RowRef)) :=
  bptreeRangeScan ⟨false, 0, false, false, 0, false⟩ (fun key ref es => (true, es ++ [(key, ref)])) []

/-- All rows of the heap, as a scan visits them. -/
def allRows : PagerM (List (RowRef × List UInt8)) := do
  heapScan (fun _ _ => true) (← get).header.rowSize
    (fun row ref rows => (true, rows ++ [(ref, row)])) []

/-- The index has one entry for each row, the row has the entry's key as its id, every key is an id
that has been given out, and the row count is the number of rows. -/
structure InStep (st : Pager) (entries : List (Nat × RowRef)) (rows : List (RowRef × List UInt8)) :
    Prop where
  entries_run : ∃ st', allEntries.run st = some (entries, st')
  rows_run : ∃ st', allRows.run st = some (rows, st')
  keys_nodup : (entries.map Prod.fst).Nodup
  places_nodup : (rows.map Prod.fst).Nodup
  bijection : (entries.map Prod.snd).Perm (rows.map Prod.fst)
  keys : ∀ e ∈ entries, 1 ≤ e.1 ∧ e.1 < st.header.nextId
  ids : ∀ key ref row, (key, ref) ∈ entries → (ref, row) ∈ rows →
    ∃ values, rowDeserialize st.header row = some (.bigint (toI64 key) :: values)
  rowCount : st.header.rowCount = rows.length

section InStep

variable {st : Pager} {entries : List (Nat × RowRef)} {chain : HeapChain} {pageSize : Nat}

theorem foldl_snoc {α : Type} (l acc : List α) : l.foldl (fun acc a => acc ++ [a]) acc = acc ++ l := by
  induction l generalizing acc with
  | nil => simp
  | cons a l ih => rw [List.foldl_cons, ih, List.append_assoc, List.singleton_append]

theorem run_allEntries {rowSize : Nat} (h : Stored st rowSize entries chain) :
    ∃ st', allEntries.run st = some (entries, st') := by
  obtain ⟨st', hrun, -⟩ := h.run_rangeScan ⟨false, 0, false, false, 0, false⟩
    (fun key ref es => (true, es ++ [(key, ref)])) []
  refine ⟨st', hrun.trans ?_⟩
  have hall : entries.filter (KeyRange.Contains ⟨false, 0, false, false, 0, false⟩ ·.1) = entries :=
    List.filter_eq_self.mpr fun e _ => decide_eq_true ⟨nofun, nofun⟩
  have hvisit := visit_foldl (fun es e => es ++ [e]) entries []
  rw [hall, show RangeCallback.onEntry (fun key ref es => (true, es ++ [(key, ref)])) =
    fun e es => (true, es ++ [e]) from rfl, hvisit, foldl_snoc, List.nil_append]

theorem run_allRows (h : Stored st st.header.rowSize entries chain) :
    ∃ st', allRows.run st = some (heapRows chain st.header.rowSize, st') := by
  obtain ⟨st', hrun, -⟩ :=
    h.run_scan (fun _ _ => true) (fun row ref rows => (true, rows ++ [(ref, row)])) []
  have hvisit := visit_foldl (fun rows e => rows ++ [e]) (heapRows chain st.header.rowSize) []
  refine ⟨st', ?_⟩
  rw [allRows, run_bind_get, hrun,
    show ScanCallback.onRow (fun row ref rows => (true, rows ++ [(ref, row)])) =
      fun e rows => (true, rows ++ [e]) from rfl, hvisit, foldl_snoc, List.nil_append]

/-- The row of an id is read back with the id in front. -/
theorem IsRowOf.deserialize {hdr : DbHeader} {id : Nat} {row : List UInt8} (hs : SoundSchema hdr)
    (h : IsRowOf hdr.columns id row) :
    ∃ values, rowDeserialize hdr row = some (.bigint (toI64 id) :: values) := by
  obtain ⟨values, hwt, rfl⟩ := h
  rw [hs.rowDeserialize hwt]
  cases hcols : hdr.columns with
  | nil =>
    rw [hcols] at hwt
    cases hwt
  | cons c cols => exact ⟨_, congrArg some storedRow_id⟩

theorem DbInv.inStep (h : DbInv st entries chain) (hv : VarcharUsable st.header.columns) :
    InStep st entries (heapRows chain st.header.rowSize) where
  entries_run := run_allEntries h.stored
  rows_run := run_allRows h.stored
  keys_nodup := List.pairwise_map.mpr (h.stored.sorted.imp fun hlt => ne_of_lt hlt)
  places_nodup := h.stored.refs_nodup
  bijection := h.refs
  keys := h.keys
  ids key ref row hentry hrow :=
    (h.contents (h.schema hv) key ref row hentry hrow).deserialize (h.schema hv)
  rowCount := by
    have hlen := h.refs.length_eq
    rw [List.length_map, List.length_map] at hlen
    rw [h.rowCount, hlen]

/-- **Heap, index and counters stay in step.** In every database that SQL texts lead to and whose
VARCHAR columns have sizes between 1 and 255; so a COUNT without condition is the number of rows of
the heap, and no INSERT finds its key taken. -/
theorem dbReach_inStep (hps : IsPageSize pageSize) (h : DbReach pageSize st)
    (hv : VarcharUsable st.header.columns) :
    ∃ entries rows, InStep st entries rows ∧
      (∀ env stmt, stmt.selectCount = true → stmt.predicateKind = .none →
        (execTableScan env stmt).run st =
          some (.printed (.counted rows.length) (.count rows.length), st)) ∧
      ∀ env stmt res st', (execInsert env stmt).run st = some (res, st') →
        res.message ≠ .duplicateKey := by
  obtain ⟨entries, chain, hinv, -⟩ := h.inv hps
  have hstep := hinv.inStep hv
  refine ⟨entries, _, hstep, ?_, ?_⟩
  · intro env stmt hcount hnone
    rw [execTableScan, run_bind_get, ← hstep.rowCount]
    simp only [hcount, hnone, if_true]
    rfl
  · intro env stmt res st' hrun
    exact (execInsert_step hinv hrun).2

end InStep

/-- The rows of the table with two rows. -/
theorem heapRows_twoRowTable {entries : List (Nat × RowRef)} {chain : HeapChain}
    (h : DbInv twoRowTable entries chain) : heapRows chain twoRowTable.header.rowSize =
      [(⟨1, 0⟩, [1, 0, 0, 0, 0, 0, 0, 0, 7, 0, 0, 0]),
        (⟨1, 1⟩, [2, 0, 0, 0, 0, 0, 0, 0, 9, 0, 0, 0])] := by
  have hrows : (allRows.run twoRowTable).map Prod.fst =
      some [(⟨1, 0⟩, [1, 0, 0, 0, 0, 0, 0, 0, 7, 0, 0, 0]),
        (⟨1, 1⟩, [2, 0, 0, 0, 0, 0, 0, 0, 9, 0, 0, 0])] := by
    decide +kernel
  obtain ⟨st', hrun⟩ := run_allRows h.stored
  rw [hrun] at hrows
  exact Option.some.inj hrows

theorem dbReach_inStep_twoRowTable :
    ∃ entries rows, rows.length = 2 ∧ InStep twoRowTable entries rows ∧
      (∀ env stmt, stmt.selectCount = true → stmt.predicateKind = .none →
        (execTableScan env stmt).run twoRowTable =
          some (.printed (.counted rows.length) (.count rows.length), twoRowTable)) ∧
      ∀ env stmt res st', (execInsert env stmt).run twoRowTable = some (res, st') →
        res.message ≠ .duplicateKey := by
  have hv : VarcharUsable twoRowTable.header.columns := by
    unfold VarcharUsable
    decide +kernel
  have hcount : twoRowTable.header.rowCount = 2 := by
    decide +kernel
  obtain ⟨entries, rows, hstep, hscan, hinsert⟩ :=
    dbReach_inStep ⟨12, le_refl _, rfl⟩ dbReach_twoRowTable hv
  exact ⟨entries, rows, hstep.rowCount.symm.trans hcount, hstep, hscan, hinsert⟩

end MiniDb
