import MiniDb.Db.Ownership

/-! # When an insertion returns

Nothing between the parser and `heap_insert` looks at the row size of a schema. In the states that
SQL texts lead to, an insertion comes back exactly when a row of that size, with its slot and the
page header, is no larger than a page. -/

set_option autoImplicit false

namespace MiniDb

open Lib

/-- The insertion of the row returns, and has added at most one page to the heap. -/
def InsertReturns (st : Pager) (row : List UInt8) : Prop :=
  ∃ rounds ref st' heap heap', (heapInsert rounds row).run st = some (ref, st') ∧
    st.HeapWalk heap ∧ st'.HeapWalk heap' ∧ heap'.length ≤ heap.length + 1

section InsertReturns

variable {st : Pager} {entries : List (Nat × RowRef)} {chain : HeapChain} {pageSize : Nat}
  {row : List UInt8}

theorem HeapInv.heapWalk {free : List Nat} {rowSize : Nat} (h : HeapInv st free rowSize chain) :
    st.HeapWalk chain.pids :=
  ⟨chain, h.links, h.pages, rfl⟩

/-- A row that fits is inserted in the first round, on an old page or a new one. -/
theorem DbInv.insertReturns (h : DbInv st entries chain)
    (hfit : RowFits st.pageSize st.header.rowSize) (hrow : row.length = st.header.rowSize)
    (hids : st.header.nextPageId + 1 < pageIdCount) : InsertReturns st row := by
  obtain ⟨free, leaves, rows, hat, -⟩ := h.stored
  obtain ⟨ref, st', free', chain', l, r, hrun, hinv, hstep, -⟩ | ⟨hfull, -⟩ :=
    heapInsert_spec hat.heap hfit hrow 0
  case inr => exact absurd (Nat.lt_add_right free.length hids) hfull
  refine ⟨1, ref, st', chain.pids, chain'.pids, hrun, hat.heap.heapWalk, hinv.heapWalk, ?_⟩
  obtain ⟨new, hpids, hlen, -⟩ := hstep.pids
  rw [hpids, List.length_append]
  omega

/-- **An insertion returns if the row fits, and only then**, as long as there are page ids. -/
theorem insertReturns_iff (hps : pageSize = 4096 ∨ pageSize = 16384) (h : DbReach pageSize st)
    (hrow : row.length = st.header.rowSize) :
    (InsertReturns st row → 24 + st.header.rowSize ≤ pageSize) ∧
    (st.header.nextPageId + 1 < pageIdCount →
      (InsertReturns st row ↔ 24 + st.header.rowSize ≤ pageSize)) := by
  have hpage : IsPageSize pageSize := by
    rcases hps with rfl | rfl
    · exact ⟨12, le_refl _, rfl⟩
    · exact ⟨14, by decide, rfl⟩
  obtain ⟨entries, chain, hinv, rfl⟩ := h.inv hpage
  have hfits : InsertReturns st row → 24 + st.header.rowSize ≤ st.pageSize := by
    rintro ⟨rounds, ref, st', -, -, hrun, -⟩
    have hfits := (hinv.rowFits_of_insert hrow hrun).fits
    simpa only [heapHeaderSize, slotSize] using hfits
  refine ⟨hfits, fun hids => ⟨hfits, fun hle => hinv.insertReturns ⟨?_, ?_⟩ hrow hids⟩⟩
  · simpa only [heapHeaderSize, slotSize] using hle
  · rcases hps with heq | heq <;> rw [heq] <;> decide

end InsertReturns

theorem insertReturns_iff_intTable :
    InsertReturns intTable (List.replicate 12 0) ↔ 24 + intTable.header.rowSize ≤ 4096 :=
  (insertReturns_iff (.inl rfl) dbReach_intTable rfl).2 (by decide +kernel)

/-- A schema with rows of 5008 bytes is accepted, and no row of it can be inserted. -/
theorem not_insertReturns_varchar_5000 :
    ∃ stmt res st, parse (cstr "CREATE TABLE t (a VARCHAR(5000))") = .ok stmt ∧
      (execCreateTable stmt).run (pagerOpenCreate 4096) = some (res, st) ∧ res.status = 0 ∧
      DbReach 4096 st ∧ ∀ row, row.length = st.header.rowSize → ¬ InsertReturns st row := by
  let stmt : Statement := { tableName := cstr "t", colDefs := [⟨cstr "a", .varchar, 5000⟩] }
  let st := (pagerOpenCreate 4096).setHeader (stmt.installed (pagerOpenCreate 4096).header)
  have hparse : parse (cstr "CREATE TABLE t (a VARCHAR(5000))") = .ok stmt := by
    decide +kernel
  have hreach : DbReach 4096 st := by
    have hrun : (dbExecute grantingEnv (cstr "CREATE TABLE t (a VARCHAR(5000))")).run
        (pagerOpenCreate 4096) = some (.done (.tableCreated (cstr "t") 5008 2), st) := by
      rw [dbExecute_of_parse hparse]
      rfl
    exact DbReach.start.run hrun
  refine ⟨stmt, .done (.tableCreated (cstr "t") 5008 2), st, hparse, rfl, rfl, hreach, ?_⟩
  rintro row hrow ⟨rounds, ref, st', -, -, hrun, -⟩
  obtain ⟨entries, chain, hinv, -⟩ := hreach.inv ⟨12, le_refl _, rfl⟩
  have hfits := (hinv.rowFits_of_insert hrow hrun).fits
  have hsize : st.header.rowSize = 5008 := by decide +kernel
  rw [hsize] at hfits
  exact absurd hfits (by decide)

end MiniDb
