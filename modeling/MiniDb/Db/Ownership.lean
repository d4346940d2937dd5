import MiniDb.Db.ScanDml

/-! # Who owns a page

A file has three owners of pages: the heap, the index and the free list. What a reader finds who
follows the links of each from the header. -/

set_option autoImplicit false

namespace MiniDb

open Lib

/-- Following `next_heap_page_id` from the first heap page visits these pages and ends at 0. -/
def Pager.HeapWalk (st : Pager) (pids : List Nat) : Prop :=
  ∃ chain : HeapChain, HeapLinks st.header.firstHeapPageId chain ∧
    (∀ n ∈ chain, st.pages n.1 = .heap n.2) ∧ chain.pids = pids

/-- The page is reached from the root of the index along child pointers. -/
def Pager.InIndex (st : Pager) (p : Nat) : Prop :=
  ∃ d, Below st.pages st.header.rootIndexPageId d p

/-- Of three statements, one holds. -/
def ExactlyOne (a b c : Prop) : Prop := (a ∧ ¬ b ∧ ¬ c) ∨ (¬ a ∧ b ∧ ¬ c) ∨ (¬ a ∧ ¬ b ∧ c)

/-- The pages of the file, divided. -/
structure PagesOwned (st : Pager) (heap free : List Nat) : Prop where
  heapWalk : st.HeapWalk heap
  heap_acyclic : heap.Nodup
  heap_last : heap.getLast? = some st.lastHeapPageId
  freeWalk : FreeChain st.pages st.header.freePageHead free
  free_acyclic : free.Nodup
  free_type : ∀ p ∈ free, ∃ next, st.pages p = .free next
  owner : ∀ p, 1 ≤ p → p < st.header.nextPageId → ExactlyOne (p ∈ heap) (st.InIndex p) (p ∈ free)

section Ownership

variable {st : Pager} {rowSize pageSize : Nat} {free : List Nat} {leaves : List LeafNode}
  {rows : List Row} {chain : HeapChain}

theorem StoredAt.pagesOwned (h : StoredAt st rowSize free leaves rows chain) :
    PagesOwned st chain.pids free := by
  have hfree := h.tree.freeList
  refine ⟨⟨chain, h.heap.links, h.heap.pages, rfl⟩, h.heap.nodup, h.heap.last, hfree.chain,
    hfree.nodup, fun p hp => hfree.chain.page hp, fun p hpos hlt => ?_⟩
  have hindex : st.InIndex p ↔ p ∈ treePids leaves rows := h.tree.mem_treePids_iff.symm
  rw [ExactlyOne, hindex]
  by_cases hp : p ∈ free
  · -- a free page is not held, so neither structure has it
    refine .inr (.inr ⟨fun hheap => ?_, fun htree => ?_, hp⟩)
    · exact (h.heap.held p hheap).not_mem hp
    · exact (h.tree.held p htree).not_mem hp
  · rcases h.owned p ⟨Nat.pos_iff_ne_zero.mp hpos, hlt, hp⟩ with htree | hheap
    · exact .inr (.inl ⟨h.disjoint p htree, htree, hp⟩)
    · exact .inl ⟨hheap, fun htree => h.disjoint p htree hheap, hp⟩

/-- **No page is leaked or shared.** In every database that SQL texts lead to, each page of the file
is in the heap, in the index or on the free list, and in one of them only. -/
theorem dbReach_pagesOwned (hps : IsPageSize pageSize) (h : DbReach pageSize st) :
    ∃ heap free, PagesOwned st heap free := by
  obtain ⟨entries, chain, hinv, -⟩ := h.inv hps
  obtain ⟨free, leaves, rows, hat, -⟩ := hinv.stored
  exact ⟨chain.pids, free, hat.pagesOwned⟩

end Ownership

/-! ## A table with an internal node and with free pages -/

/-- A table of a thousand rows whose index has an internal node, in a file with free pages. -/
structure SparseTable (st : Pager) : Prop where
  reach : DbReach 4096 st
  rowCount : st.header.rowCount = 1000
  internal : ∃ i, st.pages st.header.rootIndexPageId = .internal i
  freePages : st.header.freePageHead ≠ 0

/-- `DELETE FROM t WHERE id > 1000`. -/
def deleteAbove : Statement :=
  { type := .delete, tableName := cstr "t", predicateKind := .idRange, predField := cstr "id"
    predOp := .gt, predValue := cstr "1000", rangeLo := 1000, hasLo := true }

theorem matchIdRange_deleteAbove {id : Nat} (hid : id ≤ 10000) :
    matchIdRange (toI64 id) deleteAbove = decide (1000 < id) := by
  have hid' : toI64 id = id := by
    show (id : Int).bmod (2 ^ 64) = id
    simp only [Int.bmod_def]
    omega
  have hlo : toI64 1000 = 1000 := by decide
  simp only [matchIdRange, deleteAbove, hid', hlo]
  simp
  rw [← decide_not, decide_eq_decide, Nat.not_lt]

section Sparse

variable {st st' : Pager} {free free' : List Nat} {leaves leaves' : List LeafNode}
  {rows rows' : List Row} {chain chain' : HeapChain}

/-- Of ten thousand rows it deletes nine thousand. -/
theorem IntRows.length_deleteAbove (h : IntRows 10000 st free leaves rows chain) :
    (matchingRows st.header deleteAbove (heapRows chain st.header.rowSize)).length = 9000 := by
  have hsplit : List.range' 1 10000 = List.range' 1 1000 ++ List.range' (1 + 1000) 9000 :=
    (@List.range'_append_1 1 1000 9000).symm
  rw [h.length_matchingRows rfl, hsplit, List.filter_append, List.length_append,
    List.filter_eq_nil_iff.mpr, List.filter_eq_self.mpr, List.length_range', List.length_nil]
  · intro id hid
    have hbounds := List.mem_range'_1.mp hid
    rw [matchIdRange_deleteAbove (by omega)]
    exact decide_eq_true (by omega)
  · intro id hid
    have hbounds := List.mem_range'_1.mp hid
    rw [matchIdRange_deleteAbove (by omega)]
    simpa using by omega

theorem TreeInv.root_internal (h : TreeInv st free leaves rows) (hne : rows ≠ []) :
    ∃ i, st.pages st.header.rootIndexPageId = .internal i := by
  rcases h.below_cases .here with ⟨hzero, -⟩ | ⟨pre, row, rest, n, hrows, hn, hroot, -⟩
  · exact absurd (List.length_eq_zero_iff.mp hzero.symm) hne
  · have hin : row ∈ rows := by simp [hrows]
    obtain ⟨par, hpage⟩ := h.upper.on_mem row hin n hn
    exact ⟨_, hroot ▸ hpage⟩

/-- With the nine thousand rows the index gives pages back. -/
theorem IntRows.free_ne_nil (h : IntRows 10000 st free leaves rows chain)
    (hat : StoredAt st' st'.header.rowSize free' leaves' rows' chain') (hps : st'.pageSize = 4096)
    (hkept : HeapKept st chain st' chain') (hleft : (treeEntries leaves').length = 1000) :
    free' ≠ [] := by
  rintro rfl
  have hbefore := h.stored.nextPageId_eq
  have hafter := hat.nextPageId_eq
  have hleaves := h.stored.tree.length_entries_le h.pageSize
  have htree := hat.tree.length_treePids_le hps
  have hkeeps := hkept.nextPageId_le
  rw [h.entries] at hleaves
  rw [hleft] at htree
  rw [hkept.length, List.length_nil] at hafter
  rw [treePids, List.length_append, List.length_map] at hbefore
  omega

theorem exists_sparseTable : ∃ st, SparseTable st := by
  obtain ⟨st, free, leaves, rows, chain, h⟩ := @exists_intRows 10000 (by decide)
  have hparse : parse (cstr "DELETE FROM t WHERE id > 1000") = .ok deleteAbove := by
    decide +kernel
  have hle : ∀ c ∈ st.header.columns, c.type = .varchar → c.size ≤ 255 :=
    fun c hc ht => (h.varcharUsable c hc ht).2
  have hgrants : grantingEnv.Grants := ⟨fun _ => rfl, fun _ _ => rfl⟩
  have hmatch := h.length_deleteAbove
  obtain ⟨res, st', hrun, hstatus, hres⟩ | ⟨-, hmany⟩ :=
    h.inv.run_deleteScan hle grantingEnv deleteAbove
  case inr =>
    rw [hmatch] at hmany
    exact absurd hmany (by decide)
  have hreach : DbReach 4096 st' := by
    have hexec : (dbExecute grantingEnv (cstr "DELETE FROM t WHERE id > 1000")).run st =
        some (res, st') := by
      rw [dbExecute_of_parse hparse]
      exact hrun
    exact h.reach.run hexec
  rcases hres with ⟨hfailed, -⟩ | ⟨-, -, entries', chain', hinv', hkept, hrows⟩
  · rw [hstatus hgrants] at hfailed
    cases hfailed
  obtain ⟨free', leaves', rows', hat', rfl⟩ := hinv'.stored
  obtain ⟨-, -, -, hps'⟩ := hreach.inv ⟨12, le_refl _, rfl⟩
  -- as many entries are left as rows
  have hleft : (treeEntries leaves').length = 1000 := by
    have hrefs := hinv'.refs.length_eq
    have hall := h.inv.refs.length_eq
    have hsplit := List.length_eq_length_filter_add (l := heapRows chain st.header.rowSize)
      fun e => rowMatches st.header deleteAbove e.2
    rw [List.length_map, List.length_map] at hrefs hall
    rw [hrefs, hrows]
    rw [matchingRows] at hmatch
    have hentries := h.entries
    omega
  have hne := hat'.tree.rows_ne_nil_of_many hps' (by omega)
  have hfree := h.free_ne_nil hat' hps' hkept hleft
  exact ⟨st', hreach, hinv'.rowCount.trans hleft, hat'.tree.root_internal hne,
    mt hat'.tree.freeList.chain.head_eq_zero.mp hfree⟩

end Sparse

theorem PagesOwned.free_ne_nil {st : Pager} {heap free : List Nat} (h : PagesOwned st heap free)
    (hst : SparseTable st) : free ≠ [] :=
  mt h.freeWalk.head_eq_zero.mpr hst.freePages

/-- The pages of a table that rows have been deleted from. -/
theorem dbReach_pagesOwned_sparseTable :
    ∃ st heap free, SparseTable st ∧ st.InIndex st.header.rootIndexPageId ∧ free ≠ [] ∧
      PagesOwned st heap free := by
  obtain ⟨st, hst⟩ := exists_sparseTable
  obtain ⟨heap, free, howned⟩ := dbReach_pagesOwned ⟨12, le_refl _, rfl⟩ hst.reach
  exact ⟨st, heap, free, hst, ⟨0, .here⟩, howned.free_ne_nil hst, howned⟩

end MiniDb
