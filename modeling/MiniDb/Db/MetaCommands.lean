import MiniDb.Db.InStep
import MiniDb.Db.Ownership
import MiniDb.Storage.Bptree.Debug

/-! # The meta commands

`.btree`, `.pages` and `.stats` of the shell. They read a database page by page and print what they
find; here they are held against what the database is. The printed texts are lists of the pieces that
the calls of `printf` put out. -/

set_option autoImplicit false

namespace MiniDb

open Lib

/-! ## The code -/

/-- `cmd_btree`. -/
def cmdBtree : PagerM (List String) := bptreePrint

/-- The counters of `cmd_pages`. -/
structure PageCounts where
  heap : Nat
  leaf : Nat
  internal : Nat
  free : Nat
  deriving DecidableEq, Repr

/-- The `switch` over the type of a page. -/
def PageCounts.add (counts : PageCounts) : Page → PageCounts
  | .heap _ => { counts with heap := counts.heap + 1 }
  | .leaf _ => { counts with leaf := counts.leaf + 1 }
  | .internal _ => { counts with internal := counts.internal + 1 }
  | .free _ => { counts with free := counts.free + 1 }
  | .zero => counts

/-- The body of the first loop of `cmd_pages`. -/
def countPage (counts : PageCounts) (pid : Nat) : PagerM PageCounts := do
  pagerGetPage pid
  let page ← readPage pid
  pagerUnpin pid
  return counts.add page

/-- The second loop of `cmd_pages`, along the free list, with the number of pages it may still
print. -/
def printFreeList : Nat → Nat → PagerM (List String)
  | 0, fp => return if fp ≠ 0 then [" ..."] else []
  | c + 1, fp => do
    if fp = 0 then
      return []
    else
      pagerGetPage fp
      match ← readPage fp with
      | .free nextFreePage =>
        pagerUnpin fp
        let rest ← printFreeList c nextFreePage
        return (" " ++ toString fp) :: (if nextFreePage ≠ 0 then [" ->"] else []) ++ rest
      | _ => failure

/-- The lines of `cmd_pages` before the free list. -/
def pageCountLines (nextPageId : Nat) (counts : PageCounts) : List String :=
  [ "전체 페이지: " ++ toString nextPageId ++ "\n",
    "  HEADER:   1\n",
    "  HEAP:     " ++ toString counts.heap ++ "\n",
    "  LEAF:     " ++ toString counts.leaf ++ "\n",
    "  INTERNAL: " ++ toString counts.internal ++ "\n",
    "  FREE:     " ++ toString counts.free ++ "\n" ]

/-- `cmd_pages`. -/
def cmdPages : PagerM (List String) := do
  let hdr := (← get).header
  let counts ← (List.range' 1 (hdr.nextPageId - 1)).foldlM countPage ⟨0, 0, 0, 0⟩
  let lines := pageCountLines hdr.nextPageId counts
  if hdr.freePageHead ≠ 0 then
    let pids ← printFreeList 20 hdr.freePageHead
    return lines ++ "빈 페이지 목록:" :: pids ++ ["\n"]
  else
    return lines

/-- The rows that fit a page, as `cmd_stats` estimates them. -/
def rowsPerPage (pageSize rowSize : Nat) : Nat :=
  (pageSize - heapHeaderSize) / (rowSize + slotSize)

/-- The lines of `cmd_stats`. -/
def statsLines (pageSize : Nat) (hdr : DbHeader) (height : Nat) : List String :=
  [ "행 수: " ++ toString hdr.rowCount ++ " (live)\n",
    "다음 ID: " ++ toString hdr.nextId ++ "\n",
    "페이지 크기: " ++ toString pageSize ++ "\n",
    "행 크기: " ++ toString hdr.rowSize ++ "\n" ] ++
  (if hdr.rowSize > 0 then
    ["페이지당 행 수: ~" ++ toString (rowsPerPage pageSize hdr.rowSize) ++ "\n"]
  else []) ++
  [ "전체 페이지: " ++ toString hdr.nextPageId ++ "\n",
    "B+ Tree 높이: " ++ toString height ++ "\n",
    "빈 페이지 헤드: " ++ toString hdr.freePageHead ++ "\n" ]

/-- `cmd_stats`. -/
def cmdStats : PagerM (List String) := do
  let st ← get
  let height ← bptreeHeight
  return statsLines st.pageSize st.header height

/-! ## Counting pages -/

/-- The page types of pages after the header. A page of zeros has none. -/
inductive PageType where
  | heap
  | leaf
  | internal
  | free
  deriving DecidableEq, Repr

def Page.type : Page → Option PageType
  | .heap _ => some .heap
  | .leaf _ => some .leaf
  | .internal _ => some .internal
  | .free _ => some .free
  | .zero => none

/-- The number of pages of one type among these. -/
def typeCount (g : Nat → Page) (t : PageType) (pids : List Nat) : Nat :=
  pids.countP fun p => (g p).type = some t

/-- The numbers of pages of each type. -/
def countsOf (g : Nat → Page) (pids : List Nat) : PageCounts :=
  ⟨typeCount g .heap pids, typeCount g .leaf pids, typeCount g .internal pids,
    typeCount g .free pids⟩

section Counting

variable {st : Pager} {g : Nat → Page} {pids pids' : List Nat} {counts : PageCounts} {head : Nat}

theorem foldl_add : pids.foldl (fun c p => c.add (g p)) counts =
    ⟨counts.heap + (countsOf g pids).heap, counts.leaf + (countsOf g pids).leaf,
      counts.internal + (countsOf g pids).internal, counts.free + (countsOf g pids).free⟩ := by
  induction pids generalizing counts with
  | nil => rfl
  | cons p pids ih =>
    rw [List.foldl_cons, ih]
    cases hp : g p <;>
      simp [PageCounts.add, countsOf, typeCount, Page.type, hp, Nat.add_assoc, Nat.add_comm 1]

/-- The first loop counts the pages. -/
theorem run_countPages (pids : List Nat) (counts : PageCounts) (hst : st.pages = g) :
    ∃ st', (pids.foldlM countPage counts).run st =
      some (pids.foldl (fun c p => c.add (g p)) counts, st') ∧ st.SameData st' := by
  induction pids generalizing counts st with
  | nil => exact ⟨st, rfl, .refl⟩
  | cons p pids ih =>
    have hpage : (countPage counts p).run st =
        some (counts.add (g p), (st.log (.get p)).log (.unpin p)) := by
      rw [← hst]
      rfl
    have hst₂ : ((st.log (.get p)).log (.unpin p)).pages = g := hst
    obtain ⟨st', hrun, hst'⟩ := ih (counts.add (g p)) hst₂
    refine ⟨st', ?_, (Pager.SameData.log.trans .log).trans hst'⟩
    rw [List.foldlM_cons, run_bind_of hpage, hrun, List.foldl_cons]

theorem countsOf_perm (h : pids.Perm pids') : countsOf g pids = countsOf g pids' := by
  simp only [countsOf, typeCount, h.countP_eq]

@[simp] theorem typeCount_append {t : PageType} :
    typeCount g t (pids ++ pids') = typeCount g t pids + typeCount g t pids' :=
  List.countP_append

/-- Among pages of one type there are no others. -/
theorem typeCount_of_type {t : PageType} (h : ∀ p ∈ pids, (g p).type = some t) (t' : PageType) :
    typeCount g t' pids = if t = t' then pids.length else 0 := by
  by_cases ht : t = t'
  · rw [if_pos ht]
    exact List.countP_eq_length.mpr fun p hp => by simp [h p hp, ht]
  · rw [if_neg ht]
    exact List.countP_eq_zero.mpr fun p hp => by simp [h p hp, ht]

/-! ## The free list -/

/-- The free list as `cmd_pages` prints it, with the number of pages that it prints at most. -/
def freeListText : Nat → List Nat → List String
  | _, [] => []
  | 0, _ :: _ => [" ..."]
  | c + 1, p :: ps => (" " ++ toString p) :: (if ps ≠ [] then [" ->"] else []) ++ freeListText c ps

theorem run_printFreeList {free : List Nat} {c : Nat} (hst : st.pages = g)
    (h : FreeChain g head free) :
    ∃ st', (printFreeList c head).run st = some (freeListText c free, st') ∧ st.SameData st' := by
  induction free generalizing head c st with
  | nil =>
    obtain rfl : head = 0 := h
    refine ⟨st, ?_, .refl⟩
    cases c <;> rfl
  | cons p ps ih =>
    obtain ⟨rfl, hp, next, hpage, hrest⟩ := h
    cases c with
    | zero =>
      refine ⟨st, ?_, .refl⟩
      rw [printFreeList, if_pos hp]
      rfl
    | succ c =>
      have hst₂ : ((st.log (.get head)).log (.unpin head)).pages = g := hst
      obtain ⟨st', hrun, hst'⟩ := ih (c := c) hst₂ hrest
      refine ⟨st', ?_, (Pager.SameData.log.trans .log).trans hst'⟩
      rw [printFreeList, if_neg hp, run_bind_of run_pagerGetPage, run_bind_of run_readPage,
        Pager.log_pages, hst, hpage]
      simp only
      rw [run_bind_of run_pagerUnpin, run_bind_of hrun, freeListText]
      simp only [ne_eq, hrest.head_eq_zero]
      rfl

end Counting

/-! ## What the commands show -/

/-- The pages of a file, by type. -/
structure Census (st : Pager) (heap leaves inner free : List Nat) : Prop where
  owned : PagesOwned st heap free
  mem_leaves : ∀ p, p ∈ leaves ↔ st.InIndex p ∧ (st.pages p).IsLeaf
  mem_inner : ∀ p, p ∈ inner ↔ st.InIndex p ∧ ¬ (st.pages p).IsLeaf
  nodup : (leaves ++ inner).Nodup
  total : 1 + heap.length + leaves.length + inner.length + free.length = st.header.nextPageId

section Commands

variable {st : Pager} {rowSize pageSize : Nat} {free : List Nat} {leaves : List LeafNode}
  {rows : List Row} {chain : HeapChain}

theorem TreeInv.type_leaf (h : TreeInv st free leaves rows) :
    ∀ p ∈ leaves.map LeafNode.pid, (st.pages p).type = some .leaf := by
  intro p hp
  obtain ⟨n, hn, rfl⟩ := List.mem_map.mp hp
  rw [(h.leafOn n hn).eq]
  rfl

theorem TreeInv.type_internal (h : TreeInv st free leaves rows) :
    ∀ p ∈ rowsPids rows, (st.pages p).type = some .internal := by
  intro p hp
  obtain ⟨row, hrow, hin⟩ := List.mem_flatMap.mp hp
  obtain ⟨n, hn, rfl⟩ := List.mem_map.mp hin
  obtain ⟨pre, rest, rfl⟩ := List.append_of_mem hrow
  obtain ⟨hs', hrowOk, -⟩ := Upper.drop h.upper
  rw [(hrowOk.on n hn).eq]
  rfl

theorem length_liveRows_le {pid i : Nat} {read : Nat → List UInt8} {slots : List Slot} :
    (liveRows pid read i slots).length ≤ slots.length := by
  induction slots generalizing i with
  | nil => exact le_rfl
  | cons s slots ih =>
    rw [liveRows]
    split
    · exact Nat.succ_le_succ ih
    · exact Nat.le_succ_of_le ih

/-- A heap has no more rows than its pages have slots. -/
theorem length_heapRows_le {most : Nat} (h : ∀ n ∈ chain, n.2.slots.length ≤ most) :
    (heapRows chain rowSize).length ≤ chain.length * most := by
  induction chain with
  | nil => simp
  | cons n chain ih =>
    have hrest := ih fun m hm => h m (List.mem_cons_of_mem _ hm)
    have hn : (n.2.rows n.1 rowSize).length ≤ most :=
      Nat.le_trans length_liveRows_le (h n List.mem_cons_self)
    rw [heapRows_cons, List.length_append, List.length_cons, Nat.add_mul, Nat.one_mul]
    omega

/-- The counters of `cmd_pages` at the end of its loop. -/
theorem StoredAt.counts (h : StoredAt st rowSize free leaves rows chain) :
    countsOf st.pages (List.range' 1 (st.header.nextPageId - 1)) =
      ⟨chain.pids.length, leaves.length, (rowsPids rows).length, free.length⟩ := by
  have hheap : ∀ p ∈ chain.pids, (st.pages p).type = some .heap := by
    intro p hp
    obtain ⟨n, hn, rfl⟩ := List.mem_map.mp hp
    rw [h.heap.pages n hn]
    rfl
  have hfree : ∀ p ∈ free, (st.pages p).type = some .free := by
    intro p hp
    obtain ⟨next, hpage⟩ := h.tree.freeList.chain.page hp
    rw [hpage]
    rfl
  rw [countsOf_perm h.perm_pages, treePids]
  simp [countsOf, typeCount_of_type hheap, typeCount_of_type h.tree.type_leaf,
    typeCount_of_type h.tree.type_internal, typeCount_of_type hfree]

theorem TreeInv.isLeaf_iff (h : TreeInv st free leaves rows) {p : Nat} :
    p ∈ leaves.map LeafNode.pid ↔ st.InIndex p ∧ (st.pages p).IsLeaf := by
  have hindex : st.InIndex p ↔ p ∈ treePids leaves rows := h.mem_treePids_iff.symm
  rw [hindex]
  constructor
  · intro hp
    refine ⟨List.mem_append_left _ hp, ?_⟩
    obtain ⟨n, hn, rfl⟩ := List.mem_map.mp hp
    rw [(h.leafOn n hn).eq]
    trivial
  · intro hp
    obtain ⟨hp, hleaf⟩ := hp
    rcases List.mem_append.mp hp with hp | hp
    · exact hp
    · have htype := h.type_internal p hp
      cases hpage : st.pages p with
      | leaf l => simp [Page.type, hpage] at htype
      | _ => rw [hpage] at hleaf; exact hleaf.elim

theorem TreeInv.isInner_iff (h : TreeInv st free leaves rows) {p : Nat} :
    p ∈ rowsPids rows ↔ st.InIndex p ∧ ¬ (st.pages p).IsLeaf := by
  have hindex : st.InIndex p ↔ p ∈ treePids leaves rows := h.mem_treePids_iff.symm
  constructor
  · intro hp
    refine ⟨hindex.mpr (List.mem_append_right _ hp), fun hleaf => ?_⟩
    have htype := h.type_internal p hp
    cases hpage : st.pages p with
    | internal i => rw [hpage] at hleaf; exact hleaf.elim
    | _ => simp [Page.type, hpage] at htype
  · intro hp
    rcases List.mem_append.mp (hindex.mp hp.1) with hp' | hp'
    · exact absurd (h.isLeaf_iff.mp hp').2 hp.2
    · exact hp'

theorem StoredAt.census (h : StoredAt st rowSize free leaves rows chain) :
    Census st chain.pids (leaves.map LeafNode.pid) (rowsPids rows) free where
  owned := h.pagesOwned
  mem_leaves _ := h.tree.isLeaf_iff
  mem_inner _ := h.tree.isInner_iff
  nodup := h.tree.nodup
  total := by
    have hlen := h.perm_pages.length_eq
    rw [List.length_range', List.length_append, List.length_append, treePids,
      List.length_append] at hlen
    have hpos := h.tree.freeList.pos
    omega

/-- **`.btree` shows the index.** In every database that SQL texts lead to, the lines are the pages of
the index in preorder, each once and at its depth; the leaves are all at the depth that
`bptree_height` counts; and their keys, read from top to bottom, are the ids of the rows in
increasing order. -/
theorem cmdBtree_shows (hps : IsPageSize pageSize) (h : DbReach pageSize st) :
    ∃ entries nodes height, (∃ st', allEntries.run st = some (entries, st')) ∧
      (entries.map Prod.fst).Pairwise (· < ·) ∧
      ShowsIndex st nodes height (entries.map Prod.fst) ∧
      (∃ st', cmdBtree.run st =
        some (("B+ Tree (root: page " ++ toString st.header.rootIndexPageId ++ ")\n") ::
          nodes.map (lineOf st.pages), st') ∧ st.SameData st') ∧
      ∃ st', bptreeHeight.run st = some (height, st') ∧ st.SameData st' := by
  obtain ⟨entries, chain, hinv, -⟩ := h.inv hps
  have hsorted := hinv.stored.sorted
  have hentries := run_allEntries hinv.stored
  obtain ⟨free, leaves, rows, hat, rfl⟩ := hinv.stored
  exact ⟨_, _, _, hentries, List.pairwise_map.mpr hsorted, hat.tree.showsIndex,
    hat.tree.run_bptreePrint, hat.tree.run_bptreeHeight⟩

/-- **`.pages` counts every page.** In every database that SQL texts lead to, the four numbers are the
lengths of the heap, of the leaves and the internal pages of the index and of the free list, which
together with the header page are the whole file; and the list printed is the free list, up to 20
pages of it. -/
theorem cmdPages_census (hps : IsPageSize pageSize) (h : DbReach pageSize st) :
    ∃ heap leaves inner free st', Census st heap leaves inner free ∧
      cmdPages.run st = some (pageCountLines st.header.nextPageId
          ⟨heap.length, leaves.length, inner.length, free.length⟩ ++
        (if free = [] then [] else "빈 페이지 목록:" :: freeListText 20 free ++ ["\n"]), st') ∧
      st.SameData st' := by
  obtain ⟨entries, chain, hinv, -⟩ := h.inv hps
  obtain ⟨free, leaves, rows, hat, -⟩ := hinv.stored
  obtain ⟨st₁, hcount, hst₁⟩ := run_countPages (g := st.pages)
    (List.range' 1 (st.header.nextPageId - 1)) ⟨0, 0, 0, 0⟩ rfl
  rw [foldl_add, hat.counts] at hcount
  simp only [Nat.zero_add] at hcount
  have hfree := hat.tree.freeList.chain
  have hhead := hfree.head_eq_zero
  by_cases hnil : free = []
  · refine ⟨_, _, _, _, st₁, hat.census, ?_, hst₁⟩
    rw [cmdPages, run_bind_get, run_bind_of hcount, if_pos hnil, List.length_map]
    simp only [hhead.mpr hnil, ne_eq, not_true_eq_false, if_false, List.append_nil]
    rfl
  · obtain ⟨st₂, hlist, hst₂⟩ := run_printFreeList (c := 20) hst₁.pages hfree
    refine ⟨_, _, _, _, st₂, hat.census, ?_, hst₁.trans hst₂⟩
    rw [cmdPages, run_bind_get, run_bind_of hcount, if_neg hnil, List.length_map]
    simp only [ne_eq, mt hhead.mp hnil, not_false_eq_true, if_true]
    rw [run_bind_of hlist, ← List.append_assoc]
    rfl

/-- **`.stats` is true.** In every database that SQL texts lead to, the row count is the number of
rows that a scan finds and of keys in the index, every key is below the next id, no heap page has
more slots than the printed number of rows per page, so the heap has no more rows than that on each
of its pages, and an index of the printed height has the entries that this height takes. -/
theorem cmdStats_true (hps : IsPageSize pageSize) (h : DbReach pageSize st) :
    ∃ entries rows heap height, (∃ st', allEntries.run st = some (entries, st')) ∧
      (∃ st', allRows.run st = some (rows, st')) ∧ st.HeapWalk heap ∧
      (∃ st', cmdStats.run st = some (statsLines pageSize st.header height, st') ∧
        st.SameData st') ∧
      st.header.rowCount = rows.length ∧ st.header.rowCount = entries.length ∧
      (∀ e ∈ entries, e.1 < st.header.nextId) ∧
      (∀ p ∈ heap, ∃ hph, st.pages p = .heap hph ∧
        hph.slots.length ≤ rowsPerPage pageSize st.header.rowSize) ∧
      rows.length ≤ heap.length * rowsPerPage pageSize st.header.rowSize ∧
      (2 ≤ height → 2 * minLeafKeys pageSize * (minInternalKeys pageSize + 1) ^ (height - 2) ≤
        st.header.rowCount) := by
  obtain ⟨entries, chain, hinv, rfl⟩ := h.inv hps
  have hentries := run_allEntries hinv.stored
  have hrows := run_allRows hinv.stored
  have hcount := hinv.rowCount
  have hkeys := hinv.keys
  have hlen := hinv.refs.length_eq
  rw [List.length_map, List.length_map] at hlen
  obtain ⟨free, leaves, rows, hat, rfl⟩ := hinv.stored
  obtain ⟨st', hheight, hst'⟩ := hat.tree.run_bptreeHeight
  have hslots : ∀ n ∈ chain, n.2.slots.length ≤ rowsPerPage st.pageSize st.header.rowSize := by
    intro n hn
    obtain ⟨slots, hlay⟩ := hat.heap.layout n hn
    have hfits := hlay.fits
    rw [rowsPerPage, Nat.le_div_iff_mul_le (by simp [slotSize]), Nat.mul_add]
    omega
  refine ⟨_, _, _, rows.length + 1, hentries, hrows, ⟨chain, hat.heap.links, hat.heap.pages, rfl⟩,
    ⟨st', ?_, hst'⟩, hcount.trans hlen, hcount, fun e he => (hkeys e he).2, ?_, ?_, ?_⟩
  · rw [cmdStats, run_bind_get, run_bind_of hheight]
    rfl
  · intro p hp
    obtain ⟨n, hn, rfl⟩ := List.mem_map.mp hp
    exact ⟨n.2, hat.heap.pages n hn, hslots n hn⟩
  · rw [HeapChain.pids, List.length_map]
    exact length_heapRows_le hslots
  · intro hheight
    have hne : rows ≠ [] := by
      rintro rfl
      exact absurd hheight (by decide)
    rw [hcount, show rows.length + 1 - 2 = rows.length - 1 by omega]
    exact hat.tree.length_entries_ge hne

end Commands

theorem cmdBtree_shows_sparseTable :
    ∃ st entries nodes height, SparseTable st ∧
      (∃ st', allEntries.run st = some (entries, st')) ∧
      (entries.map Prod.fst).Pairwise (· < ·) ∧
      ShowsIndex st nodes height (entries.map Prod.fst) ∧
      (∃ st', cmdBtree.run st =
        some (("B+ Tree (root: page " ++ toString st.header.rootIndexPageId ++ ")\n") ::
          nodes.map (lineOf st.pages), st') ∧ st.SameData st') ∧
      ∃ st', bptreeHeight.run st = some (height, st') ∧ st.SameData st' := by
  obtain ⟨st, hst⟩ := exists_sparseTable
  obtain ⟨entries, nodes, height, hshows⟩ := cmdBtree_shows ⟨12, le_refl _, rfl⟩ hst.reach
  exact ⟨st, entries, nodes, height, hst, hshows⟩

theorem cmdPages_census_sparseTable :
    ∃ st heap leaves inner free st', SparseTable st ∧ inner ≠ [] ∧ free ≠ [] ∧
      Census st heap leaves inner free ∧
      cmdPages.run st = some (pageCountLines st.header.nextPageId
          ⟨heap.length, leaves.length, inner.length, free.length⟩ ++
        (if free = [] then [] else "빈 페이지 목록:" :: freeListText 20 free ++ ["\n"]), st') ∧
      st.SameData st' := by
  obtain ⟨st, hst⟩ := exists_sparseTable
  obtain ⟨heap, leaves, inner, free, st', hcensus, hrun⟩ :=
    cmdPages_census ⟨12, le_refl _, rfl⟩ hst.reach
  obtain ⟨i, hroot⟩ := hst.internal
  have hinner : st.header.rootIndexPageId ∈ inner := by
    rw [hcensus.mem_inner, hroot]
    exact ⟨⟨0, .here⟩, id⟩
  exact ⟨st, heap, leaves, inner, free, st', hst, List.ne_nil_of_mem hinner,
    hcensus.owned.free_ne_nil hst, hcensus, hrun⟩

theorem cmdStats_true_sparseTable :
    ∃ st entries rows heap height, SparseTable st ∧
      (∃ st', allEntries.run st = some (entries, st')) ∧
      (∃ st', allRows.run st = some (rows, st')) ∧ st.HeapWalk heap ∧
      (∃ st', cmdStats.run st = some (statsLines 4096 st.header height, st') ∧
        st.SameData st') ∧
      st.header.rowCount = rows.length ∧ st.header.rowCount = entries.length ∧
      (∀ e ∈ entries, e.1 < st.header.nextId) ∧
      (∀ p ∈ heap, ∃ hph, st.pages p = .heap hph ∧
        hph.slots.length ≤ rowsPerPage 4096 st.header.rowSize) ∧
      rows.length ≤ heap.length * rowsPerPage 4096 st.header.rowSize ∧
      (2 ≤ height → 2 * minLeafKeys 4096 * (minInternalKeys 4096 + 1) ^ (height - 2) ≤
        st.header.rowCount) := by
  obtain ⟨st, hst⟩ := exists_sparseTable
  obtain ⟨entries, rows, heap, height, hstats⟩ := cmdStats_true ⟨12, le_refl _, rfl⟩ hst.reach
  exact ⟨st, entries, rows, heap, height, hst, hstats⟩

end MiniDb
