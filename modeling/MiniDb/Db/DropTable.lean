import MiniDb.Db.Statements
import MiniDb.Storage.Bptree.Structure

/-! # DROP TABLE

`exec_drop_table` walks over all page ids of the file and frees the pages that are not marked free,
without following a single link. In a database this frees the pages of the index and of the heap and
no other; two fresh ones then take their place. -/

set_option autoImplicit false

namespace MiniDb

open Lib

/-! ## Freeing what is not free -/

/-- The pages `pids` have been released. -/
structure Released (st : Pager) (free pids : List Nat) (st' : Pager) (free' : List Nat) : Prop where
  freeList : st'.FreeList free'
  held : ∀ p, st'.Held free' p ↔ st.Held free p ∧ p ∉ pids
  pageSize : st'.pageSize = st.pageSize
  header : st'.header = { st.header with freePageHead := st'.header.freePageHead }

section FreePages

variable {st : Pager} {free pids : List Nat}

/-- The loop looks at a page, unpins it and goes on. -/
theorem run_freePages_cons (p : Nat) (ps : List Nat) (st : Pager) :
    (freePages (p :: ps)).run st =
      (match st.pages p with
        | .free _ => freePages ps
        | _ => do
          pagerFreePage p
          freePages ps).run ((st.log (.get p)).log (.unpin p)) :=
  rfl

/-- Where only the pages of the free list are marked free, all others are freed. -/
theorem freePages_spec (hfree : st.FreeList free) (hnd : pids.Nodup)
    (hreal : ∀ p ∈ pids, p ≠ 0 ∧ p < st.header.nextPageId)
    (hheld : ∀ p ∈ pids, p ∉ free → ∀ next, st.pages p ≠ .free next) :
    ∃ st' free', (freePages pids).run st = some ((), st') ∧ Released st free pids st' free' := by
  induction pids generalizing st free with
  | nil => exact ⟨st, free, rfl, hfree, fun p => by simp, rfl, rfl⟩
  | cons p ps ih =>
    obtain ⟨hnot, hnd⟩ := List.nodup_cons.mp hnd
    set st₁ := (st.log (.get p)).log (.unpin p) with hst₁
    have hfree₁ : st₁.FreeList free := hfree.congr (fun _ _ => rfl) rfl rfl
    by_cases hp : p ∈ free
    · -- the page is marked free, and left alone
      obtain ⟨next, hpage⟩ := hfree.chain.page hp
      obtain ⟨st', free', hrun, hrel⟩ := ih hfree₁ hnd
        (fun q hq => hreal q (List.mem_cons_of_mem _ hq))
        (fun q hq => hheld q (List.mem_cons_of_mem _ hq))
      refine ⟨st', free', ?_, hrel.freeList, fun q => ?_, hrel.pageSize, hrel.header⟩
      · rw [run_freePages_cons, hpage]
        exact hrun
      · rw [hrel.held, List.mem_cons, not_or]
        constructor
        · rintro ⟨hq, hqs⟩
          exact ⟨hq, fun heq => hq.not_mem (heq ▸ hp), hqs⟩
        · rintro ⟨hq, -, hqs⟩
          exact ⟨hq, hqs⟩
    · obtain ⟨hne, hlt⟩ := hreal p List.mem_cons_self
      have hheld₁ : st₁.Held free p := ⟨hne, hlt, hp⟩
      obtain ⟨st₂, hrun₂, hfreed⟩ := pagerFreePage_spec hfree₁ hheld₁
      have hnext : st₂.header.nextPageId = st.header.nextPageId := by
        rw [hfreed.header]
        rfl
      obtain ⟨st', free', hrun, hrel⟩ := ih hfreed.freeList hnd
        (fun q hq => hnext ▸ hreal q (List.mem_cons_of_mem _ hq)) (fun q hq hqfree => by
          rw [hfreed.pages q fun heq => hnot (heq ▸ hq)]
          exact hheld q (List.mem_cons_of_mem _ hq) fun hin =>
            hqfree (List.mem_cons_of_mem _ hin))
      refine ⟨st', free', ?_, hrel.freeList, fun q => ?_, hrel.pageSize.trans hfreed.pageSize, ?_⟩
      · rw [run_freePages_cons]
        have hnotfree := hheld p List.mem_cons_self hp
        split
        · rename_i next hpage
          exact absurd hpage (hnotfree next)
        · rw [StateT.run_bind, hrun₂]
          exact hrun
      · rw [hrel.held, hfreed.held, List.mem_cons, not_or, and_assoc]
        exact Iff.rfl
      · rw [hrel.header, hfreed.header]
        rfl

end FreePages

/-! ## A fresh table -/

section Fresh

variable {st st' : Pager} {free : List Nat}

/-- A fresh page with contents. -/
theorem allocPageWith_spec {pid : Nat} (h : st.FreeList free) {page : Nat → Page}
    (hrun : (allocPageWith page).run st = some (pid, st')) :
    ∃ free', st'.FreeList free' ∧
      ¬ st.Held free pid ∧ (∀ p, st'.Held free' p ↔ st.Held free p ∨ p = pid) ∧
      st'.pages = Function.update st.pages pid (page st.pageSize) ∧ st'.pageSize = st.pageSize ∧
      st'.header = { st.header with
        freePageHead := st'.header.freePageHead, nextPageId := st'.header.nextPageId } := by
  obtain ⟨pid, st₁, hfirst, hrest⟩ := run_bind_eq_some.mp hrun
  obtain ⟨pid', st₁', free', halloc, hal⟩ | ⟨-, hnone⟩ := pagerAllocPage_spec h
  case inr =>
    rw [hnone] at hfirst
    cases hfirst
  obtain ⟨rfl, rfl⟩ := eq_of_run hfirst halloc
  simp only [StateT.run_bind, Option.bind_eq_bind, Option.bind_some,
    run_pagerGetPage, StateT.run_get, Option.pure_def, Pager.log_pageSize, run_writePage,
    run_pagerMarkDirty, run_pagerUnpin, StateT.run_pure, Option.some.injEq, Prod.mk.injEq] at hrest
  obtain ⟨rfl, rfl⟩ := hrest
  refine ⟨free', ?_, hal.not_held, hal.held, ?_, hal.pageSize, hal.header⟩
  · refine hal.freeList.congr (fun p hp => ?_) rfl rfl
    have hne : p ≠ pid := by
      rintro rfl
      exact ((hal.held p).mpr (.inr rfl)).not_mem hp
    simp only [Pager.log_pages, Pager.setPage_pages, Function.update_of_ne hne]
  · simp only [Pager.log_pages, Pager.setPage_pages, hal.pages, hal.pageSize,
      Function.update_idem]

/-- An empty leaf as root is an empty tree. -/
theorem treeInv_leaf {root : Nat} (hps : 4096 ≤ st.pageSize) (hfree : st.FreeList free)
    (hpage : st.pages root = emptyLeafPage) (hroot : st.header.rootIndexPageId = root)
    (hheld : st.Held free root) : TreeInv st free [⟨0, root, []⟩] [] where
  pageSize := hps
  freeList := hfree
  upper := ⟨by rw [hroot]; rfl, by rw [hroot, hpage]; rfl⟩
  occupied := trivial
  leafOn := by
    intro n hn
    obtain rfl := List.mem_singleton.mp hn
    exact ⟨0, 0, 0, hpage⟩
  chain := by simp [DoublyLinked, Link, hpage, emptyLeafPage, Page.nextLeaf, Page.prevLeaf]
  order := leafOrder_singleton (by simp) (by simp) (by simp) (by simp)
  nodup := by simp [treePids]
  held := by
    intro p hp
    obtain rfl : p = root := by simpa [treePids] using hp
    exact hheld
  leafOcc := by simp [minEntries]

/-- The two pages of a file without rows. -/
structure FreshTable (st : Pager) (free : List Nat) (heap root : Nat) : Prop where
  pageSize : IsPageSize st.pageSize
  freeList : st.FreeList free
  heapPage : st.pages heap = emptyHeapPage st.pageSize
  rootPage : st.pages root = emptyLeafPage
  firstHeapPageId : st.header.firstHeapPageId = heap
  lastHeapPageId : st.lastHeapPageId = heap
  rootIndexPageId : st.header.rootIndexPageId = root
  ne : root ≠ heap
  held : ∀ p, st.Held free p ↔ p = heap ∨ p = root

theorem FreshTable.stored {heap root : Nat} (h : FreshTable st free heap root) (rowSize : Nat) :
    Stored st rowSize [] (blankChain heap st.pageSize) := by
  have hps := h.pageSize.le
  have htree := treeInv_leaf hps h.freeList h.rootPage h.rootIndexPageId ((h.held root).mpr (.inr rfl))
  refine ⟨free, [⟨0, root, []⟩], [], ⟨htree, ?_, ?_, ?_⟩, rfl⟩
  · constructor
    · exact h.freeList
    · intro n hn
      obtain rfl := List.mem_singleton.mp hn
      exact h.heapPage
    · exact ⟨h.firstHeapPageId, rfl⟩
    · exact congrArg some h.lastHeapPageId.symm
    · simp [blankChain]
    · intro p hp
      obtain rfl := List.mem_singleton.mp hp
      exact (h.held p).mpr (.inl rfl)
    · intro n hn
      obtain rfl := List.mem_singleton.mp hn
      exact ⟨[], layout_empty 0 (by simp only [heapHeaderSize]; omega) rowSize⟩
    · intro _ n hn
      obtain rfl := List.mem_singleton.mp hn
      rfl
  · intro p hp
    obtain rfl : p = root := by simpa [treePids] using hp
    simpa [blankChain] using h.ne
  · intro p hp
    rcases (h.held p).mp hp with rfl | rfl
    · exact .inr (by simp [blankChain])
    · exact .inl (by simp [treePids])

/-- A file with two such pages and without a schema is a database. -/
theorem FreshTable.inv {heap root : Nat} (h : FreshTable st free heap root)
    (hcols : st.header.columns = []) (hsize : st.header.rowSize = 0)
    (hcount : st.header.rowCount = 0) (hnext : st.header.nextId = 1) :
    DbInv st [] (blankChain heap st.pageSize) where
  pageSize := h.pageSize
  stored := h.stored _
  refs := by simp
  keys := nofun
  nextId_pos := by rw [hnext]
  nextId_lt := by
    rw [hnext]
    decide
  rowCount := hcount
  rowSize := by
    rw [hsize]
    decide
  room := .inr ⟨heap, rfl⟩
  noTable := fun _ => ⟨heap, rfl⟩
  idFirst := fun hne => absurd hcols hne
  schema := fun _ => by
    refine ⟨?_, ?_, ?_⟩
    · rw [hcols]
      nofun
    · rw [hcols]
      trivial
    · rw [hcols, hsize]
      rfl
  sizes := nofun
  contents := nofun

/-- The file that `pager_open` creates. -/
theorem dbInv_create {pageSize : Nat} (h : IsPageSize pageSize) :
    DbInv (pagerOpenCreate pageSize) [] (blankChain 1 pageSize) := by
  have hfresh : FreshTable (pagerOpenCreate pageSize) [] 1 2 := by
    refine ⟨h, ⟨rfl, List.nodup_nil, nofun, Nat.succ_pos _⟩, rfl, rfl, rfl, rfl, rfl, by decide, ?_⟩
    intro p
    simp only [Pager.Held, pagerOpenCreate, List.not_mem_nil, not_false_eq_true, and_true]
    omega
  exact hfresh.inv rfl rfl rfl rfl

end Fresh

/-! ## The statement -/

section Drop

variable {st st' : Pager} {free : List Nat} {leaves : List LeafNode} {rows : List Row}
  {chain : HeapChain} {rowSize : Nat} {entries : List (Nat × RowRef)} {stmt : Statement}
  {res : ExecResult}

/-- A page of the index or of the heap is not marked free. -/
theorem StoredAt.not_free (h : StoredAt st rowSize free leaves rows chain) {p : Nat}
    (hp : st.Held free p) (next : Nat) : st.pages p ≠ .free next := by
  intro hpage
  rcases h.owned p hp with hin | hin
  · have htree := h.tree.isTree hin
    rw [hpage] at htree
    exact htree
  · obtain ⟨n, hn, rfl⟩ := List.mem_map.mp hin
    have := h.heap.pages n hn
    rw [hpage] at this
    cases this

/-- Freeing all ids of the file leaves no page held. -/
theorem StoredAt.freePages (h : StoredAt st rowSize free leaves rows chain) :
    ∃ st' free', (freePages (List.range' 1 (st.header.nextPageId - 1))).run st = some ((), st') ∧
      st'.FreeList free' ∧ (∀ p, ¬ st'.Held free' p) ∧ st'.pageSize = st.pageSize := by
  have hpos := h.tree.freeList.pos
  have hmem : ∀ p, p ∈ List.range' 1 (st.header.nextPageId - 1) ↔
      p ≠ 0 ∧ p < st.header.nextPageId := by
    intro p
    rw [List.mem_range'_1]
    omega
  obtain ⟨st', free', hrun, hrel⟩ := freePages_spec h.tree.freeList List.nodup_range'
    (fun p hp => (hmem p).mp hp)
    (fun p hp hnot => h.not_free ⟨((hmem p).mp hp).1, ((hmem p).mp hp).2, hnot⟩)
  refine ⟨st', free', hrun, hrel.freeList, fun p hp => ?_, hrel.pageSize⟩
  obtain ⟨hheld, hnot⟩ := (hrel.held p).mp hp
  exact hnot ((hmem p).mpr ⟨hheld.1, hheld.2.1⟩)

/-- **DROP TABLE.** Of the file of a table a database without a table is left. -/
theorem execDropTable_step (h : DbInv st entries chain)
    (hrun : (execDropTable stmt).run st = some (res, st')) : DbStep st res st' := by
  rw [execDropTable, run_bind_get] at hrun
  dsimp only at hrun
  split at hrun
  · obtain ⟨rfl, rfl⟩ := run_pure_eq_some.mp hrun
    exact h.stepOnlyIds (Pager.SameData.refl.onlyIds h.nextId_lt)
  obtain ⟨free, leaves, rows, hat, -⟩ := h.stored
  obtain ⟨st₁, free₁, hfreed, hfree₁, hnone, hps₁⟩ := hat.freePages
  rw [run_bind_of hfreed] at hrun
  obtain ⟨heap, st₂, hheap, hrun⟩ := run_bind_eq_some.mp hrun
  obtain ⟨root, st₃, hroot, hrun⟩ := run_bind_eq_some.mp hrun
  obtain ⟨free₂, hfree₂, -, hheld₂, hpages₂, hps₂, -⟩ := allocPageWith_spec hfree₁ hheap
  obtain ⟨free₃, hfree₃, hnew, hheld₃, hpages₃, hps₃, -⟩ := allocPageWith_spec hfree₂ hroot
  obtain ⟨u, st₄, hmod, hdone⟩ := run_bind_eq_some.mp hrun
  obtain rfl := run_modify_eq_some.mp hmod
  obtain ⟨rfl, rfl⟩ := run_pure_eq_some.mp hdone
  have hne : root ≠ heap := by
    rintro rfl
    exact hnew ((hheld₂ root).mpr (.inr rfl))
  have hpages : ∀ p page, p = heap ∧ page = emptyHeapPage st₃.pageSize ∨
      p = root ∧ page = emptyLeafPage → st₃.pages p = page := by
    rintro p page (⟨rfl, rfl⟩ | ⟨rfl, rfl⟩)
    · rw [hpages₃, Function.update_of_ne hne.symm, hpages₂, Function.update_self, hps₃, hps₂]
    · rw [hpages₃, Function.update_self]
  have hps : st₃.pageSize = st.pageSize := hps₃.trans (hps₂.trans hps₁)
  have hfresh : FreshTable { st₃ with
      header := { st₃.header with
        columns := []
        rowSize := 0
        rowCount := 0
        nextId := 1
        firstHeapPageId := heap
        rootIndexPageId := root }
      lastHeapPageId := heap
      heapMayHaveFreeSlots := false } free₃ heap root := by
    constructor
    · exact hps ▸ h.pageSize
    · exact hfree₃.congr (fun _ _ => rfl) rfl rfl
    · exact hpages heap _ (.inl ⟨rfl, rfl⟩)
    · exact hpages root _ (.inr ⟨rfl, rfl⟩)
    · rfl
    · rfl
    · rfl
    · exact hne
    · intro p
      show st₃.Held free₃ p ↔ p = heap ∨ p = root
      rw [hheld₃, hheld₂, or_iff_right (hnone p)]
  exact ⟨⟨[], blankChain heap st₃.pageSize, hfresh.inv rfl rfl rfl rfl⟩, hps, nofun⟩

end Drop

end MiniDb
