import MiniDb.Sql.Executor.Basic
import MiniDb.Storage.Heap.Refinement
import MiniDb.Storage.Heap.Scan
import MiniDb.Storage.ReadOnly

/-! # The index and the heap in one file

The B+ tree and the heap take their pages from one free list. Each keeps to its own pages, so what
one operation says about its structure holds next to the other one; and together they have every
page that is not free. -/

set_option autoImplicit false

namespace MiniDb

open Lib

/-! ## Frames -/

section Frame

variable {st st' : Pager} {free free' : List Nat} {leaves : List LeafNode} {rows : List Row}
  {chain : HeapChain} {rowSize : Nat}

/-- The tree stays where its pages and its root do. -/
theorem TreeInv.frame (h : TreeInv st free leaves rows) (hfree : st'.FreeList free')
    (hpages : ∀ p ∈ treePids leaves rows, st'.pages p = st.pages p)
    (hheld : ∀ p ∈ treePids leaves rows, st'.Held free' p) (hps : st'.pageSize = st.pageSize)
    (hroot : st'.header.rootIndexPageId = st.header.rootIndexPageId) :
    TreeInv st' free' leaves rows := by
  have hleaf : ∀ p ∈ leaves.map LeafNode.pid, st'.pages p = st.pages p :=
    fun p hp => hpages p (List.mem_append_left _ hp)
  have hrow : ∀ p ∈ rowsPids rows, st'.pages p = st.pages p :=
    fun p hp => hpages p (List.mem_append_right _ hp)
  refine ⟨⟨hps ▸ h.pageSize, hfree, ?_, hps ▸ h.occupied, ?_, ?_, h.order, h.nodup, hheld⟩,
    hps ▸ h.leafOcc⟩
  · rw [hroot]
    apply h.upper.congr
    · intro p hp
      rw [hrow p hp]
      exact .refl
    · intro p hp
      rw [map_snd_leaf_head] at hp
      rw [hpages p hp]
  · intro n hn
    rw [hleaf n.pid (List.mem_map_of_mem hn)]
    exact h.leafOn n hn
  · apply h.chain.congr
    · intro p hp
      rw [hleaf p hp]
    · intro p hp
      rw [hleaf p hp]

/-- The heap stays where its pages and its ends do. -/
theorem HeapInv.frame (h : HeapInv st free rowSize chain) (hfree : st'.FreeList free')
    (hpages : ∀ p ∈ chain.pids, st'.pages p = st.pages p)
    (hheld : ∀ p ∈ chain.pids, st'.Held free' p) (hps : st'.pageSize = st.pageSize)
    (hfirst : st'.header.firstHeapPageId = st.header.firstHeapPageId)
    (hlast : st'.lastHeapPageId = st.lastHeapPageId)
    (hhint : st'.heapMayHaveFreeSlots = st.heapMayHaveFreeSlots) :
    HeapInv st' free' rowSize chain where
  freeList := hfree
  pages n hn := (hpages n.1 (HeapChain.mem_pids hn)).trans (h.pages n hn)
  links := by rw [hfirst]; exact h.links
  last := by rw [hlast]; exact h.last
  nodup := h.nodup
  held := hheld
  layout := by rw [hps]; exact h.layout
  hint := by rw [hhint]; exact h.hint

end Frame

/-! ## Two structures, one file -/

/-- What the header says about the table, and the page size, stay; no id of a page is given back. -/
structure Pager.SameTable (st st' : Pager) : Prop where
  pageSize : st'.pageSize = st.pageSize
  nextPageId_le : st.header.nextPageId ≤ st'.header.nextPageId
  columns : st'.header.columns = st.header.columns
  rowSize : st'.header.rowSize = st.header.rowSize
  nextId : st'.header.nextId = st.header.nextId
  rowCount : st'.header.rowCount = st.header.rowCount

/-- Everything but the table's part of the header and the trace. -/
structure Pager.SamePages (st st' : Pager) : Prop where
  pageSize : st'.pageSize = st.pageSize
  pages : st'.pages = st.pages
  lastHeapPageId : st'.lastHeapPageId = st.lastHeapPageId
  heapMayHaveFreeSlots : st'.heapMayHaveFreeSlots = st.heapMayHaveFreeSlots
  firstHeapPageId : st'.header.firstHeapPageId = st.header.firstHeapPageId
  rootIndexPageId : st'.header.rootIndexPageId = st.header.rootIndexPageId
  nextPageId : st'.header.nextPageId = st.header.nextPageId
  freePageHead : st'.header.freePageHead = st.header.freePageHead

/-- The pages of the file are divided among the tree, the heap and the free list. -/
structure StoredAt (st : Pager) (rowSize : Nat) (free : List Nat) (leaves : List LeafNode)
    (rows : List Row) (chain : HeapChain) : Prop where
  tree : TreeInv st free leaves rows
  heap : HeapInv st free rowSize chain
  disjoint : ∀ p ∈ treePids leaves rows, p ∉ chain.pids
  owned : ∀ p, st.Held free p → p ∈ treePids leaves rows ∨ p ∈ chain.pids

/-- The file holds an index with these entries and a heap with these pages, and nothing else. -/
def Stored (st : Pager) (rowSize : Nat) (entries : List (Nat × RowRef)) (chain : HeapChain) : Prop :=
  ∃ free leaves rows, StoredAt st rowSize free leaves rows chain ∧ treeEntries leaves = entries

section Stored

variable {st st' : Pager} {rowSize : Nat} {free free' : List Nat} {leaves leaves' : List LeafNode}
  {rows rows' : List Row} {chain chain' : HeapChain} {entries : List (Nat × RowRef)} {key : Nat}
  {ref : RowRef} {row : List UInt8}

theorem Pager.SameTable.trans {st'' : Pager} (h : st.SameTable st') (h' : st'.SameTable st'') :
    st.SameTable st'' where
  pageSize := h'.pageSize.trans h.pageSize
  nextPageId_le := h.nextPageId_le.trans h'.nextPageId_le
  columns := h'.columns.trans h.columns
  rowSize := h'.rowSize.trans h.rowSize
  nextId := h'.nextId.trans h.nextId
  rowCount := h'.rowCount.trans h.rowCount

theorem Pager.SameData.sameTable (h : st.SameData st') : st.SameTable st' := by
  obtain ⟨t, rfl⟩ := h
  exact ⟨rfl, le_refl _, rfl, rfl, rfl, rfl⟩

theorem Pager.SameData.samePages (h : st.SameData st') : st.SamePages st' := by
  obtain ⟨t, rfl⟩ := h
  exact ⟨rfl, rfl, rfl, rfl, rfl, rfl, rfl, rfl⟩

theorem StoredAt.samePages (h : StoredAt st rowSize free leaves rows chain)
    (hs : st.SamePages st') : StoredAt st' rowSize free leaves rows chain := by
  have hfree := h.tree.freeList.congr (fun p _ => congrFun hs.pages p) hs.freePageHead
    hs.nextPageId
  have hheld : ∀ p, st'.Held free p ↔ st.Held free p := fun p => Pager.Held.congr hs.nextPageId
  refine ⟨?_, ?_, h.disjoint, fun p hp => h.owned p ((hheld p).mp hp)⟩
  · exact h.tree.frame hfree (fun p _ => congrFun hs.pages p)
      (fun p hp => (hheld p).mpr (h.tree.held p hp)) hs.pageSize hs.rootIndexPageId
  · exact h.heap.frame hfree (fun p _ => congrFun hs.pages p)
      (fun p hp => (hheld p).mpr (h.heap.held p hp)) hs.pageSize hs.firstHeapPageId
      hs.lastHeapPageId hs.heapMayHaveFreeSlots

theorem Stored.samePages (h : Stored st rowSize entries chain) (hs : st.SamePages st') :
    Stored st' rowSize entries chain := by
  obtain ⟨free, leaves, rows, hat, rfl⟩ := h
  exact ⟨free, leaves, rows, hat.samePages hs, rfl⟩

theorem Stored.sameData (h : Stored st rowSize entries chain) (hs : st.SameData st') :
    Stored st' rowSize entries chain :=
  h.samePages hs.samePages

/-- A step of the tree next to the heap. -/
theorem StoredAt.treeStep (h : StoredAt st rowSize free leaves rows chain)
    (hs : TreeStep st free leaves rows st' free' leaves' rows')
    (hinv : TreeInv st' free' leaves' rows') : StoredAt st' rowSize free' leaves' rows' chain := by
  have hout : ∀ p ∈ chain.pids, p ∉ treePids leaves rows := fun p hp hp' => h.disjoint p hp' hp
  have hheader := hs.sameMeta.header
  constructor
  · exact hinv
  · apply h.heap.frame hinv.freeList
    · exact fun p hp => hs.frame p (h.heap.held p hp) (hout p hp)
    · exact fun p hp => (hs.held p).mpr (.inl ⟨h.heap.held p hp, hout p hp⟩)
    · exact hs.sameMeta.pageSize
    · rw [hheader]
    · exact hs.sameMeta.lastHeapPageId
    · exact hs.sameMeta.heapMayHaveFreeSlots
  · intro p hp hp'
    -- a page of the new tree is one of the old tree or was free before
    rcases hs.fresh p hp with hold | hnew
    · exact h.disjoint p hold hp'
    · exact hnew (h.heap.held p hp')
  · intro p hp
    rcases (hs.held p).mp hp with ⟨hheld, hout'⟩ | hnew
    · exact .inr ((h.owned p hheld).resolve_left hout')
    · exact .inl hnew

/-- A step of the heap next to the tree. -/
theorem StoredAt.heapStep (h : StoredAt st rowSize free leaves rows chain)
    (hs : HeapStep st free chain st' free' chain') (hinv : HeapInv st' free' rowSize chain') :
    StoredAt st' rowSize free' leaves rows chain' := by
  obtain ⟨new, hpids, -, hnew⟩ := hs.pids
  have hout : ∀ p ∈ treePids leaves rows, p ∉ chain'.pids := by
    intro p hp hp'
    rw [hpids] at hp'
    rcases List.mem_append.mp hp' with hold | hfresh
    · exact h.disjoint p hp hold
    · exact hnew p hfresh (h.tree.held p hp)
  constructor
  · apply h.tree.frame hinv.freeList
    · exact fun p hp => hs.pages p (hout p hp)
    · exact fun p hp => (hs.held p).mpr (.inl (h.tree.held p hp))
    · exact hs.pageSize
    · rw [hs.header]
  · exact hinv
  · exact hout
  · intro p hp
    rcases (hs.held p).mp hp with hheld | hin
    · refine (h.owned p hheld).imp_right fun hin => ?_
      rw [hpids]
      exact List.mem_append_left _ hin
    · exact .inr hin

theorem TreeStep.sameTable (hs : TreeStep st free leaves rows st' free' leaves' rows') :
    st.SameTable st' := by
  have hheader := hs.sameMeta.header
  constructor
  · exact hs.sameMeta.pageSize
  · exact hs.sameMeta.nextPageId_le
  all_goals rw [hheader]

theorem HeapStep.sameTable (hs : HeapStep st free chain st' free' chain') : st.SameTable st' := by
  have hheader := hs.header
  constructor
  · exact hs.pageSize
  · exact hs.nextPageId_le
  all_goals rw [hheader]

/-- The references of the heap's rows are distinct. -/
theorem Stored.refs_nodup (h : Stored st rowSize entries chain) :
    ((heapRows chain rowSize).map Prod.fst).Nodup := by
  obtain ⟨free, leaves, rows, hat, -⟩ := h
  exact heapRows_nodup hat.heap.nodup

/-- The entries are in key order. -/
theorem Stored.sorted (h : Stored st rowSize entries chain) :
    entries.Pairwise fun x y => x.1 < y.1 := by
  obtain ⟨free, leaves, rows, hat, rfl⟩ := h
  exact hat.tree.order.entries_sorted

/-! ## Operations of the index -/

/-! What an operation needs to have an outcome. -/

theorem Stored.exists_search (h : Stored st rowSize entries chain) (key : Nat) :
    ∃ res st', (bptreeSearch key).run st = some (res, st') := by
  obtain ⟨free, leaves, rows, hat, -⟩ := h
  obtain ⟨res, st', hrun, -⟩ := bptreeSearch_spec hat.tree key
  exact ⟨res, st', hrun⟩

theorem Stored.exists_deleteKey (h : Stored st rowSize entries chain)
    (hmem : (key, ref) ∈ entries) : ∃ rc st', (bptreeDelete key).run st = some (rc, st') := by
  obtain ⟨free, leaves, rows, hat, rfl⟩ := h
  obtain ⟨st', -, -, -, -, -, hrun, -⟩ := bptreeDelete_present hat.tree hmem
  exact ⟨0, st', hrun⟩

theorem Stored.exists_deleteRow (h : Stored st rowSize entries chain)
    (hplace : chain.IsPlace ref) : ∃ rc st', (heapDelete ref).run st = some (rc, st') := by
  obtain ⟨free, leaves, rows, hat, -⟩ := h
  obtain ⟨hph, s, hslot⟩ := hplace.exists_isSlot
  rcases heapDelete_spec hat.heap hslot with ⟨-, st', -, -, -, hrun, -⟩ | ⟨-, st', hrun, -⟩
  · exact ⟨0, st', hrun⟩
  · exact ⟨-1, st', hrun⟩

theorem Stored.exists_fetchRow (h : Stored st rowSize entries chain)
    (hplace : chain.IsPlace ref) :
    ∃ res st', (heapFetch ref rowSize).run st = some (res, st') := by
  obtain ⟨free, leaves, rows, hat, -⟩ := h
  obtain ⟨hph, s, hslot⟩ := hplace.exists_isSlot
  obtain ⟨st', hrun, -⟩ := heapFetch_spec hat.heap hslot
  exact ⟨_, st', hrun⟩

/-- A run that is known has the outcome that it is specified to have. -/
theorem eq_of_run {α : Type} {m : PagerM α} {a b : α} {st st' st'' : Pager}
    (h : m.run st = some (a, st')) (h' : m.run st = some (b, st'')) : a = b ∧ st' = st'' :=
  Prod.mk.inj (Option.some.inj (h.symm.trans h'))

theorem Stored.search {res : Option RowRef} (h : Stored st rowSize entries chain)
    (hrun : (bptreeSearch key).run st = some (res, st')) :
    st.SameData st' ∧ ∀ ref, res = some ref ↔ (key, ref) ∈ entries := by
  obtain ⟨free, leaves, rows, hat, rfl⟩ := h
  obtain ⟨res', st'', hrun', hsame, hres⟩ := bptreeSearch_spec hat.tree key
  obtain ⟨rfl, rfl⟩ := eq_of_run hrun' hrun
  exact ⟨hsame, hres⟩

/-- The insertion of a new key. -/
theorem Stored.insertKey {rc : Int} (h : Stored st rowSize entries chain) (hkey : key < 2 ^ 64)
    (hnew : ∀ e ∈ entries, e.1 ≠ key) (hrun : (bptreeInsert key ref).run st = some (rc, st')) :
    rc = 0 ∧ st.SameTable st' ∧
      ∃ l r, entries = l ++ r ∧ Stored st' rowSize (l ++ (key, ref) :: r) chain := by
  obtain ⟨free, leaves, rows, hat, rfl⟩ := h
  obtain ⟨st'', free', leaves', rows', l, r, hrun', hstep, hinv, hl, hr⟩ | ⟨-, hnone⟩ :=
    bptreeInsert_new hat.tree ref hkey hnew
  case inr =>
    rw [hnone] at hrun
    cases hrun
  obtain ⟨rfl, rfl⟩ := eq_of_run hrun' hrun
  exact ⟨rfl, hstep.sameTable, l, r, hl, free', leaves', rows', hat.treeStep hstep hinv, hr⟩

/-- The deletion of a key that is there. -/
theorem Stored.deleteKey {rc : Int} (h : Stored st rowSize entries chain)
    (hmem : (key, ref) ∈ entries) (hrun : (bptreeDelete key).run st = some (rc, st')) :
    rc = 0 ∧ st.SameTable st' ∧
      ∃ l r, entries = l ++ (key, ref) :: r ∧ Stored st' rowSize (l ++ r) chain := by
  obtain ⟨free, leaves, rows, hat, rfl⟩ := h
  obtain ⟨st'', free', leaves', rows', l, r, hrun', hstep, hinv, hl, hr⟩ :=
    bptreeDelete_present hat.tree hmem
  obtain ⟨rfl, rfl⟩ := eq_of_run hrun' hrun
  exact ⟨rfl, hstep.sameTable, l, r, hl, free', leaves', rows', hat.treeStep hstep hinv, hr⟩

theorem Stored.run_rangeScan {γ : Type} (h : Stored st rowSize entries chain) (r : KeyRange)
    (cb : RangeCallback γ) (ctx : γ) :
    ∃ st', (bptreeRangeScan r cb ctx).run st =
        some ((visit cb.onEntry (entries.filter (r.Contains ·.1)) ctx).2, st') ∧
      st.SameData st' := by
  obtain ⟨free, leaves, rows, hat, rfl⟩ := h
  exact bptreeRangeScan_spec hat.tree r cb ctx

theorem Stored.rangeScan {γ : Type} {r : KeyRange} {cb : RangeCallback γ} {ctx ctx' : γ}
    (h : Stored st rowSize entries chain)
    (hrun : (bptreeRangeScan r cb ctx).run st = some (ctx', st')) :
    st.SameData st' ∧ ctx' = (visit cb.onEntry (entries.filter (r.Contains ·.1)) ctx).2 := by
  obtain ⟨st'', hrun', hsame⟩ := h.run_rangeScan r cb ctx
  obtain ⟨rfl, rfl⟩ := eq_of_run hrun' hrun
  exact ⟨hsame, rfl⟩

/-! ## Operations of the heap -/

/-- Without a round there is no insertion. -/
theorem heapInsert_zero : (heapInsert 0 row).run st ≠ some (ref, st') := by
  intro hrun
  obtain ⟨pid, st₁, -, hrest⟩ := run_bind_eq_some.mp hrun
  split at hrest
  · obtain ⟨pid', st₂, -, hretry⟩ := run_bind_eq_some.mp hrest
    cases hretry
  · cases hrest

/-- The insertion of a row that fits. -/
theorem Stored.insertRow {rounds : Nat} (h : Stored st rowSize entries chain)
    (hfit : RowFits st.pageSize rowSize) (hrow : row.length = rowSize)
    (hrun : (heapInsert rounds row).run st = some (ref, st')) :
    st.SameTable st' ∧ ∃ chain' l r, Stored st' rowSize entries chain' ∧
      heapRows chain rowSize = l ++ r ∧ heapRows chain' rowSize = l ++ (ref, row) :: r ∧
      ∀ p, chain.IsPlace p → chain'.IsPlace p := by
  obtain ⟨free, leaves, rows, hat, rfl⟩ := h
  cases rounds with
  | zero => exact absurd hrun heapInsert_zero
  | succ rounds =>
    obtain ⟨ref', st'', free', chain', l, r, hrun', hinv, hstep, hl, hr⟩ | ⟨-, hnone⟩ :=
      heapInsert_spec hat.heap hfit hrow rounds
    case inr =>
      rw [hnone] at hrun
      cases hrun
    obtain ⟨rfl, rfl⟩ := eq_of_run hrun' hrun
    exact ⟨hstep.sameTable, chain', l, r, ⟨free', leaves, rows, hat.heapStep hstep hinv, rfl⟩, hl,
      hr, hstep.places⟩

/-- The deletion of a row that is there. -/
theorem Stored.deleteRow {rc : Int} (h : Stored st rowSize entries chain)
    (hmem : (ref, row) ∈ heapRows chain rowSize)
    (hrun : (heapDelete ref).run st = some (rc, st')) :
    rc = 0 ∧ st.SameTable st' ∧ ∃ chain' l r, Stored st' rowSize entries chain' ∧
      heapRows chain rowSize = l ++ (ref, row) :: r ∧ heapRows chain' rowSize = l ++ r ∧
      chain'.length = chain.length ∧ ∀ p, chain.IsPlace p → chain'.IsPlace p := by
  obtain ⟨free, leaves, rows, hat, rfl⟩ := h
  obtain ⟨hph, s, hslot, halive, rfl⟩ := exists_isSlot hmem
  rcases heapDelete_spec hat.heap hslot with
    ⟨-, st'', chain', l, r, hrun', hinv, hstep, hpids, hl, hr⟩ | ⟨hfree, -⟩
  · obtain ⟨rfl, rfl⟩ := eq_of_run hrun' hrun
    have hlen := congrArg List.length hpids
    rw [HeapChain.pids, HeapChain.pids, List.length_map, List.length_map] at hlen
    exact ⟨rfl, hstep.sameTable, chain', l, r,
      ⟨free, leaves, rows, hat.heapStep hstep hinv, rfl⟩, hl, hr, hlen, hstep.places⟩
  · rw [halive] at hfree
    cases hfree

/-- A row written over the one that is there. -/
theorem overwriteRow_spec (h : HeapInv st free rowSize chain) {hph : HeapPage} {s : Slot}
    (hslot : IsSlot chain ref hph s) (halive : s.status = .alive) (hrow : row.length = rowSize) :
    ∃ st' chain' l r, (overwriteRow ref row).run st = some ((), st') ∧
      HeapInv st' free rowSize chain' ∧ HeapStep st free chain st' free chain' ∧
      heapRows chain rowSize = l ++ (ref, slice hph.data s.offset rowSize) :: r ∧
      heapRows chain' rowSize = l ++ (ref, row) :: r := by
  obtain ⟨pid, i⟩ := ref
  obtain ⟨hn, hs⟩ := hslot
  obtain ⟨slots, hlay⟩ := h.layout _ hn
  obtain ⟨hph', hwrite, hlay', hnext, hslots, hhead, l, r, hl, hr⟩ :=
    overwrite_spec hlay hs halive hrow pid
  obtain ⟨a, b, rfl⟩ := List.append_of_mem hn
  set st₁ := (st.log (.get pid)).log (.wlatch pid) with hst₁
  set st' := ((st₁.setPage pid (.heap hph')).log (.markDirty pid)).log (.unlatchW pid) with hst'
  have hread : (readHeap pid).run st₁ = some (hph, st₁) := run_readHeap (h.pages _ hn)
  refine ⟨st', a ++ (pid, hph') :: b, heapRows a rowSize ++ l, r ++ heapRows b rowSize, ?_, ?_, ?_,
    by simp [hl], by simp [hr]⟩
  · simp only [overwriteRow, StateT.run_bind, run_pagerGetPageWlatch, Option.bind_eq_bind,
      Option.bind_some, ← hst₁, hread, hs, hwrite, orUndefined, StateT.run_pure, Option.pure_def,
      run_writePage, run_pagerMarkDirty, run_pagerUnlatchW, hst']
  · refine h.setPage hnext ⟨slots, hlay'⟩ rfl rfl rfl rfl fun hoff => ⟨?_, hoff⟩
    rw [hhead]
    exact h.hint hoff _ hn
  · exact h.stepSetPage rfl (by rw [hslots]) rfl rfl

theorem Stored.overwriteRow {old : List UInt8} (h : Stored st rowSize entries chain)
    (hmem : (ref, old) ∈ heapRows chain rowSize) (hrow : row.length = rowSize)
    (hrun : (overwriteRow ref row).run st = some ((), st')) :
    st.SameTable st' ∧ ∃ chain' l r, Stored st' rowSize entries chain' ∧
      heapRows chain rowSize = l ++ (ref, old) :: r ∧
      heapRows chain' rowSize = l ++ (ref, row) :: r ∧
      ∀ p, chain.IsPlace p → chain'.IsPlace p := by
  obtain ⟨free, leaves, rows, hat, rfl⟩ := h
  obtain ⟨hph, s, hslot, halive, rfl⟩ := exists_isSlot hmem
  obtain ⟨st'', chain', l, r, hrun', hinv, hstep, hl, hr⟩ :=
    overwriteRow_spec hat.heap hslot halive hrow
  obtain ⟨-, rfl⟩ := eq_of_run hrun' hrun
  exact ⟨hstep.sameTable, chain', l, r, ⟨free, leaves, rows, hat.heapStep hstep hinv, rfl⟩, hl, hr,
    hstep.places⟩

theorem Stored.exists_overwriteRow {old : List UInt8} (h : Stored st rowSize entries chain)
    (hmem : (ref, old) ∈ heapRows chain rowSize) (hrow : row.length = rowSize) :
    ∃ st', (MiniDb.overwriteRow ref row).run st = some ((), st') := by
  obtain ⟨free, leaves, rows, hat, -⟩ := h
  obtain ⟨hph, s, hslot, halive, -⟩ := exists_isSlot hmem
  obtain ⟨st', -, -, -, hrun, -⟩ := overwriteRow_spec hat.heap hslot halive hrow
  exact ⟨st', hrun⟩

/-- The lookup of a place that has been handed out. -/
theorem Stored.fetchRow {res : Option (List UInt8)} (h : Stored st rowSize entries chain)
    (hplace : chain.IsPlace ref) (hrun : (heapFetch ref rowSize).run st = some (res, st')) :
    st.SameData st' ∧ ∀ row, res = some row ↔ (ref, row) ∈ heapRows chain rowSize := by
  obtain ⟨free, leaves, rows, hat, rfl⟩ := h
  obtain ⟨hph, s, hslot⟩ := hplace.exists_isSlot
  obtain ⟨st'', hrun', hsame⟩ := heapFetch_spec hat.heap hslot
  obtain ⟨rfl, rfl⟩ := eq_of_run hrun' hrun
  refine ⟨hsame, fun row => ?_⟩
  constructor
  · intro hrow
    split at hrow
    · rename_i halive
      cases hrow
      exact hslot.mem_heapRows halive
    · cases hrow
  · intro hmem
    obtain ⟨hph', s', hslot', halive', rfl⟩ := exists_isSlot hmem
    obtain ⟨rfl, rfl⟩ := hslot.unique hat.heap hslot'
    rw [if_pos halive']

theorem Stored.run_scan {γ : Type} (h : Stored st rowSize entries chain)
    (malloc : Nat → Nat → Bool) (cb : ScanCallback γ) (ctx : γ) :
    ∃ st', (heapScan malloc rowSize cb ctx).run st =
        some ((visit cb.onRow (heapRows chain rowSize) ctx).2, st') ∧ st.SameData st' := by
  obtain ⟨free, leaves, rows, hat, rfl⟩ := h
  obtain ⟨t, hrun⟩ := heapScan_spec hat.heap malloc cb ctx
  exact ⟨_, hrun, t, rfl⟩

end Stored

end MiniDb
