import Mathlib.Data.List.Basic
import Mathlib.Logic.Function.Basic
import MiniDb.Storage.PageFormat

/-! # The pager as its clients see it

`bptree.c`, `table.c` and `executor.c` reach the disk through the pager's page interface only.
Seen from there a database is a map from page ids to page contents: `pager_get_page` hands out
the current contents and whatever is written through the pointer is what the next call sees.
This file is that view, with `pager_alloc_page` and `pager_free_page` on top of it. That the
frame cache in front of the file implements the view is the subject of `Storage/PageCache`.

Operations run in `PagerM`, state over `Option`. `none` is the outcome the C program has no
defined behaviour for: a page read as a type it does not have, an entry array written past the
end of its page, a loop that never ends. So a theorem that an operation returns `some` also says
that it does none of these.

The pin and latch calls do not change page contents. They are recorded in `trace`, newest
first, together with every page that is modified. -/

set_option autoImplicit false

namespace MiniDb

/-- The pager calls a client makes, and the pages it modifies. -/
inductive PagerEvent where
  | get (pid : Nat)
  | unpin (pid : Nat)
  | markDirty (pid : Nat)
  | rlatch (pid : Nat)
  | wlatch (pid : Nat)
  | unlatchR (pid : Nat)
  | unlatchW (pid : Nat)
  | write (pid : Nat)
  deriving DecidableEq, Repr

/-- `pager_t`, without the frames. -/
structure Pager where
  pageSize : Nat
  header : DbHeader
  lastHeapPageId : Nat
  heapMayHaveFreeSlots : Bool
  pages : Nat → Page
  trace : List PagerEvent

/-- Pager programs: the state is threaded, `none` is undefined behaviour. -/
abbrev PagerM := StateT Pager Option

namespace Pager

/-- Record a call. -/
def log (st : Pager) (e : PagerEvent) : Pager := { st with trace := e :: st.trace }

/-- Replace the contents of a page. -/
def setPage (st : Pager) (pid : Nat) (page : Page) : Pager :=
  { st with pages := Function.update st.pages pid page, trace := .write pid :: st.trace }

/-- Replace the header. -/
def setHeader (st : Pager) (h : DbHeader) : Pager := { st with header := h }

@[simp] theorem log_pageSize (st : Pager) (e : PagerEvent) : (st.log e).pageSize = st.pageSize := rfl
@[simp] theorem log_header (st : Pager) (e : PagerEvent) : (st.log e).header = st.header := rfl
@[simp] theorem log_pages (st : Pager) (e : PagerEvent) : (st.log e).pages = st.pages := rfl
@[simp] theorem log_lastHeapPageId (st : Pager) (e : PagerEvent) :
    (st.log e).lastHeapPageId = st.lastHeapPageId := rfl
@[simp] theorem log_heapMayHaveFreeSlots (st : Pager) (e : PagerEvent) :
    (st.log e).heapMayHaveFreeSlots = st.heapMayHaveFreeSlots := rfl

@[simp] theorem setPage_pageSize (st : Pager) (p : Nat) (pg : Page) :
    (st.setPage p pg).pageSize = st.pageSize := rfl
@[simp] theorem setPage_header (st : Pager) (p : Nat) (pg : Page) :
    (st.setPage p pg).header = st.header := rfl
@[simp] theorem setPage_pages (st : Pager) (p : Nat) (pg : Page) :
    (st.setPage p pg).pages = Function.update st.pages p pg := rfl
@[simp] theorem setPage_lastHeapPageId (st : Pager) (p : Nat) (pg : Page) :
    (st.setPage p pg).lastHeapPageId = st.lastHeapPageId := rfl
@[simp] theorem setPage_heapMayHaveFreeSlots (st : Pager) (p : Nat) (pg : Page) :
    (st.setPage p pg).heapMayHaveFreeSlots = st.heapMayHaveFreeSlots := rfl

@[simp] theorem setHeader_pageSize (st : Pager) (h : DbHeader) :
    (st.setHeader h).pageSize = st.pageSize := rfl
@[simp] theorem setHeader_header (st : Pager) (h : DbHeader) : (st.setHeader h).header = h := rfl
@[simp] theorem setHeader_pages (st : Pager) (h : DbHeader) :
    (st.setHeader h).pages = st.pages := rfl
@[simp] theorem setHeader_lastHeapPageId (st : Pager) (h : DbHeader) :
    (st.setHeader h).lastHeapPageId = st.lastHeapPageId := rfl
@[simp] theorem setHeader_heapMayHaveFreeSlots (st : Pager) (h : DbHeader) :
    (st.setHeader h).heapMayHaveFreeSlots = st.heapMayHaveFreeSlots := rfl

end Pager

/-- `pager_open` with `create`: the file just after its first three pages (the header, an empty
heap page and an empty leaf as index root) have been written. `pageSize` is the page size of the
operating system. -/
def pagerOpenCreate (pageSize : Nat) : Pager where
  pageSize := pageSize
  header :=
    { firstHeapPageId := 1
      rootIndexPageId := 2
      nextPageId := 3
      freePageHead := 0
      nextId := 1
      rowCount := 0
      rowSize := 0
      columns := [] }
  lastHeapPageId := 1
  heapMayHaveFreeSlots := false
  pages
    | 1 => .heap
        { nextHeapPageId := 0
          freeSlotHead := slotNone
          freeSpaceOffset := 0
          slots := []
          data := List.replicate pageSize 0 }
    | 2 => .leaf
        { parentPageId := 0, nextLeafPageId := 0, prevLeafPageId := 0, entries := [] }
    | _ => .zero
  trace := []

/-! ## Page access -/

/-- `pager_get_page`: pins the page. -/
def pagerGetPage (pid : Nat) : PagerM Unit := modify (·.log (.get pid))

/-- `pager_unpin`. -/
def pagerUnpin (pid : Nat) : PagerM Unit := modify (·.log (.unpin pid))

/-- `pager_mark_dirty`. -/
def pagerMarkDirty (pid : Nat) : PagerM Unit := modify (·.log (.markDirty pid))

/-- `pager_get_page_rlatch`: pins the page, then takes its latch shared. -/
def pagerGetPageRlatch (pid : Nat) : PagerM Unit :=
  modify fun st => (st.log (.get pid)).log (.rlatch pid)

/-- `pager_get_page_wlatch`: pins the page, then takes its latch exclusively. -/
def pagerGetPageWlatch (pid : Nat) : PagerM Unit :=
  modify fun st => (st.log (.get pid)).log (.wlatch pid)

/-- `pager_unlatch_r`: releases the latch and one pin. -/
def pagerUnlatchR (pid : Nat) : PagerM Unit := modify (·.log (.unlatchR pid))

/-- `pager_unlatch_w`: releases the latch and one pin. -/
def pagerUnlatchW (pid : Nat) : PagerM Unit := modify (·.log (.unlatchW pid))

/-- The contents behind a page pointer. -/
def readPage (pid : Nat) : PagerM Page := do return (← get).pages pid

/-- A page read through a `leaf_page_header_t`. -/
def readLeaf (pid : Nat) : PagerM LeafPage := do
  match ← readPage pid with
  | .leaf l => return l
  | _ => failure

/-- A page read through an `internal_page_header_t`. -/
def readInternal (pid : Nat) : PagerM InternalPage := do
  match ← readPage pid with
  | .internal i => return i
  | _ => failure

/-- A page read through a `heap_page_header_t`. -/
def readHeap (pid : Nat) : PagerM HeapPage := do
  match ← readPage pid with
  | .heap h => return h
  | _ => failure

/-- Write the contents behind a page pointer. -/
def writePage (pid : Nat) (page : Page) : PagerM Unit := modify (·.setPage pid page)

/-- Write a leaf header and its entry array. An array that does not end inside the page is
undefined behaviour. -/
def writeLeaf (pid : Nat) (l : LeafPage) : PagerM Unit := do
  guard (leafHeaderSize + l.entries.length * leafEntrySize ≤ (← get).pageSize)
  writePage pid (.leaf l)

/-- Write an internal header and its entry array. -/
def writeInternal (pid : Nat) (i : InternalPage) : PagerM Unit := do
  guard (internalHeaderSize + i.entries.length * internalEntrySize ≤ (← get).pageSize)
  writePage pid (.internal i)

/-! ## Allocation -/

/-- The page ids there are, as `uint32_t`. -/
def pageIdCount : Nat := 4294967296

/-- `pager_alloc_page`: takes the head of the free list, or the next page after the file. Page ids
have 32 bits; what happens in a file that has given out all of them is not followed. -/
def pagerAllocPage : PagerM Nat := do
  let h := (← get).header
  if h.freePageHead ≠ 0 then
    let pid := h.freePageHead
    pagerGetPage pid
    match ← readPage pid with
    | .free nextFreePage =>
      modify (·.setHeader { h with freePageHead := nextFreePage })
      writePage pid .zero
      pagerMarkDirty pid
      pagerUnpin pid
      return pid
    | _ => failure
  else
    let pid := h.nextPageId
    guard (h.nextPageId + 1 < pageIdCount)
    modify (·.setHeader { h with nextPageId := h.nextPageId + 1 })
    pagerGetPage pid
    writePage pid .zero
    pagerMarkDirty pid
    pagerUnpin pid
    return pid

/-- `pager_free_page`: pushes the page onto the free list. -/
def pagerFreePage (pid : Nat) : PagerM Unit := do
  pagerGetPage pid
  let h := (← get).header
  writePage pid (.free h.freePageHead)
  pagerMarkDirty pid
  pagerUnpin pid
  modify (·.setHeader { h with freePageHead := pid })

/-! ## Running the primitives

One equation for each primitive: what it returns and the state it leaves. -/

section Run

variable {st : Pager} {pid : Nat}

@[simp] theorem run_failure {α : Type} : (failure : PagerM α).run st = none := rfl

@[simp] theorem run_pagerGetPage : (pagerGetPage pid).run st = some ((), st.log (.get pid)) := rfl

@[simp] theorem run_pagerUnpin : (pagerUnpin pid).run st = some ((), st.log (.unpin pid)) := rfl

@[simp] theorem run_pagerMarkDirty :
    (pagerMarkDirty pid).run st = some ((), st.log (.markDirty pid)) := rfl

@[simp] theorem run_pagerGetPageRlatch :
    (pagerGetPageRlatch pid).run st = some ((), (st.log (.get pid)).log (.rlatch pid)) := rfl

@[simp] theorem run_pagerGetPageWlatch :
    (pagerGetPageWlatch pid).run st = some ((), (st.log (.get pid)).log (.wlatch pid)) := rfl

@[simp] theorem run_pagerUnlatchR :
    (pagerUnlatchR pid).run st = some ((), st.log (.unlatchR pid)) := rfl

@[simp] theorem run_pagerUnlatchW :
    (pagerUnlatchW pid).run st = some ((), st.log (.unlatchW pid)) := rfl

@[simp] theorem run_readPage : (readPage pid).run st = some (st.pages pid, st) := rfl

@[simp] theorem run_writePage {page : Page} :
    (writePage pid page).run st = some ((), st.setPage pid page) := rfl

theorem run_readLeaf {l : LeafPage} (h : st.pages pid = .leaf l) :
    (readLeaf pid).run st = some (l, st) := by
  simp [readLeaf, h]

theorem run_readInternal {i : InternalPage} (h : st.pages pid = .internal i) :
    (readInternal pid).run st = some (i, st) := by
  simp [readInternal, h]

theorem run_readHeap {p : HeapPage} (h : st.pages pid = .heap p) :
    (readHeap pid).run st = some (p, st) := by
  simp [readHeap, h]

theorem run_readHeap_eq_some {p : HeapPage} {st' : Pager} :
    (readHeap pid).run st = some (p, st') ↔ st.pages pid = .heap p ∧ st' = st := by
  cases hpage : st.pages pid <;> simp [readHeap, hpage, eq_comm]

theorem run_readLeaf_eq_some {l : LeafPage} {st' : Pager} :
    (readLeaf pid).run st = some (l, st') ↔ st.pages pid = .leaf l ∧ st' = st := by
  cases hpage : st.pages pid <;> simp [readLeaf, hpage, eq_comm]

theorem run_readInternal_eq_some {i : InternalPage} {st' : Pager} :
    (readInternal pid).run st = some (i, st') ↔ st.pages pid = .internal i ∧ st' = st := by
  cases hpage : st.pages pid <;> simp [readInternal, hpage, eq_comm]

theorem run_writeLeaf {l : LeafPage} (hps : leafHeaderSize ≤ st.pageSize)
    (h : l.entries.length ≤ maxLeafKeys st.pageSize) :
    (writeLeaf pid l).run st = some ((), st.setPage pid (.leaf l)) := by
  have hfit : leafHeaderSize + l.entries.length * leafEntrySize ≤ st.pageSize := by
    simp only [maxLeafKeys, leafHeaderSize, leafEntrySize] at *
    omega
  simp [writeLeaf, guard, hfit]

theorem run_writeLeaf_eq_some {l : LeafPage} {st' : Pager}
    (hrun : (writeLeaf pid l).run st = some ((), st')) : st' = st.setPage pid (.leaf l) := by
  by_cases hfit : leafHeaderSize + l.entries.length * leafEntrySize ≤ st.pageSize
  · simp [writeLeaf, guard, hfit] at hrun
    exact hrun.symm
  · have hnone : (writeLeaf pid l).run st = none := by
      show (guard (leafHeaderSize + l.entries.length * leafEntrySize ≤ st.pageSize) >>= fun _ =>
        writePage pid (.leaf l) : PagerM Unit).run st = none
      rw [guard, if_neg hfit]
      rfl
    rw [hnone] at hrun
    cases hrun

theorem run_writeInternal {i : InternalPage} (hps : internalHeaderSize ≤ st.pageSize)
    (h : i.entries.length ≤ maxInternalKeys st.pageSize) :
    (writeInternal pid i).run st = some ((), st.setPage pid (.internal i)) := by
  have hfit : internalHeaderSize + i.entries.length * internalEntrySize ≤ st.pageSize := by
    simp only [maxInternalKeys, internalHeaderSize, internalEntrySize] at *
    omega
  simp [writeInternal, guard, hfit]

end Run

end MiniDb
