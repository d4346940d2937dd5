import MiniDb.Lib.Bytes
import MiniDb.Lib.Visit
import MiniDb.Storage.Pager

/-! # The slotted heap

`table.c`, function by function: rows are stored in a chain of heap pages. In a page the slot
directory grows from the front and the rows from the back; a deleted row leaves its slot, with its
place in the page, on a chain of free slots to be used again.

Offsets and sizes are 16-bit in the source, so every result of arithmetic on them is reduced. Rows
are written with `memcpy`; a write that leaves the page, or that runs into the slot directory, has
no defined outcome here. -/

set_option autoImplicit false

namespace MiniDb

open Lib

/-- A value stored to a `uint16_t`. -/
def u16 (i : Int) : Nat := (i % 65536).toNat

/-! ## Space in a page -/

/-- `slots_end`. -/
def slotsEnd (slotCount : Nat) : Nat := u16 (heapHeaderSize + slotCount * slotSize)

/-- `available_space`. -/
def availableSpace (pageSize : Nat) (hph : HeapPage) : Nat :=
  let front := slotsEnd hph.slots.length
  let back := u16 (pageSize - hph.freeSpaceOffset)
  if back ≤ front then 0 else back - front

/-- The space a row takes in a page that has no free slot: `(uint16_t)(sizeof(slot_t) + row_size)`. -/
def rowNeed (rowSize : Nat) : Nat := u16 (slotSize + rowSize)

/-- The bytes of a row, read through a pointer into the page. -/
def HeapPage.readRow (hph : HeapPage) (offset rowSize : Nat) : Option (List UInt8) := do
  guard (offset + rowSize ≤ hph.data.length)
  return slice hph.data offset rowSize

/-- `memcpy(page + offset, row_data, row_size)`. -/
def HeapPage.writeRow (hph : HeapPage) (offset : Nat) (rowData : List UInt8) : Option HeapPage := do
  guard (heapHeaderSize + hph.slots.length * slotSize ≤ offset)
  guard (offset + rowData.length ≤ hph.data.length)
  return { hph with data := splice hph.data offset rowData }

/-! ## Insertion -/

/-- The walk of `find_heap_page` along the chain. -/
def findFreeSlotPage : Nat → Nat → PagerM Nat
  | 0, _ => failure
  | fuel + 1, pid => do
    if pid = 0 then
      modify ({ · with heapMayHaveFreeSlots := false })
      return 0
    else
      pagerGetPageRlatch pid
      let hph ← readHeap pid
      pagerUnlatchR pid
      if hph.freeSlotHead ≠ slotNone then
        return pid
      else
        findFreeSlotPage fuel hph.nextHeapPageId

/-- The second half of `find_heap_page`: any page with a free slot, if there may be one. A walk
along the chain longer than there are pages never ends. -/
def findReusablePage : PagerM Nat := do
  let st ← get
  if st.heapMayHaveFreeSlots then
    findFreeSlotPage st.header.nextPageId st.header.firstHeapPageId
  else
    return 0

/-- `find_heap_page`: a page to put a row on, or 0. -/
def findHeapPage (rowSize : Nat) : PagerM Nat := do
  let tail := (← get).lastHeapPageId
  if tail ≠ 0 then
    pagerGetPageRlatch tail
    let hph ← readHeap tail
    pagerUnlatchR tail
    if hph.freeSlotHead ≠ slotNone ∨ availableSpace (← get).pageSize hph ≥ rowNeed rowSize then
      return tail
    else
      findReusablePage
  else
    findReusablePage

/-- A page at the end of the chain gets a successor. -/
def linkHeapPage (prevPid pid : Nat) : PagerM Unit := do
  if prevPid ≠ 0 then
    pagerGetPageWlatch prevPid
    let ph ← readHeap prevPid
    writePage prevPid (.heap { ph with nextHeapPageId := pid })
    pagerMarkDirty prevPid
    pagerUnlatchW prevPid

/-- The allocation of a heap page at the end of the chain, which stands twice in `heap_insert`. -/
def appendHeapPage : PagerM Nat := do
  let pid ← pagerAllocPage
  pagerGetPageWlatch pid
  let pageSize := (← get).pageSize
  writePage pid (.heap
    { nextHeapPageId := 0
      freeSlotHead := slotNone
      freeSpaceOffset := 0
      slots := []
      data := List.replicate pageSize 0 })
  pagerMarkDirty pid
  pagerUnlatchW pid
  linkHeapPage (← get).lastHeapPageId pid
  modify ({ · with lastHeapPageId := pid })
  return pid

/-- A row put into a free slot. -/
def reuseSlot (hph : HeapPage) (rowData : List UInt8) : Option (Nat × HeapPage) := do
  let slotId := hph.freeSlotHead
  let slot ← hph.slots[slotId]?
  let hph ← hph.writeRow slot.offset rowData
  return (slotId, { hph with
    freeSlotHead := slot.nextFree
    slots := hph.slots.set slotId { slot with status := .alive, nextFree := slotNone } })

/-- A row put into a new slot. -/
def newSlot (pageSize : Nat) (hph : HeapPage) (rowData : List UInt8) : Option (Nat × HeapPage) := do
  let slotId := hph.slots.length
  let rowOffset := u16 (pageSize - hph.freeSpaceOffset - rowData.length)
  let slot : Slot := { offset := rowOffset, status := .alive, nextFree := slotNone }
  let hph ← { hph with slots := hph.slots ++ [slot] }.writeRow rowOffset rowData
  return (slotId, { hph with freeSpaceOffset := u16 (hph.freeSpaceOffset + rowData.length) })

/-- A row put into a page that has room for it: the slot and the page after it. -/
def placeRow (pageSize : Nat) (hph : HeapPage) (rowData : List UInt8) : Option (Nat × HeapPage) :=
  if hph.freeSlotHead ≠ slotNone then reuseSlot hph rowData else newSlot pageSize hph rowData

/-- `heap_insert` from the label `retry_insert` on. `rounds` bounds how often the label is passed;
a run that passes it more often does not return with so many rounds. -/
def retryInsert (rowData : List UInt8) : Nat → Nat → PagerM RowRef
  | 0, _ => failure
  | rounds + 1, pid => do
    pagerGetPageWlatch pid
    let hph ← readHeap pid
    let pageSize := (← get).pageSize
    if hph.freeSlotHead = slotNone ∧ availableSpace pageSize hph < rowNeed rowData.length then
      pagerUnlatchW pid
      let pid ← appendHeapPage
      retryInsert rowData rounds pid
    else
      let some (slotId, hph) := placeRow pageSize hph rowData | failure
      writePage pid (.heap hph)
      pagerMarkDirty pid
      pagerUnlatchW pid
      return ⟨pid, slotId⟩

/-- `heap_insert` of a row of `row_size` bytes. -/
def heapInsert (rounds : Nat) (rowData : List UInt8) : PagerM RowRef := do
  let pid ← findHeapPage rowData.length
  if pid = 0 then
    let pid ← appendHeapPage
    retryInsert rowData rounds pid
  else
    retryInsert rowData rounds pid

/-! ## Single rows -/

/-- `heap_fetch`: the row's bytes as they are while the page stays read-latched. A slot past the
directory is no slot. -/
def heapFetch (ref : RowRef) (rowSize : Nat) : PagerM (Option (List UInt8)) := do
  pagerGetPageRlatch ref.pageId
  let hph ← readHeap ref.pageId
  let some slot := hph.slots[ref.slotId]? | failure
  if slot.status = .alive then
    let some row := hph.readRow slot.offset rowSize | failure
    return some row
  else
    pagerUnlatchR ref.pageId
    return none

/-- `heap_delete`: 0, or -1 when the row is not there. -/
def heapDelete (ref : RowRef) : PagerM Int := do
  pagerGetPageWlatch ref.pageId
  let hph ← readHeap ref.pageId
  let some slot := hph.slots[ref.slotId]? | failure
  if slot.status = .alive then
    writePage ref.pageId (.heap { hph with
      freeSlotHead := ref.slotId
      slots := hph.slots.set ref.slotId
        { slot with status := .free, nextFree := hph.freeSlotHead } })
    pagerMarkDirty ref.pageId
    pagerUnlatchW ref.pageId
    modify ({ · with heapMayHaveFreeSlots := true })
    return 0
  else
    pagerUnlatchW ref.pageId
    return -1

/-! ## Scan -/

/-- `scan_cb`. -/
abbrev ScanCallback (γ : Type) := List UInt8 → RowRef → γ → Bool × γ

/-- The callback on a row with its place. -/
def ScanCallback.onRow {γ : Type} (cb : ScanCallback γ) (e : RowRef × List UInt8) (ctx : γ) :
    Bool × γ :=
  cb e.2 e.1 ctx

/-- The rows of the alive slots of a page, from slot `i` on. -/
def snapshotFrom (pid rowSize : Nat) (hph : HeapPage) :
    Nat → List Slot → Option (List (RowRef × List UInt8))
  | _, [] => some []
  | i, slot :: slots =>
    if slot.status = .alive then do
      let row ← hph.readRow slot.offset rowSize
      let rest ← snapshotFrom pid rowSize hph (i + 1) slots
      return (⟨pid, i⟩, row) :: rest
    else
      snapshotFrom pid rowSize hph (i + 1) slots

/-- `sizeof(row_ref_t)`, which is packed. -/
def sizeofRowRef : Nat := 4 + 2

/-- `live_count`. -/
def liveCount (slots : List Slot) : Nat := (slots.filter (·.status = .alive)).length

/-- The second loop of `heap_scan`, over `n` slots from slot `i` on: whether the callback wants more,
and its context. -/
def scanSlots {γ : Type} (pid rowSize : Nat) (cb : ScanCallback γ) :
    (n i : Nat) → γ → PagerM (Bool × γ)
  | 0, _, ctx => return (true, ctx)
  | n + 1, i, ctx => do
    pagerGetPageRlatch pid
    let hph ← readHeap pid
    let some slot := hph.slots[i]? | failure
    if slot.status = .alive then
      let some row := hph.readRow slot.offset rowSize | failure
      match cb row ⟨pid, i⟩ ctx with
      | (false, ctx) =>
        pagerUnlatchR pid
        return (false, ctx)
      | (true, ctx) =>
        pagerUnlatchR pid
        scanSlots pid rowSize cb n (i + 1) ctx
    else
      pagerUnlatchR pid
      scanSlots pid rowSize cb n (i + 1) ctx

/-- One page of `heap_scan`: whether the callback wants more, its context, and the next page.
`malloc` says whether there is memory for the copy of a page; with a copy the callbacks run when the
latch has been released. -/
def scanPage {γ : Type} (malloc : Nat → Nat → Bool) (rowSize : Nat) (cb : ScanCallback γ) (pid : Nat)
    (ctx : γ) : PagerM ((Bool × γ) × Nat) := do
  pagerGetPageRlatch pid
  let hph ← readHeap pid
  let live := liveCount hph.slots
  if live > 0 ∧ rowSize > 0 ∧ malloc pid (live * sizeofRowRef + live * rowSize) then
    let some rows := snapshotFrom pid rowSize hph 0 hph.slots | failure
    pagerUnlatchR pid
    return (visit cb.onRow rows ctx, hph.nextHeapPageId)
  else
    pagerUnlatchR pid
    let r ← scanSlots pid rowSize cb hph.slots.length 0 ctx
    return (r, hph.nextHeapPageId)

/-- The loop of `heap_scan`. -/
def scanPages {γ : Type} (malloc : Nat → Nat → Bool) (rowSize : Nat) (cb : ScanCallback γ) :
    Nat → Nat → γ → PagerM γ
  | 0, _, _ => failure
  | fuel + 1, pid, ctx => do
    if pid = 0 then
      return ctx
    else
      match ← scanPage malloc rowSize cb pid ctx with
      | ((true, ctx), next) => scanPages malloc rowSize cb fuel next ctx
      | ((false, ctx), _) => return ctx

/-- `heap_scan`: the context after the last callback. -/
def heapScan {γ : Type} (malloc : Nat → Nat → Bool) (rowSize : Nat) (cb : ScanCallback γ)
    (ctx : γ) : PagerM γ := do
  let header := (← get).header
  scanPages malloc rowSize cb header.nextPageId header.firstHeapPageId ctx

end MiniDb
