import MiniDb.Lib.Packed
import MiniDb.Storage.PageCache.Basic
import MiniDb.Storage.RowCodec

/-! # The bytes of a file

How the structures of `page_format.h` lie in a page, and how they are read from it. Entry arrays are as
long as their count says; what stands behind them in a page is left over from before and is not
looked at. While every field is inside its width, a page and the header are read as they were
written. -/

set_option autoImplicit false

namespace MiniDb

open Lib

/-! ## Integer fields -/

/-- An integer field of `n` bytes. -/
def readField (n : Nat) : Reader UInt8 Nat := do
  let bytes ← takeSymbols n
  return ofLittleEndian bytes

theorem littleEndian_eq (n v : Nat) : littleEndian n v = leBytes v n := by
  induction n generalizing v with
  | zero => rfl
  | succ n ih => rw [littleEndian, leBytes, ih]

theorem ofLittleEndian_eq (bytes : List UInt8) : ofLittleEndian bytes = leValue bytes := by
  induction bytes with
  | nil => rfl
  | cons b bytes ih => rw [ofLittleEndian, leValue, ih]

@[simp] theorem length_littleEndian (n v : Nat) : (littleEndian n v).length = n := by
  rw [littleEndian_eq, length_leBytes]

/-- An integer that fits its field is read as it was written. -/
theorem reads_readField {n v : Nat} (h : v < 256 ^ n) : Reads (readField n) (littleEndian n v) v := by
  have hvalue : ofLittleEndian (littleEndian n v) = v := by
    rw [ofLittleEndian_eq, littleEndian_eq, leValue_leBytes, Nat.mod_eq_of_lt h]
  have hread := (reads_takeSymbols (length_littleEndian n v)).bind_pure (g := ofLittleEndian)
  rwa [hvalue] at hread

@[simp] theorem length_padTo {n : Nat} {bytes : List UInt8} (h : bytes.length ≤ n) :
    (padTo n bytes).length = n := by
  rw [padTo, List.take_of_length_le h, List.length_append, List.length_replicate]
  omega

theorem padTo_eq {n : Nat} {bytes : List UInt8} (h : bytes.length ≤ n) :
    padTo n bytes = bytes ++ List.replicate (n - bytes.length) 0 := by
  rw [padTo, List.take_of_length_le h]

/-! ## The header page -/

def ColumnType.ofCode : Nat → Option ColumnType
  | 1 => some .int
  | 2 => some .bigint
  | 3 => some .varchar
  | _ => none

/-- A `column_meta_t`; its name ends at the first NUL. -/
def readColumnMeta : Reader UInt8 ColumnMeta := do
  let name ← takeSymbols 32
  let code ← readField 1
  let size ← readField 2
  let offset ← readField 2
  let isSystem ← readField 1
  match ColumnType.ofCode code with
  | some type =>
    return { name := name.takeWhile (· ≠ 0), type, size, offset, isSystem := isSystem ≠ 0 }
  | none => failure

/-- A `db_header_t`, with the seven bytes of its magic number compared as in `pager_open`. The first
result is its `page_size`. -/
def readDbHeader : Reader UInt8 (Nat × DbHeader) := do
  let magic ← takeSymbols 8
  guard (magic.take 7 = cstr "MINIDB" ++ [0])
  let _version ← readField 4
  let pageSize ← readField 4
  let rootIndexPageId ← readField 4
  let firstHeapPageId ← readField 4
  let nextPageId ← readField 4
  let freePageHead ← readField 4
  let nextId ← readField 8
  let rowCount ← readField 8
  let columnCount ← readField 2
  let rowSize ← readField 2
  let columns ← readMany readColumnMeta columnCount
  return (pageSize,
    { rootIndexPageId := rootIndexPageId
      firstHeapPageId := firstHeapPageId
      nextPageId := nextPageId
      freePageHead := freePageHead
      nextId := nextId
      rowCount := rowCount
      rowSize := rowSize
      columns := columns })

/-- The header page as `pager_open` reads it. -/
def openHeader (bytes : List UInt8) : Option (Nat × DbHeader) :=
  (readDbHeader.run bytes).map Prod.fst

/-- A column that its structure can hold. -/
structure ColumnMeta.Storable (c : ColumnMeta) : Prop where
  name : c.name.length < 32
  noNul : 0 ∉ c.name
  size : c.size < 65536
  offset : c.offset < 65536

/-- A header that its structure can hold. -/
structure DbHeader.Storable (h : DbHeader) : Prop where
  rootIndexPageId : h.rootIndexPageId < 2 ^ 32
  firstHeapPageId : h.firstHeapPageId < 2 ^ 32
  nextPageId : h.nextPageId < 2 ^ 32
  freePageHead : h.freePageHead < 2 ^ 32
  nextId : h.nextId < 2 ^ 64
  rowCount : h.rowCount < 2 ^ 64
  rowSize : h.rowSize < 65536
  length : h.columns.length ≤ maxColumns
  columns : ∀ c ∈ h.columns, c.Storable

section Header

variable {c : ColumnMeta} {h : DbHeader} {pageSize : Nat}

theorem length_bytes_column (hc : c.Storable) : c.bytes.length = 38 := by
  have hname : (padTo 32 c.name).length = 32 := length_padTo hc.name.le
  simp [ColumnMeta.bytes, hname]

/-- The name is what stands in front of the zeros behind it. -/
theorem takeWhile_padTo {n : Nat} {s : CString} (hs : s.length ≤ n) (hnul : 0 ∉ s) :
    (padTo n s).takeWhile (· ≠ 0) = s := by
  rw [padTo_eq hs, List.takeWhile_append_of_pos]
  · cases n - s.length with
    | zero => simp
    | succ k => simp [List.replicate_succ]
  · intro b hb
    have hne : b ≠ 0 := fun hz => hnul (hz ▸ hb)
    simpa using hne

theorem reads_readColumnMeta (hc : c.Storable) : Reads readColumnMeta c.bytes c := by
  have hname := reads_takeSymbols (length_padTo (n := 32) hc.name.le)
  have hcode : Reads (readField 1) (littleEndian 1 c.type.code) c.type.code := by
    apply reads_readField
    cases c.type <;> decide
  have hsystem : Reads (readField 1) (littleEndian 1 c.isSystem.toNat) c.isSystem.toNat := by
    apply reads_readField
    cases c.isSystem <;> decide
  have htype : ColumnType.ofCode c.type.code = some c.type := by
    cases c.type <;> rfl
  have hbool : decide (c.isSystem.toNat ≠ 0) = c.isSystem := by
    cases c.isSystem <;> rfl
  rw [readColumnMeta, ColumnMeta.bytes, List.append_assoc, List.append_assoc, List.append_assoc]
  refine hname.bind (hcode.bind ((reads_readField hc.size).bind ((reads_readField hc.offset).bind ?_)))
  intro rest
  rw [run_bind_of (hsystem rest), htype, takeWhile_padTo hc.name.le hc.noNul]
  show some (_, rest) = some (c, rest)
  rw [hbool]

theorem length_columns (hh : h.Storable) :
    (h.columns.flatMap ColumnMeta.bytes).length ≤ sizeofColumnMeta * maxColumns := by
  have hsum : (h.columns.flatMap ColumnMeta.bytes).length = h.columns.length * 38 :=
    length_flatMap_of_forall fun c hc => length_bytes_column (hh.columns c hc)
  have hle := hh.length
  simp only [maxColumns, sizeofColumnMeta] at hle ⊢
  omega

theorem length_bytes_header (hh : h.Storable) : (h.bytes pageSize).length = 660 := by
  have hcols := length_padTo (length_columns hh)
  have hmagic : (padTo 8 (cstr "MINIDB")).length = 8 := by decide
  simp only [DbHeader.bytes, List.length_append, length_littleEndian, hcols, hmagic]
  rfl

/-- The header is read as it was written, and with it the page size. -/
theorem openHeader_bytes {n : Nat} (hh : h.Storable) (hps : pageSize < 2 ^ 32)
    (hn : (h.bytes pageSize).length ≤ n) :
    openHeader (padTo n (h.bytes pageSize)) = some (pageSize, h) := by
  have hlen : h.columns.length < 256 ^ 2 := hh.length.trans_lt (by decide)
  have hmany : Reads (readMany readColumnMeta h.columns.length)
      (h.columns.flatMap ColumnMeta.bytes) h.columns := by
    have hread : Reads (readMany readColumnMeta h.columns.length)
        (h.columns.flatMap ColumnMeta.bytes) (h.columns.map id) :=
      reads_readMany fun c hc => reads_readColumnMeta (hh.columns c hc)
    rwa [List.map_id] at hread
  have hcols := length_columns hh
  have hmagic : Reads (takeSymbols 8) (padTo 8 (cstr "MINIDB")) (padTo 8 (cstr "MINIDB")) :=
    reads_takeSymbols (by decide)
  have hversion : Reads (readField 4) (littleEndian 4 1) 1 := reads_readField (by decide)
  have hguard : Reads (guard ((padTo 8 (cstr "MINIDB")).take 7 = cstr "MINIDB" ++ [0]) :
      Reader UInt8 Unit) [] () := by
    intro rest
    rw [guard, if_pos (by decide)]
    rfl
  have hread : Reads readDbHeader _ (pageSize, h) :=
    hmagic.bind (hguard.bind (hversion.bind
      ((reads_readField hps).bind ((reads_readField hh.rootIndexPageId).bind
      ((reads_readField hh.firstHeapPageId).bind ((reads_readField hh.nextPageId).bind
      ((reads_readField hh.freePageHead).bind ((reads_readField hh.nextId).bind
      ((reads_readField hh.rowCount).bind ((reads_readField hlen).bind
      ((reads_readField hh.rowSize).bind hmany.bind_pure)))))))))))
  have hrun := hread.run_append
    (List.replicate
        (sizeofColumnMeta * maxColumns - (h.columns.flatMap ColumnMeta.bytes).length) 0 ++
      List.replicate (n - (h.bytes pageSize).length) 0)
  rw [openHeader, padTo_eq hn, DbHeader.bytes, padTo_eq hcols]
  simpa only [List.append_assoc, List.nil_append, DbHeader.bytes, padTo_eq hcols] using hrun

end Header

/-! ## Pages -/

def SlotStatus.code : SlotStatus → Nat
  | .alive => 1
  | .free => 3

def SlotStatus.ofCode : Nat → Option SlotStatus
  | 1 => some .alive
  | 3 => some .free
  | _ => none

/-- The packed bytes of a `slot_t`. -/
def Slot.bytes (s : Slot) : List UInt8 :=
  littleEndian 2 s.offset ++ (littleEndian 2 s.status.code ++ (littleEndian 2 s.nextFree ++
    littleEndian 2 0))

/-- The packed bytes of a `leaf_entry_t`. -/
def leafEntryBytes (e : Nat × RowRef) : List UInt8 :=
  littleEndian 8 e.1 ++ (littleEndian 4 e.2.pageId ++ littleEndian 2 e.2.slotId)

/-- The packed bytes of an `internal_entry_t`. -/
def internalEntryBytes (e : Nat × Nat) : List UInt8 :=
  littleEndian 8 e.1 ++ littleEndian 4 e.2

/-- Where the slot directory of a heap page ends. -/
def HeapPage.directoryEnd (h : HeapPage) : Nat := heapHeaderSize + h.slots.length * slotSize

/-- The header and the slot directory of a heap page. -/
def HeapPage.directoryBytes (h : HeapPage) : List UInt8 :=
  littleEndian 4 2 ++ (littleEndian 4 h.nextHeapPageId ++ (littleEndian 2 h.slots.length ++
    (littleEndian 2 h.freeSlotHead ++ (littleEndian 2 h.freeSpaceOffset ++ (littleEndian 2 0 ++
    h.slots.flatMap Slot.bytes)))))

/-- The bytes of a page that mean something, in the order of `page_format.h`. -/
def Page.bytes : Page → List UInt8
  | .zero => littleEndian 4 0
  | .heap h => h.directoryBytes ++ h.data.drop h.directoryEnd
  | .leaf l =>
    littleEndian 4 3 ++ (littleEndian 4 l.parentPageId ++ (littleEndian 4 l.entries.length ++
      (littleEndian 4 l.nextLeafPageId ++ (littleEndian 4 l.prevLeafPageId ++
      l.entries.flatMap leafEntryBytes))))
  | .internal i =>
    littleEndian 4 4 ++ (littleEndian 4 i.parentPageId ++ (littleEndian 4 i.entries.length ++
      (littleEndian 4 i.leftmostChildPageId ++ i.entries.flatMap internalEntryBytes)))
  | .free next => littleEndian 4 5 ++ littleEndian 4 next

/-- These are the bytes of the page, with anything behind those that mean something. -/
def Page.Image (pageSize : Nat) (page : Page) (bytes : List UInt8) : Prop :=
  bytes.length = pageSize ∧ ∃ rest, bytes = page.bytes ++ rest

def readSlot : Reader UInt8 Slot := do
  let offset ← readField 2
  let code ← readField 2
  let nextFree ← readField 2
  let _reserved ← readField 2
  match SlotStatus.ofCode code with
  | some status => return { offset, status, nextFree }
  | none => failure

def readLeafEntry : Reader UInt8 (Nat × RowRef) := do
  let key ← readField 8
  let pageId ← readField 4
  let slotId ← readField 2
  return (key, ⟨pageId, slotId⟩)

def readInternalEntry : Reader UInt8 (Nat × Nat) := do
  let key ← readField 8
  let child ← readField 4
  return (key, child)

/-- A page, by its type code. The rows of a heap page are read at their offsets in `bytes`, the whole
page. -/
def readPageBytes (bytes : List UInt8) : Reader UInt8 Page := do
  match ← readField 4 with
  | 0 => return .zero
  | 2 =>
    let nextHeapPageId ← readField 4
    let slotCount ← readField 2
    let freeSlotHead ← readField 2
    let freeSpaceOffset ← readField 2
    let _reserved ← readField 2
    let slots ← readMany readSlot slotCount
    return .heap ⟨nextHeapPageId, freeSlotHead, freeSpaceOffset, slots, bytes⟩
  | 3 =>
    let parentPageId ← readField 4
    let keyCount ← readField 4
    let nextLeafPageId ← readField 4
    let prevLeafPageId ← readField 4
    let entries ← readMany readLeafEntry keyCount
    return .leaf ⟨parentPageId, nextLeafPageId, prevLeafPageId, entries⟩
  | 4 =>
    let parentPageId ← readField 4
    let keyCount ← readField 4
    let leftmostChildPageId ← readField 4
    let entries ← readMany readInternalEntry keyCount
    return .internal ⟨parentPageId, leftmostChildPageId, entries⟩
  | 5 =>
    let next ← readField 4
    return .free next
  | _ => failure

/-- The contents of a page of the file. -/
def decodePage (bytes : List UInt8) : Option Page :=
  ((readPageBytes bytes).run bytes).map Prod.fst

/-! ### What fits -/

/-- A slot that its structure can hold; `next_free` means something in a free slot only. -/
structure Slot.Storable (s : Slot) : Prop where
  offset : s.offset < 65536
  nextFree : s.status = .free → s.nextFree < 65536

/-- A heap page whose fields are inside their widths, with its directory inside the page. -/
structure HeapPage.Storable (pageSize : Nat) (h : HeapPage) : Prop where
  nextHeapPageId : h.nextHeapPageId < 2 ^ 32
  freeSlotHead : h.freeSlotHead < 65536
  freeSpaceOffset : h.freeSpaceOffset < 65536
  count : h.slots.length < 65536
  slots : ∀ s ∈ h.slots, s.Storable
  length : h.data.length = pageSize
  directory : h.directoryEnd ≤ pageSize

/-- A leaf whose fields are inside their widths, with its entries inside the page. -/
structure LeafPage.Storable (pageSize : Nat) (l : LeafPage) : Prop where
  parentPageId : l.parentPageId < 2 ^ 32
  nextLeafPageId : l.nextLeafPageId < 2 ^ 32
  prevLeafPageId : l.prevLeafPageId < 2 ^ 32
  count : l.entries.length < 2 ^ 32
  entries : ∀ e ∈ l.entries, e.1 < 2 ^ 64 ∧ e.2.pageId < 2 ^ 32 ∧ e.2.slotId < 65536
  fits : leafHeaderSize + l.entries.length * leafEntrySize ≤ pageSize

/-- An internal node whose fields are inside their widths, with its entries inside the page. -/
structure InternalPage.Storable (pageSize : Nat) (i : InternalPage) : Prop where
  parentPageId : i.parentPageId < 2 ^ 32
  leftmostChildPageId : i.leftmostChildPageId < 2 ^ 32
  count : i.entries.length < 2 ^ 32
  entries : ∀ e ∈ i.entries, e.1 < 2 ^ 64 ∧ e.2 < 2 ^ 32
  fits : internalHeaderSize + i.entries.length * internalEntrySize ≤ pageSize

/-- A page that the file can hold. -/
def Page.Storable (pageSize : Nat) : Page → Prop
  | .zero => 8 ≤ pageSize
  | .heap h => h.Storable pageSize
  | .leaf l => l.Storable pageSize
  | .internal i => i.Storable pageSize
  | .free next => 8 ≤ pageSize ∧ next < 2 ^ 32

/-- The two slots differ at most in the `next_free` of a live one. -/
structure Slot.Same (s t : Slot) : Prop where
  offset : t.offset = s.offset
  status : t.status = s.status
  nextFree : s.status = .free → t.nextFree = s.nextFree

/-- The two heap pages have the same fields, slots and bytes behind the directory. -/
structure HeapPage.Same (h k : HeapPage) : Prop where
  nextHeapPageId : k.nextHeapPageId = h.nextHeapPageId
  freeSlotHead : k.freeSlotHead = h.freeSlotHead
  freeSpaceOffset : k.freeSpaceOffset = h.freeSpaceOffset
  slots : List.Forall₂ Slot.Same h.slots k.slots
  data : k.data.drop h.directoryEnd = h.data.drop h.directoryEnd

/-- Pages that mean the same. -/
def Page.Same : Page → Page → Prop
  | .heap h, .heap k => h.Same k
  | page, page' => page' = page

section Pages

variable {pageSize : Nat} {page : Page} {bytes : List UInt8} {s : Slot}

/-- A field that overflows is read modulo its width. -/
theorem reads_readField_mod (n v : Nat) :
    Reads (readField n) (littleEndian n v) (v % 256 ^ n) := by
  have hvalue : ofLittleEndian (littleEndian n v) = v % 256 ^ n := by
    rw [ofLittleEndian_eq, littleEndian_eq, leValue_leBytes]
  have hread := (reads_takeSymbols (length_littleEndian n v)).bind_pure (g := ofLittleEndian)
  rwa [hvalue] at hread

theorem reads_readSlot (hs : s.Storable) :
    Reads readSlot s.bytes { s with nextFree := s.nextFree % 256 ^ 2 } := by
  have hcode : Reads (readField 2) (littleEndian 2 s.status.code) s.status.code := by
    apply reads_readField
    cases s.status <;> decide
  have hstatus : SlotStatus.ofCode s.status.code = some s.status := by
    cases s.status <;> rfl
  have hreserved : Reads (readField 2) (littleEndian 2 0) 0 := reads_readField (by decide)
  refine (reads_readField hs.offset).bind (hcode.bind ((reads_readField_mod 2 s.nextFree).bind ?_))
  intro rest
  rw [run_bind_of (hreserved rest), hstatus]
  rfl

theorem slot_same (hs : s.Storable) : s.Same { s with nextFree := s.nextFree % 256 ^ 2 } :=
  ⟨rfl, rfl, fun hfree => Nat.mod_eq_of_lt (hs.nextFree hfree)⟩

theorem length_slotBytes (s : Slot) : s.bytes.length = slotSize := by
  simp [Slot.bytes, slotSize]

theorem reads_readLeafEntry {e : Nat × RowRef}
    (he : e.1 < 2 ^ 64 ∧ e.2.pageId < 2 ^ 32 ∧ e.2.slotId < 65536) :
    Reads readLeafEntry (leafEntryBytes e) e :=
  (reads_readField he.1).bind ((reads_readField he.2.1).bind (reads_readField he.2.2).bind_pure)

theorem reads_readInternalEntry {e : Nat × Nat} (he : e.1 < 2 ^ 64 ∧ e.2 < 2 ^ 32) :
    Reads readInternalEntry (internalEntryBytes e) e :=
  (reads_readField he.1).bind (reads_readField he.2).bind_pure

theorem length_directoryBytes (h : HeapPage) : h.directoryBytes.length = h.directoryEnd := by
  have hslots : (h.slots.flatMap Slot.bytes).length = h.slots.length * slotSize :=
    length_flatMap_of_forall fun s _ => length_slotBytes s
  simp only [HeapPage.directoryBytes, List.length_append, length_littleEndian, hslots,
    HeapPage.directoryEnd, heapHeaderSize]
  omega

/-- A heap page is all of its bytes. -/
theorem length_heapBytes {h : HeapPage} (hs : h.Storable pageSize) :
    (Page.heap h).bytes.length = pageSize := by
  rw [Page.bytes, List.length_append, length_directoryBytes, List.length_drop, hs.length]
  exact Nat.add_sub_of_le hs.directory

/-- The bytes that mean something are inside the page. -/
theorem Page.Storable.length_le (h : page.Storable pageSize) : page.bytes.length ≤ pageSize := by
  cases page with
  | zero =>
    have hlen : 8 ≤ pageSize := h
    simp only [Page.bytes, length_littleEndian]
    omega
  | free next =>
    have hlen := h.1
    simp only [Page.bytes, List.length_append, length_littleEndian]
    omega
  | heap hph => exact (length_heapBytes h).le
  | leaf l =>
    have hfits := LeafPage.Storable.fits h
    have hentries : (l.entries.flatMap leafEntryBytes).length = l.entries.length * leafEntrySize :=
      length_flatMap_of_forall fun e _ => by simp [leafEntryBytes, leafEntrySize]
    simp only [Page.bytes, List.length_append, length_littleEndian, hentries]
    simp only [leafHeaderSize] at hfits
    omega
  | internal i =>
    have hfits := InternalPage.Storable.fits h
    have hentries : (i.entries.flatMap internalEntryBytes).length =
        i.entries.length * internalEntrySize :=
      length_flatMap_of_forall fun e _ => by simp [internalEntryBytes, internalEntrySize]
    simp only [Page.bytes, List.length_append, length_littleEndian, hentries]
    simp only [internalHeaderSize] at hfits
    omega

/-- **A page is read as it was written**, whatever the bytes behind those that mean something. -/
theorem Page.Storable.decodePage (h : page.Storable pageSize) (hb : page.Image pageSize bytes) :
    ∃ page', decodePage bytes = some page' ∧ page.Same page' := by
  obtain ⟨hlen, rest, hbytes⟩ := hb
  have hof : ∀ front back page', page.bytes = front ++ back →
      Reads (readPageBytes bytes) front page' → MiniDb.decodePage bytes = some page' := by
    intro front back page' hsplit hread
    have hrun := hread (back ++ rest)
    rw [← List.append_assoc, ← hsplit, ← hbytes] at hrun
    rw [MiniDb.decodePage, hrun]
    rfl
  have hcode : ∀ code < 6, Reads (readField 4) (littleEndian 4 code) code := fun code hlt =>
    reads_readField (hlt.trans (by decide))
  have hreserved : Reads (readField 2) (littleEndian 2 0) 0 := reads_readField (by decide)
  cases page with
  | zero =>
    refine ⟨.zero, hof _ [] _ (List.append_nil _).symm ?_, rfl⟩
    intro tail
    show (readPageBytes bytes).run (littleEndian 4 0 ++ tail) = _
    rw [readPageBytes, run_bind_of (hcode 0 (by decide) tail)]
    rfl
  | free next =>
    have hnext : next < 256 ^ 4 := h.2
    refine ⟨.free next, hof _ [] _ (List.append_nil _).symm ?_, rfl⟩
    exact (hcode 5 (by decide)).bind (reads_readField hnext).bind_pure
  | leaf l =>
    have hl : l.Storable pageSize := h
    have hentries : Reads (readMany readLeafEntry l.entries.length)
        (l.entries.flatMap leafEntryBytes) (l.entries.map id) :=
      reads_readMany fun e he => reads_readLeafEntry (hl.entries e he)
    rw [List.map_id] at hentries
    refine ⟨.leaf l, hof _ [] _ (List.append_nil _).symm ?_, rfl⟩
    exact (hcode 3 (by decide)).bind ((reads_readField hl.parentPageId).bind
      ((reads_readField hl.count).bind ((reads_readField hl.nextLeafPageId).bind
        ((reads_readField hl.prevLeafPageId).bind hentries.bind_pure))))
  | internal i =>
    have hi : i.Storable pageSize := h
    have hentries : Reads (readMany readInternalEntry i.entries.length)
        (i.entries.flatMap internalEntryBytes) (i.entries.map id) :=
      reads_readMany fun e he => reads_readInternalEntry (hi.entries e he)
    rw [List.map_id] at hentries
    refine ⟨.internal i, hof _ [] _ (List.append_nil _).symm ?_, rfl⟩
    exact (hcode 4 (by decide)).bind ((reads_readField hi.parentPageId).bind
      ((reads_readField hi.count).bind ((reads_readField hi.leftmostChildPageId).bind
        hentries.bind_pure)))
  | heap hph =>
    have hh : hph.Storable pageSize := h
    have hslots : Reads (readMany readSlot hph.slots.length) (hph.slots.flatMap Slot.bytes)
        (hph.slots.map fun s => { s with nextFree := s.nextFree % 256 ^ 2 }) :=
      reads_readMany fun s hs => reads_readSlot (hh.slots s hs)
    have hread : Reads (readPageBytes bytes) _ (.heap ⟨hph.nextHeapPageId, hph.freeSlotHead,
        hph.freeSpaceOffset, hph.slots.map fun s => { s with nextFree := s.nextFree % 256 ^ 2 },
        bytes⟩) :=
      (hcode 2 (by decide)).bind ((reads_readField hh.nextHeapPageId).bind
        ((reads_readField hh.count).bind ((reads_readField hh.freeSlotHead).bind
          ((reads_readField hh.freeSpaceOffset).bind (hreserved.bind hslots.bind_pure)))))
    refine ⟨_, hof _ (hph.data.drop hph.directoryEnd) _ rfl hread, rfl, rfl, rfl, ?_, ?_⟩
    · rw [List.forall₂_map_right_iff]
      exact List.forall₂_same.mpr fun s hs => slot_same (hh.slots s hs)
    · have hrest : rest = [] := by
        apply List.eq_nil_of_length_eq_zero
        rw [hbytes, List.length_append, length_heapBytes hh] at hlen
        omega
      show bytes.drop hph.directoryEnd = _
      rw [hbytes, hrest, List.append_nil, Page.bytes, ← length_directoryBytes, List.drop_left]

end Pages

end MiniDb
