import Mathlib.Data.Nat.Notation

/-! # Page formats

The on-disk structures of `page_format.h`. A page is its decoded contents: the type code in the
first four bytes picks the constructor, an entry array with its `key_count` is a list, and the
slot directory of a heap page is a list next to the raw bytes the rows live in. Sizes and
capacities are computed from the packed C structs, so they are the source's numbers.

Page ids, keys and counters are natural numbers; where the width of a field matters (the
`uint16_t` offsets of a heap page, the 64-bit ids) the functions that compute it reduce
explicitly. -/

set_option autoImplicit false

namespace MiniDb

/-! ## Constants -/

/-- `sizeof(leaf_page_header_t)`. -/
def leafHeaderSize : Nat := 20

/-- `sizeof(leaf_entry_t)`: an 8-byte key and a 6-byte row reference. -/
def leafEntrySize : Nat := 14

/-- `sizeof(internal_page_header_t)`. -/
def internalHeaderSize : Nat := 16

/-- `sizeof(internal_entry_t)`: an 8-byte key and a 4-byte child page id. -/
def internalEntrySize : Nat := 12

/-- `sizeof(heap_page_header_t)`. -/
def heapHeaderSize : Nat := 16

/-- `sizeof(slot_t)`. -/
def slotSize : Nat := 8

/-- `SLOT_NONE`: the end of the free-slot chain. -/
def slotNone : Nat := 0xFFFF

/-- `MAX_COLUMNS`. -/
def maxColumns : Nat := 16

/-! ## Schema -/

/-- A C string: its bytes up to, and without, the terminating NUL. -/
abbrev CString := List UInt8

/-- The bytes of an ASCII literal. -/
def cstr (s : String) : CString := s.toList.map fun c => c.toNat.toUInt8

/-- `column_type_t`. -/
inductive ColumnType where
  | int
  | bigint
  | varchar
  deriving DecidableEq, Repr

/-- `column_meta_t`. -/
structure ColumnMeta where
  name : CString
  type : ColumnType
  size : Nat
  offset : Nat
  isSystem : Bool
  deriving DecidableEq, Repr

/-- `db_header_t`; `column_count` is the length of `columns`. -/
structure DbHeader where
  rootIndexPageId : Nat
  firstHeapPageId : Nat
  nextPageId : Nat
  freePageHead : Nat
  nextId : Nat
  rowCount : Nat
  rowSize : Nat
  columns : List ColumnMeta
  deriving DecidableEq, Repr

/-! ## Pages -/

/-- `row_ref_t`. -/
structure RowRef where
  pageId : Nat
  slotId : Nat
  deriving DecidableEq, Repr

/-- `SLOT_ALIVE` and `SLOT_FREE`. -/
inductive SlotStatus where
  | alive
  | free
  deriving DecidableEq, Repr

/-- `slot_t`. -/
structure Slot where
  offset : Nat
  status : SlotStatus
  nextFree : Nat
  deriving DecidableEq, Repr

/-- A heap page: `heap_page_header_t`, the slot directory (`slot_count` slots) and the bytes of
the page, in which the rows lie at the slots' offsets. -/
structure HeapPage where
  nextHeapPageId : Nat
  freeSlotHead : Nat
  freeSpaceOffset : Nat
  slots : List Slot
  data : List UInt8
  deriving DecidableEq, Repr

/-- A leaf node: `leaf_page_header_t` and its `key_count` entries. -/
structure LeafPage where
  parentPageId : Nat
  nextLeafPageId : Nat
  prevLeafPageId : Nat
  entries : List (Nat × RowRef)
  deriving DecidableEq, Repr

/-- An internal node: `internal_page_header_t` and its `key_count` entries, each a separator key
with the child on its right. -/
structure InternalPage where
  parentPageId : Nat
  leftmostChildPageId : Nat
  entries : List (Nat × Nat)
  deriving DecidableEq, Repr

/-- The contents of a page. `zero` is a page of zero bytes, which has no type yet. -/
inductive Page where
  | zero
  | heap (h : HeapPage)
  | leaf (l : LeafPage)
  | internal (i : InternalPage)
  | free (nextFreePage : Nat)
  deriving DecidableEq, Repr

/-- `max_leaf_keys`. -/
def maxLeafKeys (pageSize : Nat) : Nat := (pageSize - leafHeaderSize) / leafEntrySize

/-- `max_internal_keys`. -/
def maxInternalKeys (pageSize : Nat) : Nat := (pageSize - internalHeaderSize) / internalEntrySize

/-- `min_leaf_keys`. -/
def minLeafKeys (pageSize : Nat) : Nat := maxLeafKeys pageSize / 2

/-- `min_internal_keys`. -/
def minInternalKeys (pageSize : Nat) : Nat := maxInternalKeys pageSize / 2

example : maxLeafKeys 4096 = 291 ∧ maxInternalKeys 4096 = 340 := by decide

/-- A full entry array ends inside the page. -/
theorem maxLeafKeys_fits {pageSize : Nat} (h : 4096 ≤ pageSize) :
    leafHeaderSize + maxLeafKeys pageSize * leafEntrySize ≤ pageSize := by
  simp only [maxLeafKeys, leafHeaderSize, leafEntrySize]
  omega

theorem maxInternalKeys_fits {pageSize : Nat} (h : 4096 ≤ pageSize) :
    internalHeaderSize + maxInternalKeys pageSize * internalEntrySize ≤ pageSize := by
  simp only [maxInternalKeys, internalHeaderSize, internalEntrySize]
  omega

theorem minLeafKeys_ge {pageSize : Nat} (h : 4096 ≤ pageSize) : 145 ≤ minLeafKeys pageSize := by
  simp only [minLeafKeys, maxLeafKeys, leafHeaderSize, leafEntrySize]
  omega

theorem minInternalKeys_ge {pageSize : Nat} (h : 4096 ≤ pageSize) :
    170 ≤ minInternalKeys pageSize := by
  simp only [minInternalKeys, maxInternalKeys, internalHeaderSize, internalEntrySize]
  omega

theorem two_mul_minLeafKeys_le (pageSize : Nat) :
    2 * minLeafKeys pageSize ≤ maxLeafKeys pageSize := by
  simp only [minLeafKeys]
  omega

theorem two_mul_minInternalKeys_le (pageSize : Nat) :
    2 * minInternalKeys pageSize ≤ maxInternalKeys pageSize := by
  simp only [minInternalKeys]
  omega

end MiniDb
