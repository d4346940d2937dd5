import Mathlib.Data.Fintype.Basic
import Mathlib.Data.List.FinRange
import MiniDb.Lib.HashIndex
import MiniDb.Storage.Pager

/-! # The page cache

`pager.c` below the page interface: 256 frames in front of the file, a hash index from page ids to
frames, LRU replacement, and two flush loops. `Storage/Pager` is what its clients see of it.

The contents of a page are values of a type `β`; what the pager itself knows of them (a page of
zeros, the header page, the free-page header) is a `PageCodec`. The file is a function from page
ids to contents, and a page past its end is read as zeros.

Ticks and pin counts are natural numbers, so `UINT64_MAX`, the starting value of the search for the
least recently used frame, is above every tick. The statistics and the flush log are left out. -/

set_option autoImplicit false

namespace MiniDb

open Lib

/-- What the pager reads and writes in pages itself. -/
structure PageCodec (β : Type) where
  /-- `memset(page, 0, page_size)` -/
  zero : β
  /-- the header page: a copy of `db_header_t`, then zeros -/
  header : DbHeader → β
  /-- a free page: `free_page_header_t` with this `next_free_page`, then zeros -/
  free : Nat → β
  /-- `next_free_page` of a page read as a free page -/
  nextFree : β → Nat

/-- `MAX_FRAMES`. -/
def maxFrames : Nat := 256

/-- `FRAME_HASH_BUCKETS`. -/
def frameHashBuckets : Nat := 512

/-- `frame_t`; its `hash_next` is kept in the frame index. -/
structure Frame (β : Type) where
  pageId : Nat
  isValid : Bool
  isDirty : Bool
  /-- no more than the calls so far (`pinsUpTo_length`); the 32 bits of `pin_count` are not
  modelled and take `2 ^ 32` pins of one page -/
  pinCount : Nat
  usedTick : Nat
  data : β

/-- `pager_t` with its file. `index` is `frame_buckets` and the `hash_next` of each frame. -/
structure PageCache (β : Type) where
  header : DbHeader
  frames : Fin maxFrames → Frame β
  index : HashIndex (Fin frameHashBuckets) (Fin maxFrames)
  tick : Nat
  dirtyLowWatermark : Nat
  dirtyHighWatermark : Nat
  file : Nat → β

/-- The state of `pager_open` on a file with these contents and this header. -/
def PageCache.opened {β : Type} (codec : PageCodec β) (file : Nat → β) (header : DbHeader) :
    PageCache β where
  header := header
  frames _ :=
    { pageId := 0, isValid := false, isDirty := false, pinCount := 0, usedTick := 0,
      data := codec.zero }
  index := ⟨fun _ => none, fun _ => none⟩
  tick := 0
  dirtyLowWatermark := 16
  dirtyHighWatermark := 64
  file := file

section Cache

variable {β : Type}

namespace PageCache

/-- Replace a frame. -/
def setFrame (c : PageCache β) (i : Fin maxFrames) (f : Frame β) : PageCache β :=
  { c with frames := Function.update c.frames i f }

/-- `pager_raw_write`. -/
def rawWrite (c : PageCache β) (pid : Nat) (data : β) : PageCache β :=
  { c with file := Function.update c.file pid data }

end PageCache

/-! ## The frame index -/

/-- `frame_bucket`. -/
def frameBucket (pid : Nat) : Fin frameHashBuckets :=
  ⟨pid % frameHashBuckets, Nat.mod_lt _ (by decide)⟩

/-- `frame_index_insert`. -/
def frameIndexInsert (c : PageCache β) (i : Fin maxFrames) : PageCache β :=
  { c with index := c.index.insert (frameBucket (c.frames i).pageId) i }

/-- `frame_index_remove`. -/
def frameIndexRemove (c : PageCache β) (i : Fin maxFrames) : Option (PageCache β) := do
  let index ← c.index.remove (maxFrames + 1) (frameBucket (c.frames i).pageId) i
  return { c with index := index }

/-- `find_frame`: the frame of a page; the inner `none` is -1. -/
def findFrame (c : PageCache β) (pid : Nat) : Option (Option (Fin maxFrames)) :=
  c.index.find (maxFrames + 1) (frameBucket pid) fun i =>
    (c.frames i).isValid && (c.frames i).pageId == pid

/-! ## Replacement -/

/-- The search loop of `evict_frame` and of `pager_flush_dirty`: the first of the candidates with
the smallest tick. -/
def lruFrame (c : PageCache β) (candidate : Frame β → Bool) : Option (Fin maxFrames) :=
  (List.finRange maxFrames).foldl (fun best i =>
    if candidate (c.frames i) &&
        best.all fun b => decide ((c.frames i).usedTick < (c.frames b).usedTick) then some i
    else best) none

/-- Write a frame to the file; it is clean then. -/
def flushFrame (c : PageCache β) (i : Fin maxFrames) : PageCache β :=
  (c.rawWrite (c.frames i).pageId (c.frames i).data).setFrame i
    { c.frames i with isDirty := false }

/-- `evict_frame`: an invalid frame, or else the least recently used one that is not pinned, after
its contents have gone to the file. -/
def evictFrame (c : PageCache β) : Option (Option (Fin maxFrames) × PageCache β) :=
  match (List.finRange maxFrames).find? fun i => !(c.frames i).isValid with
  | some i => some (some i, c)
  | none =>
    match lruFrame c fun f => f.pinCount == 0 with
    | none => some (none, c)
    | some best => do
      let c := if (c.frames best).isDirty then flushFrame c best else c
      let c ← frameIndexRemove c best
      return (some best, c.setFrame best { c.frames best with isValid := false })

/-! ## The page interface -/

/-- `pager_get_page`: the frame whose data the returned pointer points to, `none` for `NULL`. -/
def PageCache.getPage (c : PageCache β) (pid : Nat) :
    Option (Option (Fin maxFrames) × PageCache β) := do
  match ← findFrame c pid with
  | some i =>
    let f := c.frames i
    return (some i,
      { c.setFrame i { f with pinCount := f.pinCount + 1, usedTick := c.tick + 1 } with
        tick := c.tick + 1 })
  | none =>
    match ← evictFrame c with
    | (none, c) => return (none, c)
    | (some i, c) =>
      -- `memset`, then a `pread` of the whole page
      let f : Frame β :=
        { pageId := pid, isValid := true, isDirty := false, pinCount := 1, usedTick := c.tick + 1,
          data := c.file pid }
      return (some i, frameIndexInsert { c.setFrame i f with tick := c.tick + 1 } i)

/-- `count_dirty`. -/
def countDirty (c : PageCache β) : Nat :=
  (List.finRange maxFrames).countP fun i => (c.frames i).isValid && (c.frames i).isDirty

/-- The loop of `pager_flush_dirty`, `n` rounds of it: a round without a candidate ends it. -/
def flushDirtyLoop : Nat → PageCache β → PageCache β
  | 0, c => c
  | n + 1, c =>
    match lruFrame c fun f => f.isValid && f.isDirty && f.pinCount == 0 with
    | none => c
    | some best => flushDirtyLoop n (flushFrame c best)

/-- `pager_flush_dirty`: each round takes one from the number of dirty frames. -/
def flushDirty (c : PageCache β) (targetCount : Nat) : PageCache β :=
  flushDirtyLoop (countDirty c - targetCount) c

/-- `pager_mark_dirty`. -/
def PageCache.markDirty (c : PageCache β) (pid : Nat) : Option (PageCache β) := do
  let c :=
    match ← findFrame c pid with
    | some i => c.setFrame i { c.frames i with isDirty := true }
    | none => c
  return if c.dirtyHighWatermark > 0 ∧ countDirty c ≥ c.dirtyHighWatermark then
      flushDirty c c.dirtyLowWatermark
    else c

/-- `pager_unpin`. -/
def PageCache.unpin (c : PageCache β) (pid : Nat) : Option (PageCache β) := do
  match ← findFrame c pid with
  | some i =>
    let f := c.frames i
    return if f.pinCount > 0 then c.setFrame i { f with pinCount := f.pinCount - 1 } else c
  | none => return c

/-- A client writes through the pointer to a frame's data. -/
def PageCache.writeAt (c : PageCache β) (i : Fin maxFrames) (data : β) : PageCache β :=
  c.setFrame i { c.frames i with data := data }

/-- `pager_alloc_page`. A `NULL` from `pager_get_page` is dereferenced: undefined behaviour. -/
def PageCache.allocPage (codec : PageCodec β) (c : PageCache β) : Option (Nat × PageCache β) := do
  if c.header.freePageHead ≠ 0 then
    let pid := c.header.freePageHead
    let (some i, c) ← c.getPage pid | none
    let next := codec.nextFree (c.frames i).data
    let c := { c with header := { c.header with freePageHead := next } }
    let c ← (c.writeAt i codec.zero).markDirty pid
    let c ← c.unpin pid
    return (pid, c)
  else
    let pid := c.header.nextPageId
    let c := { c with header := { c.header with nextPageId := (pid + 1) % pageIdCount } }
    let (some i, c) ← c.getPage pid | none
    let c ← (c.writeAt i codec.zero).markDirty pid
    let c ← c.unpin pid
    return (pid, c)

/-- `pager_free_page`. -/
def PageCache.freePage (codec : PageCodec β) (c : PageCache β) (pid : Nat) :
    Option (PageCache β) := do
  let (some i, c) ← c.getPage pid | none
  let c ← (c.writeAt i (codec.free c.header.freePageHead)).markDirty pid
  let c ← c.unpin pid
  return { c with header := { c.header with freePageHead := pid } }

/-- One round of the loop of `pager_flush_all`. -/
def flushIfDirty (c : PageCache β) (i : Fin maxFrames) : PageCache β :=
  if (c.frames i).isValid && (c.frames i).isDirty then flushFrame c i else c

/-- `pager_flush_all`: every dirty frame, then the header into page 0. -/
def PageCache.flushAll (codec : PageCodec β) (c : PageCache β) : PageCache β :=
  let c := (List.finRange maxFrames).foldl flushIfDirty c
  c.rawWrite 0 (codec.header c.header)

/-! ## Clients -/

/-- A client of the cache: the pager and the pointers its `pager_get_page` calls returned. -/
structure CacheSession (β : Type) where
  cache : PageCache β
  ptr : Nat → Option (Fin maxFrames)

/-- A call; `write` goes through the pointer to the page. -/
inductive CacheCall (β : Type) where
  | get (pid : Nat)
  | write (pid : Nat) (data : β)
  | markDirty (pid : Nat)
  | unpin (pid : Nat)
  | alloc
  | free (pid : Nat)
  | flushAll

/-- What a client sees: the contents of the page it got, the page it was given, and after
`pager_flush_all` the file. -/
inductive CacheReply (β : Type) where
  | page (data : β)
  | null
  | pid (pid : Nat)
  | file (file : Nat → β)
  | done

def CacheCall.exec (codec : PageCodec β) (call : CacheCall β) :
    StateT (CacheSession β) Option (CacheReply β) := fun s =>
  match call with
  | .get pid => do
    match ← s.cache.getPage pid with
    | (none, c) => return (.null, { s with cache := c })
    | (some i, c) =>
      return (.page (c.frames i).data,
        { cache := c, ptr := Function.update s.ptr pid (some i) })
  | .write pid data => do
    let some i := s.ptr pid | none
    return (.done, { s with cache := s.cache.writeAt i data })
  | .markDirty pid => do
    let c ← s.cache.markDirty pid
    return (.done, { s with cache := c })
  | .unpin pid => do
    let c ← s.cache.unpin pid
    return (.done, { s with cache := c })
  | .alloc => do
    let (pid, c) ← s.cache.allocPage codec
    return (.pid pid, { s with cache := c })
  | .free pid => do
    let c ← s.cache.freePage codec pid
    return (.done, { s with cache := c })
  | .flushAll =>
    let c := s.cache.flushAll codec
    return (.file c.file, { s with cache := c })

/-- The pager just opened on a file. -/
def CacheSession.opened (codec : PageCodec β) (file : Nat → β) (header : DbHeader) :
    CacheSession β where
  cache := .opened codec file header
  ptr _ := none

end Cache

/-! ## Pages as bytes -/

/-- The little-endian bytes of an `n`-byte integer. -/
def littleEndian : Nat → Nat → List UInt8
  | 0, _ => []
  | n + 1, v => (v % 256).toUInt8 :: littleEndian n (v / 256)

/-- The integer with these little-endian bytes. -/
def ofLittleEndian : List UInt8 → Nat
  | [] => 0
  | b :: bs => b.toNat + 256 * ofLittleEndian bs

/-- A byte string cut or filled with zeros to a length. -/
def padTo (n : Nat) (bytes : List UInt8) : List UInt8 :=
  bytes.take n ++ List.replicate (n - bytes.length) 0

/-- `column_type_t` values. -/
def ColumnType.code : ColumnType → Nat
  | .int => 1
  | .bigint => 2
  | .varchar => 3

/-- `sizeof(column_meta_t)`, which is packed. -/
def sizeofColumnMeta : Nat := 32 + 1 + 2 + 2 + 1

/-- The packed bytes of a `column_meta_t`. -/
def ColumnMeta.bytes (m : ColumnMeta) : List UInt8 :=
  padTo 32 m.name ++ littleEndian 1 m.type.code ++ littleEndian 2 m.size ++
    littleEndian 2 m.offset ++ littleEndian 1 m.isSystem.toNat

/-- The packed bytes of a `db_header_t`. -/
def DbHeader.bytes (pageSize : Nat) (h : DbHeader) : List UInt8 :=
  padTo 8 (cstr "MINIDB") ++ littleEndian 4 1 ++ littleEndian 4 pageSize ++
    littleEndian 4 h.rootIndexPageId ++ littleEndian 4 h.firstHeapPageId ++
    littleEndian 4 h.nextPageId ++ littleEndian 4 h.freePageHead ++ littleEndian 8 h.nextId ++
    littleEndian 8 h.rowCount ++ littleEndian 2 h.columns.length ++ littleEndian 2 h.rowSize ++
    padTo (sizeofColumnMeta * maxColumns) (h.columns.flatMap ColumnMeta.bytes)

/-- The codec of the file: pages are `pageSize` bytes. -/
def byteCodec (pageSize : Nat) : PageCodec (List UInt8) where
  zero := List.replicate pageSize 0
  header h := padTo pageSize (h.bytes pageSize)
  free next := padTo pageSize (littleEndian 4 5 ++ littleEndian 4 next)
  nextFree bytes := ofLittleEndian ((bytes.drop 4).take 4)

/-- The file as `pager_open` creates it. -/
def createdFile (pageSize : Nat) : Nat → List UInt8
  | 0 => (byteCodec pageSize).header (pagerOpenCreate pageSize).header
  | 1 => padTo pageSize (littleEndian 4 2 ++ littleEndian 4 0 ++ littleEndian 2 0 ++
      littleEndian 2 slotNone ++ littleEndian 2 0 ++ littleEndian 2 0)
  | 2 => padTo pageSize (littleEndian 4 3 ++ littleEndian 4 0 ++ littleEndian 4 0 ++
      littleEndian 4 0 ++ littleEndian 4 0)
  | _ => (byteCodec pageSize).zero

end MiniDb
