import MiniDb.Lib.LinkedMemory
import MiniDb.Server.LockTable

/-! # The lock table in memory

`lock_table.c` once more, with its entries as blocks of memory: a bucket is a pointer to its first
entry, an entry points to its neighbours in its bucket or in the list of range locks, and to its
neighbours in the list of the thread that owns it. A pointer is an address, 0 is `NULL`. `none` is
a read or a write of memory that is not in use, or a loop that does not end.

The conflict rules, the waiting and the steps are those of the lock table with lists. -/

set_option autoImplicit false

namespace MiniDb

open Lib

/-! ## State -/

/-- `lock_entry_t`. -/
structure LockNode (τ : Type) where
  rowId : Nat
  rangeHigh : Nat
  mode : LockMode
  owner : τ
  isRange : Bool
  next : Nat
  prev : Nat
  ownerNext : Nat
  ownerPrev : Nat
  deriving DecidableEq

/-- `next` and `prev`: the list of a bucket, and that of the range locks. -/
def globalLinks (τ : Type) : Links (LockNode τ) where
  next := LockNode.next
  prev := LockNode.prev
  setNext a n := { n with next := a }
  setPrev a n := { n with prev := a }
  next_setNext _ _ := rfl
  prev_setNext _ _ := rfl
  next_setPrev _ _ := rfl
  prev_setPrev _ _ := rfl

/-- `owner_next` and `owner_prev`: the list of a thread. -/
def ownerLinks (τ : Type) : Links (LockNode τ) where
  next := LockNode.ownerNext
  prev := LockNode.ownerPrev
  setNext a n := { n with ownerNext := a }
  setPrev a n := { n with ownerPrev := a }
  next_setNext _ _ := rfl
  prev_setNext _ _ := rfl
  next_setPrev _ _ := rfl
  prev_setPrev _ _ := rfl

/-- `lock_table_t` and the memory of its entries, with `tls_held_locks` and `tls_held_lock_table`
of every thread (the latter is this table or `NULL`) and the calls that wait. -/
structure LockMem (τ : Type) where
  nodes : Memory (LockNode τ)
  buckets : Fin lockTableBuckets → Nat
  rangeLocks : Nat
  waitingWriters : Nat
  tlsHeldLocks : τ → Nat
  tlsHeldLockTable : τ → Bool
  waiting : τ → Option LockWait

namespace LockMem

/-- `lock_table_init`, before any thread has called. -/
def init (τ : Type) : LockMem τ where
  nodes := ∅
  buckets := fun _ => 0
  rangeLocks := 0
  waitingWriters := 0
  tlsHeldLocks := fun _ => 0
  tlsHeldLockTable := fun _ => false
  waiting := fun _ => none

section Code

variable {τ : Type} [DecidableEq τ]

/-! ## Loops over a list -/

/-- Walks from an entry to the first one with `p`; the loop ends within the blocks in use. -/
def findFrom (m : LockMem τ) (p : LockNode τ → Bool) (e : Nat) : Option Nat :=
  Lib.findFrom LockNode.next p m.nodes (m.nodes.keys.card + 1) e

/-- A loop that returns 1 at the first entry with `p`. -/
def anyFrom (m : LockMem τ) (p : LockNode τ → Bool) (e : Nat) : Option Bool := do
  return (← m.findFrom p e) ≠ 0

/-! ## Conflict checks -/

/-- `e->mode == LOCK_X || mode == LOCK_X`. -/
def excludes (e : LockNode τ) (mode : LockMode) : Bool := e.mode == .x || mode == .x

/-- `point_vs_point`. -/
def pointVsPoint (m : LockMem τ) (rowId : Nat) (mode : LockMode) (self : τ) : Option Bool :=
  m.anyFrom (fun e => e.rowId == rowId && e.owner != self && excludes e mode)
    (m.buckets (hashRowId rowId))

/-- `point_vs_range`. -/
def pointVsRange (m : LockMem τ) (key : Nat) (mode : LockMode) (self : τ) : Option Bool :=
  m.anyFrom (fun e => e.owner != self && decide (key ≥ e.rowId) && decide (key ≤ e.rangeHigh) &&
    excludes e mode) m.rangeLocks

/-- `range_vs_range`. -/
def rangeVsRange (m : LockMem τ) (low high : Nat) (mode : LockMode) (self : τ) : Option Bool :=
  m.anyFrom (fun e => e.owner != self && decide (low ≤ e.rangeHigh) && decide (e.rowId ≤ high) &&
    excludes e mode) m.rangeLocks

/-- `range_vs_point`. -/
def rangeVsPoint (m : LockMem τ) (low high : Nat) (mode : LockMode) (self : τ) : Option Bool :=
  (List.finRange lockTableBuckets).anyM fun i => m.anyFrom (fun e =>
    e.owner != self && decide (e.rowId ≥ low) && decide (e.rowId ≤ high) && excludes e mode)
    (m.buckets i)

/-- `conflict_exists`. -/
def conflictExists (m : LockMem τ) (rowId : Nat) (mode : LockMode) (self : τ) : Option Bool := do
  if ← m.pointVsPoint rowId mode self then return true
  m.pointVsRange rowId mode self

/-- `range_conflict_exists`. -/
def rangeConflictExists (m : LockMem τ) (low high : Nat) (mode : LockMode) (self : τ) :
    Option Bool := do
  if ← m.rangeVsRange low high mode self then return true
  m.rangeVsPoint low high mode self

/-- The conflict check of the call that waits. -/
def conflict (m : LockMem τ) (mode : LockMode) (self : τ) : LockRequest → Option Bool
  | .point rowId => m.conflictExists rowId mode self
  | .range low high => m.rangeConflictExists low high mode self

/-- `reader_should_wait`. -/
def readerShouldWait (m : LockMem τ) (mode : LockMode) : Bool :=
  mode == .s && decide (m.waitingWriters > 0)

/-! ## Waiting writers -/

/-- `waiting_writer_register`. -/
def waitingWriterRegister (m : LockMem τ) (w : LockWait) : LockMem τ × LockWait :=
  if w.registered then (m, w)
  else ({ m with waitingWriters := m.waitingWriters + 1 }, { w with registered := true })

/-- `waiting_writer_unregister`. -/
def waitingWriterUnregister (m : LockMem τ) (w : LockWait) : LockMem τ :=
  if w.registered then { m with waitingWriters := m.waitingWriters - 1 } else m

/-! ## Lists of entries -/

/-- `owner_list_push`. -/
def ownerListPush (m : LockMem τ) (self : τ) (e : Nat) : Option (LockMem τ) := do
  let nodes ← (ownerLinks τ).pushFront (m.tlsHeldLocks self) e m.nodes
  return { m with
    nodes
    tlsHeldLocks := Function.update m.tlsHeldLocks self e
    tlsHeldLockTable := Function.update m.tlsHeldLockTable self true }

/-- `global_list_insert_point`. -/
def globalListInsertPoint (m : LockMem τ) (bucket : Fin lockTableBuckets) (e : Nat) :
    Option (LockMem τ) := do
  let nodes ← m.nodes.modify e fun n => { n with isRange := false }
  let nodes ← (globalLinks τ).pushFront (m.buckets bucket) e nodes
  return { m with nodes, buckets := Function.update m.buckets bucket e }

/-- `global_list_insert_range`. -/
def globalListInsertRange (m : LockMem τ) (e : Nat) : Option (LockMem τ) := do
  let nodes ← m.nodes.modify e fun n => { n with isRange := true }
  let nodes ← (globalLinks τ).pushFront m.rangeLocks e nodes
  return { m with nodes, rangeLocks := e }

/-- `global_list_remove`. The first entry of a list hands the head on. -/
def globalListRemove (m : LockMem τ) (e : Nat) : Option (LockMem τ) := do
  let n ← m.nodes.lookup e
  let nodes ← (globalLinks τ).unlink e m.nodes
  return { m with
    nodes
    buckets :=
      if n.prev = 0 ∧ n.isRange = false then
        Function.update m.buckets (hashRowId n.rowId) n.next
      else m.buckets
    rangeLocks := if n.prev = 0 ∧ n.isRange = true then n.next else m.rangeLocks }

/-- `calloc`, and the fields of the new entry. -/
def newEntry (m : LockMem τ) (addr rowId rangeHigh : Nat) (mode : LockMode) (owner : τ) :
    LockMem τ :=
  { m with nodes := m.nodes.insert addr ⟨rowId, rangeHigh, mode, owner, false, 0, 0, 0, 0⟩ }

/-- `free`. -/
def free (m : LockMem τ) (e : Nat) : LockMem τ := { m with nodes := m.nodes.erase e }

/-! ## Critical sections -/

/-- The end of `lock_acquire` when there is no entry of its own to upgrade. -/
def grantPoint (m : LockMem τ) (self : τ) (w : LockWait) (rowId : Nat) (alloc : Option Nat) :
    Option (LockReply × LockMem τ) :=
  match alloc with
  | none => some (.failed, m)
  | some ne => do
    let m := m.newEntry ne rowId 0 w.mode self
    let m ← m.globalListInsertPoint (hashRowId rowId) ne
    let m ← m.ownerListPush self ne
    return (.granted, m.waitingWriterUnregister w)

/-- The end of `lock_acquire_range`. -/
def grantRange (m : LockMem τ) (self : τ) (w : LockWait) (low high : Nat) (alloc : Option Nat) :
    Option (LockReply × LockMem τ) :=
  match alloc with
  | none => some (.failed, m)
  | some ne => do
    let m := m.newEntry ne low high w.mode self
    let m ← m.globalListInsertRange ne
    let m ← m.ownerListPush self ne
    return (.granted, m.waitingWriterUnregister w)

/-- What follows the wait loop. The pointer `e` was taken before the wait. -/
def lockGrant (m : LockMem τ) (self : τ) (w : LockWait) (alloc : Option Nat) :
    Option (LockReply × LockMem τ) :=
  match w.req with
  | .range low high => m.grantRange self w low high alloc
  | .point rowId =>
    match w.entry with
    | none => m.grantPoint self w rowId alloc
    | some e => do
      let n ← m.nodes.lookup e
      if n.rowId = rowId ∧ n.owner = self then
        let nodes ← m.nodes.modify e fun n => { n with mode := w.mode }
        return (.granted, waitingWriterUnregister { m with nodes } w)
      else
        m.grantPoint self w rowId alloc

/-- One round of the wait loop. -/
def lockWaitLoop (m : LockMem τ) (self : τ) (w : LockWait) (alloc : Option Nat) :
    Option (LockReply × LockMem τ) := do
  if (← m.conflict w.mode self w.req) || m.readerShouldWait w.mode then
    let (m, w) := if w.mode = .x then m.waitingWriterRegister w else (m, w)
    return (.blocked, { m with waiting := Function.update m.waiting self (some w) })
  else
    lockGrant { m with waiting := Function.update m.waiting self none } self w alloc

/-- `lock_acquire`, up to its first wait. -/
def lockAcquire (m : LockMem τ) (self : τ) (rowId : Nat) (mode : LockMode) (alloc : Option Nat) :
    Option (LockReply × LockMem τ) := do
  let e ← m.findFrom (fun e => e.rowId == rowId && e.owner == self) (m.buckets (hashRowId rowId))
  if e = 0 then
    m.lockWaitLoop self ⟨.point rowId, mode, false, none⟩ alloc
  else
    let n ← m.nodes.lookup e
    if n.mode = .x ∨ mode = .s then return (.granted, m)
    else m.lockWaitLoop self ⟨.point rowId, mode, false, some e⟩ alloc

/-- `lock_acquire_range`, up to its first wait. -/
def lockAcquireRange (m : LockMem τ) (self : τ) (low high : Nat) (mode : LockMode)
    (alloc : Option Nat) : Option (LockReply × LockMem τ) := do
  if ← m.anyFrom (fun e => e.owner == self && decide (e.rowId ≤ low) &&
      decide (e.rangeHigh ≥ high) && (e.mode == .x || mode == .s)) m.rangeLocks then
    return (.granted, m)
  else
    m.lockWaitLoop self ⟨.range low high, mode, false, none⟩ alloc

/-- `pthread_cond_timedwait` returns 0: the loop makes another round. -/
def lockWake (m : LockMem τ) (self : τ) (alloc : Option Nat) : Option (LockReply × LockMem τ) := do
  let w ← m.waiting self
  m.lockWaitLoop self w alloc

/-- `pthread_cond_timedwait` returns `ETIMEDOUT`. -/
def lockTimeout (m : LockMem τ) (self : τ) : Option (LockReply × LockMem τ) := do
  let w ← m.waiting self
  let m := m.waitingWriterUnregister w
  return (.failed, { m with waiting := Function.update m.waiting self none })

/-- The loop of `lock_release_all`. -/
def releaseFrom : Nat → LockMem τ → Nat → Option (LockMem τ)
  | 0, _, _ => none
  | fuel + 1, m, e =>
    if e = 0 then some m
    else do
      let n ← m.nodes.lookup e
      let m ← m.globalListRemove e
      releaseFrom fuel (m.free e) n.ownerNext

/-- `lock_release_all`. -/
def lockReleaseAll (m : LockMem τ) (self : τ) : Option (LockMem τ) :=
  if m.tlsHeldLockTable self then
    releaseFrom (m.nodes.keys.card + 1)
      { m with
        tlsHeldLocks := Function.update m.tlsHeldLocks self 0
        tlsHeldLockTable := Function.update m.tlsHeldLockTable self false }
      (m.tlsHeldLocks self)
  else some m

/-! ## Runs -/

/-- A thread that waits does nothing else, and `calloc` returns an address that is not in use. -/
def Enabled (a : LockAction τ) (m : LockMem τ) : Prop :=
  (match a with
    | .wake self _ | .timeout self => (m.waiting self).isSome
    | a => m.waiting a.self = none) ∧
  ∀ addr, a.alloc = some addr → addr ≠ 0 ∧ addr ∉ m.nodes

/-- The section as the code executes it. -/
def exec (m : LockMem τ) : LockAction τ → Option (LockReply × LockMem τ)
  | .acquire self rowId mode alloc => m.lockAcquire self rowId mode alloc
  | .acquireRange self low high mode alloc => m.lockAcquireRange self low high mode alloc
  | .wake self alloc => m.lockWake self alloc
  | .timeout self => m.lockTimeout self
  | .releaseAll self => (m.lockReleaseAll self).map fun m => (.granted, m)

/-- One step of the system. -/
def Step (m m' : LockMem τ) : Prop :=
  ∃ a : LockAction τ, Enabled a m ∧ ∃ r, m.exec a = some (r, m')

end Code

end LockMem

end MiniDb
