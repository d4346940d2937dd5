import Mathlib.Data.List.FinRange
import Mathlib.Logic.Function.Basic
import MiniDb.Lib.LockSet

/-! # The lock table

`lock_table.c`: row locks in a hash table, range locks in a list, and a condition variable for
those who wait. Every critical section under `lt->mutex` is one step; the thread either returns
from the call or is left blocked in `pthread_cond_timedwait`, where it waits to be woken (by a
broadcast or for no reason) or to run into its deadline. Threads are values of any type.

An entry is known by its address. `calloc` may return any address that no live entry has, so freed
addresses come back, or none. `none` as the outcome of a step is a read of freed memory. -/

set_option autoImplicit false

namespace MiniDb

open Lib

/-! ## State -/

/-- `lock_mode_t`. -/
inductive LockMode where
  | s
  | x
  deriving DecidableEq, Repr

/-- `lock_entry_t` at its address. The links of its two lists are the lists below. -/
structure LockEntry (τ : Type) where
  addr : Nat
  rowId : Nat
  rangeHigh : Nat
  mode : LockMode
  owner : τ
  isRange : Bool
  deriving DecidableEq, Repr

/-- `LOCK_TABLE_BUCKETS`. -/
def lockTableBuckets : Nat := 256

/-- `hash_row_id`. -/
def hashRowId (rowId : Nat) : Fin lockTableBuckets :=
  ⟨rowId % lockTableBuckets, Nat.mod_lt _ (by decide)⟩

/-- `lock_table_t`, without the mutex and the condition variable. -/
structure LockTable (τ : Type) where
  buckets : Fin lockTableBuckets → List (LockEntry τ)
  rangeLocks : List (LockEntry τ)
  waitingWriters : Nat

/-- What a call of `lock_acquire` or `lock_acquire_range` asks for. -/
inductive LockRequest where
  | point (rowId : Nat)
  | range (low high : Nat)
  deriving DecidableEq, Repr

/-- The local variables of a call that waits: `waiting_writer` and, for a row lock, `e`, the
thread's own entry for the row. -/
structure LockWait where
  req : LockRequest
  mode : LockMode
  registered : Bool
  entry : Option Nat
  deriving DecidableEq, Repr

/-- The table with `tls_held_locks` of every thread and the calls that wait. -/
structure LockSys (τ : Type) where
  table : LockTable τ
  held : τ → List Nat
  waiting : τ → Option LockWait

/-- How a critical section ends: the call returns 0 or -1, or it waits. -/
inductive LockReply where
  | granted
  | failed
  | blocked
  deriving DecidableEq, Repr

/-- `lock_table_init`, before any thread has called. -/
def lockTableInit (τ : Type) : LockSys τ where
  table := { buckets := fun _ => [], rangeLocks := [], waitingWriters := 0 }
  held := fun _ => []
  waiting := fun _ => none

section Code

variable {τ : Type} [DecidableEq τ]

/-! ## Conflict checks -/

/-- `e->mode == LOCK_X || mode == LOCK_X`. -/
def LockEntry.excludes (e : LockEntry τ) (mode : LockMode) : Bool := e.mode == .x || mode == .x

/-- `point_vs_point`. -/
def pointVsPoint (lt : LockTable τ) (rowId : Nat) (mode : LockMode) (self : τ) : Bool :=
  (lt.buckets (hashRowId rowId)).any fun e => e.rowId == rowId && e.owner != self && e.excludes mode

/-- `point_vs_range`. -/
def pointVsRange (lt : LockTable τ) (key : Nat) (mode : LockMode) (self : τ) : Bool :=
  lt.rangeLocks.any fun e =>
    e.owner != self && decide (key ≥ e.rowId) && decide (key ≤ e.rangeHigh) && e.excludes mode

/-- `range_vs_range`. -/
def rangeVsRange (lt : LockTable τ) (low high : Nat) (mode : LockMode) (self : τ) : Bool :=
  lt.rangeLocks.any fun e =>
    e.owner != self && decide (low ≤ e.rangeHigh) && decide (e.rowId ≤ high) && e.excludes mode

/-- `range_vs_point`. -/
def rangeVsPoint (lt : LockTable τ) (low high : Nat) (mode : LockMode) (self : τ) : Bool :=
  (List.finRange lockTableBuckets).any fun i => (lt.buckets i).any fun e =>
    e.owner != self && decide (e.rowId ≥ low) && decide (e.rowId ≤ high) && e.excludes mode

/-- `conflict_exists`. -/
def conflictExists (lt : LockTable τ) (rowId : Nat) (mode : LockMode) (self : τ) : Bool :=
  pointVsPoint lt rowId mode self || pointVsRange lt rowId mode self

/-- `range_conflict_exists`. -/
def rangeConflictExists (lt : LockTable τ) (low high : Nat) (mode : LockMode) (self : τ) : Bool :=
  rangeVsRange lt low high mode self || rangeVsPoint lt low high mode self

/-- The conflict check of the call that waits. -/
def LockRequest.conflict (lt : LockTable τ) (mode : LockMode) (self : τ) : LockRequest → Bool
  | .point rowId => conflictExists lt rowId mode self
  | .range low high => rangeConflictExists lt low high mode self

/-- `reader_should_wait`. -/
def readerShouldWait (lt : LockTable τ) (mode : LockMode) : Bool :=
  mode == .s && decide (lt.waitingWriters > 0)

/-! ## Waiting writers -/

/-- `waiting_writer_register`. -/
def waitingWriterRegister (lt : LockTable τ) (w : LockWait) : LockTable τ × LockWait :=
  if w.registered then (lt, w)
  else ({ lt with waitingWriters := lt.waitingWriters + 1 }, { w with registered := true })

/-- `waiting_writer_unregister`. The broadcast at its end is not seen here: a thread that waits
may be woken at any time. -/
def waitingWriterUnregister (lt : LockTable τ) (w : LockWait) : LockTable τ :=
  if w.registered then { lt with waitingWriters := lt.waitingWriters - 1 } else lt

/-! ## Lists of entries -/

/-- All entries of the table. -/
def LockTable.entries (lt : LockTable τ) : List (LockEntry τ) :=
  (List.finRange lockTableBuckets).flatMap lt.buckets ++ lt.rangeLocks

/-- The table with `f` applied to every list. -/
def LockTable.mapLists (lt : LockTable τ) (f : List (LockEntry τ) → List (LockEntry τ)) :
    LockTable τ :=
  { lt with buckets := fun b => f (lt.buckets b), rangeLocks := f lt.rangeLocks }

/-- `global_list_insert_point`. -/
def globalListInsertPoint (lt : LockTable τ) (bucket : Fin lockTableBuckets) (e : LockEntry τ) :
    LockTable τ :=
  { lt with
    buckets := Function.update lt.buckets bucket ({ e with isRange := false } :: lt.buckets bucket) }

/-- `global_list_insert_range`. -/
def globalListInsertRange (lt : LockTable τ) (e : LockEntry τ) : LockTable τ :=
  { lt with rangeLocks := { e with isRange := true } :: lt.rangeLocks }

/-- `global_list_remove` of the entry at an address. -/
def globalListRemove (lt : LockTable τ) (addr : Nat) : LockTable τ :=
  lt.mapLists (·.filter (·.addr != addr))

/-- `e->mode = mode` through a pointer. -/
def LockTable.setMode (lt : LockTable τ) (addr : Nat) (mode : LockMode) : LockTable τ :=
  lt.mapLists (·.map fun e => if e.addr = addr then { e with mode := mode } else e)

/-- `owner_list_push`. -/
def ownerListPush (s : LockSys τ) (self : τ) (addr : Nat) : LockSys τ :=
  { s with held := Function.update s.held self (addr :: s.held self) }

/-! ## Critical sections -/

/-- The end of `lock_acquire` when there is no entry of its own to upgrade. When `calloc` fails
the writer stays counted as waiting. -/
def grantPoint (s : LockSys τ) (self : τ) (w : LockWait) (rowId : Nat) (alloc : Option Nat) :
    LockReply × LockSys τ :=
  match alloc with
  | none => (.failed, s)
  | some addr =>
    let ne : LockEntry τ := ⟨addr, rowId, 0, w.mode, self, false⟩
    let s := ownerListPush
      { s with table := globalListInsertPoint s.table (hashRowId rowId) ne } self addr
    (.granted, { s with table := waitingWriterUnregister s.table w })

/-- The end of `lock_acquire_range`. -/
def grantRange (s : LockSys τ) (self : τ) (w : LockWait) (low high : Nat) (alloc : Option Nat) :
    LockReply × LockSys τ :=
  match alloc with
  | none => (.failed, s)
  | some addr =>
    let ne : LockEntry τ := ⟨addr, low, high, w.mode, self, true⟩
    let s := ownerListPush { s with table := globalListInsertRange s.table ne } self addr
    (.granted, { s with table := waitingWriterUnregister s.table w })

/-- What follows the wait loop. The pointer `e` was taken before the wait. -/
def lockGrant (s : LockSys τ) (self : τ) (w : LockWait) (alloc : Option Nat) :
    Option (LockReply × LockSys τ) :=
  match w.req with
  | .range low high => some (grantRange s self w low high alloc)
  | .point rowId =>
    match w.entry with
    | none => some (grantPoint s self w rowId alloc)
    | some addr => do
      let e ← s.table.entries.find? (·.addr == addr)
      if e.rowId = rowId ∧ e.owner = self then
        let table := s.table.setMode addr w.mode
        return (.granted, { s with table := waitingWriterUnregister table w })
      else
        return grantPoint s self w rowId alloc

/-- One round of the wait loop: the thread blocks, or goes on to `lockGrant`. -/
def lockWaitLoop (s : LockSys τ) (self : τ) (w : LockWait) (alloc : Option Nat) :
    Option (LockReply × LockSys τ) :=
  if w.req.conflict s.table w.mode self || readerShouldWait s.table w.mode then
    let (table, w) := if w.mode = .x then waitingWriterRegister s.table w else (s.table, w)
    some (.blocked, { s with table, waiting := Function.update s.waiting self (some w) })
  else
    lockGrant { s with waiting := Function.update s.waiting self none } self w alloc

/-- `lock_acquire`, up to its first wait. -/
def lockAcquire (s : LockSys τ) (self : τ) (rowId : Nat) (mode : LockMode) (alloc : Option Nat) :
    Option (LockReply × LockSys τ) :=
  match (s.table.buckets (hashRowId rowId)).find? fun e => e.rowId == rowId && e.owner == self with
  | some e =>
    if e.mode = .x ∨ mode = .s then some (.granted, s)
    else lockWaitLoop s self ⟨.point rowId, mode, false, some e.addr⟩ alloc
  | none => lockWaitLoop s self ⟨.point rowId, mode, false, none⟩ alloc

/-- `lock_acquire_range`, up to its first wait. -/
def lockAcquireRange (s : LockSys τ) (self : τ) (low high : Nat) (mode : LockMode)
    (alloc : Option Nat) : Option (LockReply × LockSys τ) :=
  if s.table.rangeLocks.any fun e =>
      e.owner == self && decide (e.rowId ≤ low) && decide (e.rangeHigh ≥ high) &&
        (e.mode == .x || mode == .s) then
    some (.granted, s)
  else
    lockWaitLoop s self ⟨.range low high, mode, false, none⟩ alloc

/-- `pthread_cond_timedwait` returns 0: the loop makes another round. -/
def lockWake (s : LockSys τ) (self : τ) (alloc : Option Nat) : Option (LockReply × LockSys τ) := do
  let w ← s.waiting self
  lockWaitLoop s self w alloc

/-- `pthread_cond_timedwait` returns `ETIMEDOUT`. -/
def lockTimeout (s : LockSys τ) (self : τ) : Option (LockReply × LockSys τ) := do
  let w ← s.waiting self
  return (.failed, { s with
    table := waitingWriterUnregister s.table w
    waiting := Function.update s.waiting self none })

/-- `lock_release_all`. -/
def lockReleaseAll (s : LockSys τ) (self : τ) : LockSys τ :=
  { s with
    table := (s.held self).foldl globalListRemove s.table
    held := Function.update s.held self [] }

/-! ## Runs -/

/-- A critical section of a thread. -/
inductive LockAction (τ : Type) where
  | acquire (self : τ) (rowId : Nat) (mode : LockMode) (alloc : Option Nat)
  | acquireRange (self : τ) (low high : Nat) (mode : LockMode) (alloc : Option Nat)
  | wake (self : τ) (alloc : Option Nat)
  | timeout (self : τ)
  | releaseAll (self : τ)

/-- Who acts. -/
def LockAction.self : LockAction τ → τ
  | .acquire self .. | .acquireRange self .. | .wake self _ | .timeout self | .releaseAll self =>
    self

/-- The address `calloc` would return in the section. -/
def LockAction.alloc : LockAction τ → Option Nat
  | .acquire _ _ _ alloc | .acquireRange _ _ _ _ alloc | .wake _ alloc => alloc
  | .timeout _ | .releaseAll _ => none

/-- A thread that waits does nothing else, and `calloc` returns an address that is not in use. -/
def LockAction.Enabled (a : LockAction τ) (s : LockSys τ) : Prop :=
  (match a with
    | .wake self _ | .timeout self => (s.waiting self).isSome
    | a => s.waiting a.self = none) ∧
  ∀ addr, a.alloc = some addr → ∀ e ∈ s.table.entries, e.addr ≠ addr

/-- The section as the code executes it. -/
def LockAction.exec (s : LockSys τ) : LockAction τ → Option (LockReply × LockSys τ)
  | .acquire self rowId mode alloc => lockAcquire s self rowId mode alloc
  | .acquireRange self low high mode alloc => lockAcquireRange s self low high mode alloc
  | .wake self alloc => lockWake s self alloc
  | .timeout self => lockTimeout s self
  | .releaseAll self => some (.granted, lockReleaseAll s self)

/-- One step of the system. -/
def LockSys.Step (s s' : LockSys τ) : Prop :=
  ∃ a : LockAction τ, a.Enabled s ∧ ∃ r, a.exec s = some (r, s')

end Code

end MiniDb
