import MiniDb.Db.Basic

/-! # Clients

Any number of threads inside `db_execute` at a time. Where a thread stands in its call is a value of
`Client`; `Client.instr` is the piece of code it executes next: a call into the lock table, the
engine lock, or a piece of work on the file. Between two pieces any other thread may act. The pieces
are those of `executor.c`: an id is taken, the heap is written, the index is searched or written, a
row is read, a page of a scan is visited, the row count is changed. SELECT, DDL and EXPLAIN take no
lock of a row while they run; they are one piece.

The runs are those in which the pieces do not overlap: while one thread is inside `heap_insert`,
`bptree_insert` or another of them, no other thread is. The latches do not see to this in every run.
A leaf that `bptree_insert` splits, or `bptree_delete` merges, has its right neighbour's header
rewritten on a pin only (`Storage/Bptree/LatchDiscipline.lean` says when), and an insertion into this
neighbour can then be undone. What is proved of the clients is what the locks of rows and the engine
lock are for, given work on the file that does not run at once. -/

set_option autoImplicit false

namespace MiniDb

open Lib

/-! ## The state of a call -/

/-- What a scan is for: `exec_delete_scan`, or `exec_update_scan` with the column it writes. -/
inductive ScanJob where
  | delete (stmt : Statement)
  | update (stmt : Statement) (colIdx : Nat)

/-- The statement of a scan. -/
def ScanJob.stmt : ScanJob → Statement
  | .delete stmt => stmt
  | .update stmt _ => stmt

/-- The message of a scan that has changed so many rows. -/
def ScanJob.result (count : Nat) : ScanJob → ExecResult
  | .delete _ => .done (.deletedScan count)
  | .update _ _ => .done (.updatedScan count)

/-- The message when the array of ids cannot grow. -/
def ScanJob.allocFailed : ScanJob → ExecResult
  | .delete _ => .failed .deleteAllocFailed
  | .update _ _ => .failed .updateAllocFailed

/-- Where a thread stands in `db_execute`. -/
inductive Client where
  /-- no call yet -/
  | idle
  /-- in the call of the lock table that `determine_lock` asks for -/
  | locking (stmt : Statement) (need : LockNeed)
  /-- at the engine lock -/
  | entering (stmt : Statement)
  /-- at the start of `execute` -/
  | executing (stmt : Statement)
  -- `exec_insert`
  | insertLocking (stmt : Statement) (id : Nat)
  | insertHeap (stmt : Statement) (id : Nat)
  | insertTree (id : Nat) (ref : RowRef)
  | insertCount (id : Nat)
  -- `exec_index_delete`, behind the search
  | deleteHeap (id : Nat) (ref : RowRef)
  | deleteTree (id : Nat) (ref : RowRef)
  | deleteCount (id : Nat)
  -- `exec_index_update`, behind the search
  | updateFetch (stmt : Statement) (colIdx : Nat) (ref : RowRef)
  | updateWrite (stmt : Statement) (colIdx : Nat) (ref : RowRef) (values : RowValues)
  /-- the first pass of a scan, before a page of the heap -/
  | collecting (job : ScanJob) (pid : Nat) (ids : Collector Nat)
  /-- `lock_collected_ids`, at `id`, with `rest` still to come -/
  | scanLocking (job : ScanJob) (ids : List Nat) (id : Nat) (rest : List Nat)
  /-- the second pass, at `id`; `count` rows have been changed -/
  | scanSearch (job : ScanJob) (id : Nat) (ids : List Nat) (count : Nat)
  | scanFetch (job : ScanJob) (id : Nat) (ref : RowRef) (ids : List Nat) (count : Nat)
  | scanDeleteHeap (stmt : Statement) (id : Nat) (ref : RowRef) (ids : List Nat) (count : Nat)
  | scanDeleteTree (stmt : Statement) (id : Nat) (ref : RowRef) (ids : List Nat) (count : Nat)
  | scanDeleteCount (stmt : Statement) (id : Nat) (ids : List Nat) (count : Nat)
  | scanWrite (stmt : Statement) (colIdx : Nat) (id : Nat) (ref : RowRef) (values : RowValues)
      (ids : List Nat) (count : Nat)
  /-- behind `execute`, inside the engine lock as its writer or as a reader -/
  | unlocking (ddl : Bool) (res : ExecResult)
  /-- before `lock_release_all` -/
  | releasing (res : ExecResult)
  /-- the call has returned -/
  | returned (res : ExecResult)

/-- No call is running. -/
def Client.Quiet : Client → Prop
  | .idle | .returned _ => True
  | _ => False

/-- The thread is inside the engine lock, as a reader or as the writer. -/
def Client.InEngine : Client → Option Bool
  | .idle | .locking .. | .entering _ | .releasing _ | .returned _ => none
  | .executing stmt => some (isDdl stmt.type)
  | .unlocking ddl _ => some ddl
  | _ => some false

/-- The next id of `lock_collected_ids`, or the second pass. -/
def Client.lockNext (job : ScanJob) (ids : List Nat) : List Nat → Client
  | id :: rest => .scanLocking job ids id rest
  | [] =>
    match ids with
    | id :: ids => .scanSearch job id ids 0
    | [] => .unlocking false (job.result 0)

/-- The next row of the second pass, or its end. -/
def Client.nextRow (job : ScanJob) (count : Nat) : List Nat → Client
  | id :: ids => .scanSearch job id ids count
  | [] => .unlocking false (job.result count)

/-! ## The pieces of code -/

/-- The start of the first pass. -/
def startCollecting (job : ScanJob) : PagerM Client := do
  return .collecting job (← get).header.firstHeapPageId (Collector.empty Nat)

/-- The end of the first pass, and the sorting in `lock_collected_ids`. -/
def endCollecting (job : ScanJob) (ids : Collector Nat) : Client :=
  if ids.allocFailed then .unlocking false job.allocFailed
  else .lockNext job (sortIds ids.items) (sortIds ids.items)

/-- The start of `exec_insert`. -/
def startInsert (stmt : Statement) : PagerM Client := do
  if (← get).header.columns = [] then return .unlocking false (.failed .noTable)
  return .insertLocking stmt (← takeNextId)

/-- The start of `exec_index_delete`. -/
def startIndexDelete (stmt : Statement) : PagerM Client := do
  let some ref ← bptreeSearch stmt.predId | return .unlocking false (.done (.rowNotFound stmt.predId))
  return .deleteHeap stmt.predId ref

/-- The start of `exec_index_update`. -/
def startIndexUpdate (stmt : Statement) : PagerM Client := do
  match validateUpdateTarget (← get).header stmt with
  | .error message => return .unlocking false (.failed message)
  | .ok colIdx =>
    let some ref ← bptreeSearch stmt.predId | return .unlocking false (.done (.notUpdated stmt.predId))
    return .updateFetch stmt colIdx ref

/-- The start of `exec_update_scan`. -/
def startUpdateScan (stmt : Statement) : PagerM Client := do
  match validateUpdateTarget (← get).header stmt with
  | .error message => return .unlocking false (.failed message)
  | .ok colIdx => startCollecting (.update stmt colIdx)

/-- The start of `execute`; the paths that lock no row are executed to their end. -/
def startExecute (env : ExecEnv) (stmt : Statement) : PagerM Client :=
  if stmt.type = .explain then return .unlocking (isDdl stmt.type) (← execute env stmt)
  else
    match plannerCreatePlan stmt with
    | .insert => startInsert stmt
    | .indexDelete => startIndexDelete stmt
    | .indexUpdate => startIndexUpdate stmt
    | .tableScan =>
      match stmt.type with
      | .delete => startCollecting (.delete stmt)
      | .update => startUpdateScan stmt
      | _ => return .unlocking (isDdl stmt.type) (← execute env stmt)
    | _ => return .unlocking (isDdl stmt.type) (← execute env stmt)

/-- What a thread executes next. -/
inductive Instr where
  /-- a call into the lock table, and how its outcome is used -/
  | lock (req : LockRequest) (mode : LockMode) (next : Bool → Client)
  /-- `pthread_rwlock_wrlock` or `pthread_rwlock_rdlock` of the engine lock -/
  | enter (ddl : Bool) (next : Client)
  /-- a piece of work on the file, with no other at the same time -/
  | act (m : PagerM Client)
  /-- `lock_release_all` -/
  | release (next : Client)
  | none

/-- The code at the place where the thread stands. -/
def Client.instr (env : ExecEnv) : Client → Instr
  | .locking stmt need => .lock need.request need.mode fun ok =>
      if ok then .entering stmt else .returned (.failed need.timeout)
  | .entering stmt => .enter (isDdl stmt.type) (.executing stmt)
  | .executing stmt => .act (startExecute env stmt)
  | .insertLocking stmt id => .lock (.point id) .x fun ok =>
      if ok then .insertHeap stmt id else .unlocking false (.failed (.insertLockTimeout id))
  | .insertHeap stmt id => .act do
      let row ← orUndefined
        (rowSerialize (← get).header (insertRowValues (← get).header id stmt))
      return .insertTree id (← heapInsert env.rounds row)
  | .insertTree id ref => .act do
      if (← bptreeInsert id ref) ≠ 0 then return .unlocking false (.failed .duplicateKey)
      return .insertCount id
  | .insertCount id => .act do
      incrementRowCount
      return .unlocking false (.done (.inserted id))
  | .deleteHeap id ref => .act do
      let _ ← heapDelete ref
      return .deleteTree id ref
  | .deleteTree id _ => .act do
      let _ ← bptreeDelete id
      return .deleteCount id
  | .deleteCount id => .act do
      decrementRowCount
      return .unlocking false (.done (.deleted id))
  | .updateFetch stmt colIdx ref => .act do
      let hdr := (← get).header
      let some row ← heapFetch ref hdr.rowSize | return .unlocking false (.failed .rowUnreadable)
      let values ← orUndefined (rowDeserialize hdr row)
      pagerUnlatchR ref.pageId
      return .updateWrite stmt colIdx ref values
  | .updateWrite stmt colIdx ref values => .act do
      updateRow (← get).header stmt colIdx ref values
      return .unlocking false (.done (.updated stmt.predId))
  | .collecting job pid ids => .act do
      if pid = 0 then return endCollecting job ids
      let hdr := (← get).header
      let ((more, ctx), next) ←
        scanPage env.pageCopy hdr.rowSize (onMatch hdr job.stmt (idPush env)) pid (some ids)
      let ids ← orUndefined ctx
      if more then return .collecting job next ids
      return endCollecting job ids
  | .scanLocking job ids id rest => .lock (.point id) .x fun ok =>
      if ok then .lockNext job ids rest else .unlocking false (.failed (.scanLockTimeout id))
  | .scanSearch job id ids count => .act do
      let some ref ← bptreeSearch id | return .nextRow job count ids
      return .scanFetch job id ref ids count
  | .scanFetch job id ref ids count => .act do
      let hdr := (← get).header
      let some row ← heapFetch ref hdr.rowSize | return .nextRow job count ids
      let values ← orUndefined (rowDeserialize hdr row)
      pagerUnlatchR ref.pageId
      if matchPredicate hdr values job.stmt then
        match job with
        | .delete stmt => return .scanDeleteHeap stmt id ref ids count
        | .update stmt colIdx => return .scanWrite stmt colIdx id ref values ids count
      else return .nextRow job count ids
  | .scanDeleteHeap stmt id ref ids count => .act do
      if (← heapDelete ref) = 0 then return .scanDeleteTree stmt id ref ids count
      return .nextRow (.delete stmt) count ids
  | .scanDeleteTree stmt id _ ids count => .act do
      if (← bptreeDelete id) = 0 then return .scanDeleteCount stmt id ids count
      return .nextRow (.delete stmt) count ids
  | .scanDeleteCount stmt _ ids count => .act do
      decrementRowCount
      return .nextRow (.delete stmt) (count + 1) ids
  | .scanWrite stmt colIdx _ ref values ids count => .act do
      updateRow (← get).header stmt colIdx ref values
      return .nextRow (.update stmt colIdx) (count + 1) ids
  | .unlocking _ res => .act (return .releasing res)
  | .releasing res => .release (.returned res)
  | .idle => .none
  | .returned _ => .none

/-- `db_execute`, up to its first piece of shared code. -/
def Client.start (sql : CString) : Option Client :=
  match parse sql with
  | .ok stmt =>
    match determineLock stmt with
    | some need => some (.locking stmt need)
    | none => some (.entering stmt)
  | .error .reject => some (.returned (.failed .syntaxError))
  | .error .outOfBounds => none

/-! ## What is written down about a run -/

/-- The change that a piece of code makes to the rows. -/
inductive RowChange where
  | inserted (id : Nat) (row : List UInt8)
  | assigned (id : Nat) (stmt : Statement) (colIdx : Nat)
  | deleted (id : Nat)

/-- An entry of the log. -/
inductive ClientEvent where
  | change (c : RowChange)
  | ret (res : ExecResult)

/-- The change that the next piece of code makes to the rows. -/
def Client.change (hdr : DbHeader) : Client → Option RowChange
  | .insertHeap stmt id => (rowSerialize hdr (insertRowValues hdr id stmt)).map (.inserted id)
  | .deleteHeap id _ => some (.deleted id)
  | .scanDeleteHeap _ id _ _ _ => some (.deleted id)
  | .updateWrite stmt colIdx _ _ => some (.assigned stmt.predId stmt colIdx)
  | .scanWrite stmt colIdx id _ _ _ _ => some (.assigned id stmt colIdx)
  | _ => none

/-- The call returns by getting here. -/
def Client.report : Client → Option ExecResult
  | .returned res => some res
  | _ => none

/-! ## Steps -/

/-- A lock table: its states, and how a critical section changes them. -/
structure LockImpl (τ : Type) where
  State : Type
  init : State
  Enabled : LockAction τ → State → Prop
  exec : State → LockAction τ → Option (LockReply × State)

/-- The lock table with entries in lists. -/
@[reducible] def listLocks (τ : Type) [DecidableEq τ] : LockImpl τ :=
  ⟨LockSys τ, lockTableInit τ, LockAction.Enabled, LockAction.exec⟩

/-- The section belongs to a call with this request: its first one, or one behind a wait. -/
def LockAction.Asks {τ : Type} (req : LockRequest) (mode : LockMode) : LockAction τ → Prop
  | .acquire _ rowId m _ => req = .point rowId ∧ m = mode
  | .acquireRange _ low high m _ => req = .range low high ∧ m = mode
  | .wake _ _ | .timeout _ => True
  | .releaseAll _ => False

/-- The file, the lock table and the threads, with a log of the changes and of the results. -/
structure DbSys (τ : Type) (L : Type) where
  pager : Pager
  locks : L
  clients : τ → Client
  log : List (τ × ClientEvent)

section Steps

variable {τ L : Type} [DecidableEq τ]

/-- The thread goes on at `c`. -/
def DbSys.goto (s : DbSys τ L) (t : τ) (c : Client) : DbSys τ L :=
  { s with
    clients := Function.update s.clients t c
    log := s.log ++ (((s.clients t).change s.pager.header).map (t, .change ·)).toList ++
      (c.report.map (t, .ret ·)).toList }

/-- The engine lock lets a reader in when there is no writer inside, a writer when nobody is. -/
def DbSys.EngineFree (s : DbSys τ L) (ddl : Bool) : Prop :=
  ∀ u inside, (s.clients u).InEngine = some inside → ddl = false ∧ inside = false

/-- The file at the start, with no call running. -/
def DbSys.init (I : LockImpl τ) (st : Pager) : DbSys τ I.State where
  pager := st
  locks := I.init
  clients := fun _ => .idle
  log := []

/-- A step of the thread `t`. -/
inductive DbSys.Step (I : LockImpl τ) (t : τ) (s : DbSys τ I.State) : DbSys τ I.State → Prop
  /-- a call begins -/
  | start (sql : CString) (c : Client) (quiet : (s.clients t).Quiet)
      (starts : Client.start sql = some c) : Step I t s (s.goto t c)
  /-- a critical section of the lock table that ends the call into it -/
  | lock (env : ExecEnv) {req : LockRequest} {mode : LockMode} {next : Bool → Client}
      (instr : (s.clients t).instr env = .lock req mode next) (a : LockAction τ)
      (self : a.self = t) (asks : a.Asks req mode) (enabled : I.Enabled a s.locks)
      {r : LockReply} {locks : I.State} (exec : I.exec s.locks a = some (r, locks))
      (done : r ≠ .blocked) :
      Step I t s (({ s with locks } : DbSys τ I.State).goto t (next (decide (r = .granted))))
  /-- one that leaves the thread waiting -/
  | wait (env : ExecEnv) {req : LockRequest} {mode : LockMode} {next : Bool → Client}
      (instr : (s.clients t).instr env = .lock req mode next) (a : LockAction τ)
      (self : a.self = t) (asks : a.Asks req mode) (enabled : I.Enabled a s.locks)
      {locks : I.State} (exec : I.exec s.locks a = some (.blocked, locks)) :
      Step I t s { s with locks }
  | enter (env : ExecEnv) {ddl : Bool} {next : Client}
      (instr : (s.clients t).instr env = .enter ddl next) (free : s.EngineFree ddl) :
      Step I t s (s.goto t next)
  | act (env : ExecEnv) {m : PagerM Client} (instr : (s.clients t).instr env = .act m)
      {c : Client} {pager : Pager} (run : m.run s.pager = some (c, pager)) :
      Step I t s { s.goto t c with pager }
  | release (env : ExecEnv) {next : Client} (instr : (s.clients t).instr env = .release next)
      (enabled : I.Enabled (.releaseAll t) s.locks) {r : LockReply} {locks : I.State}
      (exec : I.exec s.locks (.releaseAll t) = some (r, locks)) :
      Step I t s (({ s with locks } : DbSys τ I.State).goto t next)

/-- The states that steps of any threads, in any order, lead to. -/
def DbSys.Reach (I : LockImpl τ) (s s' : DbSys τ I.State) : Prop :=
  Relation.ReflTransGen (fun s s' => ∃ t, DbSys.Step I t s s') s s'

end Steps

end MiniDb
