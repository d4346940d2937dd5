import Mathlib.Data.List.Sort
import MiniDb.Server.LockTable
import MiniDb.Sql.Executor.Order
import MiniDb.Sql.Planner
import MiniDb.Storage.Bptree.RangeScan
import MiniDb.Storage.Heap.Operations

/-! # The executor

`executor.c`, function by function, on one statement at a time: what an access path does to the
heap, the index and the header. What the rest of the program decides while the statement runs is in
`ExecEnv`: how waits for locks end and which requests for memory are met. Results carry the rows and
counts that the source prints into its buffer, and its messages by what they say. -/

set_option autoImplicit false

namespace MiniDb

open Lib

/-! ## Results -/

/-- The messages of `exec_result_t`. -/
inductive ExecMessage where
  | tableExists (name : CString)
  | tableCreated (name : CString) (rowSize columns : Nat)
  | noTable
  | insertLockTimeout (id : Nat)
  | duplicateKey
  | inserted (id : Nat)
  | rowNotFound (id : Nat)
  | rowUnreadable
  | lookedUp
  | rangeAllocFailed
  | selected (count : Nat) (path : AccessPath)
  | counted (count : Nat)
  | noOrderColumn (name : CString)
  | orderLimitAllocFailed
  | orderAllocFailed
  | orderCollectAllocFailed
  | deleted (id : Nat)
  | deleteAllocFailed
  | scanLockTimeout (id : Nat)
  | deletedScan (count : Nat)
  | noUpdateColumn (name : CString)
  | systemColumn (name : CString)
  | notUpdated (id : Nat)
  | updated (id : Nat)
  | updateAllocFailed
  | updatedScan (count : Nat)
  | tableMissing (name : CString)
  | tableDropped (name : CString)
  | planned
  | syntaxError
  | rangeLockTimeout (low high : Nat)
  | rowLockTimeout (id : Nat)
  deriving DecidableEq, Repr

/-- What a statement prints: nothing, rows under their column names, a count, or a plan. -/
inductive ExecOutput where
  | none
  | rows (columns : List ColumnMeta) (rows : List RowValues)
  | count (n : Nat)
  | plan (path : AccessPath) (stmt : Statement)
  deriving DecidableEq, Repr

/-- `exec_result_t`. -/
structure ExecResult where
  status : Int
  message : ExecMessage
  output : ExecOutput
  deriving DecidableEq, Repr

/-- A result with status 0 and no output. -/
def ExecResult.done (message : ExecMessage) : ExecResult := ⟨0, message, .none⟩

/-- A result with status -1. -/
def ExecResult.failed (message : ExecMessage) : ExecResult := ⟨-1, message, .none⟩

/-- A result with status 0 and output. -/
def ExecResult.printed (message : ExecMessage) (output : ExecOutput) : ExecResult :=
  ⟨0, message, output⟩

/-- The surroundings of a statement: whether a wait for a lock ends with the lock, whether memory
for so many elements is to be had, and for the copy of a page of so many bytes, and how often
`heap_insert` may pass its label. -/
structure ExecEnv where
  lockAcquire : Nat → LockMode → Bool
  lockAcquireRange : Nat → Nat → LockMode → Bool
  alloc : Nat → Bool
  pageCopy : Nat → Nat → Bool
  rounds : Nat

/-- Undefined behaviour inside a computation without state. -/
def orUndefined {α : Type} : Option α → PagerM α
  | some a => pure a
  | none => failure

/-! ## CREATE TABLE -/

/-- The system column. -/
def idColumn : ColumnMeta :=
  { name := cstr "id", type := .bigint, size := 8, offset := 0, isSystem := true }

/-- `hdr->columns[hdr->column_count++] = *col`, which must stay inside the array. -/
def pushColumn (columns : List ColumnMeta) (col : ColumnMeta) : Option (List ColumnMeta) :=
  if columns.length < maxColumns then some (columns ++ [col]) else none

/-- The loop of `exec_create_table` over the parsed columns. -/
def registerColumns (columns : List ColumnMeta) : List ColumnDef → Option (List ColumnMeta)
  | [] => some columns
  | cd :: defs =>
    -- the system column is there already; a declared column of that name is skipped
    if cd.name = cstr "id" then registerColumns columns defs
    else do
      let columns ← pushColumn columns
        { name := cd.name, type := cd.type, size := cd.size, offset := 0, isSystem := false }
      registerColumns columns defs

/-- `exec_create_table`. -/
def execCreateTable (stmt : Statement) : PagerM ExecResult := do
  let hdr := (← get).header
  if hdr.columns ≠ [] then return .failed (.tableExists stmt.tableName)
  let columns ← orUndefined (registerColumns [idColumn] stmt.colDefs)
  let hdr := schemaComputeLayout { hdr with columns }
  modify (·.setHeader hdr)
  return .done (.tableCreated stmt.tableName hdr.rowSize hdr.columns.length)

/-! ## INSERT -/

/-- `values[i] = sv`, by the type of the column. -/
def ColumnType.ofText (sv : CString) : ColumnType → RowValue
  | .int => .int (atoi sv)
  | .bigint => .bigint (atoll sv)
  | .varchar => .varchar (sv.take 255)

/-- The loop of `exec_insert` that maps the given values to the columns behind the id; columns
without a value stay zero. -/
def assignValues : List ColumnMeta → List CString → RowValues
  | [], _ => []
  | col :: cols, [] => col.type.zero :: assignValues cols []
  | col :: cols, sv :: svs => col.type.ofText sv :: assignValues cols svs

/-- The values of a new row. -/
def insertRowValues (hdr : DbHeader) (id : Nat) (stmt : Statement) : RowValues :=
  .bigint (toI64 id) :: assignValues hdr.columns.tail stmt.insertValues

/-- `my_id = next_id++` under the header lock. Ids have 64 bits; what happens in a file that has
given out all of them is not followed. -/
def takeNextId : PagerM Nat := do
  let hdr := (← get).header
  guard (hdr.nextId + 1 < 2 ^ 64)
  modify (·.setHeader { hdr with nextId := hdr.nextId + 1 })
  return hdr.nextId

/-- `row_count++` under the header lock. -/
def incrementRowCount : PagerM Unit :=
  modify fun st => st.setHeader { st.header with rowCount := st.header.rowCount + 1 }

/-- `exec_insert`. -/
def execInsert (env : ExecEnv) (stmt : Statement) : PagerM ExecResult := do
  let hdr := (← get).header
  if hdr.columns = [] then return .failed .noTable
  -- the id is given out before the lock is asked for, and not taken back when that fails
  let myId ← takeNextId
  if !env.lockAcquire myId .x then return .failed (.insertLockTimeout myId)
  let row ← orUndefined (rowSerialize hdr (insertRowValues hdr myId stmt))
  let ref ← heapInsert env.rounds row
  let rc ← bptreeInsert myId ref
  -- the heap row stays where it is when the key is refused
  if rc ≠ 0 then return .failed .duplicateKey
  incrementRowCount
  return .done (.inserted myId)

/-! ## Predicates -/

/-- `apply_cmp_int` and `apply_cmp_bigint`. -/
def applyCmp (a b : Int) : CompareOp → Bool
  | .eq => a = b
  | .ne => a ≠ b
  | .lt => a < b
  | .gt => a > b
  | .le => a ≤ b
  | .ge => a ≥ b

/-- `apply_cmp_str`. -/
def applyCmpStr (a b : CString) (op : CompareOp) : Bool := applyCmp (strcmp a b) 0 op

/-- `values[0].bigint_val`. -/
def rowId (values : RowValues) : Int :=
  match values with
  | .bigint v :: _ => v
  | _ => 0

/-- The bounds check of `match_predicate` for an id range. -/
def matchIdRange (id : Int) (stmt : Statement) : Bool :=
  !(stmt.hasLo && if stmt.loInclusive then decide (id < toI64 stmt.rangeLo)
      else decide (id ≤ toI64 stmt.rangeLo)) &&
  !(stmt.hasHi && if stmt.hiInclusive then decide (id > toI64 stmt.rangeHi)
      else decide (id ≥ toI64 stmt.rangeHi))

/-- The comparison of a column with the text of the predicate. -/
def matchValue (op : CompareOp) (text : CString) : RowValue → Bool
  | .int v => applyCmp v (atoi text) op
  | .bigint v => applyCmp v (atoll text) op
  | .varchar s => applyCmpStr s text op

/-- The loop of `match_predicate`: the first column of that name decides. -/
def matchField (op : CompareOp) (field text : CString) : List ColumnMeta → RowValues → Bool
  | col :: cols, v :: values =>
    if col.name = field then matchValue op text v else matchField op field text cols values
  | _, _ => false

/-- `match_predicate`. -/
def matchPredicate (hdr : DbHeader) (values : RowValues) (stmt : Statement) : Bool :=
  match stmt.predicateKind with
  | .none => true
  | .idEq => rowId values == toI64 stmt.predId
  | .idRange => matchIdRange (rowId values) stmt
  | .fieldEq => matchField .eq stmt.predField stmt.predValue hdr.columns values
  | .fieldCmp => matchField stmt.predOp stmt.predField stmt.predValue hdr.columns values

/-! ## Scanning with a predicate -/

/-- A scan callback that deserializes the row, skips it if the predicate fails, and hands it on
otherwise. A context of `none` is a row that could not be read. -/
def onMatch {γ : Type} (hdr : DbHeader) (stmt : Statement)
    (push : RowValues → γ → Bool × Option γ) : ScanCallback (Option γ) :=
  fun row _ ctx =>
    match ctx, rowDeserialize hdr row with
    | some ctx, some values =>
      if matchPredicate hdr values stmt then push values ctx else (true, some ctx)
    | _, _ => (false, none)

/-- `heap_scan` with such a callback. -/
def scanMatching {γ : Type} (env : ExecEnv) (stmt : Statement)
    (push : RowValues → γ → Bool × Option γ) (ctx : γ) : PagerM γ := do
  let hdr := (← get).header
  orUndefined (← heapScan env.pageCopy hdr.rowSize (onMatch hdr stmt push) (some ctx))

/-- A `uint32_t` counts modulo this number. -/
def uint32Count : Nat := 4294967296

/-- An array that is grown by `realloc`: its elements, its capacity, and whether growing failed. -/
structure Collector (α : Type) where
  items : List α
  cap : Nat
  allocFailed : Bool
  deriving DecidableEq

/-- `arr[len++] = a`, with the array doubled when it is full; `initial` is its first capacity. The
capacity has 32 bits: when it wraps to 0, `realloc` frees the array, which is freed again behind it,
and what happens then is undefined. -/
def Collector.push {α : Type} (env : ExecEnv) (initial : Nat) (a : α) (c : Collector α) :
    Option (Bool × Collector α) :=
  if c.items.length ≥ c.cap then
    let cap := if c.cap = 0 then initial else c.cap * 2 % uint32Count
    if cap = 0 then none
    else if env.alloc cap then some (true, { c with items := c.items ++ [a], cap })
    else some (false, { c with cap, allocFailed := true })
  else some (true, { c with items := c.items ++ [a] })

/-- The collector before the first element. -/
def Collector.empty (α : Type) : Collector α := { items := [], cap := 0, allocFailed := false }

/-! ## SELECT -/

/-- `exec_index_lookup`. -/
def execIndexLookup (stmt : Statement) : PagerM ExecResult := do
  let hdr := (← get).header
  let some ref ← bptreeSearch stmt.predId | return .done (.rowNotFound stmt.predId)
  let some row ← heapFetch ref hdr.rowSize | return .failed .rowUnreadable
  let values ← orUndefined (rowDeserialize hdr row)
  -- `heap_fetch` hands the page over latched
  pagerUnlatchR ref.pageId
  return .printed .lookedUp (.rows hdr.columns [values])

/-- `range_collect_cb`. -/
def rangeCollectCb (env : ExecEnv) (limit : Nat) : RangeCallback (Option (Collector RowRef)) :=
  fun _ ref rc =>
    match rc.bind (Collector.push env 256 ref) with
    | some (true, rc) => (!(limit ≠ 0 && rc.items.length ≥ limit), some rc)
    | some (false, rc) => (false, some rc)
    | none => (false, none)

/-- The bounds that `exec_index_range_scan` hands to the tree. -/
def Statement.keyRange (stmt : Statement) : KeyRange where
  hasLo := stmt.hasLo
  lo := stmt.rangeLo
  loInclusive := stmt.loInclusive
  hasHi := stmt.hasHi
  hi := stmt.rangeHi
  hiInclusive := stmt.hiInclusive

/-- Move the read latch to the page of the next reference, unless it is there already. -/
def latchRowPage (cur : Option Nat) (pid : Nat) : PagerM Unit := do
  match cur with
  | none => pagerGetPageRlatch pid
  | some curPid =>
    if pid ≠ curPid then
      pagerUnlatchR curPid
      pagerGetPageRlatch pid

/-- The second phase of `exec_index_range_scan`: the rows behind the collected references, as they
are now. -/
def fetchRange (hdr : DbHeader) : Option Nat → List RowRef → PagerM (List RowValues)
  | cur, [] => do
    if let some pid := cur then pagerUnlatchR pid
    return []
  | cur, ref :: refs => do
    latchRowPage cur ref.pageId
    let hph ← readHeap ref.pageId
    let slot ← orUndefined hph.slots[ref.slotId]?
    if slot.status = .alive then
      let row ← orUndefined (hph.readRow slot.offset hdr.rowSize)
      let values ← orUndefined (rowDeserialize hdr row)
      return values :: (← fetchRange hdr (some ref.pageId) refs)
    else
      -- the row went away between the two phases
      fetchRange hdr (some ref.pageId) refs

/-- The output of a SELECT: its header is printed with its first row. -/
def rowsOutput (hdr : DbHeader) (rows : List RowValues) : ExecOutput :=
  if rows = [] then .none else .rows hdr.columns rows

/-- `exec_index_range_scan`. -/
def execIndexRangeScan (env : ExecEnv) (stmt : Statement) : PagerM ExecResult := do
  let hdr := (← get).header
  if stmt.hasLimit ∧ stmt.limitCount = 0 then return .done (.selected 0 .indexRange)
  let limit := if stmt.hasLimit then stmt.limitCount else 0
  let rc ← orUndefined
    (← bptreeRangeScan stmt.keyRange (rangeCollectCb env limit) (some (Collector.empty RowRef)))
  if rc.allocFailed then return .failed .rangeAllocFailed
  let rows ← fetchRange hdr none rc.items
  return .printed (.selected rows.length .indexRange) (rowsOutput hdr rows)

/-- `find_column_index`. -/
def findColumnIndex (columns : List ColumnMeta) (name : CString) : Option Nat :=
  columns.findIdx? (·.name == name)

/-- `select_scan_cb`, from behind the predicate. -/
def selectPush (stmt : Statement) (values : RowValues) (rows : List RowValues) :
    Bool × Option (List RowValues) :=
  let rows := rows ++ [values]
  (!(stmt.hasLimit && decide (rows.length ≥ stmt.limitCount)), some rows)

/-- The rows that fit the memory requested for `cap` of them: `cap * MAX_COLUMNS` is computed in
32 bits. -/
def allocatedRows (cap : Nat) : Nat := cap * maxColumns % 2 ^ 32 / maxColumns

/-- `collect_scan_cb`, from behind the predicate. -/
def collectPush (env : ExecEnv) (values : RowValues) (rc : Collector RowValues) :
    Bool × Option (Collector RowValues) :=
  match rc.push env 256 values with
  | some (true, rc) =>
    if rc.items.length ≤ allocatedRows rc.cap then (true, some rc) else (false, none)
  | some (false, rc) => (false, some rc)
  | none => (false, none)

/-- `topk_scan_cb`, from behind the predicate. -/
def topkScanPush (cmp : RowValues → RowValues → Option Int) (limit : Nat) (values : RowValues)
    (rows : List RowValues) : Bool × Option (List RowValues) :=
  match topkPush cmp limit rows values with
  | some rows => if rows.length ≤ allocatedRows limit then (true, some rows) else (false, none)
  | none => (false, none)

/-- The last part of an ordered scan: sort the collected rows and print the first of them. -/
def printOrdered (hdr : DbHeader) (cmp : RowValues → RowValues → Option Int) (stmt : Statement)
    (rows : List RowValues) : PagerM ExecResult := do
  let sorted ←
    if rows.length > 1 then
      orUndefined (quicksortRowBlocks cmp (rows.length + 1) rows 0 (rows.length - 1))
    else pure rows
  let out := if stmt.hasLimit then sorted.take stmt.limitCount else sorted
  return .printed (.selected out.length .tableScan) (rowsOutput hdr out)

/-- The ORDER BY branch of `exec_table_scan`. -/
def execOrderedScan (env : ExecEnv) (stmt : Statement) : PagerM ExecResult := do
  let hdr := (← get).header
  match findColumnIndex hdr.columns stmt.orderByField with
  | none => return .failed (.noOrderColumn stmt.orderByField)
  | some colIdx =>
    let cmp := compareRowValues hdr.columns colIdx stmt.orderDesc
    if stmt.hasLimit then
      if !env.alloc stmt.limitCount then return .failed .orderLimitAllocFailed
      let rows ← scanMatching env stmt (topkScanPush cmp stmt.limitCount) []
      printOrdered hdr cmp stmt rows
    else
      if !env.alloc 256 then return .failed .orderAllocFailed
      let rc ← scanMatching env stmt (collectPush env)
        { items := [], cap := 256, allocFailed := false }
      if rc.allocFailed then return .failed .orderCollectAllocFailed
      printOrdered hdr cmp stmt rc.items

/-- `exec_table_scan`. -/
def execTableScan (env : ExecEnv) (stmt : Statement) : PagerM ExecResult := do
  let hdr := (← get).header
  if stmt.selectCount then
    if stmt.predicateKind = .none then
      -- the counter of the header answers, and no row is read
      return .printed (.counted hdr.rowCount) (.count hdr.rowCount)
    else
      let count ← scanMatching env stmt (fun _ n => (true, some (n + 1))) 0
      return .printed (.counted count) (.count count)
  else if stmt.hasLimit ∧ stmt.limitCount = 0 then return .done (.selected 0 .tableScan)
  else if stmt.hasOrderBy then execOrderedScan env stmt
  else
    let rows ← scanMatching env stmt (selectPush stmt) []
    return .printed (.selected rows.length .tableScan) (rowsOutput hdr rows)

/-! ## Locking the rows of a scan -/

/-- The loop of `lock_collected_ids` that keeps one of each run of equal ids. -/
def dropRepeats : List Nat → List Nat
  | [] => []
  | a :: l =>
    match dropRepeats l with
    | [] => [a]
    | b :: l => if a = b then b :: l else a :: b :: l

/-- `qsort` with `compare_u64`, and the repeats dropped. -/
def sortIds (ids : List Nat) : List Nat := dropRepeats (ids.mergeSort (· ≤ ·))

/-- `lock_collected_ids`: the locked ids, or the one that could not be locked. -/
def lockCollectedIds (env : ExecEnv) (ids : List Nat) (mode : LockMode) : Except Nat (List Nat) :=
  let ids := sortIds ids
  match ids.find? fun id => !env.lockAcquire id mode with
  | some failed => .error failed
  | none => .ok ids

/-- `fetch_matching_row_by_id`. -/
def fetchMatchingRowById (hdr : DbHeader) (id : Nat) (stmt : Statement) :
    PagerM (Option (RowRef × RowValues)) := do
  let some ref ← bptreeSearch id | return none
  let some row ← heapFetch ref hdr.rowSize | return none
  let values ← orUndefined (rowDeserialize hdr row)
  pagerUnlatchR ref.pageId
  return if matchPredicate hdr values stmt then some (ref, values) else none

/-- `delete_scan_cb` and `update_scan_cb`, from behind the predicate. -/
def idPush (env : ExecEnv) (values : RowValues) (ids : Collector Nat) :
    Bool × Option (Collector Nat) :=
  match ids.push env 64 (toU64 (rowId values)) with
  | some (more, ids) => (more, some ids)
  | none => (false, none)

/-! ## DELETE -/

/-- `row_count--` on a `uint64_t`. -/
def decrementRowCount : PagerM Unit :=
  modify fun st => st.setHeader { st.header with
    rowCount := if st.header.rowCount = 0 then 2 ^ 64 - 1 else st.header.rowCount - 1 }

/-- `exec_index_delete`. -/
def execIndexDelete (stmt : Statement) : PagerM ExecResult := do
  let some ref ← bptreeSearch stmt.predId | return .done (.rowNotFound stmt.predId)
  -- neither answer is looked at
  let _ ← heapDelete ref
  let _ ← bptreeDelete stmt.predId
  decrementRowCount
  return .done (.deleted stmt.predId)

/-- `heap_delete(ref) == 0 && bptree_delete(id) == 0`. -/
def deleteRow (ref : RowRef) (id : Nat) : PagerM Bool := do
  if (← heapDelete ref) = 0 then
    return (← bptreeDelete id) = 0
  else return false

/-- The second pass of `exec_delete_scan`: the number of rows deleted. -/
def deleteLocked (hdr : DbHeader) (stmt : Statement) : List Nat → PagerM Nat
  | [] => return 0
  | id :: ids => do
    match ← fetchMatchingRowById hdr id stmt with
    | none => deleteLocked hdr stmt ids
    | some (ref, _) =>
      if ← deleteRow ref id then
        decrementRowCount
        return (← deleteLocked hdr stmt ids) + 1
      else deleteLocked hdr stmt ids

/-- `exec_delete_scan`. -/
def execDeleteScan (env : ExecEnv) (stmt : Statement) : PagerM ExecResult := do
  let dc ← scanMatching env stmt (idPush env) (Collector.empty Nat)
  if dc.allocFailed then return .failed .deleteAllocFailed
  match lockCollectedIds env dc.items .x with
  | .error failed => return .failed (.scanLockTimeout failed)
  | .ok ids =>
    -- every lock is held before the first row goes, and each row is looked at again
    let count ← deleteLocked (← get).header stmt ids
    return .done (.deletedScan count)

/-! ## UPDATE -/

/-- `validate_update_target`: the column, or the failure. -/
def validateUpdateTarget (hdr : DbHeader) (stmt : Statement) : Except ExecMessage Nat :=
  match findColumnIndex hdr.columns stmt.updateField with
  | none => .error (.noUpdateColumn stmt.updateField)
  | some colIdx =>
    if hdr.columns[colIdx]?.any (·.isSystem) then .error (.systemColumn stmt.updateField)
    else .ok colIdx

/-- `apply_update_to_row`. -/
def applyUpdateToRow (hdr : DbHeader) (values : RowValues) (stmt : Statement) (colIdx : Nat) :
    Option RowValues := do
  let col ← hdr.columns[colIdx]?
  return values.set colIdx (col.type.ofText stmt.updateValue)

/-- The row written over its place: `memcpy(page + slot.offset, new_buf, row_size)` under the write
latch. -/
def overwriteRow (ref : RowRef) (row : List UInt8) : PagerM Unit := do
  pagerGetPageWlatch ref.pageId
  let hph ← readHeap ref.pageId
  let slot ← orUndefined hph.slots[ref.slotId]?
  let hph ← orUndefined (hph.writeRow slot.offset row)
  writePage ref.pageId (.heap hph)
  pagerMarkDirty ref.pageId
  pagerUnlatchW ref.pageId

/-- A row changed and written back. -/
def updateRow (hdr : DbHeader) (stmt : Statement) (colIdx : Nat) (ref : RowRef)
    (values : RowValues) : PagerM Unit := do
  let values ← orUndefined (applyUpdateToRow hdr values stmt colIdx)
  let row ← orUndefined (rowSerialize hdr values)
  overwriteRow ref row

/-- `exec_index_update`. -/
def execIndexUpdate (stmt : Statement) : PagerM ExecResult := do
  let hdr := (← get).header
  match validateUpdateTarget hdr stmt with
  | .error message => return .failed message
  | .ok colIdx =>
    let some ref ← bptreeSearch stmt.predId | return .done (.notUpdated stmt.predId)
    let some row ← heapFetch ref hdr.rowSize | return .failed .rowUnreadable
    let values ← orUndefined (rowDeserialize hdr row)
    pagerUnlatchR ref.pageId
    updateRow hdr stmt colIdx ref values
    return .done (.updated stmt.predId)

/-- The second pass of `exec_update_scan`: the number of rows written. -/
def updateLocked (hdr : DbHeader) (stmt : Statement) (colIdx : Nat) : List Nat → PagerM Nat
  | [] => return 0
  | id :: ids => do
    match ← fetchMatchingRowById hdr id stmt with
    | none => updateLocked hdr stmt colIdx ids
    | some (ref, values) =>
      updateRow hdr stmt colIdx ref values
      return (← updateLocked hdr stmt colIdx ids) + 1

/-- `exec_update_scan`. -/
def execUpdateScan (env : ExecEnv) (stmt : Statement) : PagerM ExecResult := do
  let hdr := (← get).header
  match validateUpdateTarget hdr stmt with
  | .error message => return .failed message
  | .ok colIdx =>
    let uc ← scanMatching env stmt (idPush env) (Collector.empty Nat)
    if uc.allocFailed then return .failed .updateAllocFailed
    match lockCollectedIds env uc.items .x with
    | .error failed => return .failed (.scanLockTimeout failed)
    | .ok ids =>
      let count ← updateLocked hdr stmt colIdx ids
      return .done (.updatedScan count)

/-! ## DROP TABLE -/

/-- The loop of `exec_drop_table`: every page that is not free yet is freed. -/
def freePages : List Nat → PagerM Unit
  | [] => return ()
  | pid :: pids => do
    pagerGetPage pid
    let page ← readPage pid
    pagerUnpin pid
    match page with
    | .free _ => freePages pids
    | _ =>
      pagerFreePage pid
      freePages pids

/-- A fresh page with these contents. -/
def allocPageWith (page : Nat → Page) : PagerM Nat := do
  let pid ← pagerAllocPage
  pagerGetPage pid
  writePage pid (page (← get).pageSize)
  pagerMarkDirty pid
  pagerUnpin pid
  return pid

/-- An empty heap page. -/
def emptyHeapPage (pageSize : Nat) : Page :=
  .heap
    { nextHeapPageId := 0
      freeSlotHead := slotNone
      freeSpaceOffset := 0
      slots := []
      data := List.replicate pageSize 0 }

/-- An empty leaf. -/
def emptyLeafPage : Page :=
  .leaf { parentPageId := 0, nextLeafPageId := 0, prevLeafPageId := 0, entries := [] }

/-- `exec_drop_table`. -/
def execDropTable (stmt : Statement) : PagerM ExecResult := do
  let hdr := (← get).header
  if hdr.columns = [] then return .failed (.tableMissing stmt.tableName)
  -- page 0 is the header; the two new pages come from the list that was just filled
  freePages (List.range' 1 (hdr.nextPageId - 1))
  let newHeap ← allocPageWith emptyHeapPage
  let newRoot ← allocPageWith fun _ => emptyLeafPage
  modify fun st => { st with
    header := { st.header with
      columns := []
      rowSize := 0
      rowCount := 0
      nextId := 1
      firstHeapPageId := newHeap
      rootIndexPageId := newRoot }
    lastHeapPageId := newHeap
    heapMayHaveFreeSlots := false }
  return .done (.tableDropped stmt.tableName)

/-! ## Dispatch -/

/-- `exec_explain`. -/
def execExplain (stmt : Statement) : PagerM ExecResult :=
  return .printed .planned (.plan (plannerCreatePlan stmt) stmt)

/-- `execute`. -/
def execute (env : ExecEnv) (stmt : Statement) : PagerM ExecResult :=
  if stmt.type = .explain then execExplain stmt
  else
    match plannerCreatePlan stmt with
    | .createTable => execCreateTable stmt
    | .insert => execInsert env stmt
    | .indexLookup => execIndexLookup stmt
    | .indexRange => execIndexRangeScan env stmt
    | .tableScan =>
      match stmt.type with
      | .delete => execDeleteScan env stmt
      | .update => execUpdateScan env stmt
      | _ => execTableScan env stmt
    | .indexDelete => execIndexDelete stmt
    | .indexUpdate => execIndexUpdate stmt
    | .dropTable => execDropTable stmt

end MiniDb
