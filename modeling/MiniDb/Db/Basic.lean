import MiniDb.Sql.Executor.Basic
import MiniDb.Sql.Parser

/-! # Running a text

`db.c`: parse, lock, execute. The locks of one statement are asked for through `ExecEnv`; who else
holds locks, and that they are given back at the end, is not seen from here. -/

set_option autoImplicit false

namespace MiniDb

/-- `is_ddl`. -/
def isDdl (type : StatementType) : Bool := type == .createTable || type == .dropTable

/-- `lock_request_t` with `need_lock` set. -/
structure LockNeed where
  request : LockRequest
  mode : LockMode
  deriving DecidableEq, Repr

/-- The mode in which a statement of this type locks. -/
def lockModeOf : StatementType → Option LockMode
  | .select => some .s
  | .update => some .x
  | .delete => some .x
  | _ => none

/-- The bounds that `determine_lock` derives from a comparison with `val`. -/
def lockBounds (op : CompareOp) (val : Nat) : Option (Nat × Nat) :=
  match op with
  | .gt => some ((val + 1) % 2 ^ 64, 2 ^ 64 - 1)
  | .ge => some (val, 2 ^ 64 - 1)
  | .lt => some (1, if val > 1 then val - 1 else 0)
  | .le => some (1, val)
  | .ne => none
  | .eq => none

/-- `determine_lock`; `none` is `need_lock` 0. -/
def determineLock (stmt : Statement) : Option LockNeed := do
  let mode ← lockModeOf stmt.type
  if stmt.predicateKind = .idEq then
    return ⟨.point stmt.predId, mode⟩
  else if stmt.predicateKind = .fieldCmp ∧ stmt.predField = cstr "id" then
    let (low, high) ← lockBounds stmt.predOp (toU64 (atoll stmt.predValue))
    guard (low > 0 ∧ high ≥ low)
    return ⟨.range low high, mode⟩
  else none

/-- The wait for the lock of a statement. -/
def ExecEnv.lock (env : ExecEnv) (need : LockNeed) : Bool :=
  match need.request with
  | .point id => env.lockAcquire id need.mode
  | .range low high => env.lockAcquireRange low high need.mode

/-- The message when that wait is in vain. -/
def LockNeed.timeout (need : LockNeed) : ExecMessage :=
  match need.request with
  | .point id => .rowLockTimeout id
  | .range low high => .rangeLockTimeout low high

/-- `db_execute` from behind the parser. -/
def dbRun (env : ExecEnv) (stmt : Statement) : PagerM ExecResult :=
  match determineLock stmt with
  | none => execute env stmt
  | some need => if env.lock need then execute env stmt else return .failed need.timeout

/-- `db_execute`. -/
def dbExecute (env : ExecEnv) (sql : CString) : PagerM ExecResult :=
  match parse sql with
  | .ok stmt => dbRun env stmt
  | .error .reject => return .failed .syntaxError
  | .error .outOfBounds => failure

end MiniDb
