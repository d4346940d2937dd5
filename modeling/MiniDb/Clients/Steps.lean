import MiniDb.Clients.Basic
import MiniDb.Lib.Runs
import MiniDb.Db.Statements

/-! # What a piece of code can do

Every piece of work of a client on the file, taken apart once: where the thread stands, what the
storage operations in the piece returned, and where the thread goes on. -/

set_option autoImplicit false

namespace MiniDb

open Lib

/-- The paths that are one piece of code. -/
def Statement.Whole (stmt : Statement) : Prop :=
  stmt.type = .explain ∨ plannerCreatePlan stmt ≠ .insert ∧ plannerCreatePlan stmt ≠ .indexDelete ∧
    plannerCreatePlan stmt ≠ .indexUpdate ∧
    (plannerCreatePlan stmt = .tableScan → stmt.type ≠ .delete ∧ stmt.type ≠ .update)

/-- The path of a statement that is not an EXPLAIN. -/
def Statement.Takes (stmt : Statement) (path : AccessPath) : Prop :=
  stmt.type ≠ .explain ∧ plannerCreatePlan stmt = path

/-- Where a row that has been read leads. -/
def ScanJob.matched (id : Nat) (ref : RowRef) (values : RowValues) (ids : List Nat)
    (count : Nat) : ScanJob → Client
  | .delete stmt => .scanDeleteHeap stmt id ref ids count
  | .update stmt colIdx => .scanWrite stmt colIdx id ref values ids count

/-- Where a page of the first pass leads. -/
def ScanJob.afterPage (job : ScanJob) (ids : Collector Nat) (next : Nat) : Bool → Client
  | true => .collecting job next ids
  | false => endCollecting job ids

/-- **The pieces of code.** -/
inductive ActStep (env : ExecEnv) (st : Pager) : Client → Client → Pager → Prop
  | whole {stmt : Statement} {res : ExecResult} {st' : Pager} (path : stmt.Whole)
      (run : (execute env stmt).run st = some (res, st')) :
      ActStep env st (.executing stmt) (.unlocking (isDdl stmt.type) res) st'
  | insertNoTable {stmt : Statement} (path : stmt.Takes .insert) :
      ActStep env st (.executing stmt) (.unlocking false (.failed .noTable)) st
  | insertId {stmt : Statement} {id : Nat} {st' : Pager} (path : stmt.Takes .insert)
      (columns : st.header.columns ≠ []) (run : takeNextId.run st = some (id, st')) :
      ActStep env st (.executing stmt) (.insertLocking stmt id) st'
  | deleteMiss {stmt : Statement} {st' : Pager} (path : stmt.Takes .indexDelete)
      (run : (bptreeSearch stmt.predId).run st = some (none, st')) :
      ActStep env st (.executing stmt) (.unlocking false (.done (.rowNotFound stmt.predId))) st'
  | deleteFound {stmt : Statement} {ref : RowRef} {st' : Pager} (path : stmt.Takes .indexDelete)
      (run : (bptreeSearch stmt.predId).run st = some (some ref, st')) :
      ActStep env st (.executing stmt) (.deleteHeap stmt.predId ref) st'
  | updateInvalid {stmt : Statement} {message : ExecMessage}
      (target : validateUpdateTarget st.header stmt = .error message) :
      ActStep env st (.executing stmt) (.unlocking false (.failed message)) st
  | updateMiss {stmt : Statement} {st' : Pager} (path : stmt.Takes .indexUpdate)
      (run : (bptreeSearch stmt.predId).run st = some (none, st')) :
      ActStep env st (.executing stmt) (.unlocking false (.done (.notUpdated stmt.predId))) st'
  | updateFound {stmt : Statement} {colIdx : Nat} {ref : RowRef} {st' : Pager}
      (path : stmt.Takes .indexUpdate) (target : validateUpdateTarget st.header stmt = .ok colIdx)
      (run : (bptreeSearch stmt.predId).run st = some (some ref, st')) :
      ActStep env st (.executing stmt) (.updateFetch stmt colIdx ref) st'
  | scanDelete {stmt : Statement} (path : stmt.Takes .tableScan) (type : stmt.type = .delete) :
      ActStep env st (.executing stmt)
        (.collecting (.delete stmt) st.header.firstHeapPageId (Collector.empty Nat)) st
  | scanUpdate {stmt : Statement} {colIdx : Nat} (path : stmt.Takes .tableScan)
      (type : stmt.type = .update) (target : validateUpdateTarget st.header stmt = .ok colIdx) :
      ActStep env st (.executing stmt)
        (.collecting (.update stmt colIdx) st.header.firstHeapPageId (Collector.empty Nat)) st
  | insertHeap {stmt : Statement} {id : Nat} {row : List UInt8} {ref : RowRef} {st' : Pager}
      (row_eq : rowSerialize st.header (insertRowValues st.header id stmt) = some row)
      (run : (heapInsert env.rounds row).run st = some (ref, st')) :
      ActStep env st (.insertHeap stmt id) (.insertTree id ref) st'
  | insertDup {id : Nat} {ref : RowRef} {rc : Int} {st' : Pager} (dup : rc ≠ 0)
      (run : (bptreeInsert id ref).run st = some (rc, st')) :
      ActStep env st (.insertTree id ref) (.unlocking false (.failed .duplicateKey)) st'
  | insertTree {id : Nat} {ref : RowRef} {st' : Pager}
      (run : (bptreeInsert id ref).run st = some (0, st')) :
      ActStep env st (.insertTree id ref) (.insertCount id) st'
  | insertCount {id : Nat} {st' : Pager} (run : incrementRowCount.run st = some ((), st')) :
      ActStep env st (.insertCount id) (.unlocking false (.done (.inserted id))) st'
  | deleteHeap {id : Nat} {ref : RowRef} {rc : Int} {st' : Pager}
      (run : (heapDelete ref).run st = some (rc, st')) :
      ActStep env st (.deleteHeap id ref) (.deleteTree id ref) st'
  | deleteTree {id : Nat} {ref : RowRef} {rc : Int} {st' : Pager}
      (run : (bptreeDelete id).run st = some (rc, st')) :
      ActStep env st (.deleteTree id ref) (.deleteCount id) st'
  | deleteCount {id : Nat} {st' : Pager} (run : decrementRowCount.run st = some ((), st')) :
      ActStep env st (.deleteCount id) (.unlocking false (.done (.deleted id))) st'
  | updateUnreadable {stmt : Statement} {colIdx : Nat} {ref : RowRef} {st' : Pager}
      (run : (heapFetch ref st.header.rowSize).run st = some (none, st')) :
      ActStep env st (.updateFetch stmt colIdx ref) (.unlocking false (.failed .rowUnreadable)) st'
  | updateFetch {stmt : Statement} {colIdx : Nat} {ref : RowRef} {row : List UInt8}
      {values : RowValues} {st' : Pager}
      (run : (heapFetch ref st.header.rowSize).run st = some (some row, st'))
      (values_eq : rowDeserialize st.header row = some values) :
      ActStep env st (.updateFetch stmt colIdx ref) (.updateWrite stmt colIdx ref values)
        (st'.log (.unlatchR ref.pageId))
  | updateWrite {stmt : Statement} {colIdx : Nat} {ref : RowRef} {values : RowValues} {st' : Pager}
      (run : (updateRow st.header stmt colIdx ref values).run st = some ((), st')) :
      ActStep env st (.updateWrite stmt colIdx ref values)
        (.unlocking false (.done (.updated stmt.predId))) st'
  | collected {job : ScanJob} {ids : Collector Nat} :
      ActStep env st (.collecting job 0 ids) (endCollecting job ids) st
  | collecting {job : ScanJob} {pid : Nat} {ids ids' : Collector Nat} {more : Bool} {next : Nat}
      {st' : Pager} (page : pid ≠ 0)
      (run : (scanPage env.pageCopy st.header.rowSize (onMatch st.header job.stmt (idPush env)) pid
        (some ids)).run st = some (((more, some ids'), next), st')) :
      ActStep env st (.collecting job pid ids) (job.afterPage ids' next more) st'
  | scanMiss {job : ScanJob} {id : Nat} {ids : List Nat} {count : Nat} {st' : Pager}
      (run : (bptreeSearch id).run st = some (none, st')) :
      ActStep env st (.scanSearch job id ids count) (.nextRow job count ids) st'
  | scanFound {job : ScanJob} {id : Nat} {ref : RowRef} {ids : List Nat} {count : Nat}
      {st' : Pager} (run : (bptreeSearch id).run st = some (some ref, st')) :
      ActStep env st (.scanSearch job id ids count) (.scanFetch job id ref ids count) st'
  | scanUnreadable {job : ScanJob} {id : Nat} {ref : RowRef} {ids : List Nat} {count : Nat}
      {st' : Pager} (run : (heapFetch ref st.header.rowSize).run st = some (none, st')) :
      ActStep env st (.scanFetch job id ref ids count) (.nextRow job count ids) st'
  | scanFetch {job : ScanJob} {id : Nat} {ref : RowRef} {ids : List Nat} {count : Nat}
      {row : List UInt8} {values : RowValues} {st' : Pager}
      (run : (heapFetch ref st.header.rowSize).run st = some (some row, st'))
      (values_eq : rowDeserialize st.header row = some values) :
      ActStep env st (.scanFetch job id ref ids count)
        (if matchPredicate st.header values job.stmt then job.matched id ref values ids count
          else .nextRow job count ids) (st'.log (.unlatchR ref.pageId))
  | scanDeleteHeap {stmt : Statement} {id : Nat} {ref : RowRef} {ids : List Nat} {count : Nat}
      {rc : Int} {st' : Pager} (run : (heapDelete ref).run st = some (rc, st')) :
      ActStep env st (.scanDeleteHeap stmt id ref ids count)
        (if rc = 0 then .scanDeleteTree stmt id ref ids count
          else .nextRow (.delete stmt) count ids) st'
  | scanDeleteTree {stmt : Statement} {id : Nat} {ref : RowRef} {ids : List Nat} {count : Nat}
      {rc : Int} {st' : Pager} (run : (bptreeDelete id).run st = some (rc, st')) :
      ActStep env st (.scanDeleteTree stmt id ref ids count)
        (if rc = 0 then .scanDeleteCount stmt id ids count
          else .nextRow (.delete stmt) count ids) st'
  | scanDeleteCount {stmt : Statement} {id : Nat} {ids : List Nat} {count : Nat} {st' : Pager}
      (run : decrementRowCount.run st = some ((), st')) :
      ActStep env st (.scanDeleteCount stmt id ids count)
        (.nextRow (.delete stmt) (count + 1) ids) st'
  | scanWrite {stmt : Statement} {colIdx id : Nat} {ref : RowRef} {values : RowValues}
      {ids : List Nat} {count : Nat} {st' : Pager}
      (run : (updateRow st.header stmt colIdx ref values).run st = some ((), st')) :
      ActStep env st (.scanWrite stmt colIdx id ref values ids count)
        (.nextRow (.update stmt colIdx) (count + 1) ids) st'
  | unlocking {ddl : Bool} {res : ExecResult} :
      ActStep env st (.unlocking ddl res) (.releasing res) st

section

variable {env : ExecEnv} {st st' : Pager} {c c' : Client} {m : PagerM Client} {stmt : Statement}

theorem startExecute_cases (hrun : (startExecute env stmt).run st = some (c, st')) :
    ActStep env st (.executing stmt) c st' := by
  have hwhole : stmt.Whole →
      (do return Client.unlocking (isDdl stmt.type) (← execute env stmt) : PagerM Client).run st =
        some (c, st') → ActStep env st (.executing stmt) c st' := by
    intro h hrun
    obtain ⟨res, st₁, hexec, hdone⟩ := run_bind_eq_some.mp hrun
    obtain ⟨rfl, rfl⟩ := run_pure_eq_some.mp hdone
    exact .whole h hexec
  rw [startExecute] at hrun
  split at hrun
  · rename_i hexplain
    exact hwhole (.inl hexplain) hrun
  rename_i hexplain
  split at hrun
  · rename_i hplan
    rw [startInsert, run_bind_get] at hrun
    by_cases hcols : st.header.columns = []
    · rw [if_pos hcols] at hrun
      obtain ⟨rfl, rfl⟩ := run_pure_eq_some.mp hrun
      exact .insertNoTable ⟨hexplain, hplan⟩
    · rw [if_neg hcols] at hrun
      obtain ⟨id, st₁, hid, hdone⟩ := run_bind_eq_some.mp hrun
      obtain ⟨rfl, rfl⟩ := run_pure_eq_some.mp hdone
      exact .insertId ⟨hexplain, hplan⟩ hcols hid
  · rename_i hplan
    obtain ⟨found, st₁, hsearch, hdone⟩ := run_bind_eq_some.mp hrun
    cases found with
    | none =>
      obtain ⟨rfl, rfl⟩ := run_pure_eq_some.mp hdone
      exact .deleteMiss ⟨hexplain, hplan⟩ hsearch
    | some ref =>
      obtain ⟨rfl, rfl⟩ := run_pure_eq_some.mp hdone
      exact .deleteFound ⟨hexplain, hplan⟩ hsearch
  · rename_i hplan
    rw [startIndexUpdate, run_bind_get] at hrun
    split at hrun
    · rename_i message htarget
      obtain ⟨rfl, rfl⟩ := run_pure_eq_some.mp hrun
      exact .updateInvalid htarget
    · rename_i colIdx htarget
      obtain ⟨found, st₁, hsearch, hdone⟩ := run_bind_eq_some.mp hrun
      cases found with
      | none =>
        obtain ⟨rfl, rfl⟩ := run_pure_eq_some.mp hdone
        exact .updateMiss ⟨hexplain, hplan⟩ hsearch
      | some ref =>
        obtain ⟨rfl, rfl⟩ := run_pure_eq_some.mp hdone
        exact .updateFound ⟨hexplain, hplan⟩ htarget hsearch
  · rename_i hplan
    split at hrun
    · rename_i htype
      rw [startCollecting, run_bind_get] at hrun
      obtain ⟨rfl, rfl⟩ := run_pure_eq_some.mp hrun
      exact .scanDelete ⟨hexplain, hplan⟩ htype
    · rename_i htype
      rw [startUpdateScan, run_bind_get] at hrun
      split at hrun
      · rename_i message htarget
        obtain ⟨rfl, rfl⟩ := run_pure_eq_some.mp hrun
        exact .updateInvalid htarget
      · rename_i colIdx htarget
        rw [startCollecting, run_bind_get] at hrun
        obtain ⟨rfl, rfl⟩ := run_pure_eq_some.mp hrun
        exact .scanUpdate ⟨hexplain, hplan⟩ htype htarget
    · rename_i hdelete hupdate
      have hpath : stmt.Whole := by
        refine .inr ⟨?_, ?_, ?_, fun _ => ⟨hdelete, hupdate⟩⟩ <;> simp [hplan]
      exact hwhole hpath hrun
  · rename_i hinsert hdelete hupdate hscan
    have hpath : stmt.Whole := .inr ⟨hinsert, hdelete, hupdate, fun h => absurd h hscan⟩
    exact hwhole hpath hrun

/-- **What a piece of code can do.** -/
theorem actStep_of_run (hinstr : c.instr env = .act m) (hrun : m.run st = some (c', st')) :
    ActStep env st c c' st' := by
  cases c with
  | executing stmt =>
    cases hinstr
    exact startExecute_cases hrun
  | insertHeap stmt id =>
    cases hinstr
    rw [run_bind_get] at hrun
    rw [run_bind_get] at hrun
    obtain ⟨row, st₁, hserial, hrest⟩ := run_bind_eq_some.mp hrun
    obtain ⟨hrow, rfl⟩ := orUndefined_eq_some hserial
    obtain ⟨ref, st₂, hheap, hdone⟩ := run_bind_eq_some.mp hrest
    obtain ⟨rfl, rfl⟩ := run_pure_eq_some.mp hdone
    exact .insertHeap hrow hheap
  | insertTree id ref =>
    cases hinstr
    obtain ⟨rc, st₁, htree, hdone⟩ := run_bind_eq_some.mp hrun
    by_cases hrc : rc = 0
    · subst hrc
      rw [if_neg (by simp)] at hdone
      obtain ⟨rfl, rfl⟩ := run_pure_eq_some.mp hdone
      exact .insertTree htree
    · rw [if_pos hrc] at hdone
      obtain ⟨rfl, rfl⟩ := run_pure_eq_some.mp hdone
      exact .insertDup hrc htree
  | insertCount id =>
    cases hinstr
    obtain ⟨u, st₁, hcount, hdone⟩ := run_bind_eq_some.mp hrun
    obtain ⟨rfl, rfl⟩ := run_pure_eq_some.mp hdone
    exact .insertCount hcount
  | deleteHeap id ref =>
    cases hinstr
    obtain ⟨rc, st₁, hheap, hdone⟩ := run_bind_eq_some.mp hrun
    obtain ⟨rfl, rfl⟩ := run_pure_eq_some.mp hdone
    exact .deleteHeap hheap
  | deleteTree id ref =>
    cases hinstr
    obtain ⟨rc, st₁, htree, hdone⟩ := run_bind_eq_some.mp hrun
    obtain ⟨rfl, rfl⟩ := run_pure_eq_some.mp hdone
    exact .deleteTree htree
  | deleteCount id =>
    cases hinstr
    obtain ⟨u, st₁, hcount, hdone⟩ := run_bind_eq_some.mp hrun
    obtain ⟨rfl, rfl⟩ := run_pure_eq_some.mp hdone
    exact .deleteCount hcount
  | updateFetch stmt colIdx ref =>
    cases hinstr
    rw [run_bind_get] at hrun
    obtain ⟨found, st₁, hfetch, hrest⟩ := run_bind_eq_some.mp hrun
    cases found with
    | none =>
      obtain ⟨rfl, rfl⟩ := run_pure_eq_some.mp hrest
      exact .updateUnreadable hfetch
    | some row =>
      obtain ⟨values, st₂, hread, hunlatch⟩ := run_bind_eq_some.mp hrest
      obtain ⟨hvalues, rfl⟩ := orUndefined_eq_some hread
      obtain ⟨rfl, rfl⟩ := run_pure_eq_some.mp hunlatch
      exact .updateFetch hfetch hvalues
  | updateWrite stmt colIdx ref values =>
    cases hinstr
    rw [run_bind_get] at hrun
    obtain ⟨u, st₁, hupdate, hdone⟩ := run_bind_eq_some.mp hrun
    obtain ⟨rfl, rfl⟩ := run_pure_eq_some.mp hdone
    exact .updateWrite hupdate
  | collecting job pid ids =>
    cases hinstr
    by_cases hpid : pid = 0
    · subst hpid
      obtain ⟨rfl, rfl⟩ := run_pure_eq_some.mp hrun
      exact .collected
    · rw [if_neg hpid, run_bind_get] at hrun
      obtain ⟨⟨⟨more, ctx⟩, next⟩, st₁, hpage, hrest⟩ := run_bind_eq_some.mp hrun
      obtain ⟨ids', st₂, hids, hdone⟩ := run_bind_eq_some.mp hrest
      obtain ⟨hctx, rfl⟩ := orUndefined_eq_some hids
      obtain rfl : ctx = some ids' := hctx
      have hnext : c' = job.afterPage ids' next more ∧ st' = st₂ := by
        cases more <;> exact run_pure_eq_some.mp hdone
      obtain ⟨rfl, rfl⟩ := hnext
      exact .collecting hpid hpage
  | scanSearch job id ids count =>
    cases hinstr
    obtain ⟨found, st₁, hsearch, hdone⟩ := run_bind_eq_some.mp hrun
    cases found with
    | none =>
      obtain ⟨rfl, rfl⟩ := run_pure_eq_some.mp hdone
      exact .scanMiss hsearch
    | some ref =>
      obtain ⟨rfl, rfl⟩ := run_pure_eq_some.mp hdone
      exact .scanFound hsearch
  | scanFetch job id ref ids count =>
    cases hinstr
    rw [run_bind_get] at hrun
    obtain ⟨found, st₁, hfetch, hrest⟩ := run_bind_eq_some.mp hrun
    cases found with
    | none =>
      obtain ⟨rfl, rfl⟩ := run_pure_eq_some.mp hrest
      exact .scanUnreadable hfetch
    | some row =>
      obtain ⟨values, st₂, hread, hunlatch⟩ := run_bind_eq_some.mp hrest
      obtain ⟨hvalues, rfl⟩ := orUndefined_eq_some hread
      have hnext : c' = (if matchPredicate st.header values job.stmt then
          job.matched id ref values ids count else .nextRow job count ids) ∧
          st' = st₂.log (.unlatchR ref.pageId) := by
        change (if matchPredicate st.header values job.stmt = true then _ else _ :
          PagerM Client).run (st₂.log (.unlatchR ref.pageId)) = _ at hunlatch
        by_cases hmatch : matchPredicate st.header values job.stmt = true
        · rw [if_pos hmatch] at hunlatch ⊢
          cases job <;> exact run_pure_eq_some.mp hunlatch
        · rw [if_neg hmatch] at hunlatch ⊢
          exact run_pure_eq_some.mp hunlatch
      obtain ⟨rfl, rfl⟩ := hnext
      exact .scanFetch hfetch hvalues
  | scanDeleteHeap stmt id ref ids count =>
    cases hinstr
    obtain ⟨rc, st₁, hheap, hdone⟩ := run_bind_eq_some.mp hrun
    have hnext : c' = (if rc = 0 then .scanDeleteTree stmt id ref ids count
        else .nextRow (.delete stmt) count ids) ∧ st' = st₁ := by
      by_cases hrc : rc = 0
      · rw [if_pos hrc] at hdone ⊢
        exact run_pure_eq_some.mp hdone
      · rw [if_neg hrc] at hdone ⊢
        exact run_pure_eq_some.mp hdone
    obtain ⟨rfl, rfl⟩ := hnext
    exact .scanDeleteHeap hheap
  | scanDeleteTree stmt id ref ids count =>
    cases hinstr
    obtain ⟨rc, st₁, htree, hdone⟩ := run_bind_eq_some.mp hrun
    have hnext : c' = (if rc = 0 then .scanDeleteCount stmt id ids count
        else .nextRow (.delete stmt) count ids) ∧ st' = st₁ := by
      by_cases hrc : rc = 0
      · rw [if_pos hrc] at hdone ⊢
        exact run_pure_eq_some.mp hdone
      · rw [if_neg hrc] at hdone ⊢
        exact run_pure_eq_some.mp hdone
    obtain ⟨rfl, rfl⟩ := hnext
    exact .scanDeleteTree htree
  | scanDeleteCount stmt id ids count =>
    cases hinstr
    obtain ⟨u, st₁, hcount, hdone⟩ := run_bind_eq_some.mp hrun
    obtain ⟨rfl, rfl⟩ := run_pure_eq_some.mp hdone
    exact .scanDeleteCount hcount
  | scanWrite stmt colIdx id ref values ids count =>
    cases hinstr
    rw [run_bind_get] at hrun
    obtain ⟨u, st₁, hupdate, hdone⟩ := run_bind_eq_some.mp hrun
    obtain ⟨rfl, rfl⟩ := run_pure_eq_some.mp hdone
    exact .scanWrite hupdate
  | unlocking ddl res =>
    cases hinstr
    obtain ⟨rfl, rfl⟩ := run_pure_eq_some.mp hrun
    exact .unlocking
  | _ => cases hinstr

end

end MiniDb
