import MiniDb.Db.Basic
import MiniDb.Db.DropTable

/-! # Databases as they come about

`DbReach` are the states of a file on which SQL texts are run one after the other, each under any
outcome of its waits for locks and of its requests for memory. All of them keep the invariant. -/

set_option autoImplicit false

namespace MiniDb

open Lib

/-- The states that texts, run one after the other, lead a new file through. -/
inductive DbReach (pageSize : Nat) : Pager → Prop
  | start : DbReach pageSize (pagerOpenCreate pageSize)
  | run {st st' : Pager} {env : ExecEnv} {sql : CString} {res : ExecResult}
      (h : DbReach pageSize st) (hrun : (dbExecute env sql).run st = some (res, st')) :
      DbReach pageSize st'

section Reach

variable {st st' : Pager} {entries : List (Nat × RowRef)} {chain : HeapChain} {env : ExecEnv}
  {stmt : Statement} {res : ExecResult} {sql : CString} {pageSize : Nat}

theorem planByType_createTable (hplan : plannerCreatePlan stmt = .createTable)
    (htype : stmt.type ≠ .explain) : stmt.type = .createTable := by
  cases h : stmt.type with
  | createTable => rfl
  | explain => exact absurd h htype
  | _ =>
    simp only [plannerCreatePlan, planByType, h] at hplan
    repeat' split at hplan
    all_goals cases hplan

/-- Every statement takes a database to a database. -/
theorem execute_step (h : DbInv st entries chain)
    (hfixed : stmt.type = .createTable → ∀ cd ∈ stmt.userDefs, cd.type ≠ .varchar → cd.Sound)
    (hrun : (execute env stmt).run st = some (res, st')) : DbStep st res st' := by
  rw [execute] at hrun
  split at hrun
  · exact readOnly_execExplain.step h hrun
  rename_i htype
  split at hrun
  · rename_i hplan
    exact execCreateTable_step h (hfixed (planByType_createTable hplan htype)) hrun
  · exact (execInsert_step h hrun).1
  · exact readOnly_execIndexLookup.step h hrun
  · exact readOnly_execIndexRangeScan.step h hrun
  · split at hrun
    · exact execDeleteScan_step h hrun
    · exact execUpdateScan_step h hrun
    · exact readOnly_execTableScan.step h hrun
  · exact execIndexDelete_step h hrun
  · exact execIndexUpdate_step h hrun
  · exact execDropTable_step h hrun

/-- So does every text. -/
theorem dbExecute_step (h : DbInv st entries chain)
    (hrun : (dbExecute env sql).run st = some (res, st')) : DbStep st res st' := by
  have hsame : st.OnlyIds st := Pager.SameData.refl.onlyIds h.nextId_lt
  rw [dbExecute] at hrun
  split at hrun
  · rename_i stmt hparse
    rw [dbRun] at hrun
    split at hrun
    · exact execute_step h (parseColumn_fixed hparse) hrun
    · split at hrun
      · exact execute_step h (parseColumn_fixed hparse) hrun
      · obtain ⟨rfl, rfl⟩ := run_pure_eq_some.mp hrun
        exact h.stepOnlyIds hsame
  · obtain ⟨rfl, rfl⟩ := run_pure_eq_some.mp hrun
    exact h.stepOnlyIds hsame
  · cases hrun

theorem DbReach.inv (hps : IsPageSize pageSize) (h : DbReach pageSize st) :
    ∃ entries chain, DbInv st entries chain ∧ st.pageSize = pageSize := by
  induction h with
  | start => exact ⟨_, _, dbInv_create hps, rfl⟩
  | run _ hrun ih =>
    obtain ⟨entries, chain, hinv, hsize⟩ := ih
    have hstep := dbExecute_step hinv hrun
    obtain ⟨entries', chain', hinv'⟩ := hstep.inv
    exact ⟨entries', chain', hinv', hstep.pageSize.trans hsize⟩

/-- **Statements that fail change nothing.** -/
theorem failed_onlyIds (hps : IsPageSize pageSize) (h : DbReach pageSize st)
    (hrun : (dbExecute env sql).run st = some (res, st')) (hstatus : res.status = -1) :
    st.OnlyIds st' := by
  obtain ⟨entries, chain, hinv, -⟩ := h.inv hps
  exact (dbExecute_step hinv hrun).failed hstatus

theorem dbExecute_of_parse (hparse : parse sql = .ok stmt) : dbExecute env sql = dbRun env stmt := by
  rw [dbExecute, hparse]

/-- A run with a result, next to the database behind it. -/
theorem run_of_result {α : Type} {m : PagerM α} {res : α}
    (hres : (m.run st).map Prod.fst = some res) :
    m.run st = some (res, ((m.run st).map Prod.snd).getD st) := by
  obtain ⟨⟨_, st'⟩, hrun, rfl⟩ := Option.map_eq_some_iff.mp hres
  rw [hrun]
  rfl

/-- The database behind a text that has an outcome. -/
theorem DbReach.after (h : DbReach pageSize st) (hparse : parse sql = .ok stmt)
    (hres : ((dbRun env stmt).run st).map Prod.fst = some res) :
    DbReach pageSize ((((dbRun env stmt).run st).map Prod.snd).getD st) := by
  rw [← dbExecute_of_parse hparse] at hres ⊢
  exact h.run (run_of_result hres)

end Reach

/-- Surroundings in which nothing fails. -/
def grantingEnv : ExecEnv :=
  ⟨fun _ _ => true, fun _ _ _ => true, fun _ => true, fun _ _ => true, 1⟩

/-- A new file with a table of one INT column. -/
def intTable : Pager :=
  (pagerOpenCreate 4096).setHeader
    (Statement.installed { tableName := cstr "t", colDefs := [⟨cstr "a", .int, 4⟩] }
      (pagerOpenCreate 4096).header)

theorem dbReach_intTable : DbReach 4096 intTable := by
  have hcreate : parse (cstr "CREATE TABLE t (a INT)") =
      .ok { tableName := cstr "t", colDefs := [⟨cstr "a", .int, 4⟩] } := by
    decide +kernel
  have hrun : (dbExecute grantingEnv (cstr "CREATE TABLE t (a INT)")).run (pagerOpenCreate 4096) =
      some (.done (.tableCreated (cstr "t") 12 2), intTable) := by
    rw [dbExecute_of_parse hcreate]
    rfl
  exact DbReach.start.run hrun

/-- The table with one row, which has the value 7. -/
def oneRowTable : Pager :=
  (((dbRun grantingEnv { type := .insert, tableName := cstr "t", insertValues := [cstr "7"] }).run
    intTable).map Prod.snd).getD intTable

theorem dbReach_oneRowTable : DbReach 4096 oneRowTable := by
  have hparse : parse (cstr "INSERT INTO t VALUES (7)") =
      .ok { type := .insert, tableName := cstr "t", insertValues := [cstr "7"] } := by
    decide +kernel
  have hres : ((dbRun grantingEnv
      { type := .insert, tableName := cstr "t", insertValues := [cstr "7"] }).run intTable).map
        Prod.fst = some (.done (.inserted 1)) := by
    decide +kernel
  exact dbReach_intTable.after hparse hres

/-- The table with a second row, which has the value 9. -/
def twoRowTable : Pager :=
  (((dbRun grantingEnv { type := .insert, tableName := cstr "t", insertValues := [cstr "9"] }).run
    oneRowTable).map Prod.snd).getD oneRowTable

theorem dbReach_twoRowTable : DbReach 4096 twoRowTable := by
  have hparse : parse (cstr "INSERT INTO t VALUES (9)") =
      .ok { type := .insert, tableName := cstr "t", insertValues := [cstr "9"] } := by
    decide +kernel
  have hres : ((dbRun grantingEnv
      { type := .insert, tableName := cstr "t", insertValues := [cstr "9"] }).run oneRowTable).map
        Prod.fst = some (.done (.inserted 2)) := by
    decide +kernel
  exact dbReach_oneRowTable.after hparse hres

/-- A DELETE of both rows that has the lock of the first and waits in vain for that of the second. -/
theorem failed_onlyIds_timeout :
    ∃ st', (dbExecute { grantingEnv with lockAcquire := fun id _ => id == 1 }
        (cstr "DELETE FROM t WHERE a > 0")).run twoRowTable =
          some (.failed (.scanLockTimeout 2), st') ∧ twoRowTable.OnlyIds st' := by
  have hparse : parse (cstr "DELETE FROM t WHERE a > 0") =
      .ok { type := .delete, tableName := cstr "t", predicateKind := .fieldCmp
            predField := cstr "a", predOp := .gt, predValue := cstr "0" } := by
    decide +kernel
  have hscan : ((scanMatching { grantingEnv with lockAcquire := fun id _ => id == 1 }
      { type := .delete, tableName := cstr "t", predicateKind := .fieldCmp
        predField := cstr "a", predOp := .gt, predValue := cstr "0" }
      (idPush { grantingEnv with lockAcquire := fun id _ => id == 1 })
      (Collector.empty Nat)).run twoRowTable).map Prod.fst = some ⟨[1, 2], 64, false⟩ := by
    decide +kernel
  have hsort : sortIds [1, 2] = [1, 2] := by
    rw [sortIds, List.mergeSort_of_pairwise (by decide)]
    rfl
  obtain ⟨⟨ids, st'⟩, hrun, rfl⟩ := Option.map_eq_some_iff.mp hscan
  have hdelete : (dbExecute { grantingEnv with lockAcquire := fun id _ => id == 1 }
      (cstr "DELETE FROM t WHERE a > 0")).run twoRowTable =
        some (.failed (.scanLockTimeout 2), st') := by
    rw [dbExecute_of_parse hparse]
    show (execDeleteScan _ _).run twoRowTable = _
    rw [execDeleteScan, run_bind_of hrun, if_neg (by decide), lockCollectedIds, hsort]
    rfl
  exact ⟨_, hdelete, failed_onlyIds ⟨12, le_refl _, rfl⟩ dbReach_twoRowTable hdelete rfl⟩

end MiniDb
