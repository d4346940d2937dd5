import MiniDb.Sql.Statement

/-! # The planner

`planner.c`: the access path of a statement, by its type and the kind of its predicate. The index
range path is on, as it is unless the build disables it. -/

set_option autoImplicit false

namespace MiniDb

/-- `access_path_t`. -/
inductive AccessPath where
  | tableScan
  | indexLookup
  | indexRange
  | indexDelete
  | insert
  | indexUpdate
  | createTable
  | dropTable
  deriving DecidableEq, Repr

/-- The switch of `planner_create_plan`. The statement behind EXPLAIN is planned from a zeroed
`statement_t`, whose own inner type is CREATE TABLE. -/
def planByType (stmt : Statement) : AccessPath :=
  match stmt.type with
  | .createTable => .createTable
  | .insert => .insert
  | .select =>
    if stmt.predicateKind = .idEq ∧ !stmt.selectCount ∧ !stmt.hasOrderBy ∧ !stmt.hasLimit then
      .indexLookup
    else if stmt.predicateKind = .idRange ∧ !stmt.selectCount ∧ !stmt.hasOrderBy then .indexRange
    else .tableScan
  | .delete => if stmt.predicateKind = .idEq then .indexDelete else .tableScan
  | .update => if stmt.predicateKind = .idEq then .indexUpdate else .tableScan
  | .dropTable => .dropTable
  | .explain => .createTable

/-- `planner_create_plan`. -/
def plannerCreatePlan (stmt : Statement) : AccessPath :=
  match stmt.type with
  | .explain => planByType { type := stmt.innerType, predicateKind := stmt.innerPredicate }
  | _ => planByType stmt

end MiniDb
