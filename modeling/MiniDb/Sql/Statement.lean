import MiniDb.Storage.PageFormat

/-! # Parsed statements

`statement_t` of `statement.h` with the enumerations it is made of. The defaults are the fields
after `memset(stmt, 0, ...)`. -/

set_option autoImplicit false

namespace MiniDb

/-- `statement_type_t`. -/
inductive StatementType where
  | createTable
  | insert
  | select
  | delete
  | update
  | dropTable
  | explain
  deriving DecidableEq, Repr

/-- `predicate_kind_t`. -/
inductive PredicateKind where
  | none
  | idEq
  | fieldEq
  | fieldCmp
  | idRange
  deriving DecidableEq, Repr

/-- `compare_op_t`. -/
inductive CompareOp where
  | eq
  | ne
  | lt
  | gt
  | le
  | ge
  deriving DecidableEq, Repr

/-- `column_def_t`. -/
structure ColumnDef where
  name : CString
  type : ColumnType
  size : Nat
  deriving DecidableEq, Repr

/-- `statement_t`; `insert_value_count` and `col_count` are the lengths of the two arrays. -/
structure Statement where
  type : StatementType := .createTable
  predicateKind : PredicateKind := .none
  predOp : CompareOp := .eq
  tableName : CString := []
  insertValues : List CString := []
  updateField : CString := []
  updateValue : CString := []
  predField : CString := []
  predValue : CString := []
  predId : Nat := 0
  rangeLo : Nat := 0
  rangeHi : Nat := 0
  hasLo : Bool := false
  hasHi : Bool := false
  loInclusive : Bool := false
  hiInclusive : Bool := false
  colDefs : List ColumnDef := []
  selectAll : Bool := false
  selectCount : Bool := false
  orderByField : CString := []
  orderDesc : Bool := false
  hasOrderBy : Bool := false
  limitCount : Nat := 0
  hasLimit : Bool := false
  innerType : StatementType := .createTable
  innerPredicate : PredicateKind := .none
  deriving DecidableEq, Repr

end MiniDb
