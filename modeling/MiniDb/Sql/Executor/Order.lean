import MiniDb.Sql.Statement
import MiniDb.Storage.Schema

/-! # Ordering rows

The ORDER BY machinery of `executor.c`: comparison of two rows by a column, the quicksort over row
blocks and the heap that keeps the first rows under LIMIT. An index outside the array has no defined
outcome, and neither has a recursion deeper than `fuel`. -/

set_option autoImplicit false

namespace MiniDb

/-- The values of a row, by column. -/
abbrev RowValues := List RowValue

/-- `strcmp`. -/
def strcmp : CString → CString → Int
  | [], [] => 0
  | [], b :: _ => -(b.toNat : Int)
  | a :: _, [] => a.toNat
  | a :: as, b :: bs => if a = b then strcmp as bs else (a.toNat : Int) - b.toNat

/-- `(a > b) - (a < b)`. -/
def sign (a b : Int) : Int := (if a > b then 1 else 0) - (if a < b then 1 else 0)

/-- `compare_row_values`. -/
def compareRowValues (columns : List ColumnMeta) (colIdx : Nat) (desc : Bool) (lhs rhs : RowValues) :
    Option Int := do
  let col ← columns[colIdx]?
  let cmp ←
    match col.type, lhs[colIdx]?, rhs[colIdx]? with
    | .int, some (.int a), some (.int b) => some (sign a b)
    | .bigint, some (.bigint a), some (.bigint b) => some (sign a b)
    | .varchar, some (.varchar a), some (.varchar b) => some (strcmp a b)
    | _, _, _ => none
  return if desc then -cmp else cmp

/-- `rows[i * MAX_COLUMNS]`: the product is an `int` as well. -/
def rowAt (rows : List RowValues) (i : Int) : Option RowValues :=
  if 0 ≤ i ∧ i * maxColumns < 2 ^ 31 then rows[i.toNat]? else none

/-- `swap_row_blocks`. -/
def swapRowBlocks (rows : List RowValues) (a b : Nat) : Option (List RowValues) := do
  let ra ← rows[a]?
  let rb ← rows[b]?
  return (rows.set a rb).set b ra

section Quicksort

variable (cmp : RowValues → RowValues → Option Int)

/-- `while (compare(rows[i], pivot) < 0) i++;`. -/
def scanUp (rows : List RowValues) (pivot : RowValues) : (fuel : Nat) → Int → Option Int
  | 0, _ => none
  | fuel + 1, i => do
    if (← cmp (← rowAt rows i) pivot) < 0 then scanUp rows pivot fuel (i + 1) else return i

/-- `while (compare(rows[j], pivot) > 0) j--;`. -/
def scanDown (rows : List RowValues) (pivot : RowValues) : (fuel : Nat) → Int → Option Int
  | 0, _ => none
  | fuel + 1, j => do
    if (← cmp (← rowAt rows j) pivot) > 0 then scanDown rows pivot fuel (j - 1) else return j

/-- `while (i <= j) { ... }`: the rows with the two indices where they have passed. -/
def partitionRows (pivot : RowValues) : (fuel : Nat) → List RowValues → Int → Int →
    Option (List RowValues × Int × Int)
  | 0, _, _, _ => none
  | fuel + 1, rows, i, j =>
    if i ≤ j then do
      let i ← scanUp cmp rows pivot (rows.length + 1) i
      let j ← scanDown cmp rows pivot (rows.length + 1) j
      if i ≤ j then
        partitionRows pivot fuel (← swapRowBlocks rows i.toNat j.toNat) (i + 1) (j - 1)
      else partitionRows pivot fuel rows i j
    else return (rows, i, j)

/-- `quicksort_row_blocks`. -/
def quicksortRowBlocks : (fuel : Nat) → List RowValues → Int → Int → Option (List RowValues)
  | 0, _, _, _ => none
  | fuel + 1, rows, left, right => do
    let pivot ← rowAt rows ((left + right).tdiv 2)
    let (rows, i, j) ← partitionRows cmp pivot (rows.length + 2) rows left right
    let rows ← if left < j then quicksortRowBlocks fuel rows left j else some rows
    if i < right then quicksortRowBlocks fuel rows i right else some rows

/-! ### The rows that are touched

The indices that the sort reads or writes, in the order of the code. An exchange touches the two
rows that the loops have stopped at. -/

/-- The rows that `scanUp` compares with the pivot. -/
def scanUpIndices (rows : List RowValues) (pivot : RowValues) : (fuel : Nat) → Int → List Int
  | 0, _ => []
  | fuel + 1, i =>
    i :: match (rowAt rows i).bind (cmp · pivot) with
      | none => []
      | some d => if d < 0 then scanUpIndices rows pivot fuel (i + 1) else []

/-- The rows that `scanDown` compares with the pivot. -/
def scanDownIndices (rows : List RowValues) (pivot : RowValues) : (fuel : Nat) → Int → List Int
  | 0, _ => []
  | fuel + 1, j =>
    j :: match (rowAt rows j).bind (cmp · pivot) with
      | none => []
      | some d => if d > 0 then scanDownIndices rows pivot fuel (j - 1) else []

/-- The rows that `partitionRows` touches. -/
def partitionIndices (pivot : RowValues) : (fuel : Nat) → List RowValues → Int → Int → List Int
  | 0, _, _, _ => []
  | fuel + 1, rows, i, j =>
    if i ≤ j then
      scanUpIndices cmp rows pivot (rows.length + 1) i ++
      match scanUp cmp rows pivot (rows.length + 1) i with
      | none => []
      | some i =>
        scanDownIndices cmp rows pivot (rows.length + 1) j ++
        match scanDown cmp rows pivot (rows.length + 1) j with
        | none => []
        | some j =>
          if i ≤ j then
            i :: j :: match swapRowBlocks rows i.toNat j.toNat with
              | none => []
              | some rows => partitionIndices pivot fuel rows (i + 1) (j - 1)
          else partitionIndices pivot fuel rows i j
    else []

/-- The rows that `quicksortRowBlocks` touches. -/
def quicksortIndices : (fuel : Nat) → List RowValues → Int → Int → List Int
  | 0, _, _, _ => []
  | fuel + 1, rows, left, right =>
    (left + right).tdiv 2 :: match rowAt rows ((left + right).tdiv 2) with
      | none => []
      | some pivot =>
        partitionIndices cmp pivot (rows.length + 2) rows left right ++
        match partitionRows cmp pivot (rows.length + 2) rows left right with
        | none => []
        | some (rows, i, j) =>
          (if left < j then quicksortIndices fuel rows left j else []) ++
          match if left < j then quicksortRowBlocks cmp fuel rows left j else some rows with
          | none => []
          | some rows => if i < right then quicksortIndices fuel rows i right else []

/-! ## The first rows under a limit -/

/-- `topk_sift_up`. -/
def topkSiftUp : (fuel : Nat) → List RowValues → Nat → Option (List RowValues)
  | 0, _, _ => none
  | fuel + 1, rows, idx =>
    if 0 < idx then do
      let parent := (idx - 1) / 2
      if (← cmp (← rows[idx]?) (← rows[parent]?)) ≤ 0 then return rows
      else topkSiftUp fuel (← swapRowBlocks rows idx parent) parent
    else return rows

/-- One of the two comparisons of `topk_sift_down`: the worse of `child`, if it is there, and
`worst`. -/
def worseOf (rows : List RowValues) (child worst : Nat) : Option Nat :=
  if child < rows.length then do
    if (← cmp (← rows[child]?) (← rows[worst]?)) > 0 then return child else return worst
  else return worst

/-- `topk_sift_down`. -/
def topkSiftDown : (fuel : Nat) → List RowValues → Nat → Option (List RowValues)
  | 0, _, _ => none
  | fuel + 1, rows, idx => do
    let left := idx * 2 + 1
    let worst ← worseOf cmp rows left idx
    let worst ← worseOf cmp rows (left + 1) worst
    if worst = idx then return rows
    else topkSiftDown fuel (← swapRowBlocks rows idx worst) worst

/-- What `topk_scan_cb` does with a matching row when its buffer has room for `limit` rows. -/
def topkPush (limit : Nat) (rows : List RowValues) (values : RowValues) : Option (List RowValues) :=
  if rows.length < limit then
    topkSiftUp cmp (rows.length + 1) (rows ++ [values]) rows.length
  else do
    if (← cmp values (← rows[0]?)) < 0 then
      topkSiftDown cmp (rows.length + 1) (rows.set 0 values) 0
    else return rows

end Quicksort

end MiniDb
