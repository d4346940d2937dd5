import Mathlib.Data.List.DropRight
import MiniDb.Sql.CText
import MiniDb.Sql.Statement

/-! # The SQL parser

`parser.c` over the text in front of the cursor. A scanner that copies into a `char` array carries
both the bound of its loop and the size of the array, so a write past the end would show; the same
holds for the two arrays of `statement_t` that are filled by a loop. -/

set_option autoImplicit false

namespace MiniDb

open Lib

/-- How a parser call can fail: it returns `-1`, or it writes outside an array. -/
inductive ParseFault where
  | reject
  | outOfBounds
  deriving DecidableEq, Repr

abbrev ParseM := Except ParseFault

/-- The scanner loop `while (*p && ok(*p) && i < max) buf[i++] = *p++; buf[i] = 0;` into a
`char buf[cap]`. -/
def readInto (cap max : Nat) (ok : UInt8 → Bool) (p : CString) : ParseM (CString × CString) :=
  let r := spanUpTo ok max p
  if r.1.length < cap then pure r else throw .outOfBounds

/-! ## WHERE -/

/-- The characters of a field name in a WHERE clause. -/
def fieldChar (c : UInt8) : Bool :=
  c != ch '=' && c != ch '!' && c != ch '<' && c != ch '>' && !isspace c

/-- The characters of an unquoted value. -/
def valueChar (c : UInt8) : Bool := !isspace c && c != ch ';'

/-- The value after an operator: quoted, or up to a blank or semicolon. -/
def readValue (p : CString) : ParseM (CString × CString) :=
  if deref p = quote then do
    let (buf, p) ← readInto 256 255 (· != quote) p.tail
    return (buf, if deref p = quote then p.tail else p)
  else readInto 256 255 valueChar p

/-- `is_id`: the field is `id`, in any case. -/
def isIdField (field : CString) : Bool := keyword (cstr "id") field && field.length == 2

/-- The operator in front, with its length. -/
def readOperator (p : CString) : Option (CompareOp × Nat) :=
  if deref p = ch '!' ∧ deref p.tail = ch '=' then some (.ne, 2)
  else if deref p = ch '<' ∧ deref p.tail = ch '=' then some (.le, 2)
  else if deref p = ch '>' ∧ deref p.tail = ch '=' then some (.ge, 2)
  else if deref p = ch '<' then some (.lt, 1)
  else if deref p = ch '>' then some (.gt, 1)
  else if deref p = ch '=' then some (.eq, 1)
  else none

/-- The BETWEEN branch of `parse_where`, from behind the word. -/
def parseBetween (p : CString) (stmt : Statement) : ParseM Statement := do
  if !isIdField stmt.predField then throw .reject
  let p := skipWs p
  let (loBuf, p) ← readInto 64 63 (fun c => !isspace c) p
  let p := skipWs p
  if !keyword (cstr "AND") p then throw .reject
  let p := skipWs (p.drop 3)
  let (hiBuf, _) ← readInto 64 63 valueChar p
  return { stmt with
    predicateKind := .idRange
    rangeLo := toU64 (atoll loBuf)
    rangeHi := toU64 (atoll hiBuf)
    hasLo := true
    hasHi := true
    loInclusive := true
    hiInclusive := true
    predField := cstr "id" }

/-- The classification at the end of `parse_where`. -/
def classifyPredicate (stmt : Statement) : Statement :=
  let isId := isIdField stmt.predField
  let v := toU64 (atoll stmt.predValue)
  match isId, stmt.predOp with
  | true, .eq => { stmt with predicateKind := .idEq, predId := v }
  | true, .ge =>
    { stmt with predicateKind := .idRange, rangeLo := v, hasLo := true, loInclusive := true }
  | true, .gt =>
    { stmt with predicateKind := .idRange, rangeLo := v, hasLo := true, loInclusive := false }
  | true, .le =>
    { stmt with predicateKind := .idRange, rangeHi := v, hasHi := true, hiInclusive := true }
  | true, .lt =>
    { stmt with predicateKind := .idRange, rangeHi := v, hasHi := true, hiInclusive := false }
  | false, .eq => { stmt with predicateKind := .fieldEq }
  | _, _ => { stmt with predicateKind := .fieldCmp }

/-- The comparison branch of `parse_where`, from the operator on. -/
def parseComparison (p : CString) (stmt : Statement) : ParseM Statement := do
  match readOperator p with
  | none => throw .reject
  | some (op, len) =>
    let p := skipWs (p.drop len)
    let (value, _) ← readValue p
    return classifyPredicate { stmt with predOp := op, predValue := value }

/-- `parse_where`. -/
def parseWhere (p : CString) (stmt : Statement) : ParseM Statement :=
  let p := skipWs p
  if p = [] ∨ deref p = ch ';' then pure { stmt with predicateKind := .none }
  else if !keyword (cstr "WHERE") p then pure { stmt with predicateKind := .none }
  else do
    let p := skipWs (p.drop 5)
    let (field, p) ← readInto 32 31 fieldChar p
    let stmt := { stmt with predField := field }
    let p := skipWs p
    if keyword (cstr "BETWEEN") p && isspace (deref (p.drop 7)) then parseBetween (p.drop 7) stmt
    else parseComparison p stmt

/-! ## ORDER BY and LIMIT -/

/-- The loop of `find_after_where`: the first place that reads ORDER or LIMIT. -/
def seekClause : CString → CString
  | [] => []
  | c :: p =>
    let q := skipWs (c :: p)
    if keyword (cstr "ORDER") q || keyword (cstr "LIMIT") q then q else seekClause p

/-- `find_after_where`. -/
def findAfterWhere (p : CString) : CString :=
  let p := skipWs p
  if keyword (cstr "WHERE") p then seekClause (p.drop 5) else p

/-- The ORDER BY part of `parse_order_limit`, from behind the word ORDER. -/
def parseOrderBy (p : CString) (stmt : Statement) : ParseM (Statement × CString) := do
  let p := skipWs p
  if !keyword (cstr "BY") p then throw .reject
  let p := skipWs (p.drop 2)
  let (field, p) ← readInto 32 31 valueChar p
  let stmt := { stmt with orderByField := field, hasOrderBy := true, orderDesc := false }
  let p := skipWs p
  if keyword (cstr "DESC") p then return ({ stmt with orderDesc := true }, skipWs (p.drop 4))
  else if keyword (cstr "ASC") p then return (stmt, skipWs (p.drop 3))
  else return (stmt, p)

/-- The LIMIT part of `parse_order_limit`. -/
def parseLimit (p : CString) (stmt : Statement) : Statement :=
  let p := skipWs p
  if keyword (cstr "LIMIT") p then
    { stmt with limitCount := toU32 (atoi (skipWs (p.drop 5))), hasLimit := true }
  else stmt

/-- `parse_order_limit`. -/
def parseOrderLimit (p : CString) (stmt : Statement) : ParseM Statement := do
  let p := skipWs p
  if keyword (cstr "ORDER") p then
    let (stmt, p) ← parseOrderBy (p.drop 5) stmt
    return parseLimit p stmt
  else return parseLimit p stmt

/-! ## CREATE TABLE and INSERT -/

/-- The loop over a bracketed list, `while (*p && *p != ')') { ... }`, that `parse_create_table`
and `parse_insert` share: an item, blanks, an optional comma. The items go into an array with
`room` elements left. -/
def parseItems {α : Type} (item : CString → ParseM (α × CString)) :
    (room : Nat) → CString → ParseM (List α)
  | room, p =>
    if p = [] ∨ deref p = ch ')' then pure []
    else
      let p := skipWs p
      if deref p = ch ')' then pure []
      else
        match room with
        | 0 => throw .outOfBounds
        | room + 1 => do
          let (a, p) ← item p
          let p := skipWs p
          let p := if deref p = ch ',' then p.tail else p
          return a :: (← parseItems item room p)

/-- The size behind VARCHAR, 32 where none is given. -/
def varcharSize (p : CString) : Nat × CString :=
  let p := skipWs p
  if deref p = ch '(' then
    let p := p.tail
    let rest := p.dropWhile (· != ch ')')
    (toU16 (atoi p), if deref rest = ch ')' then rest.tail else rest)
  else (32, p)

/-- One round of the loop of `parse_create_table`. -/
def parseColumn (p : CString) : ParseM (ColumnDef × CString) := do
  let (name, p) ← readInto 32 31 (fun c => !isspace c && c != ch ',' && c != ch ')') p
  let p := skipWs p
  let (typeStr, p) ←
    readInto 32 31 (fun c => c != ch ',' && c != ch ')' && c != ch '(' && !isspace c) p
  if keyword (cstr "INT") typeStr && typeStr.length == 3 then return (⟨name, .int, 4⟩, p)
  else if keyword (cstr "BIGINT") typeStr then return (⟨name, .bigint, 8⟩, p)
  else if keyword (cstr "VARCHAR") typeStr then
    return (⟨name, .varchar, (varcharSize p).1⟩, (varcharSize p).2)
  else throw .reject

/-- `parse_create_table`. -/
def parseCreateTable (input : CString) (stmt : Statement) : ParseM Statement := do
  let p := skipWs input
  let (tableName, p) ← readInto 32 31 (fun c => !isspace c && c != ch '(') p
  let stmt := { stmt with tableName }
  let p := skipWs p
  if deref p ≠ ch '(' then throw .reject
  let colDefs ← parseItems parseColumn maxColumns p.tail
  return { stmt with colDefs }

/-- One round of the loop of `parse_insert`. -/
def parseInsertValue (p : CString) : ParseM (CString × CString) :=
  if deref p = quote then do
    let (val, p) ← readInto 256 255 (· != quote) p.tail
    return (val, if deref p = quote then p.tail else p)
  else readInto 256 255 (fun c => c != ch ',' && c != ch ')' && !isspace c) p

/-- `parse_insert`. -/
def parseInsert (input : CString) (stmt : Statement) : ParseM Statement := do
  let p := skipWs input
  if !keyword (cstr "INTO") p then throw .reject
  let p := skipWs (p.drop 4)
  let (tableName, p) ← readInto 32 31 (fun c => !isspace c) p
  let stmt := { stmt with tableName }
  let p := skipWs p
  if !keyword (cstr "VALUES") p then throw .reject
  let p := skipWs (p.drop 6)
  if deref p ≠ ch '(' then throw .reject
  let insertValues ← parseItems parseInsertValue maxColumns p.tail
  return { stmt with insertValues }

/-! ## SELECT, DELETE, UPDATE, DROP -/

/-- `FROM` and the table name, with the text behind it. -/
def parseFrom (p : CString) : ParseM (CString × CString) :=
  if !keyword (cstr "FROM") p then throw .reject
  else readInto 32 31 valueChar (skipWs (p.drop 4))

/-- The end of both branches of `parse_select`: FROM, the table, WHERE, ORDER BY and LIMIT. -/
def parseSelectFrom (p : CString) (stmt : Statement) : ParseM Statement := do
  let (tableName, p) ← parseFrom p
  let rest := skipWs p
  let stmt ← parseWhere rest { stmt with tableName }
  parseOrderLimit (findAfterWhere rest) stmt

/-- The text behind `COUNT`, past its brackets. -/
def skipCountArgs (p : CString) : CString :=
  let p := skipWs p
  if deref p = ch '(' then
    let p := skipWs p.tail
    let p := if deref p = ch '*' then p.tail else p
    let p := skipWs p
    if deref p = ch ')' then p.tail else p
  else p

/-- `parse_select`. -/
def parseSelect (input : CString) (stmt : Statement) : ParseM Statement :=
  let p := skipWs input
  if keyword (cstr "COUNT") p then
    parseSelectFrom (skipWs (skipCountArgs (p.drop 5))) { stmt with selectCount := true }
  else if deref p = ch '*' then
    parseSelectFrom (skipWs p.tail) { stmt with selectAll := true }
  else parseSelectFrom p stmt

/-- `parse_delete`. -/
def parseDelete (input : CString) (stmt : Statement) : ParseM Statement := do
  let (tableName, p) ← parseFrom (skipWs input)
  parseWhere (skipWs p) { stmt with tableName }

/-- `parse_update`. -/
def parseUpdate (input : CString) (stmt : Statement) : ParseM Statement := do
  let p := skipWs input
  let (tableName, p) ← readInto 32 31 (fun c => !isspace c) p
  let stmt := { stmt with tableName }
  let p := skipWs p
  if !keyword (cstr "SET") p then throw .reject
  let p := skipWs (p.drop 3)
  let (updateField, p) ← readInto 32 31 (fun c => c != ch '=' && !isspace c) p
  let stmt := { stmt with updateField }
  let p := skipWs p
  if deref p ≠ ch '=' then throw .reject
  let p := skipWs p.tail
  let (updateValue, p) ← readValue p
  parseWhere (skipWs p) { stmt with updateValue }

/-- `parse_drop_table`. -/
def parseDropTable (input : CString) (stmt : Statement) : ParseM Statement := do
  let (tableName, _) ← readInto 32 31 valueChar (skipWs input)
  return { stmt with tableName }

/-! ## The entry point -/

/-- `trim`. -/
def trim (s : CString) : CString := s.rdropWhile fun c => isspace c || c == ch ';'

/-- `parse` up to its first keyword: at most 4095 bytes of the input are copied, trailing blanks
and semicolons are cut, leading blanks skipped. -/
def commandText (input : CString) : CString :=
  skipWs (trim ((input.takeWhile (· != 0)).take 4095))

/-- What `parse` copies of the statement behind EXPLAIN. -/
def explainStatement (inner : Statement) : Statement :=
  { type := .explain
    innerType := inner.type
    innerPredicate := inner.predicateKind
    tableName := inner.tableName
    predField := inner.predField
    predValue := inner.predValue
    predId := inner.predId
    predicateKind := inner.predicateKind
    rangeLo := inner.rangeLo
    rangeHi := inner.rangeHi
    hasLo := inner.hasLo
    hasHi := inner.hasHi
    loInclusive := inner.loInclusive
    hiInclusive := inner.hiInclusive
    hasLimit := inner.hasLimit }

/-- The dispatch of `parse` on the first keyword, EXPLAIN apart. -/
def parseCommand (p : CString) : ParseM Statement :=
  if keyword (cstr "CREATE") p then
    let p := skipWs (p.drop 6)
    if keyword (cstr "TABLE") p then
      parseCreateTable (skipWs (p.drop 5)) { type := .createTable }
    else throw .reject
  else if keyword (cstr "INSERT") p then parseInsert (skipWs (p.drop 6)) { type := .insert }
  else if keyword (cstr "SELECT") p then parseSelect (skipWs (p.drop 6)) { type := .select }
  else if keyword (cstr "DELETE") p then parseDelete (skipWs (p.drop 6)) { type := .delete }
  else if keyword (cstr "UPDATE") p then parseUpdate (skipWs (p.drop 6)) { type := .update }
  else if keyword (cstr "DROP") p then
    let p := skipWs (p.drop 4)
    if keyword (cstr "TABLE") p then
      parseDropTable (skipWs (p.drop 5)) { type := .dropTable }
    else throw .reject
  else throw .reject

theorem length_trim_le (s : CString) : (trim s).length ≤ s.length := by
  rw [trim, List.rdropWhile, List.length_reverse, ← @List.length_reverse _ s]
  exact length_dropWhile_le _ s.reverse

theorem length_commandText_le (input : CString) : (commandText input).length ≤ input.length := by
  calc (commandText input).length
      ≤ (trim ((input.takeWhile (· != 0)).take 4095)).length := length_skipWs_le _
    _ ≤ ((input.takeWhile (· != 0)).take 4095).length := length_trim_le _
    _ ≤ (input.takeWhile (· != 0)).length := (List.take_sublist _ _).length_le
    _ ≤ input.length := (List.takeWhile_sublist _).length_le

theorem keyword_nil {kw : CString} (hkw : 0 ∉ kw) (hne : kw ≠ []) : keyword kw [] = false := by
  rw [Bool.eq_false_iff, ne_eq, keyword_iff hkw]
  simp [eq_comm, hne]

/-- What stands behind EXPLAIN is shorter than the whole text. -/
theorem explain_rest_lt {input : CString} (h : keyword (cstr "EXPLAIN") (commandText input) = true) :
    (skipWs ((commandText input).drop 7)).length < input.length := by
  have hne : commandText input ≠ [] := by
    intro hnil
    rw [hnil, keyword_nil (by decide) (by decide)] at h
    cases h
  have hpos := List.length_pos_iff.mpr hne
  have hskip := length_skipWs_le ((commandText input).drop 7)
  have hle := length_commandText_le input
  rw [List.length_drop] at hskip
  omega

/-- `parse`. -/
def parse (input : CString) : ParseM Statement :=
  if _h : keyword (cstr "EXPLAIN") (commandText input) = true then do
    let inner ← parse (skipWs ((commandText input).drop 7))
    return explainStatement inner
  else parseCommand (commandText input)
termination_by input.length
decreasing_by exact explain_rest_lt _h

end MiniDb
