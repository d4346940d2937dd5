import MiniDb.Sql.Executor.Basic
import MiniDb.Sql.ParserFacts

/-! # How far a statement's lists reach

The column list of CREATE TABLE and the value list of INSERT are read into arrays of `MAX_COLUMNS`
elements by a loop that counts but does not compare, and `exec_create_table` puts the id column in
front of the parsed ones. Here is how many items a list has, read off the text alone, and that a
statement stays inside every array exactly when its list is short enough. -/

set_option autoImplicit false

namespace MiniDb

open Lib

/-! ## The items of a bracketed list -/

/-- Another item follows: neither the text nor the list is over. -/
def startsItem (p : CString) : Bool :=
  p != [] && deref p != ch ')' && deref (skipWs p) != ch ')'

/-- The text behind an item, past its comma. -/
def afterItem (p : CString) : CString :=
  let p := skipWs p
  if deref p = ch ',' then p.tail else p

section Items

variable {α : Type} {item : CString → ParseM (α × CString)}

/-- The list has more than `n` items, of which the first `n` are well formed. -/
def hasMoreThan (item : CString → ParseM (α × CString)) : Nat → CString → Bool
  | 0, p => startsItem p
  | n + 1, p =>
    startsItem p &&
      match item (skipWs p) with
      | .ok (_, rest) => hasMoreThan item n (afterItem rest)
      | .error _ => false

/-- The first `n` items, or those in front of the first that is not well formed. -/
def firstItems (item : CString → ParseM (α × CString)) : Nat → CString → List α
  | 0, _ => []
  | n + 1, p =>
    if startsItem p then
      match item (skipWs p) with
      | .ok (a, rest) => a :: firstItems item n (afterItem rest)
      | .error _ => []
    else []

theorem startsItem_iff {p : CString} :
    startsItem p = true ↔ ¬ p = [] ∧ ¬ deref p = ch ')' ∧ ¬ deref (skipWs p) = ch ')' := by
  simp [startsItem, and_assoc]

theorem parseItems_of_not_startsItem {p : CString} (h : ¬ startsItem p = true) (room : Nat) :
    parseItems item room p = .ok [] := by
  rw [startsItem_iff] at h
  unfold parseItems
  split
  · rfl
  · rename_i hopen
    have hblank : deref (skipWs p) = ch ')' := by
      by_contra hne
      exact h ⟨fun hnil => hopen (.inl hnil), fun hclose => hopen (.inr hclose), hne⟩
    rw [if_pos hblank]
    rfl

theorem parseItems_zero {p : CString} (h : startsItem p = true) :
    parseItems item 0 p = .error .outOfBounds := by
  obtain ⟨hnil, hclose, hblank⟩ := startsItem_iff.mp h
  unfold parseItems
  rw [if_neg (by simp [hnil, hclose]), if_neg hblank]
  rfl

theorem parseItems_succ {p : CString} (h : startsItem p = true) (room : Nat) :
    parseItems item (room + 1) p = do
      let r ← item (skipWs p)
      return r.1 :: (← parseItems item room (afterItem r.2)) := by
  obtain ⟨hnil, hclose, hblank⟩ := startsItem_iff.mp h
  rw [parseItems, if_neg (by simp [hnil, hclose]), if_neg hblank]
  rfl

/-- The loop leaves its array exactly when the list has more items than the array has elements;
otherwise it stops at an item that is not well formed, or it returns all of them. -/
theorem parseItems_spec (hitem : ∀ p, item p ≠ .error .outOfBounds) (room : Nat) (p : CString) :
    (hasMoreThan item room p = true ∧ parseItems item room p = .error .outOfBounds) ∨
    (hasMoreThan item room p = false ∧ parseItems item room p = .error .reject ∧
      (firstItems item room p).length < room) ∨
    (hasMoreThan item room p = false ∧ parseItems item room p = .ok (firstItems item room p)) := by
  induction room generalizing p with
  | zero =>
    rw [hasMoreThan, firstItems]
    by_cases hstart : startsItem p = true
    · exact .inl ⟨hstart, parseItems_zero hstart⟩
    · exact .inr (.inr ⟨by simpa using hstart, parseItems_of_not_startsItem hstart 0⟩)
  | succ room ih =>
    rw [hasMoreThan, firstItems]
    by_cases hstart : startsItem p = true
    · rw [parseItems_succ hstart, hstart, if_pos rfl, Bool.true_and]
      match hread : item (skipWs p) with
      | .error .outOfBounds => exact absurd hread (hitem _)
      | .error .reject => exact .inr (.inl ⟨rfl, rfl, Nat.succ_pos _⟩)
      | .ok (a, rest) =>
        simp only [ParseM.ok_bind]
        rcases ih (afterItem rest) with ⟨hmore, hrun⟩ | ⟨hmore, hrun, hlen⟩ | ⟨hmore, hrun⟩
        · exact .inl ⟨hmore, by rw [hrun]; rfl⟩
        · exact .inr (.inl ⟨hmore, by rw [hrun]; rfl, by simpa using hlen⟩)
        · exact .inr (.inr ⟨hmore, by rw [hrun]; rfl⟩)
    · rw [parseItems_of_not_startsItem hstart, Bool.eq_false_iff.mpr hstart]
      exact .inr (.inr ⟨rfl, rfl⟩)

end Items

theorem parseInsertValue_inBounds (p : CString) : parseInsertValue p ≠ .error .outOfBounds := by
  unfold parseInsertValue
  split
  · simp
  · simp

theorem parseColumn_inBounds (p : CString) : parseColumn p ≠ .error .outOfBounds := by
  unfold parseColumn
  simp only [readInto_name, ParseM.ok_bind, ParseM.pure_eq, ParseM.throw_eq]
  split
  · simp
  · split
    · simp
    · split
      · simp
      · simp

/-! ## The list of a text -/

/-- The text behind the opening bracket of a CREATE TABLE. -/
def columnList (p : CString) : Option CString :=
  if keyword (cstr "CREATE") p then
    let p := skipWs (p.drop 6)
    if keyword (cstr "TABLE") p then
      let name := spanUpTo (fun c => !isspace c && c != ch '(') 31 (skipWs (skipWs (p.drop 5)))
      let p := skipWs name.2
      if deref p = ch '(' then some p.tail else none
    else none
  else none

/-- The text behind the opening bracket of an INSERT. -/
def valueList (p : CString) : Option CString :=
  if keyword (cstr "INSERT") p then
    let p := skipWs (skipWs (p.drop 6))
    if keyword (cstr "INTO") p then
      let name := spanUpTo (fun c => !isspace c) 31 (skipWs (p.drop 4))
      let p := skipWs name.2
      if keyword (cstr "VALUES") p then
        let p := skipWs (p.drop 6)
        if deref p = ch '(' then some p.tail else none
      else none
    else none
  else none

/-- The command behind any number of EXPLAINs. -/
def innerCommand (input : CString) : CString :=
  if _h : keyword (cstr "EXPLAIN") (commandText input) = true then
    innerCommand (skipWs ((commandText input).drop 7))
  else commandText input
termination_by input.length
decreasing_by exact explain_rest_lt _h

/-- The list of the command has at most `MAX_COLUMNS` items. -/
def listFits (p : CString) : Bool :=
  ((columnList p).all fun l => !hasMoreThan parseColumn maxColumns l) &&
    (valueList p).all fun l => !hasMoreThan parseInsertValue maxColumns l

/-- Of the columns of a CREATE TABLE, fewer than `MAX_COLUMNS` are not called `id`. -/
def userColumnsFit (p : CString) : Bool :=
  (columnList p).all fun l =>
    decide (((firstItems parseColumn maxColumns l).filter (·.name ≠ cstr "id")).length < maxColumns)

/-- No list of the text is too long for the arrays it goes into. -/
def ListsFit (text : CString) : Prop :=
  listFits (innerCommand text) ∧
    (¬ keyword (cstr "EXPLAIN") (commandText text) → userColumnsFit (commandText text))

instance (text : CString) : Decidable (ListsFit text) := inferInstanceAs (Decidable (_ ∧ _))

/-! ## Parsing -/

section

variable {p l : CString}

/-- A CREATE TABLE that gets to its columns returns them under what it has read before. -/
theorem parseCommand_columnList (h : columnList p = some l) :
    ∃ stmt : Statement, stmt.type = .createTable ∧
      parseCommand p = do
        let colDefs ← parseItems parseColumn maxColumns l
        return { stmt with colDefs } := by
  unfold columnList at h
  split at h
  · rename_i hcreate
    dsimp only at h
    split at h
    · rename_i htable
      split at h
      · rename_i hopen
        cases h
        refine ⟨{ type := .createTable
                  tableName := (spanUpTo (fun c => !isspace c && c != ch '(') 31
                    (skipWs (skipWs ((skipWs (p.drop 6)).drop 5)))).1 }, rfl, ?_⟩
        unfold parseCommand parseCreateTable
        rw [if_pos hcreate]
        dsimp only
        rw [if_pos htable]
        simp only [readInto_name, ParseM.ok_bind]
        rw [if_neg (not_not.mpr hopen)]
      · cases h
    · cases h
  · cases h

/-- An INSERT that gets to its values returns them under what it has read before. -/
theorem parseCommand_valueList (h : valueList p = some l) :
    ∃ stmt : Statement, stmt.type = .insert ∧
      parseCommand p = do
        let insertValues ← parseItems parseInsertValue maxColumns l
        return { stmt with insertValues } := by
  unfold valueList at h
  split at h
  · rename_i hinsert
    dsimp only at h
    split at h
    · rename_i hinto
      split at h
      · rename_i hvalues
        split at h
        · rename_i hopen
          cases h
          refine ⟨{ type := .insert
                    tableName := (spanUpTo (fun c => !isspace c) 31
                      (skipWs ((skipWs (skipWs (p.drop 6))).drop 4))).1 }, rfl, ?_⟩
          unfold parseCommand parseInsert
          rw [if_neg (keyword_exclusive (by decide) (by decide) (by decide) hinsert), if_pos hinsert]
          simp only [readInto_name, ParseM.ok_bind, hinto, hvalues, Bool.not_true,
            Bool.false_eq_true, if_false]
          rw [if_neg (not_not.mpr hopen)]
        · cases h
      · cases h
    · cases h
  · cases h

theorem parseCreateTable_reject {stmt : Statement}
    (h : ¬ deref (skipWs (spanUpTo (fun c => !isspace c && c != ch '(') 31 (skipWs p)).2) = ch '(') :
    parseCreateTable p stmt = .error .reject := by
  unfold parseCreateTable
  simp only [readInto_name, ParseM.ok_bind]
  rw [if_pos h]
  rfl

/-- A command that does not get to a list stays inside every buffer and is no CREATE TABLE. -/
theorem parseCommand_noList (hcols : columnList p = none) (hvals : valueList p = none) :
    parseCommand p ≠ .error .outOfBounds ∧
      ∀ stmt, parseCommand p = .ok stmt → stmt.type ≠ .createTable := by
  have hyields : ∀ {type : StatementType} {r : ParseM Statement}, type ≠ .createTable →
      Yields type r → r ≠ .error .outOfBounds ∧ ∀ stmt, r = .ok stmt → stmt.type ≠ .createTable :=
    fun hne hy => ⟨hy.inBounds, fun stmt hs => (hy.type stmt hs).symm ▸ hne⟩
  have hreject : (.error .reject : ParseM Statement) ≠ .error .outOfBounds ∧
      ∀ stmt, (.error .reject : ParseM Statement) = .ok stmt → stmt.type ≠ .createTable :=
    hyields (show StatementType.select ≠ .createTable by decide) yields_reject
  unfold parseCommand
  split
  · rename_i hcreate
    dsimp only
    split
    · rename_i htable
      have hopen : ¬ deref (skipWs (spanUpTo (fun c => !isspace c && c != ch '(') 31
          (skipWs (skipWs ((skipWs (p.drop 6)).drop 5)))).2) = ch '(' := by
        intro hopen
        simp only [columnList, hcreate, htable, hopen, if_true] at hcols
        cases hcols
      rw [parseCreateTable_reject hopen]
      exact hreject
    · exact hreject
  split
  · rename_i hinsert
    unfold parseInsert
    simp only [readInto_name, ParseM.ok_bind, ParseM.throw_eq]
    split
    · exact hreject
    rename_i hinto
    split
    · exact hreject
    rename_i hvalues
    split
    · exact hreject
    rename_i hopen
    simp only [Bool.not_eq_true', Bool.not_eq_false] at hinto hvalues
    rw [not_not] at hopen
    simp only [valueList, hinsert, hinto, hvalues, hopen, if_true] at hvals
    cases hvals
  split
  · exact hyields (by decide) (parseSelect_yields rfl)
  split
  · exact hyields (by decide) (parseDelete_yields rfl)
  split
  · exact hyields (by decide) (parseUpdate_yields rfl)
  split
  · dsimp only
    split
    · exact hyields (by decide) (parseDropTable_yields rfl)
    · exact hreject
  · exact hreject

theorem valueList_of_columnList (h : columnList p = some l) : valueList p = none := by
  have hcreate : keyword (cstr "CREATE") p = true := by
    by_contra hne
    simp [columnList, hne] at h
  rw [valueList, if_neg (keyword_exclusive (by decide) (by decide) (by decide) hcreate)]

/-- A command leaves an array exactly when its list is too long. -/
theorem parseCommand_inBounds_iff : parseCommand p ≠ .error .outOfBounds ↔ listFits p = true := by
  rcases hcols : columnList p with _ | l
  · rcases hvals : valueList p with _ | l
    · have hfits : listFits p = true := by simp [listFits, hcols, hvals]
      simp only [hfits, iff_true]
      exact (parseCommand_noList hcols hvals).1
    · obtain ⟨stmt, -, hrun⟩ := parseCommand_valueList hvals
      rw [hrun, listFits, hcols, hvals]
      rcases parseItems_spec parseInsertValue_inBounds maxColumns l with
        ⟨hmore, h⟩ | ⟨hmore, h, -⟩ | ⟨hmore, h⟩
      · simp [h, hmore]
      · simp [h, hmore]
      · simp [h, hmore]
  · obtain ⟨stmt, -, hrun⟩ := parseCommand_columnList hcols
    rw [hrun, listFits, hcols, valueList_of_columnList hcols]
    rcases parseItems_spec parseColumn_inBounds maxColumns l with
      ⟨hmore, h⟩ | ⟨hmore, h, -⟩ | ⟨hmore, h⟩
    · simp [h, hmore]
    · simp [h, hmore]
    · simp [h, hmore]

end

/-- Parsing leaves an array exactly when the list behind all EXPLAINs is too long. -/
theorem parse_inBounds_iff (text : CString) :
    parse text ≠ .error .outOfBounds ↔ listFits (innerCommand text) = true := by
  fun_induction innerCommand text with
  | case1 text hexplain ih =>
    rw [← ih, parse_explain hexplain]
    cases parse (skipWs ((commandText text).drop 7)) with
    | error e => simp [Except.map]
    | ok inner => simp [Except.map]
  | case2 text hexplain =>
    rw [parse_command hexplain]
    exact parseCommand_inBounds_iff

/-! ## Creating the table -/

/-- The registered columns leave `hdr->columns` exactly when too many of them are not `id`. -/
theorem registerColumns_isSome (columns : List ColumnMeta) (defs : List ColumnDef) :
    (registerColumns columns defs).isSome ↔
      (defs.filter (·.name ≠ cstr "id")).length = 0 ∨
        columns.length + (defs.filter (·.name ≠ cstr "id")).length ≤ maxColumns := by
  induction defs generalizing columns with
  | nil => simp [registerColumns]
  | cons cd defs ih =>
    by_cases hid : cd.name = cstr "id"
    · rw [registerColumns, if_pos hid, ih]
      simp [hid]
    · rw [registerColumns, if_neg hid, List.filter_cons_of_pos (by simpa using hid),
        List.length_cons, pushColumn]
      split
      · rw [Option.bind_eq_bind, Option.bind_some, ih, List.length_append, List.length_singleton]
        omega
      · simp
        omega

theorem execCreateTable_isSome (stmt : Statement) :
    (∀ st, ((execCreateTable stmt).run st).isSome) ↔
      (stmt.colDefs.filter (·.name ≠ cstr "id")).length < maxColumns := by
  have hreg := registerColumns_isSome [idColumn] stmt.colDefs
  have hrun : ∀ st : Pager, ((execCreateTable stmt).run st).isSome ↔
      st.header.columns ≠ [] ∨ (registerColumns [idColumn] stmt.colDefs).isSome := by
    intro st
    unfold execCreateTable
    by_cases hcols : st.header.columns = []
    · cases registerColumns [idColumn] stmt.colDefs with
      | none => simp [hcols, orUndefined]
      | some columns => simp [hcols, orUndefined]
    · simp [hcols]
  constructor
  · intro h
    have hempty := (hrun (pagerOpenCreate 4096)).mp (h _)
    rcases hempty with hne | hsome
    · exact absurd rfl hne
    · rcases hreg.mp hsome with hzero | hle
      · rw [hzero]
        decide
      · rw [List.length_singleton] at hle
        omega
  · intro h st
    refine (hrun st).mpr (.inr (hreg.mpr (.inr ?_)))
    rw [List.length_singleton]
    omega

/-! ## The exact condition -/

/-- Neither parsing the text nor executing the CREATE TABLE that it is indexes past an array. -/
def StaysInside (text : CString) : Prop :=
  parse text ≠ .error .outOfBounds ∧
    ∀ stmt, parse text = .ok stmt → stmt.type = .createTable →
      ∀ st, ((execCreateTable stmt).run st).isSome

/-- The CREATE TABLE part of it: what a command without EXPLAIN creates fits the header. -/
theorem parseCommand_create_iff {p : CString} (hfits : listFits p = true) :
    (∀ stmt, parseCommand p = .ok stmt → stmt.type = .createTable →
      ∀ st, ((execCreateTable stmt).run st).isSome) ↔ userColumnsFit p = true := by
  rcases hcols : columnList p with _ | l
  · have huser : userColumnsFit p = true := by simp [userColumnsFit, hcols]
    simp only [huser, iff_true]
    intro stmt hrun htype
    rcases hvals : valueList p with _ | l
    · exact absurd htype ((parseCommand_noList hcols hvals).2 stmt hrun)
    · obtain ⟨stmt₀, hinsert, hparse⟩ := parseCommand_valueList hvals
      rw [hparse] at hrun
      cases hvalues : parseItems parseInsertValue maxColumns l with
      | error e =>
        rw [hvalues] at hrun
        cases hrun
      | ok values =>
        rw [hvalues] at hrun
        cases hrun
        rw [show stmt₀.type = .createTable from htype] at hinsert
        cases hinsert
  · obtain ⟨stmt₀, hcreate, hparse⟩ := parseCommand_columnList hcols
    have hmore : hasMoreThan parseColumn maxColumns l = false := by
      simpa [listFits, hcols, valueList_of_columnList hcols] using hfits
    rw [userColumnsFit, hcols, Option.all_some, decide_eq_true_eq]
    rcases parseItems_spec parseColumn_inBounds maxColumns l with
      ⟨hmore', -⟩ | ⟨-, hrun, hlen⟩ | ⟨-, hrun⟩
    · rw [hmore] at hmore'
      cases hmore'
    · rw [hparse, hrun]
      refine iff_of_true (fun stmt hs => by cases hs) ?_
      exact lt_of_le_of_lt (List.length_filter_le _ _) hlen
    · rw [hparse, hrun]
      have hexec := execCreateTable_isSome
        { stmt₀ with colDefs := firstItems parseColumn maxColumns l }
      constructor
      · intro h
        exact hexec.mp (h _ rfl hcreate)
      · intro h stmt hs _
        cases hs
        exact hexec.mpr h

/-- A text stays inside every array exactly when its lists are short enough. -/
theorem staysInside_iff (text : CString) : StaysInside text ↔ ListsFit text := by
  unfold StaysInside ListsFit
  rw [parse_inBounds_iff]
  refine and_congr_right fun hfits => ?_
  by_cases hexplain : keyword (cstr "EXPLAIN") (commandText text) = true
  · refine iff_of_true (fun stmt hrun htype => ?_) (fun h => absurd hexplain h)
    rw [parse_explain hexplain] at hrun
    cases hinner : parse (skipWs ((commandText text).drop 7)) with
    | error e =>
      rw [hinner] at hrun
      cases hrun
    | ok inner =>
      rw [hinner] at hrun
      cases hrun
      cases htype
  · rw [innerCommand, dif_neg hexplain] at hfits
    rw [parse_command hexplain, parseCommand_create_iff hfits]
    exact ⟨fun h _ => h, fun h => h hexplain⟩

/-- Seventeen values are one too many. -/
theorem not_staysInside_seventeen_values :
    ¬ StaysInside (cstr "INSERT INTO t VALUES (0,1,2,3,4,5,6,7,8,9,10,11,12,13,14,15,16)") := by
  rintro ⟨h, -⟩
  revert h
  decide +kernel

/-- And so are sixteen columns, with the id column in front of them. -/
example : ¬ ListsFit (cstr
    "CREATE TABLE t (a INT,b INT,c INT,d INT,e INT,f INT,g INT,h INT,
     i INT,j INT,k INT,l INT,m INT,n INT,o INT,p INT)") := by
  decide +kernel

end MiniDb
