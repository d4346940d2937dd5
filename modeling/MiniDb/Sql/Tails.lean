import MiniDb.Sql.Clauses

/-! # What stands behind the table

`parse_where` and `parse_order_limit` stop where they have read enough, and nobody looks at the rest
of the text. So a SELECT, DELETE or UPDATE is accepted with everything behind its table consumed
exactly when that text is made up of complete clauses: a word other than WHERE, a second condition
or a second assignment is passed over. -/

set_option autoImplicit false

namespace MiniDb

open Lib

/-! ## The tail of a command -/

/-- Behind SELECT, up to FROM. -/
def selectFrom (p : CString) : CString :=
  let p := skipWs p
  if keyword (cstr "COUNT") p then skipWs (skipCountArgs (p.drop 5))
  else if deref p = ch '*' then skipWs p.tail
  else p

/-- The text behind FROM and the table name. -/
def fromTail (p : CString) : Option CString :=
  if keyword (cstr "FROM") p then some (fromSpan p).2 else none

/-- The text behind the value of SET in an UPDATE, from behind the word UPDATE. -/
def setTail (p : CString) : Option CString :=
  let p := skipWs (spanUpTo (fun c => !isspace c) 31 (skipWs p)).2
  if keyword (cstr "SET") p then
    let p := skipWs (spanUpTo (fun c => c != ch '=' && !isspace c) 31 (skipWs (p.drop 3))).2
    if deref p = ch '=' then some (valueSpan (skipWs p.tail)).2 else none
  else none

/-- A SELECT, DELETE or UPDATE with the text behind its table or SET value. -/
def commandTail (p : CString) : Option (StatementType × CString) :=
  if keyword (cstr "SELECT") p then
    (fromTail (selectFrom (skipWs (p.drop 6)))).map fun t => (.select, t)
  else if keyword (cstr "DELETE") p then
    (fromTail (skipWs (skipWs (p.drop 6)))).map fun t => (.delete, t)
  else if keyword (cstr "UPDATE") p then
    (setTail (skipWs (p.drop 6))).map fun t => (.update, t)
  else none

/-- The statements that may have a WHERE clause. -/
def StatementType.HasWhere (type : StatementType) : Prop :=
  type = .select ∨ type = .delete ∨ type = .update

/-- Everything behind the table is consumed: there is nothing, or one complete WHERE clause, and in
a SELECT an ORDER BY and a LIMIT clause behind it. -/
def CompleteTail (type : StatementType) (t : CString) : Prop :=
  ∃ rest, (rest = t ∨ WhereClause (skipWs t) rest) ∧
    if type = .select then OrderLimitText rest else Blank rest

/-- If the text is accepted as a SELECT, DELETE or UPDATE, then everything behind its table has been
consumed. -/
def TailConsumed (text : CString) : Prop :=
  ∀ stmt, parse text = .ok stmt → stmt.type.HasWhere →
    ∃ t, commandTail (commandText text) = some (stmt.type, t) ∧ CompleteTail stmt.type t

/-! ## Reading the tail -/

/-- An ORDER without BY, which is refused. -/
def orderWithoutBy (s : CString) : Bool :=
  let p := skipWs s
  keyword (cstr "ORDER") p && !keyword (cstr "BY") (skipWs (p.drop 5))

/-- The text behind the condition is of the right kind. -/
def readsRest (type : StatementType) (rest : CString) : Bool :=
  if type = .select then readsOrderLimit rest else decide (Blank rest)

/-- The tail is refused, or nothing is left when its clauses have been read. -/
def readsTail (type : StatementType) (t : CString) : Bool :=
  let p := skipWs t
  (type == .select && orderWithoutBy (findAfterWhere p)) ||
    if keyword (cstr "WHERE") p then
      (scanCondition (skipWs (p.drop 5))).all fun r => r.1 && readsRest type r.2
    else readsRest type p

/-- The tail of the text, if it has one, is refused or read to its end. It is read as the parser
reads: the name of a table or field takes up to 31 characters, a keyword may be the beginning of a
longer word, and a value without a quote in front may have quotes in it. -/
def TailRead (text : CString) : Prop :=
  keyword (cstr "EXPLAIN") (commandText text) = false →
    ∀ r ∈ commandTail (commandText text), readsTail r.1 r.2 = true

instance (text : CString) : Decidable (TailRead text) :=
  inferInstanceAs (Decidable (_ → ∀ r ∈ commandTail (commandText text), _))

section

variable {t p : CString} {type : StatementType}

theorem readsRest_iff :
    readsRest type t = true ↔ if type = .select then OrderLimitText t else Blank t := by
  rw [readsRest]
  split
  · exact orderLimitText_iff.symm
  · exact decide_eq_true_iff

theorem readsLimit_skipWs (t : CString) : readsLimit (skipWs t) = readsLimit t := by
  rw [readsLimit, readsLimit, skipWs_skipWs]

theorem readsRest_skipWs (type : StatementType) (t : CString) :
    readsRest type (skipWs t) = readsRest type t := by
  rw [readsRest, readsRest, readsOrderLimit, readsOrderLimit, skipWs_skipWs, readsLimit_skipWs,
    decide_eq_decide.mpr blank_skipWs]

/-- In front of WHERE nothing else can be read. -/
theorem readsRest_where (h : keyword (cstr "WHERE") (skipWs t) = true) :
    readsRest type t = false := by
  have hblank := keyword_not_blank (by decide) (by decide) h
  rw [readsRest]
  split
  · rw [readsOrderLimit]
    dsimp only
    rw [if_neg (keyword_exclusive (by decide) (by decide) (by decide) h)]
    exact readsLimit_of_direction (by decide) (by decide) (by decide) h
  · simpa [blank_skipWs] using hblank

/-- Where the tail is not refused, it is complete exactly when it is read to its end. -/
theorem completeTail_iff (hwhere : keyword (cstr "WHERE") (skipWs t) = true →
      (scanCondition (skipWs ((skipWs t).drop 5))).isSome)
    (horder : ¬ (type == .select && orderWithoutBy (findAfterWhere (skipWs t))) = true) :
    CompleteTail type t ↔ readsTail type t = true := by
  simp only [readsTail, Bool.not_eq_true _ ▸ horder, Bool.false_or, CompleteTail, ← readsRest_iff]
  by_cases hw : keyword (cstr "WHERE") (skipWs t) = true
  · rw [if_pos hw]
    obtain ⟨⟨whole, rest⟩, hscan⟩ := Option.isSome_iff_exists.mp (hwhere hw)
    rw [hscan, Option.all_some, Bool.and_eq_true]
    constructor
    · rintro ⟨rest', rfl | hclause, hrest⟩
      · rw [readsRest_where hw] at hrest
        cases hrest
      · obtain ⟨-, hnone | hsome⟩ := hclause.scan
        · rw [hscan] at hnone
          cases hnone
        · rw [hscan] at hsome
          cases hsome
          exact ⟨rfl, hrest⟩
    · rintro ⟨rfl, hrest⟩
      exact ⟨rest, .inr (whereClause_of_scan hw hscan), hrest⟩
  · rw [if_neg hw, readsRest_skipWs]
    constructor
    · rintro ⟨rest, rfl | hclause, hrest⟩
      · exact hrest
      · exact absurd hclause.scan.1 hw
    · intro hrest
      exact ⟨t, .inl rfl, hrest⟩

/-! ## What is accepted -/

/-- Without WHERE there is no condition to refuse. -/
theorem parseWhere_of_not_where {stmt : Statement} (hw : ¬ keyword (cstr "WHERE") (skipWs t) = true) :
    parseWhere t stmt = .ok { stmt with predicateKind := .none } := by
  rw [parseWhere]
  dsimp only
  split
  · rfl
  · rw [if_pos (by simpa using hw)]
    rfl

theorem parseWhere_skipWs (t : CString) (stmt : Statement) :
    parseWhere (skipWs t) stmt = parseWhere t stmt := by
  rw [parseWhere, parseWhere, skipWs_skipWs]

/-- A condition is accepted unless it is refused as it is read. -/
theorem parseWhere_accepts_iff {stmt : Statement} :
    (∃ stmt', parseWhere (skipWs t) stmt = .ok stmt') ↔
      (keyword (cstr "WHERE") (skipWs t) = true →
        (scanCondition (skipWs ((skipWs t).drop 5))).isSome) := by
  by_cases hw : keyword (cstr "WHERE") (skipWs t) = true
  · rw [parseWhere_isOk_iff hw]
    simp [hw]
  · rw [parseWhere_skipWs, parseWhere_of_not_where hw]
    exact iff_of_true ⟨_, rfl⟩ fun h => absurd h hw

/-- Two of the words that a command can begin with. -/
theorem command_exclusive {kw kw' : CString} (h : keyword kw p = true)
    (hkw : 0 ∉ kw := by decide) (hkw' : 0 ∉ kw' := by decide)
    (hne : (kw.map tolower).take kw'.length ≠ (kw'.map tolower).take kw.length := by decide) :
    ¬ keyword kw' p = true :=
  keyword_exclusive hkw hkw' hne h

/-- A DELETE or UPDATE ends with its condition. -/
theorem parseCommand_condition (h : commandTail p = some (type, t)) (hne : type ≠ .select) :
    ∃ stmt₀ : Statement, (stmt₀.type = type ∧ stmt₀.hasLo = false ∧ stmt₀.hasHi = false) ∧
      parseCommand p = parseWhere (skipWs t) stmt₀ := by
  rw [commandTail] at h
  split at h
  · obtain ⟨_, -, heq⟩ := Option.map_eq_some_iff.mp h
    cases heq
    exact absurd rfl hne
  split at h
  · rename_i hdelete
    obtain ⟨_, ht, heq⟩ := Option.map_eq_some_iff.mp h
    cases heq
    rw [fromTail] at ht
    split at ht
    · rename_i hfrom
      cases ht
      have hcreate : ¬ keyword (cstr "CREATE") p = true := command_exclusive hdelete
      have hinsert : ¬ keyword (cstr "INSERT") p = true := command_exclusive hdelete
      have hselect : ¬ keyword (cstr "SELECT") p = true := command_exclusive hdelete
      refine ⟨{ type := .delete, tableName := (fromSpan (skipWs (skipWs (p.drop 6)))).1 },
        ⟨rfl, rfl, rfl⟩, ?_⟩
      rw [parseCommand, if_neg hcreate, if_neg hinsert, if_neg hselect, if_pos hdelete, parseDelete,
        parseFrom_of_keyword hfrom]
      rfl
    · cases ht
  split at h
  · rename_i hupdate
    obtain ⟨_, ht, heq⟩ := Option.map_eq_some_iff.mp h
    cases heq
    rw [setTail] at ht
    dsimp only at ht
    split at ht
    · rename_i hset
      split at ht
      · rename_i hassign
        cases ht
        have hcreate : ¬ keyword (cstr "CREATE") p = true := command_exclusive hupdate
        have hinsert : ¬ keyword (cstr "INSERT") p = true := command_exclusive hupdate
        have hselect : ¬ keyword (cstr "SELECT") p = true := command_exclusive hupdate
        have hdelete : ¬ keyword (cstr "DELETE") p = true := command_exclusive hupdate
        rw [parseCommand, if_neg hcreate, if_neg hinsert, if_neg hselect, if_neg hdelete,
          if_pos hupdate, parseUpdate]
        simp only [readInto_name, ParseM.ok_bind, hset, Bool.not_true, Bool.false_eq_true, if_false]
        rw [if_neg (not_not.mpr hassign)]
        simp only [readValue_eq, ParseM.ok_bind]
        exact ⟨_, ⟨rfl, rfl, rfl⟩, rfl⟩
      · cases ht
    · cases ht
  · cases h

/-- A SELECT ends with its condition and the clauses behind it. -/
theorem parseCommand_select (h : commandTail p = some (.select, t)) :
    ∃ stmt₀ : Statement, (stmt₀.type = .select ∧ stmt₀.hasLo = false ∧ stmt₀.hasHi = false) ∧
      parseCommand p =
        parseWhere (skipWs t) stmt₀ >>= parseOrderLimit (findAfterWhere (skipWs t)) := by
  rw [commandTail] at h
  split at h
  · rename_i hselect
    obtain ⟨_, ht, heq⟩ := Option.map_eq_some_iff.mp h
    cases heq
    rw [fromTail] at ht
    split at ht
    · rename_i hfrom
      cases ht
      have hcreate : ¬ keyword (cstr "CREATE") p = true := command_exclusive hselect
      have hinsert : ¬ keyword (cstr "INSERT") p = true := command_exclusive hselect
      have hfromSel : ∀ stmt : Statement,
          (stmt.type = .select ∧ stmt.hasLo = false ∧ stmt.hasHi = false) → ∃ stmt₀ : Statement,
          (stmt₀.type = .select ∧ stmt₀.hasLo = false ∧ stmt₀.hasHi = false) ∧
          parseSelectFrom (selectFrom (skipWs (p.drop 6))) stmt =
            parseWhere (skipWs (fromSpan (selectFrom (skipWs (p.drop 6)))).2) stmt₀ >>=
              parseOrderLimit
                (findAfterWhere (skipWs (fromSpan (selectFrom (skipWs (p.drop 6)))).2)) := by
        intro stmt hstmt
        rw [parseSelectFrom, parseFrom_of_keyword hfrom]
        exact ⟨{ stmt with tableName := (fromSpan (selectFrom (skipWs (p.drop 6)))).1 }, hstmt, rfl⟩
      rw [parseCommand, if_neg hcreate, if_neg hinsert, if_pos hselect, parseSelect]
      rw [selectFrom] at hfromSel ⊢
      dsimp only at hfromSel ⊢
      split
      · rename_i hcount
        rw [if_pos hcount] at hfromSel
        exact hfromSel _ ⟨rfl, rfl, rfl⟩
      split
      · rename_i hcount hstar
        rw [if_neg hcount, if_pos hstar] at hfromSel
        exact hfromSel _ ⟨rfl, rfl, rfl⟩
      · rename_i hcount hstar
        rw [if_neg hcount, if_neg hstar] at hfromSel
        exact hfromSel _ ⟨rfl, rfl, rfl⟩
    · cases ht
  split at h
  · obtain ⟨_, -, heq⟩ := Option.map_eq_some_iff.mp h
    cases heq
  split at h
  · obtain ⟨_, -, heq⟩ := Option.map_eq_some_iff.mp h
    cases heq
  · cases h

/-- With a tail, a command is refused for its condition or for an ORDER without BY only. -/
theorem parseCommand_isOk_iff (h : commandTail p = some (type, t)) :
    (∃ stmt, parseCommand p = .ok stmt) ↔
      (keyword (cstr "WHERE") (skipWs t) = true →
        (scanCondition (skipWs ((skipWs t).drop 5))).isSome) ∧
      ¬ (type == .select && orderWithoutBy (findAfterWhere (skipWs t))) = true := by
  by_cases hselect : type = .select
  · subst hselect
    obtain ⟨stmt₀, -, hrun⟩ := parseCommand_select h
    have horder : ¬ (StatementType.select == .select &&
        orderWithoutBy (findAfterWhere (skipWs t))) = true ↔
        ∀ stmt, ∃ stmt', parseOrderLimit (findAfterWhere (skipWs t)) stmt = .ok stmt' := by
      simp only [parseOrderLimit_isOk_iff, orderWithoutBy, beq_self_eq_true, Bool.true_and,
        Bool.and_eq_true, Bool.not_eq_true', not_and, Bool.not_eq_false]
      exact ⟨fun h _ => h, fun h => h stmt₀⟩
    rw [hrun, ← parseWhere_accepts_iff, horder]
    constructor
    · rintro ⟨stmt, hok⟩
      cases hwhere : parseWhere (skipWs t) stmt₀ with
      | error e =>
        rw [hwhere] at hok
        cases hok
      | ok stmt₁ =>
        rw [hwhere, ParseM.ok_bind] at hok
        have hby := parseOrderLimit_isOk_iff.mp ⟨stmt, hok⟩
        exact ⟨⟨stmt₁, rfl⟩, fun _ => parseOrderLimit_isOk_iff.mpr hby⟩
    · rintro ⟨⟨stmt₁, hwhere⟩, hall⟩
      rw [hwhere, ParseM.ok_bind]
      exact hall stmt₁
  · obtain ⟨stmt₀, -, hrun⟩ := parseCommand_condition h hselect
    rw [hrun, parseWhere_accepts_iff]
    simp [hselect]

/-- A SELECT that is accepted has FROM and a table. -/
theorem fromTail_of_accepted {stmt stmt₀ : Statement} (hok : parseSelectFrom p stmt₀ = .ok stmt) :
    ∃ t, fromTail p = some t := by
  by_cases hfrom : keyword (cstr "FROM") p = true
  · exact ⟨_, if_pos hfrom⟩
  · rw [parseSelectFrom, parseFrom_of_not_keyword hfrom] at hok
    cases hok

theorem selectTail_of_accepted {stmt stmt₀ : Statement} (hok : parseSelect p stmt₀ = .ok stmt) :
    ∃ t, fromTail (selectFrom p) = some t := by
  rw [parseSelect] at hok
  rw [selectFrom]
  split at hok
  · rename_i hcount
    rw [if_pos hcount]
    exact fromTail_of_accepted hok
  split at hok
  · rename_i hcount hstar
    rw [if_neg hcount, if_pos hstar]
    exact fromTail_of_accepted hok
  · rename_i hcount hstar
    rw [if_neg hcount, if_neg hstar]
    exact fromTail_of_accepted hok

theorem deleteTail_of_accepted {stmt stmt₀ : Statement} (hok : parseDelete p stmt₀ = .ok stmt) :
    ∃ t, fromTail (skipWs p) = some t := by
  by_cases hfrom : keyword (cstr "FROM") (skipWs p) = true
  · exact ⟨_, if_pos hfrom⟩
  · rw [parseDelete, parseFrom_of_not_keyword hfrom] at hok
    cases hok

theorem updateTail_of_accepted {stmt stmt₀ : Statement} (hok : parseUpdate p stmt₀ = .ok stmt) :
    ∃ t, setTail p = some t := by
  rw [parseUpdate] at hok
  simp only [readInto_name, ParseM.ok_bind] at hok
  split at hok
  · cases hok
  rename_i hset
  split at hok
  · cases hok
  rename_i hassign
  rw [setTail]
  dsimp only
  rw [if_pos (by simpa using hset), if_pos (not_not.mp hassign)]
  exact ⟨_, rfl⟩

theorem parseCreateTable_type {stmt stmt₀ : Statement}
    (hok : parseCreateTable p stmt₀ = .ok stmt) : stmt.type = stmt₀.type := by
  unfold parseCreateTable at hok
  simp only [readInto_name, ParseM.ok_bind] at hok
  split at hok
  · cases hok
  · rename_i hopen
    cases hitems : parseItems parseColumn maxColumns
        (skipWs (spanUpTo (fun c => !isspace c && c != ch '(') 31 (skipWs p)).2).tail with
    | error e =>
      rw [hitems] at hok
      cases hok
    | ok items =>
      rw [hitems] at hok
      cases hok
      rfl

theorem parseInsert_type {stmt stmt₀ : Statement} (hok : parseInsert p stmt₀ = .ok stmt) :
    stmt.type = stmt₀.type := by
  unfold parseInsert at hok
  simp only [readInto_name, ParseM.ok_bind, ParseM.throw_eq] at hok
  split at hok
  · cases hok
  split at hok
  · cases hok
  split at hok
  · cases hok
  · generalize parseItems parseInsertValue maxColumns _ = items at hok
    cases items with
    | error e => cases hok
    | ok items =>
      cases hok
      rfl

/-- A SELECT, DELETE or UPDATE that is accepted has a tail, and its type is the command's. -/
theorem commandTail_of_accepted {stmt : Statement} (hok : parseCommand p = .ok stmt)
    (hwhere : stmt.type.HasWhere) : ∃ t, commandTail p = some (stmt.type, t) := by
  have hother : ∀ {type : StatementType}, stmt.type = type → type ≠ .select → type ≠ .delete →
      type ≠ .update → False := by
    rintro type rfl hselect hdelete hupdate
    rcases hwhere with h | h | h
    · exact hselect h
    · exact hdelete h
    · exact hupdate h
  unfold parseCommand at hok
  dsimp only at hok
  rw [commandTail]
  split at hok
  · split at hok
    · exact (hother (parseCreateTable_type hok) nofun nofun nofun).elim
    · cases hok
  split at hok
  · exact (hother (parseInsert_type hok) nofun nofun nofun).elim
  split at hok
  · rename_i hselect
    obtain ⟨t, ht⟩ := selectTail_of_accepted hok
    rw [if_pos hselect, ht, (parseSelect_yields rfl).type stmt hok]
    exact ⟨t, rfl⟩
  rename_i hselect
  rw [if_neg hselect]
  split at hok
  · rename_i hdelete
    obtain ⟨t, ht⟩ := deleteTail_of_accepted hok
    rw [if_pos hdelete, ht, (parseDelete_yields rfl).type stmt hok]
    exact ⟨t, rfl⟩
  rename_i hdelete
  rw [if_neg hdelete]
  split at hok
  · rename_i hupdate
    obtain ⟨t, ht⟩ := updateTail_of_accepted hok
    rw [if_pos hupdate, ht, (parseUpdate_yields rfl).type stmt hok]
    exact ⟨t, rfl⟩
  split at hok
  · split at hok
    · exact (hother ((parseDropTable_yields rfl).type stmt hok) nofun nofun nofun).elim
    · cases hok
  · cases hok

/-- Of a text with a tail, the type is one of the three. -/
theorem commandTail_hasWhere (h : commandTail p = some (type, t)) : type.HasWhere := by
  unfold commandTail at h
  split at h
  · obtain ⟨_, -, heq⟩ := Option.map_eq_some_iff.mp h
    exact .inl (Prod.mk.inj heq).1.symm
  split at h
  · obtain ⟨_, -, heq⟩ := Option.map_eq_some_iff.mp h
    exact .inr (.inl (Prod.mk.inj heq).1.symm)
  split at h
  · obtain ⟨_, -, heq⟩ := Option.map_eq_some_iff.mp h
    exact .inr (.inr (Prod.mk.inj heq).1.symm)
  · cases h

theorem commandTail_type {stmt : Statement} (h : commandTail p = some (type, t))
    (hok : parseCommand p = .ok stmt) : stmt.type = type := by
  by_cases hselect : type = .select
  · subst hselect
    obtain ⟨stmt₀, ⟨htype, -⟩, hrun⟩ := parseCommand_select h
    rw [hrun] at hok
    exact ((parseWhere_yields htype).andThen fun _ hs => parseOrderLimit_yields hs).type stmt hok
  · obtain ⟨stmt₀, ⟨htype, -⟩, hrun⟩ := parseCommand_condition h hselect
    rw [hrun] at hok
    exact (parseWhere_yields htype).type stmt hok

/-! ## The exact condition -/

/-- A command with a tail is accepted with an incomplete tail unless the tail is read. -/
theorem commandTail_consumed_iff (h : commandTail p = some (type, t)) :
    ((∃ stmt, parseCommand p = .ok stmt) → CompleteTail type t) ↔ readsTail type t = true := by
  rw [parseCommand_isOk_iff h]
  by_cases hacc : (keyword (cstr "WHERE") (skipWs t) = true →
      (scanCondition (skipWs ((skipWs t).drop 5))).isSome) ∧
      ¬ (type == .select && orderWithoutBy (findAfterWhere (skipWs t))) = true
  · rw [← completeTail_iff hacc.1 hacc.2]
    exact ⟨fun hc => hc hacc, fun hc _ => hc⟩
  · refine iff_of_true (fun h' => absurd h' hacc) ?_
    rw [readsTail]
    by_cases horder : (type == .select && orderWithoutBy (findAfterWhere (skipWs t))) = true
    · rw [horder, Bool.true_or]
    · have hrefused := fun hread => hacc ⟨hread, horder⟩
      obtain ⟨hw, hnone⟩ := Classical.not_imp.mp hrefused
      rw [Option.not_isSome_iff_eq_none] at hnone
      rw [if_pos hw, hnone, Option.all_none, Bool.or_true]

end

theorem parse_hasWhere_command {text : CString} {stmt : Statement} (hok : parse text = .ok stmt)
    (hwhere : stmt.type.HasWhere) : keyword (cstr "EXPLAIN") (commandText text) = false := by
  rw [Bool.eq_false_iff]
  intro hexplain
  rw [parse_explain hexplain] at hok
  cases hinner : parse (skipWs ((commandText text).drop 7)) with
  | error e =>
    rw [hinner] at hok
    cases hok
  | ok inner =>
    rw [hinner] at hok
    cases hok
    rcases hwhere with h | h | h
    · cases h
    · cases h
    · cases h

/-- What stands behind the table is consumed exactly when it is refused or read to its end. -/
theorem tailConsumed_iff (text : CString) : TailConsumed text ↔ TailRead text := by
  constructor
  · rintro h hexplain ⟨type, t⟩ htail
    rw [← commandTail_consumed_iff htail]
    rintro ⟨stmt, hok⟩
    have htype := commandTail_type htail hok
    rw [← parse_command (by simp [hexplain])] at hok
    obtain ⟨t', htail', hcomplete⟩ := h stmt hok (htype ▸ commandTail_hasWhere htail)
    rw [show commandTail (commandText text) = some (type, t) from htail, htype] at htail'
    cases htail'
    exact htype ▸ hcomplete
  · intro h stmt hok hwhere
    have hexplain := parse_hasWhere_command hok hwhere
    rw [parse_command (by simp [hexplain])] at hok
    obtain ⟨t, htail⟩ := commandTail_of_accepted hok hwhere
    exact ⟨t, htail, (commandTail_consumed_iff htail).mpr (h hexplain _ htail) ⟨stmt, hok⟩⟩

/-- A misspelt WHERE: the DELETE is accepted and has no condition. -/
theorem not_tailConsumed_misspelt_where : ¬ TailConsumed (cstr "DELETE FROM t WHRE id = 3") := by
  intro h
  have hok : parse (cstr "DELETE FROM t WHRE id = 3") =
      .ok { type := .delete, tableName := cstr "t" } := by
    decide +kernel
  have htail : commandTail (commandText (cstr "DELETE FROM t WHRE id = 3")) =
      some (.delete, cstr " WHRE id = 3") := by
    decide +kernel
  obtain ⟨t, htail', rest, hrest, hblank⟩ := h _ hok (.inr (.inl rfl))
  obtain ⟨-, rfl⟩ := Prod.mk.inj (Option.some.inj (htail.symm.trans htail'))
  rcases hrest with rfl | hclause
  · exact absurd (show Blank (cstr " WHRE id = 3") from hblank) (by decide)
  · exact absurd hclause.scan.1 (by decide)

end MiniDb
