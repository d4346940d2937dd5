import MiniDb.Sql.ClauseWords

/-! # Reading a SELECT back

A SELECT with a quoted condition and optional ORDER BY and LIMIT clauses is written out and parsed.
The text is made of pieces with their blank in front, and each is read off by one function of the
parser. Where the clauses begin is looked for apart from the condition, at the first ORDER or LIMIT
behind WHERE, and a field name or a value can have these letters in it. -/

set_option autoImplicit false

namespace MiniDb

open Lib

/-! ## Texts -/

/-- A letter, a digit or an underscore. -/
def nameChar (c : UInt8) : Bool := letter c || isdigit c || c == ch '_'

/-- A table, field or column name. -/
structure IsName (w : CString) : Prop where
  nonempty : w ≠ []
  length : w.length ≤ 31
  chars : ∀ c ∈ w, nameChar c = true

/-- A decimal number below `2^31`. -/
structure IsNumber (w : CString) : Prop where
  nonempty : w ≠ []
  digits : ∀ c ∈ w, isdigit c = true
  small : digitsValue 0 w < 2 ^ 31

/-- How an operator is written. -/
def CompareOp.text : CompareOp → CString
  | .eq => cstr "="
  | .ne => cstr "!="
  | .lt => cstr "<"
  | .gt => cstr ">"
  | .le => cstr "<="
  | .ge => cstr ">="

/-- How a direction is written; `true` is descending. -/
def directionText : Option Bool → CString
  | none => []
  | some false => cstr " ASC"
  | some true => cstr " DESC"

/-- A SELECT with one condition on a quoted value. -/
structure SelectText where
  table : CString
  field : CString
  op : CompareOp
  value : CString
  order : Option (CString × Option Bool)
  limit : Option CString

namespace SelectText

/-- The condition, from behind WHERE. -/
def condition (s : SelectText) : CString :=
  ch ' ' :: (s.field ++ ch ' ' :: (s.op.text ++ ch ' ' :: quote :: (s.value ++ [quote])))

/-- The LIMIT clause. -/
def limitText (s : SelectText) : CString :=
  match s.limit with
  | none => []
  | some n => cstr " LIMIT " ++ n

/-- The clauses behind the condition. -/
def clauses (s : SelectText) : CString :=
  match s.order with
  | none => s.limitText
  | some (c, d) => cstr " ORDER BY " ++ (c ++ (directionText d ++ s.limitText))

/-- The whole text. -/
def text (s : SelectText) : CString :=
  cstr "SELECT * FROM " ++ (s.table ++ (cstr " WHERE" ++ (s.condition ++ s.clauses)))

/-- What the clauses say: the column with its direction, and the number. -/
def written (s : SelectText) : Option (CString × Bool) × Option Nat :=
  (s.order.map fun o => (o.1, o.2 == some true), s.limit.map (digitsValue 0))

structure WellFormed (s : SelectText) : Prop where
  table : IsName s.table
  field : IsName s.field
  value_length : s.value.length ≤ 255
  value_quote : quote ∉ s.value
  value_nul : 0 ∉ s.value
  order : ∀ o ∈ s.order, IsName o.1
  limit : ∀ n ∈ s.limit, IsNumber n
  length : s.text.length < 4096

/-- The statement says what the text says. -/
structure Recovered (s : SelectText) (stmt : Statement) : Prop where
  type : stmt.type = .select
  tableName : stmt.tableName = s.table
  predField : stmt.predField = s.field
  predOp : stmt.predOp = s.op
  predValue : stmt.predValue = s.value
  hasOrderBy : stmt.hasOrderBy = s.order.isSome
  orderBy : ∀ o ∈ s.order, stmt.orderByField = o.1 ∧ stmt.orderDesc = (o.2 == some true)
  hasLimit : stmt.hasLimit = s.limit.isSome
  limitCount : ∀ n ∈ s.limit, stmt.limitCount = digitsValue 0 n

end SelectText

namespace SelectText

/-- The letters are in the field name, and from the first such place on it reads ORDERBY and the
column that is written, ascending and without a limit, or LIMIT and the number that is written,
alone. The operator ends both. -/
def FoundInField (s : SelectText) : Prop :=
  ∃ rest, FirstClauseWord s.field rest ∧
    ((∃ col dir, Word (cstr "ORDERBY") rest col ∧ s.order = some (col, dir) ∧ dir ≠ some true ∧
        s.limit = none) ∨
      ∃ t n, Word (cstr "LIMIT") rest t ∧ s.order = none ∧ s.limit = some n ∧
        digitsValue 0 n = toU32 (atoi t))

/-- The letters are in the value, and from the first such place on it says what is written behind
the condition; its quote ends it. -/
def FoundInValue (s : SelectText) : Prop :=
  hasClauseWord s.field = false ∧ ∃ rest, FirstClauseWord s.value rest ∧ ClausesSay rest s.written

/-- The clauses are found: the letters ORDER and LIMIT are neither in the field name nor in the
value, or what they begin there happens to say the same as the clauses. -/
def ClausesFound (s : SelectText) : Prop :=
  hasClauseWord s.field = false ∧ hasClauseWord s.value = false ∨ s.FoundInField ∨ s.FoundInValue

end SelectText

/-! ## Writing and reading

The fixed words of the text are computed with, character by character. -/

set_option maxRecDepth 4000

section

variable {s : SelectText} {w rest : CString}

theorem nameChar_bounds {c : UInt8} (h : nameChar c = true) :
    (48 ≤ c.toNat ∧ c.toNat ≤ 57) ∨ (65 ≤ c.toNat ∧ c.toNat ≤ 122) := by
  simp only [nameChar, letter, isdigit, ch, Bool.or_eq_true, Bool.and_eq_true, decide_eq_true_eq,
    beq_iff_eq, UInt8.le_iff_toNat_le, UInt8.reduceToNat] at h
  rcases h with (⟨hlo, hhi⟩ | hdigit) | rfl
  · right
    rw [tolower] at hlo hhi
    split at hlo
    · rename_i hup
      simp only [UInt8.le_iff_toNat_le, UInt8.reduceToNat] at hup
      omega
    · rename_i hup
      simp only [hup, if_false] at hhi
      omega
  · exact .inl hdigit
  · exact .inr (by decide)

/-- A character of a name ends neither a field nor a value, and is no blank. -/
theorem nameChar_ok {c : UInt8} (h : nameChar c = true) :
    valueChar c = true ∧ fieldChar c = true ∧ isspace c = false := by
  have hb := nameChar_bounds h
  have hne : ∀ k : UInt8, k.toNat < 48 ∨ (58 ≤ k.toNat ∧ k.toNat < 65) → c ≠ k := by
    rintro k hk rfl
    omega
  have hspace : isspace c = false := by
    simp only [isspace, Bool.or_eq_false_iff, Bool.and_eq_false_iff, beq_eq_false_iff_ne,
      decide_eq_false_iff_not, UInt8.le_iff_toNat_le, UInt8.reduceToNat]
    exact ⟨hne _ (by decide), .inr (by omega)⟩
  have hsemi := hne (ch ';') (by decide)
  have heq := hne (ch '=') (by decide)
  have hbang := hne (ch '!') (by decide)
  have hlt := hne (ch '<') (by decide)
  have hgt := hne (ch '>') (by decide)
  exact ⟨by simp [valueChar, hspace, hsemi], by simp [fieldChar, hspace, heq, hbang, hlt, hgt],
    hspace⟩

theorem nameChar_of_isdigit {c : UInt8} (h : isdigit c = true) : nameChar c = true := by
  simp [nameChar, h]

theorem isName_singleton {c : UInt8} (h : nameChar c = true) : IsName [c] :=
  ⟨by simp, by simp, List.forall_mem_singleton.mpr h⟩

theorem IsName.ne_nul (h : IsName w) : 0 ∉ w :=
  fun h0 => absurd (h.chars 0 h0) (by decide)

/-- A name is read off, up to the blank behind it. -/
theorem spanUpTo_name {ok : UInt8 → Bool} (h : IsName w)
    (hok : ∀ c, nameChar c = true → ok c = true) (hstop : StopsAt ok rest) :
    spanUpTo ok 31 (w ++ rest) = (w, rest) :=
  spanUpTo_of_append (fun c hc => hok c (h.chars c hc)) h.length (.inl hstop)

theorem skipWs_name (h : IsName w) : skipWs (w ++ rest) = w ++ rest := by
  obtain ⟨c, w, rfl⟩ := List.exists_cons_of_ne_nil h.nonempty
  apply dropWhile_of_stopsAt
  rw [List.cons_append, stopsAt_cons]
  exact (nameChar_ok (h.chars c (by simp))).2.2

/-- A number is read as its value. -/
theorem atoi_number (h : IsNumber w) : toU32 (atoi (skipWs w)) = digitsValue 0 w := by
  obtain ⟨c, w, rfl⟩ := List.exists_cons_of_ne_nil h.nonempty
  have hc := h.digits c (by simp)
  have hskip : skipWs (c :: w) = c :: w := by
    apply dropWhile_of_stopsAt
    rw [stopsAt_cons]
    exact (nameChar_ok (nameChar_of_isdigit hc)).2.2
  have hminus : ¬ deref (c :: w) = ch '-' := by
    show ¬ c = ch '-'
    rintro rfl
    exact absurd hc (by decide)
  have hplus : ¬ deref (c :: w) = ch '+' := by
    show ¬ c = ch '+'
    rintro rfl
    exact absurd hc (by decide)
  have hsmall := h.small
  rw [hskip, atoi, atoll]
  simp only [hskip, if_neg hminus, if_neg hplus, toU32, int64Min, int64Max]
  generalize digitsValue 0 (c :: w) = n at hsmall ⊢
  have hclamp : max (-9223372036854775808) (min 9223372036854775807 (n : Int)) = n := by omega
  rw [hclamp, Int.bmod_eq_of_le (by omega) (by omega)]
  omega

/-- The LIMIT clause reads as it is written. -/
theorem readLimit_limitText (h : s.WellFormed) :
    readLimit s.limitText = s.limit.map (digitsValue 0) := by
  unfold SelectText.limitText
  cases hlimit : s.limit with
  | none => rfl
  | some n =>
    have hn := h.limit n (by simp [hlimit])
    have hword : keyword (cstr "LIMIT") (skipWs (cstr " LIMIT " ++ n)) = true := rfl
    have hdrop : skipWs ((skipWs (cstr " LIMIT " ++ n)).drop 5) = skipWs n := rfl
    rw [readLimit, if_pos hword, hdrop, atoi_number hn]
    rfl

/-- The direction reads as it is written. -/
theorem readDirection (s : SelectText) (d : Option Bool) :
    keyword (cstr "DESC") (skipWs (directionText d ++ s.limitText)) = (d == some true) ∧
      readLimit (afterDirection (directionText d ++ s.limitText)) = readLimit s.limitText := by
  rcases d with _ | _ | _
  · unfold SelectText.limitText
    cases s.limit with
    | none => exact ⟨rfl, rfl⟩
    | some n => exact ⟨rfl, rfl⟩
  · exact ⟨rfl, rfl⟩
  · exact ⟨rfl, rfl⟩

theorem stopsAt_direction (s : SelectText) (d : Option Bool) :
    StopsAt valueChar (directionText d ++ s.limitText) := by
  rcases d with _ | _ | _
  · unfold SelectText.limitText
    cases s.limit with
    | none => exact stopsAt_nil
    | some n => exact stopsAt_cons.mpr rfl
  · exact stopsAt_cons.mpr rfl
  · exact stopsAt_cons.mpr rfl

/-- Behind the condition the clauses are found, and read as they are written. -/
theorem readClauses_clauses (h : s.WellFormed) :
    readClauses (seekClause s.clauses) = some s.written := by
  unfold SelectText.clauses SelectText.written
  cases horder : s.order with
  | none =>
    have hlimit := readLimit_limitText h
    show readClauses (seekClause s.limitText) = some (none, s.limit.map (digitsValue 0))
    rw [← hlimit]
    unfold SelectText.limitText
    cases s.limit with
    | none => rfl
    | some n => rfl
  | some o =>
    obtain ⟨c, d⟩ := o
    have hc := h.order (c, d) (by simp [horder])
    let rest := c ++ (directionText d ++ s.limitText)
    have hseek : seekClause (cstr " ORDER BY " ++ rest) = cstr "ORDER BY " ++ rest := rfl
    have horder : keyword (cstr "ORDER") (skipWs (cstr "ORDER BY " ++ rest)) = true := rfl
    have hby : keyword (cstr "BY") (skipWs ((skipWs (cstr "ORDER BY " ++ rest)).drop 5)) = true :=
      rfl
    have hcol : skipWs ((skipWs ((skipWs (cstr "ORDER BY " ++ rest)).drop 5)).drop 2) =
        skipWs rest := rfl
    have hspan : spanUpTo valueChar 31 (skipWs rest) = (c, directionText d ++ s.limitText) := by
      rw [show skipWs rest = rest from skipWs_name hc]
      exact spanUpTo_name hc (fun _ hk => (nameChar_ok hk).1) (stopsAt_direction s d)
    obtain ⟨hdesc, hlimit⟩ := readDirection s d
    show readClauses (seekClause (cstr " ORDER BY " ++ rest)) = _
    rw [hseek, readClauses, if_pos horder, if_pos hby, hcol, hspan]
    dsimp only
    rw [hdesc, hlimit, readLimit_limitText h]
    rfl

/-! ## The whole text -/

/-- The condition up to its closing quote. -/
def SelectText.body (s : SelectText) : CString :=
  ch ' ' :: (s.field ++ ch ' ' :: (s.op.text ++ ch ' ' :: quote :: s.value))

theorem condition_eq (s : SelectText) (rest : CString) :
    s.condition ++ rest = s.body ++ quote :: rest := by
  simp [SelectText.condition, SelectText.body]

/-- In the condition, the words can only be in the field and in the value. -/
theorem hasClauseWord_body (s : SelectText) :
    hasClauseWord s.body = (hasClauseWord s.field || hasClauseWord s.value) := by
  have hop : hasClauseWord (s.op.text ++ ch ' ' :: quote :: s.value) =
      hasClauseWord s.value := by
    rw [hasClauseWord_append_cons (by decide)]
    have hquote := @hasClauseWord_append_cons [] s.value quote (by decide)
    rw [List.nil_append] at hquote
    rw [hquote]
    cases s.op <;> rfl
  have hfield := @hasClauseWord_append_cons [] (s.field ++ ch ' ' :: (s.op.text ++
    ch ' ' :: quote :: s.value)) (ch ' ') (by decide)
  rw [List.nil_append] at hfield
  rw [SelectText.body, hfield, hasClauseWord_append_cons (by decide), hop]
  rfl

/-- What has been read before the clauses. -/
def SelectText.base (s : SelectText) : Statement :=
  classifyPredicate
    { type := .select
      selectAll := true
      tableName := s.table
      predField := s.field
      predOp := s.op
      predValue := s.value }

theorem readOperator_text (op : CompareOp) (rest : CString) :
    readOperator (op.text ++ ch ' ' :: rest) = some (op, op.text.length) := by
  cases op <;> rfl

theorem opText_head (op : CompareOp) (rest : CString) :
    StopsAt fieldChar (ch ' ' :: (op.text ++ rest)) ∧
      skipWs (ch ' ' :: (op.text ++ rest)) = op.text ++ rest := by
  cases op <;> exact ⟨stopsAt_cons.mpr rfl, rfl⟩

/-- The quoted value is read up to its closing quote. -/
theorem valueSpan_quoted (h : s.WellFormed) :
    valueSpan (quote :: (s.value ++ quote :: rest)) = (s.value, rest) := by
  have hspan : spanUpTo (· != quote) 255 (s.value ++ quote :: rest) = (s.value, quote :: rest) :=
    spanUpTo_of_append (fun c hc => bne_iff_ne.mpr fun heq => h.value_quote (heq ▸ hc))
      h.value_length (.inl (by simp))
  rw [valueSpan, if_pos (show deref (quote :: _) = quote from rfl), List.tail_cons, hspan]
  rfl

/-- The condition is read as it is written. -/
theorem parseWhere_condition (h : s.WellFormed) (stmt : Statement) :
    parseWhere (cstr "WHERE" ++ (s.condition ++ rest)) stmt =
      .ok (classifyPredicate
        { stmt with predField := s.field, predOp := s.op, predValue := s.value }) := by
  let valueText := ch ' ' :: quote :: (s.value ++ quote :: rest)
  let opText := s.op.text ++ valueText
  have htext : s.condition ++ rest = ch ' ' :: (s.field ++ ch ' ' :: opText) := by
    simp [SelectText.condition, opText, valueText]
  have hskip : skipWs (cstr "WHERE" ++ (s.condition ++ rest)) =
      cstr "WHERE" ++ (s.condition ++ rest) := rfl
  have hne : ¬ (cstr "WHERE" ++ (s.condition ++ rest) = [] ∨
      deref (cstr "WHERE" ++ (s.condition ++ rest)) = ch ';') := by
    rintro (hnil | hsemi)
    · cases hnil
    · exact absurd (show ch 'W' = ch ';' from hsemi) (by decide)
  have hword : keyword (cstr "WHERE") (cstr "WHERE" ++ (s.condition ++ rest)) = true := rfl
  have hdrop : skipWs ((cstr "WHERE" ++ (s.condition ++ rest)).drop 5) =
      s.field ++ ch ' ' :: opText := by
    rw [htext]
    show skipWs (s.field ++ ch ' ' :: opText) = s.field ++ ch ' ' :: opText
    exact skipWs_name h.field
  obtain ⟨hstop, hop⟩ := opText_head s.op valueText
  have hfield : spanUpTo fieldChar 31 (s.field ++ ch ' ' :: opText) =
      (s.field, ch ' ' :: opText) :=
    spanUpTo_name h.field (fun _ hk => (nameChar_ok hk).2.1) hstop
  have hread := readOperator_text s.op (quote :: (s.value ++ quote :: rest))
  have hbetween := not_between_of_readOperator hread
  have hvalue : skipWs (opText.drop s.op.text.length) = quote :: (s.value ++ quote :: rest) := by
    rw [show opText.drop s.op.text.length = valueText from List.drop_left]
    rfl
  rw [parseWhere]
  simp only [hskip, if_neg hne, hword, Bool.not_true, Bool.false_eq_true, if_false, readInto_name,
    ParseM.ok_bind, hdrop, hfield]
  rw [show skipWs (ch ' ' :: opText) = opText from hop, if_neg hbetween, parseComparison,
    show readOperator opText = some (s.op, s.op.text.length) from hread]
  simp only [hvalue, readValue_eq, ParseM.ok_bind, valueSpan_quoted h, ParseM.pure_eq]

/-- The last character is neither a blank nor a semicolon. -/
def KeepsEnd (w : CString) : Prop := ∃ u c, w = u ++ [c] ∧ isspace c = false ∧ c ≠ ch ';'

theorem KeepsEnd.append (h : KeepsEnd rest) (w : CString) : KeepsEnd (w ++ rest) := by
  obtain ⟨u, c, rfl, hc⟩ := h
  exact ⟨w ++ u, c, (List.append_assoc _ _ _).symm, hc⟩

theorem keepsEnd_of_names (hne : w ≠ []) (h : ∀ c ∈ w, nameChar c = true) : KeepsEnd w := by
  refine ⟨w.dropLast, w.getLast hne, (List.dropLast_append_getLast hne).symm, ?_⟩
  obtain ⟨hvalue, -, hspace⟩ := nameChar_ok (h _ (List.getLast_mem hne))
  refine ⟨hspace, ?_⟩
  intro hsemi
  rw [hsemi] at hvalue
  exact absurd hvalue (by decide)

theorem KeepsEnd.trim (h : KeepsEnd w) : trim w = w := by
  obtain ⟨u, c, rfl, hspace, hsemi⟩ := h
  apply List.rdropWhile_concat_neg
  simp [hspace, hsemi]

theorem keepsEnd_limitText (h : s.WellFormed) : s.limitText = [] ∨ KeepsEnd s.limitText := by
  unfold SelectText.limitText
  cases hlimit : s.limit with
  | none => exact .inl rfl
  | some n =>
    have hn := h.limit n (by simp [hlimit])
    have hend := keepsEnd_of_names hn.nonempty fun c hc => nameChar_of_isdigit (hn.digits c hc)
    exact .inr (hend.append _)

theorem keepsEnd_direction (h : s.WellFormed) (hw : KeepsEnd w) (d : Option Bool) :
    KeepsEnd (w ++ (directionText d ++ s.limitText)) := by
  rcases keepsEnd_limitText h with hnil | hlimit
  · rw [hnil, List.append_nil]
    rcases d with _ | _ | _
    · simpa [directionText] using hw
    · exact KeepsEnd.append ⟨cstr " AS", ch 'C', rfl, by decide, by decide⟩ w
    · exact KeepsEnd.append ⟨cstr " DES", ch 'C', rfl, by decide, by decide⟩ w
  · exact (hlimit.append _).append _

/-- The text ends in a character that is not cut off. -/
theorem trim_text (h : s.WellFormed) : trim s.text = s.text := by
  have hcond : KeepsEnd s.condition := by
    have heq := condition_eq s []
    rw [List.append_nil] at heq
    exact ⟨s.body, quote, heq, by decide, by decide⟩
  have hend : KeepsEnd (s.condition ++ s.clauses) := by
    unfold SelectText.clauses
    cases horder : s.order with
    | none =>
      rcases keepsEnd_limitText h with hnil | hlimit
      · simpa [hnil] using hcond
      · exact hlimit.append _
    | some o =>
      have hc := h.order o (by simp [horder])
      have hcol := keepsEnd_direction h (keepsEnd_of_names hc.nonempty hc.chars) o.2
      exact (hcol.append _).append _
  exact (((hend.append _).append _).append _).trim

theorem text_ne_nul (h : s.WellFormed) : ∀ c ∈ s.text, c ≠ 0 := by
  have hop : 0 ∉ s.op.text := by cases s.op <;> decide
  have hlimit : 0 ∉ s.limitText := by
    unfold SelectText.limitText
    cases hlimit : s.limit with
    | none => decide
    | some n =>
      have hn := h.limit n (by simp [hlimit])
      have hword : 0 ∉ cstr " LIMIT " := by decide
      exact fun hmem => (List.mem_append.mp hmem).elim hword fun h0 =>
        absurd (hn.digits 0 h0) (by decide)
  have hclauses : 0 ∉ s.clauses := by
    unfold SelectText.clauses
    cases horder : s.order with
    | none => exact hlimit
    | some o =>
      have hc := (h.order o (by simp [horder])).ne_nul
      have hword : 0 ∉ cstr " ORDER BY " := by decide
      have hdir : 0 ∉ directionText o.2 := by rcases o.2 with _ | _ | _ <;> decide
      simp [hword, hc, hdir, hlimit]
  have hcond : 0 ∉ s.condition := by
    simp [SelectText.condition, h.field.ne_nul, hop, h.value_nul, ch, quote]
  have hselect : 0 ∉ cstr "SELECT * FROM " := by decide
  have hwhere : 0 ∉ cstr " WHERE" := by decide
  rintro c hc rfl
  simp [SelectText.text, hselect, hwhere, h.table.ne_nul, hcond, hclauses] at hc

theorem commandText_text (h : s.WellFormed) : commandText s.text = s.text := by
  have hlen := h.length
  rw [commandText, List.takeWhile_eq_self_iff.mpr (by simpa using text_ne_nul h),
    List.take_of_length_le (by omega), trim_text h]
  rfl

/-- Parsing the text ends with reading the clauses where they are found. -/
theorem parse_selectText (h : s.WellFormed) :
    parse s.text = parseOrderLimit (seekClause (s.condition ++ s.clauses)) s.base := by
  let rest := cstr "WHERE" ++ (s.condition ++ s.clauses)
  have hselect : keyword (cstr "SELECT") s.text = true := rfl
  have hexplain : ¬ keyword (cstr "EXPLAIN") s.text = true := command_exclusive hselect
  have hcreate : ¬ keyword (cstr "CREATE") s.text = true := command_exclusive hselect
  have hinsert : ¬ keyword (cstr "INSERT") s.text = true := command_exclusive hselect
  have hspan : fromSpan (cstr "FROM " ++ (s.table ++ ch ' ' :: rest)) =
      (s.table, ch ' ' :: rest) := by
    rw [fromSpan, show skipWs ((cstr "FROM " ++ (s.table ++ ch ' ' :: rest)).drop 4) =
      skipWs (s.table ++ ch ' ' :: rest) from rfl, skipWs_name h.table]
    exact spanUpTo_name h.table (fun _ hk => (nameChar_ok hk).1) (stopsAt_cons.mpr rfl)
  have hfrom : parseFrom (cstr "FROM " ++ (s.table ++ ch ' ' :: rest)) =
      .ok (s.table, ch ' ' :: rest) := by
    rw [parseFrom_of_keyword rfl, hspan]
  have hfind : findAfterWhere rest = seekClause (s.condition ++ s.clauses) := rfl
  rw [parse_command (by rw [commandText_text h]; exact hexplain), commandText_text h, parseCommand,
    if_neg hcreate, if_neg hinsert, if_pos hselect]
  show parseSelectFrom (cstr "FROM " ++ (s.table ++ ch ' ' :: rest))
    { type := .select, selectAll := true } = _
  rw [parseSelectFrom, hfrom]
  show parseWhere rest { type := .select, selectAll := true, tableName := s.table } >>=
    (fun stmt => parseOrderLimit (findAfterWhere rest) stmt) = _
  rw [parseWhere_condition h, hfind]
  rfl

/-- Where the letters of neither word are in the condition, the search ends behind it. -/
theorem readClauses_found (h : s.WellFormed) (hfield : hasClauseWord s.field = false)
    (hvalue : hasClauseWord s.value = false) :
    readClauses (seekClause (s.condition ++ s.clauses)) = some s.written := by
  have hbody : hasClauseWord s.body = false := by rw [hasClauseWord_body, hfield, hvalue]; rfl
  rw [condition_eq, seekClause_append_cons (by decide) (by decide) hbody]
  exact readClauses_clauses h

section

variable {x z : CString} {r : Option (CString × Bool) × Option Nat}

/-- Behind ORDERBY the rest of the field name is the column; the operator is no clause. -/
theorem readClauses_orderField (op : CompareOp) (ho : keyword (cstr "ORDER") x = true)
    (hb : keyword (cstr "BY") (x.drop 5) = true) (hchars : ∀ c ∈ x, nameChar c = true)
    (hlen : x.length ≤ 31) (hr : ∀ o ∈ r.1, IsName o.1) :
    readClauses (x ++ ch ' ' :: (op.text ++ ch ' ' :: z)) = some r ↔
      r = (some ((x.drop 5).drop 2, false), none) := by
  have hskip : skipWs (ch ' ' :: (op.text ++ ch ' ' :: z)) = op.text ++ ch ' ' :: z :=
    (opText_head op _).2
  have hword : clauseWord (x ++ ch ' ' :: (op.text ++ ch ' ' :: z)) = true := by
    rw [clauseWord_append_cons (by decide)]
    exact Bool.or_eq_true _ _ |>.mpr (.inl ho)
  have hdrop : (x ++ ch ' ' :: (op.text ++ ch ' ' :: z)).drop 5 =
      x.drop 5 ++ ch ' ' :: (op.text ++ ch ' ' :: z) := drop_append_of_keyword (by decide) ho
  have hby : skipWs (x.drop 5 ++ ch ' ' :: (op.text ++ ch ' ' :: z)) =
      x.drop 5 ++ ch ' ' :: (op.text ++ ch ' ' :: z) := by
    refine @skipWs_of_keyword [ch 'Y'] _ (ch 'B') (by decide) (by decide) ?_
    exact (@keyword_append_other _ _ _ (cstr "BY") (by decide) (by decide)).trans hb
  have hdrop' : (x.drop 5 ++ ch ' ' :: (op.text ++ ch ' ' :: z)).drop 2 =
      (x.drop 5).drop 2 ++ ch ' ' :: (op.text ++ ch ' ' :: z) :=
    drop_append_of_keyword (by decide) hb
  have hcol : ∀ c ∈ (x.drop 5).drop 2, nameChar c = true :=
    fun c hc => hchars c (List.mem_of_mem_drop (List.mem_of_mem_drop hc))
  have hcollen : ((x.drop 5).drop 2).length ≤ 31 := by
    rw [List.length_drop, List.length_drop]
    omega
  rw [readClauses, skipWs_of_clauseWord hword]
  dsimp only
  rw [keyword_append_other (by decide) (by decide), if_pos ho, hdrop, hby,
    keyword_append_other (by decide) (by decide), if_pos hb, hdrop']
  generalize (x.drop 5).drop 2 = col at hcol hcollen
  by_cases hnil : col = []
  · -- the operator is taken for the column
    have hop : ¬ IsName op.text := by
      intro hname
      have hchar := hname.chars
      cases op <;> exact absurd hchar (by decide)
    have hspan : spanUpTo valueChar 31 (skipWs (col ++ ch ' ' :: (op.text ++ ch ' ' :: z))) =
        (op.text, ch ' ' :: z) := by
      rw [hnil, List.nil_append, hskip]
      cases op <;> rfl
    rw [hspan]
    refine iff_of_false (fun h => ?_) fun h => ?_
    · obtain rfl := Option.some.inj h
      exact hop (hr _ rfl)
    · obtain rfl := h
      exact (hr _ rfl).nonempty hnil
  · have hname : IsName col := ⟨hnil, hcollen, hcol⟩
    have hspan : spanUpTo valueChar 31 (skipWs (col ++ ch ' ' :: (op.text ++ ch ' ' :: z))) =
        (col, ch ' ' :: (op.text ++ ch ' ' :: z)) := by
      rw [skipWs_name hname]
      exact spanUpTo_name hname (fun _ hk => (nameChar_ok hk).1) (stopsAt_cons.mpr rfl)
    have hdesc : keyword (cstr "DESC") (op.text ++ ch ' ' :: z) = false := by
      cases op <;> rfl
    have hnone : readLimit (afterDirection (ch ' ' :: (op.text ++ ch ' ' :: z))) = none := by
      cases op <;> rfl
    rw [hspan]
    dsimp only
    rw [hskip, hdesc, hnone, Option.some_inj]
    exact eq_comm

/-- ORDER in a field name without BY right behind it is refused. -/
theorem readClauses_no_by (op : CompareOp) (ho : keyword (cstr "ORDER") x = true)
    (hb : ¬ keyword (cstr "BY") (x.drop 5) = true) (hchars : ∀ c ∈ x, nameChar c = true) :
    readClauses (x ++ ch ' ' :: (op.text ++ ch ' ' :: z)) = none := by
  have hword : clauseWord (x ++ ch ' ' :: (op.text ++ ch ' ' :: z)) = true := by
    rw [clauseWord_append_cons (by decide)]
    exact Bool.or_eq_true _ _ |>.mpr (.inl ho)
  have hdrop : (x ++ ch ' ' :: (op.text ++ ch ' ' :: z)).drop 5 =
      x.drop 5 ++ ch ' ' :: (op.text ++ ch ' ' :: z) := drop_append_of_keyword (by decide) ho
  have hg : ∀ c ∈ x.drop 5, nameChar c = true := fun c hc => hchars c (List.mem_of_mem_drop hc)
  have hno : ¬ keyword (cstr "BY")
      (skipWs (x.drop 5 ++ ch ' ' :: (op.text ++ ch ' ' :: z))) = true := by
    generalize x.drop 5 = g at hg hb
    cases g with
    | nil =>
      rw [List.nil_append, (opText_head op _).2]
      cases op <;> nofun
    | cons a g =>
      have hspace : isspace a = false := (nameChar_ok (hg a (by simp))).2.2
      have hfront : skipWs (a :: g ++ ch ' ' :: (op.text ++ ch ' ' :: z)) =
          a :: g ++ ch ' ' :: (op.text ++ ch ' ' :: z) :=
        dropWhile_of_stopsAt (stopsAt_cons.mpr hspace)
      rw [hfront, keyword_append_other (by decide) (by decide)]
      exact hb
  rw [readClauses, skipWs_of_clauseWord hword]
  dsimp only
  rw [keyword_append_other (by decide) (by decide), if_pos ho, hdrop, if_neg hno]

/-- LIMIT in a field name is followed by the digits there. -/
theorem readClauses_limitField (op : CompareOp) (hl : keyword (cstr "LIMIT") x = true) :
    readClauses (x ++ ch ' ' :: (op.text ++ ch ' ' :: z)) =
      some (none, some (toU32 (atoi (x.drop 5)))) := by
  have hword : clauseWord (x ++ ch ' ' :: (op.text ++ ch ' ' :: z)) = true := by
    rw [clauseWord_append_cons (by decide)]
    exact Bool.or_eq_true _ _ |>.mpr (.inr hl)
  have ho : ¬ keyword (cstr "ORDER") x = true :=
    keyword_exclusive (by decide) (by decide) (by decide) hl
  have hdrop : (x ++ ch ' ' :: (op.text ++ ch ' ' :: z)).drop 5 =
      x.drop 5 ++ ch ' ' :: (op.text ++ ch ' ' :: z) := drop_append_of_keyword (by decide) hl
  have hend : ∀ a ∈ (skipWs (ch ' ' :: (op.text ++ ch ' ' :: z))).head?,
      isdigit a = false ∧ a ≠ ch '-' ∧ a ≠ ch '+' := by
    rw [(opText_head op _).2]
    cases op <;>
    · intro a ha
      obtain rfl := Option.some.inj ha
      decide
  rw [readClauses, skipWs_of_clauseWord hword]
  dsimp only
  rw [keyword_append_other (by decide) (by decide), if_neg ho, readLimit,
    skipWs_of_clauseWord hword, keyword_append_other (by decide) (by decide), if_pos hl, hdrop,
    atoi_skipWs, atoi_append_cons (by decide) hend]

/-- A field name that begins with one of the words says little: the operator stands behind it. -/
theorem readClauses_field (op : CompareOp) (hx : clauseWord x = true)
    (hchars : ∀ c ∈ x, nameChar c = true) (hlen : x.length ≤ 31) (hr : ∀ o ∈ r.1, IsName o.1) :
    readClauses (x ++ ch ' ' :: (op.text ++ ch ' ' :: z)) = some r ↔
      (∃ col, Word (cstr "ORDERBY") x col ∧ r = (some (col, false), none)) ∨
        ∃ t, Word (cstr "LIMIT") x t ∧ r = (none, some (toU32 (atoi t))) := by
  have horder : ∀ col, Word (cstr "ORDERBY") x col ↔
      ∃ g, Word (cstr "ORDER") x g ∧ Word (cstr "BY") g col :=
    fun col => @word_append_iff x col (cstr "ORDER") (cstr "BY")
  have hlimit : ∀ t, Word (cstr "LIMIT") x t ↔ keyword (cstr "LIMIT") x = true ∧ t = x.drop 5 :=
    fun t => word_iff (by decide) rfl
  have hby : ∀ g col, Word (cstr "BY") g col ↔ keyword (cstr "BY") g = true ∧ col = g.drop 2 :=
    fun g col => word_iff (by decide) rfl
  have hword : ∀ g, Word (cstr "ORDER") x g ↔ keyword (cstr "ORDER") x = true ∧ g = x.drop 5 :=
    fun g => word_iff (by decide) rfl
  rcases Bool.or_eq_true _ _ |>.mp hx with ho | hl
  · have hnl : ¬ keyword (cstr "LIMIT") x = true :=
      keyword_exclusive (by decide) (by decide) (by decide) ho
    simp only [horder, hlimit, hby, hword, ho, hnl, true_and, exists_eq_left]
    by_cases hb : keyword (cstr "BY") (x.drop 5) = true
    · rw [readClauses_orderField op ho hb hchars hlen hr]
      simp [hb]
    · rw [readClauses_no_by op ho hb hchars]
      simp [hb]
  · have hno : ¬ keyword (cstr "ORDER") x = true :=
      keyword_exclusive (by decide) (by decide) (by decide) hl
    rw [readClauses_limitField op hl]
    simp [horder, hlimit, hword, hno, hl, eq_comm]

end

/-- What is written has names for columns. -/
theorem SelectText.WellFormed.written_name (h : s.WellFormed) : ∀ o ∈ s.written.1, IsName o.1 := by
  intro o ho
  obtain ⟨w, hw, rfl⟩ := Option.map_eq_some_iff.mp ho
  exact h.order w hw

/-- **Where the search ends, and what is read there.** -/
theorem clausesFound_iff (h : s.WellFormed) :
    s.ClausesFound ↔ readClauses (seekClause (s.condition ++ s.clauses)) = some s.written := by
  cases hfield : hasClauseWord s.field with
  | true =>
    obtain ⟨rest, hrest⟩ := hasClauseWord_iff.mp hfield
    have hseek : seekClause (s.condition ++ s.clauses) = rest ++ ch ' ' ::
        (s.op.text ++ ch ' ' :: quote :: (s.value ++ quote :: s.clauses)) := by
      rw [← seekClause_first hrest (by decide), condition_eq, SelectText.body, List.cons_append,
        seekClause_space (by decide)]
      simp
    have hchars : ∀ c ∈ rest, nameChar c = true :=
      fun c hc => h.field.chars c (hrest.suffix.mem hc)
    have hlen : rest.length ≤ 31 := hrest.suffix.length_le.trans h.field.length
    rw [hseek, readClauses_field s.op hrest.word hchars hlen h.written_name]
    constructor
    · rintro (⟨hno, -⟩ | ⟨rest', hrest', hsays⟩ | ⟨hno, -⟩)
      · rw [hfield] at hno
        cases hno
      · obtain rfl := hrest'.unique hrest
        rcases hsays with ⟨col, dir, hw, horder, hdir, hlimit⟩ | ⟨t, n, hw, horder, hlimit, hn⟩
        · refine .inl ⟨col, hw, ?_⟩
          rw [SelectText.written, horder, hlimit]
          exact congrArg (fun b => (some (col, b), none)) (beq_eq_false_iff_ne.mpr hdir)
        · refine .inr ⟨t, hw, ?_⟩
          rw [SelectText.written, horder, hlimit, ← hn]
          rfl
      · rw [hfield] at hno
        cases hno
    · intro hsays
      refine .inr (.inl ⟨rest, hrest, ?_⟩)
      rcases hsays with ⟨col, hw, hwritten⟩ | ⟨t, hw, hwritten⟩
      · obtain ⟨ho, hl⟩ := Prod.mk.inj hwritten
        obtain ⟨⟨col', dir⟩, horder, heq⟩ := Option.map_eq_some_iff.mp ho
        obtain ⟨rfl, hdir⟩ := Prod.mk.inj heq
        exact .inl ⟨col', dir, hw, horder, beq_eq_false_iff_ne.mp hdir, Option.map_eq_none_iff.mp hl⟩
      · obtain ⟨ho, hl⟩ := Prod.mk.inj hwritten
        obtain ⟨n, hlimit, hn⟩ := Option.map_eq_some_iff.mp hl
        exact .inr ⟨t, n, hw, Option.map_eq_none_iff.mp ho, hlimit, hn⟩
  | false =>
    have hnot : ¬ s.FoundInField := by
      rintro ⟨rest, hrest, -⟩
      rw [hasClauseWord_iff.mpr ⟨rest, hrest⟩] at hfield
      cases hfield
    cases hvalue : hasClauseWord s.value with
    | false =>
      exact iff_of_true (.inl ⟨hfield, hvalue⟩) (readClauses_found h hfield hvalue)
    | true =>
      obtain ⟨rest, hrest⟩ := hasClauseWord_iff.mp hvalue
      have hfront : hasClauseWord (ch ' ' :: (s.field ++ ch ' ' :: (s.op.text ++ [ch ' ']))) =
          false := by
        have hspace := @hasClauseWord_append_cons [] (s.field ++ ch ' ' :: (s.op.text ++ [ch ' ']))
          (ch ' ') (by decide)
        rw [List.nil_append] at hspace
        rw [hspace, hasClauseWord_append_cons (by decide), hfield]
        cases s.op <;> rfl
      have hseek : seekClause (s.condition ++ s.clauses) = rest ++ quote :: s.clauses := by
        have htext : s.condition ++ s.clauses =
            (ch ' ' :: (s.field ++ ch ' ' :: (s.op.text ++ [ch ' ']))) ++
              quote :: (s.value ++ quote :: s.clauses) := by
          simp [SelectText.condition]
        rw [htext, seekClause_append_cons (by decide) (by decide) hfront,
          seekClause_first hrest (by decide)]
      have hquote : ∀ o ∈ s.written.1, quote ∉ o.1 :=
        fun o ho hq => absurd ((h.written_name o ho).chars _ hq) (by decide)
      rw [hseek, readClauses_append_quote hrest.word hquote]
      constructor
      · rintro (⟨-, hno⟩ | hin | ⟨-, rest', hrest', hsays⟩)
        · rw [hvalue] at hno
          cases hno
        · exact absurd hin hnot
        · obtain rfl := hrest'.unique hrest
          exact hsays
      · exact fun hsays => .inr (.inr ⟨hfield, rest, hrest, hsays⟩)

/-- Apart from its clauses, the statement says what the text says. -/
theorem base_fields (s : SelectText) :
    s.base.type = .select ∧ s.base.tableName = s.table ∧ s.base.predField = s.field ∧
      s.base.predOp = s.op ∧ s.base.predValue = s.value ∧ s.base.hasOrderBy = false ∧
      s.base.hasLimit = false := by
  unfold SelectText.base classifyPredicate
  dsimp only
  split <;> exact ⟨rfl, rfl, rfl, rfl, rfl, rfl, rfl⟩

/-- With other clauses than the written ones the statement says something else. -/
theorem recovered_withClauses_iff (s : SelectText) (r : Option (CString × Bool) × Option Nat) :
    s.Recovered (s.base.withClauses r) ↔ r = s.written := by
  obtain ⟨htype, htable, hfield, hop, hvalue, horder, hlimit⟩ := base_fields s
  obtain ⟨o, l⟩ := r
  have hfields : ∀ stmt : Statement, stmt = s.base.withClauses (o, l) →
      stmt.type = .select ∧ stmt.tableName = s.table ∧ stmt.predField = s.field ∧
        stmt.predOp = s.op ∧ stmt.predValue = s.value ∧ stmt.hasOrderBy = o.isSome ∧
        (∀ c ∈ o, stmt.orderByField = c.1 ∧ stmt.orderDesc = c.2) ∧
        stmt.hasLimit = l.isSome ∧ ∀ n ∈ l, stmt.limitCount = n := by
    rintro stmt rfl
    cases o <;> cases l <;>
      simp [Statement.withClauses, htype, htable, hfield, hop, hvalue, horder, hlimit]
  obtain ⟨htype, htable, hfield, hop, hvalue, horder, hby, hlimit, hcount⟩ := hfields _ rfl
  constructor
  · intro hr
    have ho := horder.symm.trans hr.hasOrderBy
    have hl := hlimit.symm.trans hr.hasLimit
    apply Prod.ext
    · show o = s.order.map fun w => (w.1, w.2 == some true)
      cases hs : s.order with
      | none =>
        rw [hs] at ho
        exact Option.isSome_eq_false_iff.mp ho |> Option.isNone_iff_eq_none.mp
      | some w =>
        rw [hs] at ho
        obtain ⟨c, rfl⟩ := Option.isSome_iff_exists.mp ho
        obtain ⟨hcol, hdesc⟩ := hr.orderBy w hs
        obtain ⟨hcol', hdesc'⟩ := hby c rfl
        exact congrArg some (Prod.ext (hcol'.symm.trans hcol) (hdesc'.symm.trans hdesc))
    · show l = s.limit.map (digitsValue 0)
      cases hs : s.limit with
      | none =>
        rw [hs] at hl
        exact Option.isSome_eq_false_iff.mp hl |> Option.isNone_iff_eq_none.mp
      | some w =>
        rw [hs] at hl
        obtain ⟨n, rfl⟩ := Option.isSome_iff_exists.mp hl
        exact congrArg some ((hcount n rfl).symm.trans (hr.limitCount w hs))
  · intro hwritten
    obtain ⟨ho, hl⟩ := Prod.mk.inj hwritten
    refine ⟨htype, htable, hfield, hop, hvalue, ?_, ?_, ?_, ?_⟩
    · rw [horder, ho, Option.isSome_map]
    · intro w hw
      exact hby (w.1, w.2 == some true) (by rw [ho, hw]; rfl)
    · rw [hlimit, hl, Option.isSome_map]
    · intro w hw
      exact hcount (digitsValue 0 w) (by rw [hl, hw]; rfl)

end

/-- A SELECT is read back exactly when its clauses are found. -/
theorem selectText_recovered_iff (s : SelectText) (h : s.WellFormed) :
    (∃ stmt, parse s.text = .ok stmt ∧ s.Recovered stmt) ↔ s.ClausesFound := by
  rw [parse_selectText h, parseOrderLimit_eq, clausesFound_iff h]
  cases readClauses (seekClause (s.condition ++ s.clauses)) with
  | none => simp
  | some r =>
    show (∃ stmt, Except.ok (s.base.withClauses r) = .ok stmt ∧ s.Recovered stmt) ↔ _
    rw [Option.some_inj, ← recovered_withClauses_iff]
    constructor
    · rintro ⟨stmt, heq, hr⟩
      cases heq
      exact hr
    · exact fun hr => ⟨_, rfl, hr⟩

/-- An instance with both clauses. -/
def sampleSelect : SelectText :=
  { table := cstr "t"
    field := cstr "a"
    op := .ge
    value := cstr "x"
    order := some (cstr "b", some true)
    limit := some (cstr "5") }

theorem selectText_recovered_iff_sample :
    (∃ stmt, parse sampleSelect.text = .ok stmt ∧ sampleSelect.Recovered stmt) ↔
      sampleSelect.ClausesFound := by
  have hname : ∀ c : CString, c = cstr "t" ∨ c = cstr "a" ∨ c = cstr "b" → IsName c := by
    rintro c (rfl | rfl | rfl) <;> exact ⟨by decide, by decide, by decide⟩
  apply selectText_recovered_iff
  refine ⟨hname _ (.inl rfl), hname _ (.inr (.inl rfl)), by decide, by decide, by decide, ?_, ?_,
    by decide +kernel⟩
  · rintro o ⟨⟩
    exact hname _ (.inr (.inr rfl))
  · rintro n ⟨⟩
    exact ⟨by decide, by decide, by decide⟩

/-- A field whose name begins with ORDER. -/
def orderdateSelect : SelectText :=
  { table := cstr "t"
    field := cstr "orderdate"
    op := .eq
    value := cstr "x"
    order := none
    limit := none }

/-- Its text is refused: ORDER is found in the field name, and no BY behind it. -/
theorem orderdate_not_recovered :
    orderdateSelect.WellFormed ∧
      ¬ ∃ stmt, parse orderdateSelect.text = .ok stmt ∧ orderdateSelect.Recovered stmt := by
  constructor
  · exact ⟨⟨by decide, by decide, by decide⟩, ⟨by decide, by decide, by decide⟩, by decide,
      by decide, by decide, nofun, nofun, by decide +kernel⟩
  · rintro ⟨stmt, hok, -⟩
    have hreject : parse orderdateSelect.text = .error .reject := by decide +kernel
    rw [hreject] at hok
    cases hok

end MiniDb
