import MiniDb.Sql.ParserFacts

/-! # The clauses behind a table name

A grammar for what may stand behind the table of a SELECT, DELETE or UPDATE, in the style of a
lexer: `Word kw s rest` says that `s` begins with the word and leaves `rest`, `WhereClause s rest`
that it begins with one complete condition, and so on. Beside each is what a left-to-right reading
of the text finds, and the two agree: the reading is the only way to take a text apart. -/

set_option autoImplicit false

namespace MiniDb

open Lib

/-! ## Words and tokens -/

/-- A word, in any case. -/
def Word (kw s rest : CString) : Prop := ∃ w, s = w ++ rest ∧ w.map tolower = kw.map tolower

/-- A nonempty run of at most `n` accepted characters that ends where it must. -/
def Token (ok : UInt8 → Bool) (n : Nat) (s rest : CString) : Prop :=
  ∃ w, s = w ++ rest ∧ w ≠ [] ∧ w.length ≤ n ∧ (∀ c ∈ w, ok c = true) ∧ StopsAt ok rest

/-- Only blanks and semicolons. -/
def Blank (s : CString) : Prop := ∀ c ∈ s, isspace c = true ∨ c = ch ';'

instance (s : CString) : Decidable (Blank s) :=
  inferInstanceAs (Decidable (∀ c ∈ s, _))

/-- A token is read. -/
def readsToken (ok : UInt8 → Bool) (n : Nat) (s : CString) : Bool :=
  (spanUpTo ok n s).1 != [] && decide (StopsAt ok (spanUpTo ok n s).2)

section

variable {kw kw' s rest : CString} {ok : UInt8 → Bool} {n : Nat}

theorem word_iff (hkw : 0 ∉ kw) (hn : kw.length = n) :
    Word kw s rest ↔ keyword kw s = true ∧ rest = s.drop n := by
  rw [keyword_iff hkw, ← hn]
  constructor
  · rintro ⟨w, rfl, hw⟩
    have hlen : w.length = kw.length := by simpa using congrArg List.length hw
    rw [← hlen]
    simp [hw]
  · rintro ⟨hw, rfl⟩
    exact ⟨s.take kw.length, (List.take_append_drop _ _).symm, hw⟩

theorem token_iff :
    Token ok n s rest ↔ readsToken ok n s = true ∧ rest = (spanUpTo ok n s).2 := by
  simp only [readsToken, Bool.and_eq_true, bne_iff_ne, ne_eq, decide_eq_true_eq]
  constructor
  · rintro ⟨w, rfl, hne, hlen, hw, hstop⟩
    rw [spanUpTo_of_append hw hlen (.inl hstop)]
    exact ⟨⟨hne, hstop⟩, rfl⟩
  · rintro ⟨⟨hne, hstop⟩, rfl⟩
    exact ⟨_, (spanUpTo_append ok n s).symm, hne, length_spanUpTo_le ok n s, all_spanUpTo ok n s,
      hstop⟩

theorem blank_skipWs : Blank (skipWs s) ↔ Blank s := by
  induction s with
  | nil => rfl
  | cons c s ih =>
    rw [skipWs, List.dropWhile_cons]
    split
    · rename_i hc
      rw [← skipWs, ih]
      simp [Blank, hc]
    · rfl

/-- A letter is neither a blank nor a semicolon. -/
theorem letter_not_blank {c : UInt8} (h : 97 ≤ tolower c) : isspace c = false ∧ c ≠ ch ';' := by
  constructor
  · rw [Bool.eq_false_iff]
    intro hspace
    simp only [isspace, Bool.or_eq_true, beq_iff_eq, Bool.and_eq_true, decide_eq_true_eq,
      UInt8.le_iff_toNat_le, UInt8.reduceToNat] at hspace
    rcases hspace with rfl | hspace
    · exact absurd h (by decide)
    · have hlow : tolower c = c := by
        rw [tolower, if_neg]
        simp only [UInt8.le_iff_toNat_le, UInt8.reduceToNat]
        omega
      rw [hlow, UInt8.le_iff_toNat_le] at h
      simp only [UInt8.reduceToNat] at h
      omega
  · rintro rfl
    exact absurd h (by decide)

theorem keyword_head {k : UInt8} (hkw : 0 ∉ k :: kw) (h : keyword (k :: kw) s = true) :
    ∃ c t, s = c :: t ∧ tolower c = tolower k := by
  rw [keyword_iff hkw] at h
  rcases s with _ | ⟨c, s⟩
  · simp at h
  · simp only [List.length_cons, List.take_succ_cons, List.map_cons, List.cons.injEq] at h
    exact ⟨c, s, rfl, h.1⟩

/-- A text that begins with a word is not blank. -/
theorem keyword_not_blank {k : UInt8} (hkw : 0 ∉ k :: kw) (hk : 97 ≤ tolower k)
    (h : keyword (k :: kw) s = true) : ¬ Blank s := by
  obtain ⟨c, t, rfl, hc⟩ := keyword_head hkw h
  obtain ⟨hspace, hsemi⟩ := letter_not_blank (hc ▸ hk)
  intro hblank
  rcases hblank c (by simp) with hc' | hc'
  · rw [hspace] at hc'
    cases hc'
  · exact hsemi hc'

/-- There are no blanks in front of a word. -/
theorem skipWs_of_keyword {k : UInt8} (hkw : 0 ∉ k :: kw) (hk : 97 ≤ tolower k)
    (h : keyword (k :: kw) s = true) : skipWs s = s := by
  obtain ⟨c, t, rfl, hc⟩ := keyword_head hkw h
  exact dropWhile_of_stopsAt (stopsAt_cons.mpr (letter_not_blank (hc ▸ hk)).1)

end

/-! ## Conditions -/

/-- One of the six comparison operators, the longer one where two fit. -/
inductive Operator : CString → CString → Prop
  | two {a : UInt8} {rest : CString} (ha : a = ch '!' ∨ a = ch '<' ∨ a = ch '>') :
      Operator (a :: ch '=' :: rest) rest
  | one {a : UInt8} {rest : CString} (ha : a = ch '<' ∨ a = ch '>') (hne : deref rest ≠ ch '=') :
      Operator (a :: rest) rest
  | eq {rest : CString} : Operator (ch '=' :: rest) rest

/-- A value: quoted and closed, or a token. -/
inductive ValueText : CString → CString → Prop
  | quoted {v rest : CString} (hlen : v.length ≤ 255) (hv : quote ∉ v) :
      ValueText (quote :: (v ++ quote :: rest)) rest
  | bare {s rest : CString} (hq : deref s ≠ quote) (h : Token valueChar 255 s rest) :
      ValueText s rest

/-- One complete condition. -/
inductive WhereClause : CString → CString → Prop
  | comparison {s s₁ s₂ s₃ rest : CString} (hw : Word (cstr "WHERE") s s₁)
      (hf : Token fieldChar 31 (skipWs s₁) s₂) (ho : Operator (skipWs s₂) s₃)
      (hv : ValueText (skipWs s₃) rest) : WhereClause s rest
  | between {s s₁ s₂ s₃ s₄ s₅ rest : CString} (hw : Word (cstr "WHERE") s s₁)
      (hf : Token fieldChar 31 (skipWs s₁) s₂) (hb : Word (cstr "BETWEEN") (skipWs s₂) s₃)
      (hsep : isspace (deref s₃) = true) (hlo : Token (fun c => !isspace c) 63 (skipWs s₃) s₄)
      (ha : Word (cstr "AND") (skipWs s₄) s₅) (hhi : Token valueChar 63 (skipWs s₅) rest) :
      WhereClause s rest

/-- A whole value is read. -/
def readsValue (s : CString) : Bool :=
  if deref s = quote then deref (spanUpTo (· != quote) 255 s.tail).2 == quote
  else readsToken valueChar 255 s

/-- What is read behind WHERE: `none` for a condition that is refused, otherwise whether it is
complete, and the text behind it. -/
def scanCondition (s : CString) : Option (Bool × CString) :=
  let field := spanUpTo fieldChar 31 s
  let p := skipWs field.2
  if keyword (cstr "BETWEEN") p && isspace (deref (p.drop 7)) then
    let lo := skipWs (p.drop 7)
    let p := skipWs (spanUpTo (fun c => !isspace c) 63 lo).2
    if isIdField field.1 && keyword (cstr "AND") p then
      let hi := skipWs (p.drop 3)
      some (readsToken (fun c => !isspace c) 63 lo && readsToken valueChar 63 hi,
        (spanUpTo valueChar 63 hi).2)
    else none
  else
    (readOperator p).map fun o =>
      let v := skipWs (p.drop o.2)
      (field.1 != [] && readsValue v, (valueSpan v).2)

section

variable {s rest : CString}

theorem deref_eq_iff {c : UInt8} (hc : c ≠ 0) : deref s = c ↔ ∃ t, s = c :: t := by
  rcases s with _ | ⟨a, s⟩
  · simp [deref, hc.symm]
  · simp [deref]

theorem operator_iff :
    Operator s rest ↔ ∃ o, readOperator s = some o ∧ rest = s.drop o.2 := by
  constructor
  · rintro (⟨ha | ha | ha⟩ | ⟨ha | ha, hne⟩ | _)
    · exact ⟨(.ne, 2), by subst ha; rfl, rfl⟩
    · exact ⟨(.le, 2), by subst ha; rfl, rfl⟩
    · exact ⟨(.ge, 2), by subst ha; rfl, rfl⟩
    · subst ha
      refine ⟨(.lt, 1), ?_, rfl⟩
      have hd : deref (ch '<' :: rest) = ch '<' := rfl
      rw [readOperator, hd, List.tail_cons, if_neg fun h => absurd h.1 (by decide),
        if_neg fun h => hne h.2, if_neg fun h => absurd h.1 (by decide), if_pos rfl]
    · subst ha
      refine ⟨(.gt, 1), ?_, rfl⟩
      have hd : deref (ch '>' :: rest) = ch '>' := rfl
      rw [readOperator, hd, List.tail_cons, if_neg fun h => absurd h.1 (by decide),
        if_neg fun h => absurd h.1 (by decide), if_neg fun h => hne h.2, if_neg (by decide),
        if_pos rfl]
    · exact ⟨(.eq, 1), rfl, rfl⟩
  · rintro ⟨o, ho, rfl⟩
    have htwo : ∀ a : UInt8, a ≠ 0 → deref s = a ∧ deref s.tail = ch '=' →
        ∃ t, s = a :: ch '=' :: t := by
      rintro a ha ⟨h, h'⟩
      obtain ⟨t, rfl⟩ := (deref_eq_iff ha).mp h
      obtain ⟨t', rfl⟩ := (deref_eq_iff (by decide)).mp (show deref t = ch '=' from h')
      exact ⟨t', rfl⟩
    unfold readOperator at ho
    split at ho
    · rename_i h
      obtain ⟨t, rfl⟩ := htwo _ (by decide) h
      cases ho
      exact .two (.inl rfl)
    split at ho
    · rename_i h
      obtain ⟨t, rfl⟩ := htwo _ (by decide) h
      cases ho
      exact .two (.inr (.inl rfl))
    split at ho
    · rename_i h
      obtain ⟨t, rfl⟩ := htwo _ (by decide) h
      cases ho
      exact .two (.inr (.inr rfl))
    split at ho
    · rename_i _ hlt _ h
      obtain ⟨t, rfl⟩ := (deref_eq_iff (by decide)).mp h
      cases ho
      exact .one (.inl rfl) fun h' => hlt ⟨h, h'⟩
    split at ho
    · rename_i _ _ hge _ h
      obtain ⟨t, rfl⟩ := (deref_eq_iff (by decide)).mp h
      cases ho
      exact .one (.inr rfl) fun h' => hge ⟨h, h'⟩
    split at ho
    · rename_i h
      obtain ⟨t, rfl⟩ := (deref_eq_iff (by decide)).mp h
      cases ho
      exact .eq
    · cases ho

theorem valueText_iff : ValueText s rest ↔ readsValue s = true ∧ rest = (valueSpan s).2 := by
  constructor
  · rintro (⟨hlen, hv⟩ | ⟨hq, h⟩)
    · rename_i v
      have hspan : spanUpTo (· != quote) 255 (v ++ quote :: rest) = (v, quote :: rest) :=
        spanUpTo_of_append (fun c hc => bne_iff_ne.mpr fun h => hv (h ▸ hc)) hlen (.inl (by simp))
      have hderef : deref (quote :: (v ++ quote :: rest)) = quote := rfl
      refine ⟨?_, ?_⟩
      · rw [readsValue, if_pos hderef, List.tail_cons, hspan]
        simp [deref]
      · rw [valueSpan, if_pos hderef, List.tail_cons, hspan]
        simp [deref]
    · rw [token_iff] at h
      rw [readsValue, valueSpan, if_neg hq, if_neg hq]
      exact h
  · rintro ⟨hreads, rfl⟩
    by_cases hq : deref s = quote
    · rw [readsValue, if_pos hq, beq_iff_eq] at hreads
      rw [valueSpan, if_pos hq]
      simp only [hreads, if_true]
      obtain ⟨t, rfl⟩ := (deref_eq_iff (by decide)).mp hq
      obtain ⟨r, hr⟩ := (deref_eq_iff (by decide)).mp hreads
      have happ := spanUpTo_append (· != quote) 255 (quote :: t).tail
      have hall := all_spanUpTo (· != quote) 255 (quote :: t).tail
      have hlen := length_spanUpTo_le (· != quote) 255 (quote :: t).tail
      rw [hr] at happ ⊢
      rw [List.tail_cons] at happ
      conv => arg 1; rw [← happ]
      refine .quoted hlen fun hmem => ?_
      simpa using hall quote hmem
    · rw [readsValue, if_neg hq] at hreads
      rw [valueSpan, if_neg hq]
      exact .bare hq (token_iff.mpr ⟨hreads, rfl⟩)

theorem readOperator_head {o : CompareOp × Nat} (h : readOperator s = some o) :
    ∃ c t, s = c :: t ∧ (c = ch '!' ∨ c = ch '<' ∨ c = ch '>' ∨ c = ch '=') := by
  have hop : ∃ rest, Operator s rest := ⟨_, operator_iff.mpr ⟨o, h, rfl⟩⟩
  obtain ⟨rest, ⟨ha⟩ | ⟨ha, -⟩ | _⟩ := hop
  · exact ⟨_, _, rfl, by tauto⟩
  · exact ⟨_, _, rfl, by tauto⟩
  · exact ⟨_, _, rfl, by tauto⟩

/-- In front of an operator there is no word. -/
theorem not_between_of_readOperator {o : CompareOp × Nat} (h : readOperator s = some o) :
    ¬ (keyword (cstr "BETWEEN") s && isspace (deref (s.drop 7))) = true := by
  obtain ⟨c, t, rfl, hc⟩ := readOperator_head h
  intro hk
  obtain ⟨d, t', heq, hd⟩ := keyword_head (by decide) (Bool.and_eq_true_iff.mp hk).1
  cases heq
  rcases hc with rfl | rfl | rfl | rfl
  · exact absurd hd (by decide)
  · exact absurd hd (by decide)
  · exact absurd hd (by decide)
  · exact absurd hd (by decide)

/-- A field in front of an operator has ended where it must. -/
theorem stopsAt_of_readOperator {o : CompareOp × Nat} (h : readOperator (skipWs s) = some o) :
    StopsAt fieldChar s := by
  rcases s with _ | ⟨c, s⟩
  · exact stopsAt_nil
  rw [stopsAt_cons, Bool.eq_false_iff]
  intro hc
  simp only [fieldChar, Bool.and_eq_true, bne_iff_ne, ne_eq, Bool.not_eq_true'] at hc
  obtain ⟨⟨⟨⟨heq, hbang⟩, hlt⟩, hgt⟩, hspace⟩ := hc
  have hskip : skipWs (c :: s) = c :: s := dropWhile_of_stopsAt (stopsAt_cons.mpr hspace)
  rw [hskip] at h
  obtain ⟨d, t, hdt, hd⟩ := readOperator_head h
  cases hdt
  tauto

/-- A complete condition is read as such, unless it is refused. -/
theorem WhereClause.scan (h : WhereClause s rest) :
    keyword (cstr "WHERE") s = true ∧
      (scanCondition (skipWs (s.drop 5)) = none ∨
        scanCondition (skipWs (s.drop 5)) = some (true, rest)) := by
  cases h with
  | comparison hw hf ho hv =>
    obtain ⟨hwhere, rfl⟩ := (word_iff (n := 5) (by decide) rfl).mp hw
    obtain ⟨hfield, rfl⟩ := token_iff.mp hf
    obtain ⟨o, hop, rfl⟩ := operator_iff.mp ho
    obtain ⟨hvalue, rfl⟩ := valueText_iff.mp hv
    refine ⟨hwhere, .inr ?_⟩
    rw [readsToken, Bool.and_eq_true] at hfield
    rw [scanCondition]
    dsimp only
    rw [if_neg (not_between_of_readOperator hop)]
    refine Option.map_eq_some_iff.mpr ⟨o, hop, Prod.ext ?_ rfl⟩
    exact Bool.and_eq_true_iff.mpr ⟨hfield.1, hvalue⟩
  | between hw hf hb hsep hlo ha hhi =>
    obtain ⟨hwhere, rfl⟩ := (word_iff (n := 5) (by decide) rfl).mp hw
    obtain ⟨hfield, rfl⟩ := token_iff.mp hf
    obtain ⟨hbetween, rfl⟩ := (word_iff (n := 7) (by decide) rfl).mp hb
    obtain ⟨hlow, rfl⟩ := token_iff.mp hlo
    obtain ⟨hand, rfl⟩ := (word_iff (n := 3) (by decide) rfl).mp ha
    obtain ⟨hhigh, rfl⟩ := token_iff.mp hhi
    refine ⟨hwhere, ?_⟩
    rw [scanCondition]
    dsimp only
    rw [if_pos (Bool.and_eq_true_iff.mpr ⟨hbetween, hsep⟩)]
    by_cases hid : isIdField (spanUpTo fieldChar 31 (skipWs (s.drop 5))).1 = true
    · right
      rw [if_pos (Bool.and_eq_true_iff.mpr ⟨hid, hand⟩)]
      exact congrArg some (Prod.ext (Bool.and_eq_true_iff.mpr ⟨hlow, hhigh⟩) rfl)
    · left
      rw [if_neg (by simp [hid])]

/-- What is read as a complete condition is one. -/
theorem whereClause_of_scan (hw : keyword (cstr "WHERE") s = true)
    (h : scanCondition (skipWs (s.drop 5)) = some (true, rest)) : WhereClause s rest := by
  rw [scanCondition] at h
  dsimp only at h
  split at h
  · rename_i hbetween
    obtain ⟨hb, hsep⟩ := Bool.and_eq_true_iff.mp hbetween
    split at h
    · rename_i hid
      obtain ⟨hid, ha⟩ := Bool.and_eq_true_iff.mp hid
      obtain ⟨hreads, rfl⟩ := Prod.mk.inj (Option.some.inj h)
      obtain ⟨hlo, hhi⟩ := Bool.and_eq_true_iff.mp hreads
      have hlen : (spanUpTo fieldChar 31 (skipWs (s.drop 5))).1.length = 2 :=
        beq_iff_eq.mp (Bool.and_eq_true_iff.mp hid).2
      refine .between ((word_iff (n := 5) (by decide) rfl).mpr ⟨hw, rfl⟩) (token_iff.mpr ⟨?_, rfl⟩)
        ((word_iff (n := 7) (by decide) rfl).mpr ⟨hb, rfl⟩) hsep (token_iff.mpr ⟨hlo, rfl⟩)
        ((word_iff (n := 3) (by decide) rfl).mpr ⟨ha, rfl⟩) (token_iff.mpr ⟨hhi, rfl⟩)
      simp only [readsToken, Bool.and_eq_true, bne_iff_ne, ne_eq, decide_eq_true_eq]
      refine ⟨fun hnil => ?_, ?_⟩
      · rw [show (spanUpTo fieldChar 31 (skipWs (s.drop 5))).1 = [] from hnil] at hlen
        cases hlen
      · refine (spanUpTo_stops _ _ _).resolve_right fun hfull => ?_
        rw [show (spanUpTo fieldChar 31 (skipWs (s.drop 5))).1.length = 31 from hfull] at hlen
        cases hlen
    · cases h
  · obtain ⟨o, ho, hread⟩ := Option.map_eq_some_iff.mp h
    obtain ⟨hreads, rfl⟩ := Prod.mk.inj hread
    obtain ⟨hf, hv⟩ := Bool.and_eq_true_iff.mp hreads
    refine .comparison ((word_iff (n := 5) (by decide) rfl).mpr ⟨hw, rfl⟩) (token_iff.mpr ⟨?_, rfl⟩)
      (operator_iff.mpr ⟨o, ho, rfl⟩) (valueText_iff.mpr ⟨hv, rfl⟩)
    simp only [readsToken, Bool.and_eq_true, decide_eq_true_eq]
    exact ⟨hf, stopsAt_of_readOperator ho⟩

/-- Behind WHERE, `parse_where` reads a field and then one of the two kinds of conditions. -/
theorem parseWhere_of_where {stmt : Statement} (hw : keyword (cstr "WHERE") s = true) :
    parseWhere s stmt =
      let field := spanUpTo fieldChar 31 (skipWs (s.drop 5))
      let p := skipWs field.2
      if keyword (cstr "BETWEEN") p && isspace (deref (p.drop 7)) then
        parseBetween (p.drop 7) { stmt with predField := field.1 }
      else parseComparison p { stmt with predField := field.1 } := by
  have hskip : skipWs s = s := skipWs_of_keyword (by decide) (by decide) hw
  have hne : ¬ (s = [] ∨ deref s = ch ';') := by
    obtain ⟨c, t, rfl, hc⟩ := keyword_head (by decide) hw
    rintro (hnil | hsemi)
    · cases hnil
    · exact (letter_not_blank (show 97 ≤ tolower c by rw [hc]; decide)).2 hsemi
  rw [parseWhere]
  simp only [hskip, if_neg hne, hw, Bool.not_true, Bool.false_eq_true, if_false, readInto_name,
    ParseM.ok_bind]

/-- Whether `parse_where` accepts a condition is whether it is read. -/
theorem parseWhere_isOk_iff {stmt : Statement} (hw : keyword (cstr "WHERE") s = true) :
    (∃ stmt', parseWhere s stmt = .ok stmt') ↔ (scanCondition (skipWs (s.drop 5))).isSome := by
  rw [parseWhere_of_where hw, scanCondition]
  dsimp only
  split
  · rename_i hbetween
    rw [parseBetween]
    by_cases hid : isIdField (spanUpTo fieldChar 31 (skipWs (s.drop 5))).1 = true
    · simp only [hid, Bool.not_true, Bool.false_eq_true, if_false, readInto_bound, ParseM.ok_bind,
        ParseM.pure_eq, Bool.true_and]
      split
      · rename_i ha
        have ha' := Bool.not_eq_true _ ▸ (Bool.not_eq_true' _ ▸ ha)
        simp [ha']
      · rename_i ha
        have ha' := Bool.not_eq_true' _ ▸ ha
        simp only [Bool.not_eq_false] at ha'
        simp [ha']
    · simp [hid]
  · rw [parseComparison]
    cases readOperator (skipWs (spanUpTo fieldChar 31 (skipWs (s.drop 5))).2) with
    | none => simp
    | some o => simp

end

/-! ## ORDER BY and LIMIT -/

/-- The direction behind the column of an ORDER BY, if one is given. -/
inductive Direction : CString → CString → Prop
  | none {s : CString} : Direction s s
  | asc {s rest : CString} (h : Word (cstr "ASC") (skipWs s) rest) : Direction s rest
  | desc {s rest : CString} (h : Word (cstr "DESC") (skipWs s) rest) : Direction s rest

/-- One complete ORDER BY clause. -/
inductive OrderClause : CString → CString → Prop
  | mk {s s₁ s₂ s₃ rest : CString} (ho : Word (cstr "ORDER") s s₁)
      (hb : Word (cstr "BY") (skipWs s₁) s₂) (hc : Token valueChar 31 (skipWs s₂) s₃)
      (hd : Direction s₃ rest) : OrderClause s rest

/-- One complete LIMIT clause. -/
inductive LimitClause : CString → CString → Prop
  | mk {s s₁ rest : CString} (hl : Word (cstr "LIMIT") s s₁)
      (hn : ∃ n, Token isdigit n (skipWs s₁) rest) : LimitClause s rest

/-- At most an ORDER BY and a LIMIT clause, and nothing else. -/
def OrderLimitText (s : CString) : Prop :=
  ∃ s₁ s₂, (s₁ = s ∨ OrderClause (skipWs s) s₁) ∧ (s₂ = s₁ ∨ LimitClause (skipWs s₁) s₂) ∧ Blank s₂

/-- Nothing but a LIMIT clause is read. -/
def readsLimit (s : CString) : Bool :=
  let p := skipWs s
  if keyword (cstr "LIMIT") p then
    let r := spanUpTo isdigit p.length (skipWs (p.drop 5))
    r.1 != [] && decide (Blank r.2)
  else decide (Blank p)

/-- The text behind a direction. -/
def afterDirection (s : CString) : CString :=
  let p := skipWs s
  if keyword (cstr "DESC") p then p.drop 4
  else if keyword (cstr "ASC") p then p.drop 3
  else s

/-- Nothing but an ORDER BY and a LIMIT clause is read. -/
def readsOrderLimit (s : CString) : Bool :=
  let p := skipWs s
  if keyword (cstr "ORDER") p then
    let q := skipWs (p.drop 5)
    let c := skipWs (q.drop 2)
    keyword (cstr "BY") q && readsToken valueChar 31 c &&
      readsLimit (afterDirection (spanUpTo valueChar 31 c).2)
  else readsLimit s

section

variable {s rest : CString}

theorem readsLimit_iff :
    (∃ s₁, (s₁ = s ∨ LimitClause (skipWs s) s₁) ∧ Blank s₁) ↔ readsLimit s = true := by
  rw [readsLimit]
  dsimp only
  by_cases hl : keyword (cstr "LIMIT") (skipWs s) = true
  · rw [if_pos hl]
    have hlen : (skipWs ((skipWs s).drop 5)).length ≤ (skipWs s).length := by
      refine (length_skipWs_le _).trans ?_
      rw [List.length_drop]
      omega
    simp only [Bool.and_eq_true, bne_iff_ne, ne_eq, decide_eq_true_eq]
    constructor
    · rintro ⟨s₁, rfl | ⟨hl', n, w, hw, hne, -, hall, hstop⟩, hblank⟩
      · exact absurd (blank_skipWs.mpr hblank) (keyword_not_blank (by decide) (by decide) hl)
      · obtain ⟨-, rfl⟩ := (word_iff (n := 5) (by decide) rfl).mp hl'
        rw [hw] at hlen ⊢
        rw [List.length_append] at hlen
        rw [spanUpTo_of_append hall (by omega) (.inl hstop)]
        exact ⟨hne, hblank⟩
    · rintro ⟨hne, hblank⟩
      refine ⟨_, .inr (.mk ((word_iff (n := 5) (by decide) rfl).mpr ⟨hl, rfl⟩)
        ⟨_, token_iff.mpr ⟨?_, rfl⟩⟩), hblank⟩
      simp only [readsToken, Bool.and_eq_true, bne_iff_ne, ne_eq, decide_eq_true_eq]
      refine ⟨hne, (spanUpTo_stops _ _ _).resolve_right fun hfull => ?_⟩
      have happ := congrArg List.length
        (spanUpTo_append isdigit (skipWs s).length (skipWs ((skipWs s).drop 5)))
      have hdrop : (skipWs ((skipWs s).drop 5)).length < (skipWs s).length := by
        have hpos : skipWs s ≠ [] := by
          intro hnil
          rw [hnil, keyword_nil (by decide) (by decide)] at hl
          cases hl
        have hpos := List.length_pos_iff.mpr hpos
        refine lt_of_le_of_lt (length_skipWs_le _) ?_
        rw [List.length_drop]
        omega
      rw [List.length_append, hfull] at happ
      omega
  · rw [if_neg hl, decide_eq_true_eq, blank_skipWs]
    constructor
    · rintro ⟨s₁, rfl | ⟨hl', -⟩, hblank⟩
      · exact hblank
      · exact absurd ((word_iff (n := 5) (by decide) rfl).mp hl').1 hl
    · intro hblank
      exact ⟨s, .inl rfl, hblank⟩

/-- In front of a direction there is neither a LIMIT clause nor a blank end. -/
theorem readsLimit_of_direction {kw : CString} {k : UInt8} (hkw : 0 ∉ k :: kw)
    (hk : 97 ≤ tolower k)
    (hne : ((k :: kw).map tolower).take (cstr "LIMIT").length ≠
      ((cstr "LIMIT").map tolower).take (k :: kw).length)
    (h : keyword (k :: kw) (skipWs s) = true) : readsLimit s = false := by
  have hl := keyword_exclusive hkw (by decide) hne h
  rw [readsLimit]
  dsimp only
  rw [if_neg hl]
  simpa using keyword_not_blank hkw hk h

theorem direction_iff :
    (∃ s₁, Direction s s₁ ∧ readsLimit s₁ = true) ↔ readsLimit (afterDirection s) = true := by
  rw [afterDirection]
  by_cases hdesc : keyword (cstr "DESC") (skipWs s) = true
  · rw [if_pos hdesc]
    constructor
    · rintro ⟨s₁, _ | ha | hd, hlimit⟩
      · rw [readsLimit_of_direction (by decide) (by decide) (by decide) hdesc] at hlimit
        cases hlimit
      · exact absurd ((word_iff (n := 3) (by decide) rfl).mp ha).1
          (keyword_exclusive (by decide) (by decide) (by decide) hdesc)
      · obtain ⟨-, rfl⟩ := (word_iff (n := 4) (by decide) rfl).mp hd
        exact hlimit
    · intro hlimit
      exact ⟨_, .desc ((word_iff (n := 4) (by decide) rfl).mpr ⟨hdesc, rfl⟩), hlimit⟩
  rw [if_neg hdesc]
  by_cases hasc : keyword (cstr "ASC") (skipWs s) = true
  · rw [if_pos hasc]
    constructor
    · rintro ⟨s₁, _ | ha | hd, hlimit⟩
      · rw [readsLimit_of_direction (by decide) (by decide) (by decide) hasc] at hlimit
        cases hlimit
      · obtain ⟨-, rfl⟩ := (word_iff (n := 3) (by decide) rfl).mp ha
        exact hlimit
      · exact absurd ((word_iff (n := 4) (by decide) rfl).mp hd).1 hdesc
    · intro hlimit
      exact ⟨_, .asc ((word_iff (n := 3) (by decide) rfl).mpr ⟨hasc, rfl⟩), hlimit⟩
  · rw [if_neg hasc]
    constructor
    · rintro ⟨s₁, _ | ha | hd, hlimit⟩
      · exact hlimit
      · exact absurd ((word_iff (n := 3) (by decide) rfl).mp ha).1 hasc
      · exact absurd ((word_iff (n := 4) (by decide) rfl).mp hd).1 hdesc
    · intro hlimit
      exact ⟨s, .none, hlimit⟩

/-- The clauses are read exactly when there is nothing else. -/
theorem orderLimitText_iff : OrderLimitText s ↔ readsOrderLimit s = true := by
  have hlimits : OrderLimitText s ↔
      ∃ s₁, (s₁ = s ∨ OrderClause (skipWs s) s₁) ∧ readsLimit s₁ = true := by
    simp only [OrderLimitText, ← readsLimit_iff]
    constructor
    · rintro ⟨s₁, s₂, ho, hl, hb⟩
      exact ⟨s₁, ho, s₂, hl, hb⟩
    · rintro ⟨s₁, ho, s₂, hl, hb⟩
      exact ⟨s₁, s₂, ho, hl, hb⟩
  rw [hlimits, readsOrderLimit]
  dsimp only
  by_cases ho : keyword (cstr "ORDER") (skipWs s) = true
  · rw [if_pos ho, Bool.and_eq_true, Bool.and_eq_true, ← direction_iff]
    constructor
    · rintro ⟨s₁, rfl | ⟨ho', hb, hc, hd⟩, hlimit⟩
      · rw [readsLimit_of_direction (by decide) (by decide) (by decide) ho] at hlimit
        cases hlimit
      · obtain ⟨-, rfl⟩ := (word_iff (n := 5) (by decide) rfl).mp ho'
        obtain ⟨hby, rfl⟩ := (word_iff (n := 2) (by decide) rfl).mp hb
        obtain ⟨hcol, rfl⟩ := token_iff.mp hc
        exact ⟨⟨hby, hcol⟩, _, hd, hlimit⟩
    · rintro ⟨⟨hby, hcol⟩, s₁, hd, hlimit⟩
      exact ⟨s₁, .inr (.mk ((word_iff (n := 5) (by decide) rfl).mpr ⟨ho, rfl⟩)
        ((word_iff (n := 2) (by decide) rfl).mpr ⟨hby, rfl⟩) (token_iff.mpr ⟨hcol, rfl⟩) hd), hlimit⟩
  · rw [if_neg ho]
    constructor
    · rintro ⟨s₁, rfl | ⟨ho', -⟩, hlimit⟩
      · exact hlimit
      · exact absurd ((word_iff (n := 5) (by decide) rfl).mp ho').1 ho
    · intro hlimit
      exact ⟨s, .inl rfl, hlimit⟩

/-- `parse_order_limit` refuses only an ORDER that no BY follows. -/
theorem parseOrderLimit_isOk_iff {stmt : Statement} :
    (∃ stmt', parseOrderLimit s stmt = .ok stmt') ↔
      (keyword (cstr "ORDER") (skipWs s) = true →
        keyword (cstr "BY") (skipWs ((skipWs s).drop 5)) = true) := by
  rw [parseOrderLimit, parseOrderBy]
  by_cases ho : keyword (cstr "ORDER") (skipWs s) = true
  · rw [if_pos ho]
    by_cases hb : keyword (cstr "BY") (skipWs ((skipWs s).drop 5)) = true
    · refine iff_of_true ?_ fun _ => hb
      simp only [hb, Bool.not_true, Bool.false_eq_true, if_false, readInto_name, ParseM.ok_bind,
        ParseM.pure_eq]
      split
      · exact ⟨_, rfl⟩
      · split
        · exact ⟨_, rfl⟩
        · exact ⟨_, rfl⟩
    · refine iff_of_false ?_ fun h => hb (h ho)
      simp [hb]
  · rw [if_neg ho]
    exact iff_of_true ⟨_, rfl⟩ fun h => absurd h ho

end

end MiniDb
