import MiniDb.Sql.Tails

/-! # Where the clauses begin

`find_after_where` looks for ORDER and LIMIT at every character behind WHERE. What it finds and what
is read from there on depends only on the word that has the letters, when a character follows that
is not part of any keyword. -/

set_option autoImplicit false

namespace MiniDb

open Lib

/-- A letter. -/
def letter (c : UInt8) : Bool := 97 ≤ tolower c && tolower c ≤ 122

/-! ## What the clauses say -/

/-- The LIMIT clause in front. -/
def readLimit (p : CString) : Option Nat :=
  let p := skipWs p
  if keyword (cstr "LIMIT") p then some (toU32 (atoi (skipWs (p.drop 5)))) else none

/-- The clauses in front, `none` for an ORDER without BY. -/
def readClauses (p : CString) : Option (Option (CString × Bool) × Option Nat) :=
  let p := skipWs p
  if keyword (cstr "ORDER") p then
    let q := skipWs (p.drop 5)
    if keyword (cstr "BY") q then
      let c := spanUpTo valueChar 31 (skipWs (q.drop 2))
      some (some (c.1, keyword (cstr "DESC") (skipWs c.2)), readLimit (afterDirection c.2))
    else none
  else some (none, readLimit p)

/-- ORDER or LIMIT is in front. -/
def clauseWord (p : CString) : Bool := keyword (cstr "ORDER") p || keyword (cstr "LIMIT") p

/-- ORDER or LIMIT is somewhere in the word. -/
def hasClauseWord : CString → Bool
  | [] => false
  | c :: p => clauseWord (c :: p) || hasClauseWord p

/-- The statement with these clauses. -/
def Statement.withClauses (stmt : Statement) (r : Option (CString × Bool) × Option Nat) :
    Statement :=
  let stmt :=
    match r.1 with
    | none => stmt
    | some (c, desc) => { stmt with orderByField := c, hasOrderBy := true, orderDesc := desc }
  match r.2 with
  | none => stmt
  | some n => { stmt with limitCount := n, hasLimit := true }

section

variable {p : CString} {stmt : Statement}

theorem parseLimit_eq : parseLimit p stmt = stmt.withClauses (none, readLimit p) := by
  rw [parseLimit, readLimit]
  split
  · rfl
  · rfl

theorem readLimit_skipWs : readLimit (skipWs p) = readLimit p := by
  rw [readLimit, readLimit, skipWs_skipWs]

/-- `parse_order_limit` sets what the clauses say. -/
theorem parseOrderLimit_eq : parseOrderLimit p stmt =
    match readClauses p with
    | none => .error .reject
    | some r => .ok (stmt.withClauses r) := by
  rw [parseOrderLimit, readClauses]
  dsimp only
  by_cases ho : keyword (cstr "ORDER") (skipWs p) = true
  · rw [if_pos ho, if_pos ho, parseOrderBy]
    by_cases hb : keyword (cstr "BY") (skipWs ((skipWs p).drop 5)) = true
    · simp only [hb, Bool.not_true, Bool.false_eq_true, if_false, if_true, readInto_name,
        ParseM.ok_bind, ParseM.pure_eq]
      generalize spanUpTo valueChar 31 (skipWs ((skipWs ((skipWs p).drop 5)).drop 2)) = c
      rw [afterDirection]
      split
      · rename_i hdesc
        rw [ParseM.ok_bind, parseLimit_eq, readLimit_skipWs, hdesc]
        rfl
      split
      · rename_i hdesc hasc
        rw [ParseM.ok_bind, parseLimit_eq, readLimit_skipWs, (Bool.not_eq_true _).mp hdesc]
        rfl
      · rename_i hdesc hasc
        rw [ParseM.ok_bind, parseLimit_eq, readLimit_skipWs, (Bool.not_eq_true _).mp hdesc]
        rfl
    · simp [hb]
  · rw [if_neg ho, if_neg ho, parseLimit_eq]
    rfl

end

/-! ## Looking for the clauses -/

section

variable {x y w kw : CString} {c : UInt8}

/-- A word does not reach over a character that it does not have. -/
theorem keyword_append_cons (hkw : 0 ∉ kw) (hc : ∀ k ∈ kw, tolower k ≠ tolower c) :
    keyword kw (x ++ c :: y) = keyword kw x := by
  rw [Bool.eq_iff_iff, keyword_iff hkw, keyword_iff hkw]
  rcases Nat.lt_or_ge x.length kw.length with hlt | hge
  · refine iff_of_false (fun h => ?_) fun h => ?_
    · have hmem : tolower c ∈ (List.take kw.length (x ++ c :: y)).map tolower := by
        refine List.mem_map_of_mem ?_
        obtain ⟨k, hk⟩ := Nat.exists_eq_add_of_lt hlt
        rw [hk, Nat.add_assoc, List.take_length_add_append]
        simp
      rw [h] at hmem
      obtain ⟨k, hk, heq⟩ := List.mem_map.mp hmem
      exact hc k hk heq
    · have hlen := congrArg List.length h
      simp only [List.length_map, List.length_take] at hlen
      omega
  · rw [List.take_append_of_le_length hge]

theorem clauseWord_append_cons (hc : letter c = false) :
    clauseWord (x ++ c :: y) = clauseWord x := by
  have hne : ∀ k : UInt8, letter k = true → tolower k ≠ tolower c := by
    intro k hk heq
    rw [letter, heq] at hk
    rw [letter, hk] at hc
    cases hc
  rw [clauseWord, clauseWord, keyword_append_cons (by decide), keyword_append_cons (by decide)]
  · exact fun k hk => hne k (List.all_eq_true.mp (show List.all _ letter = true by decide) k hk)
  · exact fun k hk => hne k (List.all_eq_true.mp (show List.all _ letter = true by decide) k hk)

theorem hasClauseWord_append_cons (hc : letter c = false) :
    hasClauseWord (x ++ c :: y) = (hasClauseWord x || hasClauseWord y) := by
  induction x with
  | nil =>
    have hnil : clauseWord ([] ++ c :: y) = clauseWord [] := clauseWord_append_cons hc
    show (clauseWord (c :: y) || hasClauseWord y) = (false || hasClauseWord y)
    rw [show clauseWord (c :: y) = false from hnil]
  | cons a x ih =>
    have hcons : clauseWord (a :: x ++ c :: y) = clauseWord (a :: x) := clauseWord_append_cons hc
    rw [List.cons_append] at hcons ⊢
    rw [hasClauseWord, hasClauseWord, hcons, ih, Bool.or_assoc]

theorem skipWs_append_cons (hc : isspace c = false) :
    skipWs (x ++ c :: y) = skipWs x ++ c :: y := by
  induction x with
  | nil => simp [skipWs, hc]
  | cons a x ih =>
    rw [skipWs] at ih ⊢
    rw [skipWs, List.cons_append, List.dropWhile_cons, List.dropWhile_cons]
    split
    · exact ih
    · rfl

theorem clauseWord_skipWs (h : hasClauseWord w = false) : clauseWord (skipWs w) = false := by
  induction w with
  | nil => rfl
  | cons a w ih =>
    obtain ⟨ha, hw⟩ := Bool.or_eq_false_iff.mp h
    rw [skipWs, List.dropWhile_cons]
    split
    · exact ih hw
    · exact ha

/-- Where there is neither word, the search goes on. -/
theorem seekClause_append_cons (hc : letter c = false) (hspace : isspace c = false)
    (h : hasClauseWord x = false) : seekClause (x ++ c :: y) = seekClause y := by
  induction x with
  | nil =>
    have hno : clauseWord (skipWs ([] ++ c :: y)) = false := by
      rw [skipWs_append_cons hspace, clauseWord_append_cons hc]
      rfl
    rw [List.nil_append] at hno ⊢
    rw [seekClause]
    exact if_neg (by simpa [clauseWord] using hno)
  | cons a x ih =>
    have hno : clauseWord (skipWs (a :: x ++ c :: y)) = false := by
      rw [skipWs_append_cons hspace, clauseWord_append_cons hc, clauseWord_skipWs h]
    rw [List.cons_append] at hno ⊢
    rw [seekClause, ← ih (Bool.or_eq_false_iff.mp h).2]
    exact if_neg (by simpa [clauseWord] using hno)

end

/-! ## The first place -/

/-- The first ORDER or LIMIT in a word, with what is behind it. -/
structure FirstClauseWord (w rest : CString) : Prop where
  suffix : rest <:+ w
  word : clauseWord rest = true
  first : ∀ x, x <:+ w → clauseWord x = true → x.length ≤ rest.length

section

variable {w rest x y : CString} {c : UInt8}

theorem FirstClauseWord.of_cons (h : FirstClauseWord (c :: w) rest)
    (hc : clauseWord (c :: w) = false) : FirstClauseWord w rest := by
  obtain ⟨hsuffix, hword, hfirst⟩ := h
  refine ⟨?_, hword, fun x hx => hfirst x (hx.trans (List.suffix_cons c w))⟩
  rcases List.suffix_cons_iff.mp hsuffix with rfl | hin
  · rw [hc] at hword
    cases hword
  · exact hin

theorem FirstClauseWord.unique (h : FirstClauseWord w rest) (h' : FirstClauseWord w x) :
    rest = x := by
  have hle := h.first x h'.suffix h'.word
  have hge := h'.first rest h.suffix h.word
  exact (List.suffix_of_suffix_length_le h.suffix h'.suffix hge).eq_of_length (by omega)

theorem hasClauseWord_iff : hasClauseWord w = true ↔ ∃ rest, FirstClauseWord w rest := by
  induction w with
  | nil =>
    refine iff_of_false nofun ?_
    rintro ⟨rest, hsuffix, hword, -⟩
    rw [List.suffix_nil.mp hsuffix] at hword
    cases hword
  | cons c w ih =>
    rw [hasClauseWord]
    cases hc : clauseWord (c :: w) with
    | true =>
      rw [Bool.true_or]
      exact iff_of_true rfl ⟨c :: w, List.suffix_refl _, hc, fun x hx _ => hx.length_le⟩
    | false =>
      rw [Bool.false_or, ih]
      constructor
      · rintro ⟨rest, hsuffix, hword, hfirst⟩
        refine ⟨rest, hsuffix.trans (List.suffix_cons c w), hword, fun x hx hxword => ?_⟩
        rcases List.suffix_cons_iff.mp hx with rfl | hin
        · rw [hc] at hxword
          cases hxword
        · exact hfirst x hin hxword
      · rintro ⟨rest, hfirst⟩
        exact ⟨rest, hfirst.of_cons hc⟩

/-- A word stands without blanks in front. -/
theorem skipWs_of_clauseWord (h : clauseWord w = true) : skipWs w = w := by
  rcases Bool.or_eq_true _ _ |>.mp h with ho | hl
  · exact skipWs_of_keyword (by decide) (by decide) ho
  · exact skipWs_of_keyword (by decide) (by decide) hl

theorem seekClause_cons (p : CString) :
    seekClause (c :: p) =
      if clauseWord (skipWs (c :: p)) then skipWs (c :: p) else seekClause p := rfl

/-- The search may start behind a blank. -/
theorem seekClause_space (hc : isspace c = true) (p : CString) :
    seekClause (c :: p) = seekClause p := by
  have hskip : skipWs (c :: p) = skipWs p := by
    rw [skipWs, List.dropWhile_cons, if_pos hc]
    rfl
  rw [seekClause_cons, hskip]
  cases p with
  | nil => rfl
  | cons a p =>
    rw [seekClause_cons]
    split
    · rfl
    · rfl

/-- **The search ends at the first place.** -/
theorem seekClause_first (h : FirstClauseWord w rest) (hc : letter c = false) :
    seekClause (w ++ c :: y) = rest ++ c :: y := by
  induction w with
  | nil =>
    have hword := h.word
    rw [List.suffix_nil.mp h.suffix] at hword
    cases hword
  | cons a w ih =>
    cases ha : clauseWord (a :: w) with
    | true =>
      have hrest : rest = a :: w := h.suffix.eq_of_length_le (h.first _ (List.suffix_refl _) ha)
      have hword : clauseWord (a :: w ++ c :: y) = true := by
        rw [clauseWord_append_cons hc]
        exact ha
      have hskip := skipWs_of_clauseWord hword
      rw [List.cons_append] at hskip hword
      rw [hrest, List.cons_append, seekClause_cons, hskip, if_pos hword]
    | false =>
      rw [← ih (h.of_cons ha), List.cons_append]
      cases hspace : isspace a with
      | true => exact seekClause_space hspace _
      | false =>
        have hno : clauseWord (skipWs (a :: (w ++ c :: y))) = false := by
          rw [skipWs, List.dropWhile_cons, if_neg (by simp [hspace]), ← List.cons_append,
            clauseWord_append_cons hc]
          exact ha
        rw [seekClause_cons, hno]
        rfl

end

/-! ## What a text says -/

/-- Behind blanks stands LIMIT with digits that are stored as this number, or no LIMIT. -/
def LimitSays (s : CString) : Option Nat → Prop
  | none => ¬ ∃ t, Word (cstr "LIMIT") (skipWs s) t
  | some n => ∃ t, Word (cstr "LIMIT") (skipWs s) t ∧ n = toU32 (atoi t)

/-- Behind blanks stands DESC, which makes the direction descending, or ASC, or neither. -/
inductive DirectionSays (s : CString) : Bool → CString → Prop
  | desc {t : CString} (h : Word (cstr "DESC") (skipWs s) t) : DirectionSays s true t
  | asc {t : CString} (h : Word (cstr "ASC") (skipWs s) t) : DirectionSays s false t
  | neither (hdesc : ¬ ∃ t, Word (cstr "DESC") (skipWs s) t)
      (hasc : ¬ ∃ t, Word (cstr "ASC") (skipWs s) t) : DirectionSays s false s

/-- A text that begins with ORDER BY, a column of 31 characters or up to a blank or semicolon, a
direction and a LIMIT, or with LIMIT alone. -/
inductive ClausesSay : CString → Option (CString × Bool) × Option Nat → Prop
  | order {s s₁ s₂ s₃ s₄ col : CString} {desc : Bool} {limit : Option Nat}
      (ho : Word (cstr "ORDER") s s₁) (hb : Word (cstr "BY") (skipWs s₁) s₂)
      (hcol : skipWs s₂ = col ++ s₃) (hchars : ∀ c ∈ col, valueChar c = true)
      (hlen : col.length ≤ 31)
      (hends : col.length = 31 ∨ ∃ c t, s₃ = c :: t ∧ valueChar c = false)
      (hdir : DirectionSays s₃ desc s₄) (hlimit : LimitSays s₄ limit) :
      ClausesSay s (some (col, desc), limit)
  | limit {s s₁ : CString} (hl : Word (cstr "LIMIT") s s₁) :
      ClausesSay s (none, some (toU32 (atoi s₁)))

section

variable {s t x y : CString} {c : UInt8} {d : Bool} {l : Option Nat}

/-- Two words without a blank between them. -/
theorem word_append_iff {kw kw' : CString} :
    Word (kw ++ kw') s t ↔ ∃ s₁, Word kw s s₁ ∧ Word kw' s₁ t := by
  constructor
  · rintro ⟨w, rfl, hw⟩
    rw [List.map_append, List.map_eq_append_iff] at hw
    obtain ⟨u, v, rfl, hu, hv⟩ := hw
    exact ⟨v ++ t, ⟨u, List.append_assoc _ _ _, hu⟩, v, rfl, hv⟩
  · rintro ⟨s₁, ⟨u, rfl, hu⟩, v, rfl, hv⟩
    exact ⟨u ++ v, (List.append_assoc _ _ _).symm, by rw [List.map_append, List.map_append, hu, hv]⟩

theorem exists_word_iff {kw : CString} (hkw : 0 ∉ kw) :
    (∃ t, Word kw s t) ↔ keyword kw s = true := by
  constructor
  · rintro ⟨t, ht⟩
    exact ((word_iff hkw rfl).mp ht).1
  · intro h
    exact ⟨_, (word_iff hkw rfl).mpr ⟨h, rfl⟩⟩

theorem atoi_skipWs : atoi (skipWs s) = atoi s := by
  rw [atoi, atoi, atoll, atoll, skipWs_skipWs]

theorem limitSays_iff : LimitSays s l ↔ readLimit s = l := by
  have hlimit : (∃ t, Word (cstr "LIMIT") (skipWs s) t) ↔ _ := exists_word_iff (by decide)
  rw [readLimit]
  cases l with
  | none =>
    rw [LimitSays, hlimit]
    split
    · rename_i h
      exact iff_of_false (not_not.mpr h) nofun
    · rename_i h
      exact iff_of_true h rfl
  | some n =>
    rw [LimitSays]
    constructor
    · rintro ⟨t, ht, rfl⟩
      obtain ⟨hk, rfl⟩ := (word_iff (n := 5) (by decide) rfl).mp ht
      rw [if_pos hk, atoi_skipWs]
    · intro h
      split at h
      · rename_i hk
        refine ⟨_, (word_iff (n := 5) (by decide) rfl).mpr ⟨hk, rfl⟩, ?_⟩
        rw [← Option.some.inj h, atoi_skipWs]
      · cases h

theorem directionSays_iff :
    DirectionSays s d t ↔ d = keyword (cstr "DESC") (skipWs s) ∧ t = afterDirection s := by
  have hdesc : (∃ t, Word (cstr "DESC") (skipWs s) t) ↔ _ := exists_word_iff (by decide)
  have hasc : (∃ t, Word (cstr "ASC") (skipWs s) t) ↔ _ := exists_word_iff (by decide)
  rw [afterDirection]
  constructor
  · intro h
    cases h with
    | desc h =>
      obtain ⟨hk, rfl⟩ := (word_iff (n := 4) (by decide) rfl).mp h
      exact ⟨hk.symm, (if_pos hk).symm⟩
    | asc h =>
      obtain ⟨hk, rfl⟩ := (word_iff (n := 3) (by decide) rfl).mp h
      have hno : ¬ keyword (cstr "DESC") (skipWs s) = true :=
        keyword_exclusive (by decide) (by decide) (by decide) hk
      exact ⟨(Bool.eq_false_iff.mpr hno).symm, by rw [if_neg hno, if_pos hk]⟩
    | neither hnd hna =>
      rw [hdesc] at hnd
      rw [hasc] at hna
      exact ⟨(Bool.eq_false_iff.mpr hnd).symm, by rw [if_neg hnd, if_neg hna]⟩
  · rintro ⟨rfl, rfl⟩
    split
    · rename_i hk
      rw [hk]
      exact .desc ((word_iff (by decide) rfl).mpr ⟨hk, rfl⟩)
    · rename_i hnd
      rw [Bool.eq_false_iff.mpr hnd]
      split
      · rename_i hk
        exact .asc ((word_iff (by decide) rfl).mpr ⟨hk, rfl⟩)
      · rename_i hna
        exact .neither (hdesc.not.mpr hnd) (hasc.not.mpr hna)

/-! A text that goes on with a character that no word and no number has. -/

theorem digitsValue_append_cons (hc : isdigit c = false) (acc : Nat) :
    digitsValue acc (x ++ c :: y) = digitsValue acc x := by
  induction x generalizing acc with
  | nil =>
    rw [List.nil_append]
    exact if_neg (by rw [hc]; nofun)
  | cons a x ih =>
    rw [List.cons_append, digitsValue, digitsValue]
    split
    · exact ih _
    · rfl

/-- A number ends in front of it. -/
theorem atoi_append_cons (hc : isdigit c = false)
    (hy : ∀ a ∈ (skipWs (c :: y)).head?, isdigit a = false ∧ a ≠ ch '-' ∧ a ≠ ch '+') :
    atoi (x ++ c :: y) = atoi x := by
  have hskip : skipWs (x ++ c :: y) =
      if (skipWs x).isEmpty then skipWs (c :: y) else skipWs x ++ c :: y := List.dropWhile_append
  rw [atoi, atoi, atoll, atoll]
  congr 1
  cases hx : skipWs x with
  | nil =>
    rw [hx] at hskip
    rw [hskip]
    cases hrest : skipWs (c :: y) with
    | nil => rfl
    | cons a z =>
      obtain ⟨hdigit, hminus, hplus⟩ := hy a (by rw [hrest]; rfl)
      have hzero : digitsValue 0 (a :: z) = 0 := if_neg (by rw [hdigit]; nofun)
      show max int64Min (min int64Max (if a = ch '-' then _ else if a = ch '+' then _ else
        (digitsValue 0 (a :: z) : Int))) = _
      rw [if_neg hminus, if_neg hplus, hzero]
      rfl
  | cons a x' =>
    rw [hx] at hskip
    rw [hskip]
    show max int64Min (min int64Max (if a = ch '-' then -(digitsValue 0 (x' ++ c :: y) : Int)
      else if a = ch '+' then (digitsValue 0 (x' ++ c :: y) : Int)
      else (digitsValue 0 (a :: x' ++ c :: y) : Int))) = _
    rw [digitsValue_append_cons hc, digitsValue_append_cons hc]
    rfl

theorem drop_append_of_keyword {kw : CString} (hkw : 0 ∉ kw) (h : keyword kw x = true) :
    (x ++ y).drop kw.length = x.drop kw.length ++ y := by
  rw [keyword_iff hkw] at h
  have hlen := congrArg List.length h
  rw [List.length_map, List.length_map, List.length_take] at hlen
  rw [List.drop_append_of_le_length (by omega)]

/-- No word of the clauses has such a character. -/
theorem keyword_append_other {kw : CString} (hkw : kw.all letter = true) (hc : letter c = false) :
    keyword kw (x ++ c :: y) = keyword kw x := by
  have hletter := List.all_eq_true.mp hkw
  apply keyword_append_cons
  · exact fun h0 => absurd (hletter 0 h0) (by decide)
  · intro k hk heq
    have hq := hletter k hk
    rw [letter, heq] at hq
    rw [letter, hq] at hc
    cases hc

theorem skipWs_append_quote : skipWs (x ++ quote :: y) = skipWs x ++ quote :: y :=
  skipWs_append_cons (by decide)

theorem readLimit_append_quote : readLimit (x ++ quote :: y) = readLimit x := by
  rw [readLimit, readLimit, skipWs_append_quote, keyword_append_other (by decide) (by decide)]
  split
  · rename_i hk
    have hdrop : (skipWs x ++ quote :: y).drop 5 = (skipWs x).drop 5 ++ quote :: y :=
      drop_append_of_keyword (by decide) hk
    have hquote : ∀ a ∈ (skipWs (quote :: y)).head?,
        isdigit a = false ∧ a ≠ ch '-' ∧ a ≠ ch '+' := by
      intro a ha
      obtain rfl : quote = a := Option.some.inj ha
      decide
    rw [hdrop, atoi_skipWs, atoi_skipWs, atoi_append_cons (by decide) hquote]
  · rfl

theorem afterDirection_append_quote :
    afterDirection (x ++ quote :: y) = afterDirection x ++ quote :: y := by
  rw [afterDirection, afterDirection, skipWs_append_quote,
    keyword_append_other (by decide) (by decide), keyword_append_other (by decide) (by decide)]
  split
  · rename_i hk
    exact drop_append_of_keyword (by decide) hk
  · split
    · rename_i hk
      exact drop_append_of_keyword (by decide) hk
    · rfl

/-- What is in front of a quote is in front of the whole rest. -/
theorem append_quote_cases {z : CString} (hx : quote ∉ x) (h : x ++ y = s ++ quote :: z) :
    ∃ t, s = x ++ t ∧ y = t ++ quote :: z := by
  rcases List.append_eq_append_iff.mp h with ⟨t, hs, hy⟩ | ⟨t, ht, hq⟩
  · exact ⟨t, hs, hy⟩
  · cases t with
    | nil => exact ⟨[], by simpa using ht.symm, by simpa using hq.symm⟩
    | cons a t =>
      obtain ⟨rfl, -⟩ := List.cons.inj hq
      rw [ht] at hx
      exact absurd (by simp) hx

/-- **A word in quotes says what it says by itself**, if the column that is read has no quote. -/
theorem readClauses_append_quote {r : Option (CString × Bool) × Option Nat}
    (hx : clauseWord x = true) (hr : ∀ o ∈ r.1, quote ∉ o.1) :
    readClauses (x ++ quote :: y) = some r ↔ ClausesSay x r := by
  rw [readClauses, skipWs_append_quote, skipWs_of_clauseWord hx,
    keyword_append_other (by decide) (by decide)]
  dsimp only
  by_cases ho : keyword (cstr "ORDER") x = true
  · have hdrop : (x ++ quote :: y).drop 5 = x.drop 5 ++ quote :: y :=
      drop_append_of_keyword (by decide) ho
    have hlimit : ¬ keyword (cstr "LIMIT") x = true :=
      keyword_exclusive (by decide) (by decide) (by decide) ho
    rw [if_pos ho, hdrop, skipWs_append_quote, keyword_append_other (by decide) (by decide)]
    by_cases hb : keyword (cstr "BY") (skipWs (x.drop 5)) = true
    · have hdrop : (skipWs (x.drop 5) ++ quote :: y).drop 2 =
          (skipWs (x.drop 5)).drop 2 ++ quote :: y := drop_append_of_keyword (by decide) hb
      rw [if_pos hb, hdrop, skipWs_append_quote]
      set s := (skipWs (x.drop 5)).drop 2 with hs
      constructor
      · intro h
        generalize hspan : spanUpTo valueChar 31 (skipWs s ++ quote :: y) = span at h
        obtain ⟨col, z⟩ := span
        obtain rfl := Option.some.inj h
        obtain ⟨heq, hchars, hlen, hends⟩ := spanUpTo_eq_iff.mp hspan
        -- the column ends inside the quotes
        obtain ⟨t, ht, rfl⟩ := append_quote_cases (hr _ rfl) heq.symm
        refine @ClausesSay.order _ _ _ _ (afterDirection t) _ _ _
          ((word_iff (by decide) rfl).mpr ⟨ho, rfl⟩)
          ((word_iff (by decide) rfl).mpr ⟨hb, rfl⟩) ht hchars hlen ?_ ?_ ?_
        · rcases hends with hstop | hfull
          · right
            cases t with
            | nil => exact absurd (stopsAt_cons.mp hstop) (by decide)
            | cons c t => exact ⟨c, t, rfl, stopsAt_cons.mp hstop⟩
          · exact .inl hfull
        · rw [directionSays_iff]
          dsimp only
          rw [skipWs_append_quote, keyword_append_other (by decide) (by decide)]
          exact ⟨rfl, rfl⟩
        · rw [limitSays_iff]
          dsimp only
          rw [afterDirection_append_quote, readLimit_append_quote]
      · intro h
        cases h with
        | limit hl => exact absurd ((word_iff (n := 5) (by decide) rfl).mp hl).1 hlimit
        | @order _ _ s₃ s₄ col desc _ hw hb' hcol hchars hlen hends hdir hsays =>
          obtain ⟨-, rfl⟩ := (word_iff (n := 5) (by decide) rfl).mp hw
          obtain ⟨-, rfl⟩ := (word_iff (n := 2) (by decide) rfl).mp hb'
          have hspan : spanUpTo valueChar 31 (skipWs s ++ quote :: y) =
              (col, s₃ ++ quote :: y) := by
            rw [spanUpTo_eq_iff]
            refine ⟨by rw [hs, hcol, List.append_assoc], hchars, hlen, ?_⟩
            rcases hends with hfull | ⟨c, t, rfl, hc⟩
            · exact .inr hfull
            · exact .inl (stopsAt_cons.mpr hc)
          obtain ⟨rfl, rfl⟩ := directionSays_iff.mp hdir
          rw [hspan]
          dsimp only
          rw [skipWs_append_quote, keyword_append_other (by decide) (by decide),
            afterDirection_append_quote, readLimit_append_quote, limitSays_iff.mp hsays]
    · rw [if_neg hb]
      refine iff_of_false nofun fun h => ?_
      cases h with
      | limit hl => exact absurd ((word_iff (n := 5) (by decide) rfl).mp hl).1 hlimit
      | order hw hb' =>
        obtain ⟨-, rfl⟩ := (word_iff (n := 5) (by decide) rfl).mp hw
        exact hb ((word_iff (n := 2) (by decide) rfl).mp hb').1
  · have hl : keyword (cstr "LIMIT") x = true := (Bool.or_eq_true _ _ |>.mp hx).resolve_left ho
    rw [if_neg ho, ← skipWs_of_clauseWord hx, ← skipWs_append_quote, readLimit_skipWs,
      readLimit_append_quote, readLimit, skipWs_of_clauseWord hx, if_pos hl, atoi_skipWs]
    constructor
    · intro h
      obtain rfl := Option.some.inj h
      exact .limit ((word_iff (by decide) rfl).mpr ⟨hl, rfl⟩)
    · intro h
      cases h with
      | limit h =>
        obtain ⟨-, rfl⟩ := (word_iff (n := 5) (by decide) rfl).mp h
        rfl
      | order h => exact absurd ((word_iff (n := 5) (by decide) rfl).mp h).1 ho

end

end MiniDb
