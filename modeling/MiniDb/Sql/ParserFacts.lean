import MiniDb.Sql.Parser

/-! # Stepping through the parser

What the pieces of the parser return, with the scanner buffers out of the way: every scanner loop
ends before the last byte of its buffer, so it just reads. -/

set_option autoImplicit false

namespace MiniDb

open Lib

/-! ## Results -/

section

variable {α β : Type}

@[simp] theorem ParseM.ok_bind (a : α) (f : α → ParseM β) : ((.ok a : ParseM α) >>= f) = f a := rfl

@[simp] theorem ParseM.error_bind (e : ParseFault) (f : α → ParseM β) :
    ((.error e : ParseM α) >>= f) = .error e := rfl

@[simp] theorem ParseM.pure_eq (a : α) : (pure a : ParseM α) = .ok a := rfl

@[simp] theorem ParseM.throw_eq (e : ParseFault) : (throw e : ParseM α) = .error e := rfl

end

/-! ## Scanners -/

section

variable {cap max : Nat} {ok : UInt8 → Bool} {p : CString}

/-- A scanner whose loop ends before the last byte of its buffer stays inside it. -/
theorem readInto_eq (h : max < cap) : readInto cap max ok p = .ok (spanUpTo ok max p) := by
  have hlen := length_spanUpTo_le ok max p
  rw [readInto, if_pos (by omega)]
  rfl

@[simp] theorem readInto_name : readInto 32 31 ok p = .ok (spanUpTo ok 31 p) :=
  readInto_eq (by decide)

@[simp] theorem readInto_value : readInto 256 255 ok p = .ok (spanUpTo ok 255 p) :=
  readInto_eq (by decide)

@[simp] theorem readInto_bound : readInto 64 63 ok p = .ok (spanUpTo ok 63 p) :=
  readInto_eq (by decide)

/-- What `readValue` reads, and where it stops. -/
def valueSpan (p : CString) : CString × CString :=
  if deref p = quote then
    let r := spanUpTo (· != quote) 255 p.tail
    (r.1, if deref r.2 = quote then r.2.tail else r.2)
  else spanUpTo valueChar 255 p

@[simp] theorem readValue_eq : readValue p = .ok (valueSpan p) := by
  unfold readValue valueSpan
  split
  · simp
  · simp

/-- What `parseFrom` reads behind FROM. -/
def fromSpan (p : CString) : CString × CString := spanUpTo valueChar 31 (skipWs (p.drop 4))

theorem parseFrom_of_keyword (h : keyword (cstr "FROM") p = true) :
    parseFrom p = .ok (fromSpan p) := by
  simp [parseFrom, h, fromSpan]

theorem parseFrom_of_not_keyword (h : ¬ keyword (cstr "FROM") p = true) :
    parseFrom p = .error .reject := by
  simp [parseFrom, h]

end

/-! ## Entry -/

section

variable {input : CString}

theorem parse_explain (h : keyword (cstr "EXPLAIN") (commandText input) = true) :
    parse input = (parse (skipWs ((commandText input).drop 7))).map explainStatement := by
  rw [parse, dif_pos h]
  cases parse (skipWs ((commandText input).drop 7)) with
  | error e => rfl
  | ok inner => rfl

theorem parse_command (h : ¬ keyword (cstr "EXPLAIN") (commandText input) = true) :
    parse input = parseCommand (commandText input) := by
  rw [parse, dif_neg h]

/-- Two different words cannot both be in front of a text when neither begins the other. -/
theorem keyword_exclusive {kw kw' p : CString} (hkw : 0 ∉ kw) (hkw' : 0 ∉ kw')
    (hne : (kw.map tolower).take kw'.length ≠ (kw'.map tolower).take kw.length)
    (h : keyword kw p = true) : ¬ keyword kw' p = true := by
  intro h'
  rw [keyword_iff hkw] at h
  rw [keyword_iff hkw'] at h'
  apply hne
  rw [← h, ← h', ← List.map_take, ← List.map_take, List.take_take, List.take_take, Nat.min_comm]

end

/-! ## The type of a statement

No part of the parser changes the type that the dispatch has set. -/

/-- The call stays inside its buffers, and a statement that it returns has this type. -/
structure Yields (type : StatementType) (r : ParseM Statement) : Prop where
  inBounds : r ≠ .error .outOfBounds
  type : ∀ stmt, r = .ok stmt → stmt.type = type

section

variable {type : StatementType} {stmt : Statement} {p : CString}

theorem yields_ok (h : stmt.type = type) : Yields type (.ok stmt) where
  inBounds := by simp
  type := by
    rintro s hs
    cases hs
    exact h

theorem yields_reject : Yields type (.error .reject) where
  inBounds := by simp
  type := by simp

theorem Yields.andThen {r : ParseM Statement} {f : Statement → ParseM Statement}
    (h : Yields type r) (hf : ∀ s, s.type = type → Yields type (f s)) : Yields type (r >>= f) := by
  cases r with
  | error e => exact ⟨h.inBounds, by simp⟩
  | ok s => exact hf s (h.type s rfl)

theorem classifyPredicate_type (stmt : Statement) :
    (classifyPredicate stmt).type = stmt.type := by
  unfold classifyPredicate
  dsimp only
  split <;> rfl

theorem parseBetween_yields (h : stmt.type = type) : Yields type (parseBetween p stmt) := by
  unfold parseBetween
  simp only [readInto_bound, ParseM.ok_bind, ParseM.pure_eq, ParseM.throw_eq]
  split
  · exact yields_reject
  · split
    · exact yields_reject
    · exact yields_ok h

theorem parseComparison_yields (h : stmt.type = type) : Yields type (parseComparison p stmt) := by
  unfold parseComparison
  split
  · exact yields_reject
  · simp only [readValue_eq, ParseM.ok_bind, ParseM.pure_eq]
    exact yields_ok ((classifyPredicate_type _).trans h)

theorem parseWhere_yields (h : stmt.type = type) : Yields type (parseWhere p stmt) := by
  unfold parseWhere
  simp only [readInto_name, ParseM.ok_bind, ParseM.pure_eq]
  split
  · exact yields_ok h
  · split
    · exact yields_ok h
    · split
      · exact parseBetween_yields h
      · exact parseComparison_yields h

theorem parseLimit_type (p : CString) (stmt : Statement) : (parseLimit p stmt).type = stmt.type := by
  unfold parseLimit
  dsimp only
  split <;> rfl

theorem parseOrderLimit_yields (h : stmt.type = type) : Yields type (parseOrderLimit p stmt) := by
  unfold parseOrderLimit parseOrderBy
  simp only [readInto_name, ParseM.ok_bind, ParseM.pure_eq, ParseM.throw_eq]
  split
  · split
    · exact yields_reject
    · split
      · exact yields_ok ((parseLimit_type _ _).trans h)
      · split
        · exact yields_ok ((parseLimit_type _ _).trans h)
        · exact yields_ok ((parseLimit_type _ _).trans h)
  · exact yields_ok ((parseLimit_type _ _).trans h)

theorem parseSelectFrom_yields (h : stmt.type = type) : Yields type (parseSelectFrom p stmt) := by
  unfold parseSelectFrom
  by_cases hfrom : keyword (cstr "FROM") p = true
  · simp only [parseFrom_of_keyword hfrom, ParseM.ok_bind]
    refine Yields.andThen (parseWhere_yields ?_) (fun s hs => parseOrderLimit_yields hs)
    exact h
  · simp only [parseFrom_of_not_keyword hfrom]
    exact yields_reject

theorem parseSelect_yields (h : stmt.type = type) : Yields type (parseSelect p stmt) := by
  unfold parseSelect
  dsimp only
  split
  · exact parseSelectFrom_yields h
  · split
    · exact parseSelectFrom_yields h
    · exact parseSelectFrom_yields h

theorem parseDelete_yields (h : stmt.type = type) : Yields type (parseDelete p stmt) := by
  unfold parseDelete
  by_cases hfrom : keyword (cstr "FROM") (skipWs p) = true
  · simp only [parseFrom_of_keyword hfrom, ParseM.ok_bind]
    exact parseWhere_yields h
  · simp only [parseFrom_of_not_keyword hfrom]
    exact yields_reject

theorem parseUpdate_yields (h : stmt.type = type) : Yields type (parseUpdate p stmt) := by
  unfold parseUpdate
  simp only [readInto_name, readValue_eq, ParseM.ok_bind, ParseM.throw_eq]
  split
  · exact yields_reject
  · split
    · exact yields_reject
    · exact parseWhere_yields h

theorem parseDropTable_yields (h : stmt.type = type) : Yields type (parseDropTable p stmt) := by
  unfold parseDropTable
  simp only [readInto_name, ParseM.ok_bind, ParseM.pure_eq]
  exact yields_ok h

end

end MiniDb
