import MiniDb.Sql.SelectText

/-! # Conditions on the id

What the text behind WHERE says when it compares the id, and what `parse_where` makes of it: the
literals are read as signed numbers and stored as unsigned ones. -/

set_option autoImplicit false

namespace MiniDb

open Lib

/-- A condition on the id, with its literals. -/
inductive IdCondition where
  | compare (op : CompareOp) (a : Int)
  | between (a b : Int)
  deriving DecidableEq, Repr

/-- The meaning of an operator. -/
def CompareOp.Holds (x y : Int) : CompareOp → Prop
  | .eq => x = y
  | .ne => x ≠ y
  | .lt => x < y
  | .gt => y < x
  | .le => x ≤ y
  | .ge => y ≤ x

/-- The ids that the condition selects. -/
def IdCondition.Selects (v : Int) : IdCondition → Prop
  | .compare op a => op.Holds v a
  | .between a b => a ≤ v ∧ v ≤ b

/-- The condition in the text behind a table, if it is one on the id. -/
def idCondition (t : CString) : Option IdCondition :=
  let p := skipWs t
  if keyword (cstr "WHERE") p then
    let field := spanUpTo fieldChar 31 (skipWs (p.drop 5))
    let p := skipWs field.2
    if isIdField field.1 then
      if keyword (cstr "BETWEEN") p && isspace (deref (p.drop 7)) then
        let lo := spanUpTo (fun c => !isspace c) 63 (skipWs (p.drop 7))
        let q := skipWs lo.2
        if keyword (cstr "AND") q then
          some (.between (atoll lo.1) (atoll (spanUpTo valueChar 63 (skipWs (q.drop 3))).1))
        else none
      else (readOperator p).map fun o =>
        .compare o.1 (atoll (valueSpan (skipWs (p.drop o.2))).1)
    else none
  else none

/-- The condition of a command. -/
def commandCondition (p : CString) : Option IdCondition :=
  (commandTail p).bind fun r => idCondition r.2

/-- The statement carries the condition. -/
def IdCondition.Recorded (stmt : Statement) : IdCondition → Prop
  | .compare .eq a => stmt.predicateKind = .idEq ∧ stmt.predId = toU64 a
  | .compare .ne _ => stmt.predicateKind = .fieldCmp
  | .compare .ge a =>
    stmt.predicateKind = .idRange ∧ (stmt.hasLo = true ∧ stmt.loInclusive = true ∧
      stmt.rangeLo = toU64 a) ∧ stmt.hasHi = false
  | .compare .gt a =>
    stmt.predicateKind = .idRange ∧ (stmt.hasLo = true ∧ stmt.loInclusive = false ∧
      stmt.rangeLo = toU64 a) ∧ stmt.hasHi = false
  | .compare .le a =>
    stmt.predicateKind = .idRange ∧ stmt.hasLo = false ∧
      stmt.hasHi = true ∧ stmt.hiInclusive = true ∧ stmt.rangeHi = toU64 a
  | .compare .lt a =>
    stmt.predicateKind = .idRange ∧ stmt.hasLo = false ∧
      stmt.hasHi = true ∧ stmt.hiInclusive = false ∧ stmt.rangeHi = toU64 a
  | .between a b =>
    stmt.predicateKind = .idRange ∧ (stmt.hasLo = true ∧ stmt.loInclusive = true ∧
      stmt.rangeLo = toU64 a) ∧ stmt.hasHi = true ∧ stmt.hiInclusive = true ∧
      stmt.rangeHi = toU64 b

section

variable {p t : CString} {stmt stmt₀ : Statement} {c : IdCondition} {type : StatementType}

theorem classifyPredicate_recorded (hid : isIdField stmt₀.predField = true)
    (hlo : stmt₀.hasLo = false) (hhi : stmt₀.hasHi = false) :
    (IdCondition.compare stmt₀.predOp (atoll stmt₀.predValue)).Recorded
      (classifyPredicate stmt₀) := by
  unfold classifyPredicate
  simp only [hid]
  cases hop : stmt₀.predOp with
  | eq => exact ⟨rfl, rfl⟩
  | ne => rfl
  | lt => exact ⟨rfl, hlo, rfl, rfl, rfl⟩
  | gt => exact ⟨rfl, ⟨rfl, rfl, rfl⟩, hhi⟩
  | le => exact ⟨rfl, hlo, rfl, rfl, rfl⟩
  | ge => exact ⟨rfl, ⟨rfl, rfl, rfl⟩, hhi⟩

/-- What the BETWEEN branch of `parse_where` writes. -/
def Statement.between (stmt : Statement) (a b : Int) : Statement :=
  { stmt with
    predicateKind := .idRange
    rangeLo := toU64 a
    rangeHi := toU64 b
    hasLo := true
    hasHi := true
    loInclusive := true
    hiInclusive := true
    predField := cstr "id" }

theorem between_recorded (stmt : Statement) (a b : Int) :
    (IdCondition.between a b).Recorded (stmt.between a b) :=
  ⟨rfl, ⟨rfl, rfl, rfl⟩, rfl, rfl, rfl⟩

theorem parseBetween_eq (hid : isIdField stmt₀.predField = true)
    (hand : keyword (cstr "AND")
      (skipWs (spanUpTo (fun c => !isspace c) 63 (skipWs p)).2) = true) :
    parseBetween p stmt₀ =
      .ok (stmt₀.between (atoll (spanUpTo (fun c => !isspace c) 63 (skipWs p)).1)
        (atoll (spanUpTo valueChar 63 (skipWs ((skipWs
          (spanUpTo (fun c => !isspace c) 63 (skipWs p)).2).drop 3))).1)) := by
  rw [parseBetween]
  simp only [hid, hand, Bool.not_true, Bool.false_eq_true, if_false, readInto_bound,
    ParseM.ok_bind, ParseM.pure_eq]
  rfl

/-- `parse_where` records the condition that the text has. -/
theorem parseWhere_recorded (hok : parseWhere (skipWs t) stmt₀ = .ok stmt)
    (hlo : stmt₀.hasLo = false) (hhi : stmt₀.hasHi = false) (hc : idCondition t = some c) :
    c.Recorded stmt := by
  unfold idCondition at hc
  dsimp only at hc
  split at hc
  · rename_i hw
    rw [parseWhere_of_where hw] at hok
    dsimp only at hok
    split at hc
    · rename_i hid
      have hid' : isIdField { stmt₀ with
          predField := (spanUpTo fieldChar 31 (skipWs ((skipWs t).drop 5))).1 }.predField = true :=
        hid
      split at hc
      · rename_i hbetween
        split at hc
        · rename_i hand
          rw [if_pos hbetween, parseBetween_eq hid' hand] at hok
          rw [← Option.some.inj hc, ← Except.ok.inj hok]
          exact between_recorded _ _ _
        · cases hc
      · rename_i hbetween
        rw [if_neg hbetween, parseComparison] at hok
        obtain ⟨o, ho, rfl⟩ := Option.map_eq_some_iff.mp hc
        rw [ho] at hok
        simp only [readValue_eq, ParseM.ok_bind, ParseM.pure_eq, Except.ok.injEq] at hok
        subst hok
        exact classifyPredicate_recorded hid' hlo hhi
    · cases hc
  · cases hc

/-- The clauses behind it leave the condition alone. -/
theorem IdCondition.Recorded.withClauses (h : c.Recorded stmt)
    (r : Option (CString × Bool) × Option Nat) : c.Recorded (stmt.withClauses r) := by
  have hsame : ∀ {stmt' : Statement}, stmt'.predicateKind = stmt.predicateKind →
      stmt'.predId = stmt.predId → stmt'.hasLo = stmt.hasLo →
      stmt'.loInclusive = stmt.loInclusive → stmt'.rangeLo = stmt.rangeLo →
      stmt'.hasHi = stmt.hasHi → stmt'.hiInclusive = stmt.hiInclusive →
      stmt'.rangeHi = stmt.rangeHi → c.Recorded stmt' := by
    intro stmt' h₁ h₂ h₃ h₄ h₅ h₆ h₇ h₈
    unfold IdCondition.Recorded at h ⊢
    rw [h₁, h₂, h₃, h₄, h₅, h₆, h₇, h₈]
    exact h
  obtain ⟨o, l⟩ := r
  cases o <;> cases l <;> exact hsame rfl rfl rfl rfl rfl rfl rfl rfl

/-- An accepted command carries the condition of its text. -/
theorem parseCommand_recorded (hok : parseCommand p = .ok stmt)
    (hc : commandCondition p = some c) : c.Recorded stmt := by
  obtain ⟨⟨type, t⟩, htail, hcond⟩ := Option.bind_eq_some_iff.mp hc
  by_cases hselect : type = .select
  · subst hselect
    obtain ⟨stmt₀, ⟨-, hlo, hhi⟩, hrun⟩ := parseCommand_select htail
    rw [hrun] at hok
    cases hwhere : parseWhere (skipWs t) stmt₀ with
    | error e =>
      rw [hwhere] at hok
      cases hok
    | ok stmt₁ =>
      rw [hwhere, ParseM.ok_bind, parseOrderLimit_eq] at hok
      cases hr : readClauses (findAfterWhere (skipWs t)) with
      | none =>
        rw [hr] at hok
        cases hok
      | some r =>
        rw [hr] at hok
        cases hok
        exact (parseWhere_recorded hwhere hlo hhi hcond).withClauses r
  · obtain ⟨stmt₀, ⟨-, hlo, hhi⟩, hrun⟩ := parseCommand_condition htail hselect
    rw [hrun] at hok
    exact parseWhere_recorded hok hlo hhi hcond

theorem parse_recorded {text : CString} (hok : parse text = .ok stmt) (hwhere : stmt.type.HasWhere)
    (hc : commandCondition (commandText text) = some c) : c.Recorded stmt := by
  have hexplain := parse_hasWhere_command hok hwhere
  rw [parse_command (by simp [hexplain])] at hok
  exact parseCommand_recorded hok hc

/-- What `parse_where` sees to, and the clauses leave alone, holds of every accepted command. -/
theorem parse_where_induction {text : CString} {P : Statement → Prop} (hok : parse text = .ok stmt)
    (hwhere : stmt.type.HasWhere)
    (hcond : ∀ p stmt₀ stmt, stmt₀.hasLo = false → stmt₀.hasHi = false →
      parseWhere p stmt₀ = .ok stmt → P stmt)
    (hclauses : ∀ stmt r, P stmt → P (stmt.withClauses r)) : P stmt := by
  have hexplain := parse_hasWhere_command hok hwhere
  rw [parse_command (by simp [hexplain])] at hok
  obtain ⟨t, htail⟩ := commandTail_of_accepted hok hwhere
  by_cases hselect : stmt.type = .select
  · rw [hselect] at htail
    obtain ⟨stmt₀, ⟨-, hlo, hhi⟩, hrun⟩ := parseCommand_select htail
    rw [hrun] at hok
    cases hp : parseWhere (skipWs t) stmt₀ with
    | error e =>
      rw [hp] at hok
      cases hok
    | ok stmt₁ =>
      rw [hp, ParseM.ok_bind, parseOrderLimit_eq] at hok
      cases hr : readClauses (findAfterWhere (skipWs t)) with
      | none =>
        rw [hr] at hok
        cases hok
      | some r =>
        rw [hr] at hok
        cases hok
        exact hclauses stmt₁ r (hcond _ stmt₀ stmt₁ hlo hhi hp)
  · obtain ⟨stmt₀, ⟨-, hlo, hhi⟩, hrun⟩ := parseCommand_condition htail hselect
    rw [hrun] at hok
    exact hcond _ stmt₀ stmt hlo hhi hok

end

end MiniDb
