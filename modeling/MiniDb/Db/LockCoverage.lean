import MiniDb.Db.Basic
import MiniDb.Sql.IdCondition

/-! # Which ids a statement locks

`parse_where` files the comparisons of the id under two kinds, `PREDICATE_ID_EQ` and
`PREDICATE_ID_RANGE`, while `determine_lock` looks for ranges among the predicates of kind
`PREDICATE_FIELD_CMP`. So a point is locked, and a range is not. -/

set_option autoImplicit false

namespace MiniDb

/-- The ids in a request. -/
def LockRequest.ids : LockRequest → Set Nat
  | .point id => {id}
  | .range low high => {v | low ≤ v ∧ v ≤ high}

/-- What the statement locks has `v` in it, in the mode of its type. -/
def Statement.Locks (stmt : Statement) (v : Nat) : Prop :=
  ∃ need, determineLock stmt = some need ∧ v ∈ need.request.ids ∧
    need.mode = if stmt.type = .select then .s else .x

/-- What the statement locks covers the condition. -/
def IdCondition.Covered (c : IdCondition) (stmt : Statement) : Prop :=
  ∀ v, 1 ≤ v → v < 2 ^ 64 → c.Selects (toI64 v) → stmt.Locks v

section

variable {text : CString} {stmt : Statement} {c : IdCondition} {v : Nat}

theorem lockModeOf_hasWhere (h : stmt.type.HasWhere) :
    lockModeOf stmt.type = some (if stmt.type = .select then .s else .x) := by
  rcases h with h | h | h <;> rw [h] <;> rfl

/-- A range is not locked. -/
theorem determineLock_range (h : stmt.predicateKind = .idRange) : determineLock stmt = none := by
  unfold determineLock
  cases lockModeOf stmt.type with
  | none => rfl
  | some mode => simp [h]

/-- A point is. -/
theorem determineLock_point (hwhere : stmt.type.HasWhere) (h : stmt.predicateKind = .idEq) :
    determineLock stmt =
      some ⟨.point stmt.predId, if stmt.type = .select then .s else .x⟩ := by
  unfold determineLock
  rw [lockModeOf_hasWhere hwhere]
  simp [h]

/-- **Coverage.** What an accepted SELECT, UPDATE or DELETE locks covers its comparison of the id
exactly when that is an equality, or selects no id at all. -/
theorem idCondition_covered_iff (hparse : parse text = .ok stmt) (hwhere : stmt.type.HasWhere)
    (hc : commandCondition (commandText text) = some c) (hne : ∀ a, c ≠ .compare .ne a) :
    c.Covered stmt ↔
      (∃ a, c = .compare .eq a) ∨ ∀ v, 1 ≤ v → v < 2 ^ 64 → ¬ c.Selects (toI64 v) := by
  have hrec := parse_recorded hparse hwhere hc
  have hrange : stmt.predicateKind = .idRange → (∀ a, c ≠ .compare .eq a) → (c.Covered stmt ↔
      (∃ a, c = .compare .eq a) ∨ ∀ v, 1 ≤ v → v < 2 ^ 64 → ¬ c.Selects (toI64 v)) := by
    intro hkind heq
    have hnone : ∀ v, ¬ stmt.Locks v := by
      rintro v ⟨need, hneed, -⟩
      rw [determineLock_range hkind] at hneed
      cases hneed
    constructor
    · exact fun h => .inr fun v h1 h64 hv => hnone v (h v h1 h64 hv)
    · rintro (⟨a, rfl⟩ | h)
      · exact absurd rfl (heq a)
      · exact fun v h1 h64 hv => absurd hv (h v h1 h64)
  cases c with
  | between a b => exact hrange hrec.1 nofun
  | compare op a =>
    cases op with
    | eq =>
      obtain ⟨hkind, hid⟩ := hrec
      refine iff_of_true (fun v _ h64 hv => ?_) (.inl ⟨a, rfl⟩)
      refine ⟨_, determineLock_point hwhere hkind, ?_, rfl⟩
      show v = stmt.predId
      rw [hid, ← toU64_toI64 h64]
      exact congrArg toU64 hv
    | ne => exact absurd rfl (hne a)
    | lt => exact hrange hrec.1 nofun
    | gt => exact hrange hrec.1 nofun
    | le => exact hrange hrec.1 nofun
    | ge => exact hrange hrec.1 nofun

end

/-- The statement of a point SELECT. -/
theorem idCondition_covered_iff_point :
    (IdCondition.compare .eq 5).Covered
        { type := .select, tableName := cstr "t", selectAll := true, predField := cstr "id"
          predOp := .eq, predValue := cstr "5", predicateKind := .idEq, predId := 5 } ↔
      (∃ a, IdCondition.compare .eq 5 = .compare .eq a) ∨
        ∀ v, 1 ≤ v → v < 2 ^ 64 → ¬ (IdCondition.compare .eq 5).Selects (toI64 v) := by
  have hparse : parse (cstr "SELECT * FROM t WHERE id = 5") =
      .ok { type := .select, tableName := cstr "t", selectAll := true, predField := cstr "id"
            predOp := .eq, predValue := cstr "5", predicateKind := .idEq, predId := 5 } := by
    decide +kernel
  have hc : commandCondition (commandText (cstr "SELECT * FROM t WHERE id = 5")) =
      some (.compare .eq 5) := by
    decide +kernel
  exact idCondition_covered_iff hparse (.inl rfl) hc nofun

/-- A SELECT from id 5 on selects row 7, and locks nothing. -/
theorem range_not_covered :
    ∃ stmt c, parse (cstr "SELECT * FROM t WHERE id >= 5") = .ok stmt ∧ stmt.type.HasWhere ∧
      commandCondition (commandText (cstr "SELECT * FROM t WHERE id >= 5")) = some c ∧
      (∀ a, c ≠ .compare .ne a) ∧ ¬ c.Covered stmt := by
  refine ⟨{ type := .select, tableName := cstr "t", selectAll := true, predField := cstr "id"
            predOp := .ge, predValue := cstr "5", predicateKind := .idRange, rangeLo := 5
            hasLo := true, loInclusive := true }, .compare .ge 5, by decide +kernel, .inl rfl,
    by decide +kernel, nofun, ?_⟩
  intro h
  obtain ⟨need, hneed, -⟩ := h 7 (by decide) (by decide) (show (5 : Int) ≤ toI64 7 by decide)
  cases hneed

/-! ## No statement locks a range

`parse_where` keeps `PREDICATE_FIELD_CMP` on the id for the one operator that `determine_lock` asks
no lock for. -/

/-- A comparison that is filed as one of a column `id` is an inequality. -/
def Statement.RangeFree (stmt : Statement) : Prop :=
  stmt.predicateKind = .fieldCmp → stmt.predField = cstr "id" → stmt.predOp = .ne

section

variable {text p : CString} {stmt stmt₀ : Statement}

theorem classifyPredicate_rangeFree (stmt : Statement) : (classifyPredicate stmt).RangeFree := by
  unfold classifyPredicate
  dsimp only
  cases hid : isIdField stmt.predField with
  | true =>
    cases hop : stmt.predOp with
    | ne => exact fun _ _ => rfl
    | _ => exact nofun
  | false =>
    have hne : stmt.predField ≠ cstr "id" := by
      intro heq
      rw [heq] at hid
      exact absurd hid (by decide)
    cases hop : stmt.predOp with
    | eq => exact nofun
    | _ => exact fun _ hfield => absurd hfield hne

theorem parseBetween_rangeFree (hok : parseBetween p stmt₀ = .ok stmt) : stmt.RangeFree := by
  rw [parseBetween] at hok
  simp only [readInto_bound, ParseM.ok_bind, ParseM.pure_eq, ParseM.throw_eq] at hok
  split at hok
  · cases hok
  · split at hok
    · cases hok
    · cases hok
      intro hkind
      cases hkind

theorem parseWhere_rangeFree (hok : parseWhere p stmt₀ = .ok stmt) : stmt.RangeFree := by
  unfold parseWhere at hok
  simp only [readInto_name, ParseM.ok_bind, ParseM.pure_eq] at hok
  split at hok
  · cases hok
    intro hkind
    cases hkind
  · split at hok
    · cases hok
      intro hkind
      cases hkind
    · split at hok
      · exact parseBetween_rangeFree hok
      · unfold parseComparison at hok
        split at hok
        · cases hok
        · simp only [readValue_eq, ParseM.ok_bind, ParseM.pure_eq] at hok
          rw [← Except.ok.inj hok]
          exact classifyPredicate_rangeFree _

theorem parse_rangeFree (hok : parse text = .ok stmt) (hwhere : stmt.type.HasWhere) :
    stmt.RangeFree := by
  refine parse_where_induction hok hwhere (fun _ _ _ _ _ hcond => parseWhere_rangeFree hcond) ?_
  rintro stmt ⟨o, l⟩ hfree
  cases o <;> cases l <;> exact hfree

/-- What `determine_lock` asks for is a row, by a statement with an equality of the id. -/
theorem determineLock_eq_some {need : LockNeed} (hok : parse text = .ok stmt)
    (hneed : determineLock stmt = some need) :
    stmt.type.HasWhere ∧ stmt.predicateKind = .idEq ∧
      need = ⟨.point stmt.predId, if stmt.type = .select then .s else .x⟩ := by
  have hwhere : stmt.type.HasWhere := by
    unfold determineLock at hneed
    cases htype : stmt.type with
    | select => exact .inl rfl
    | delete => exact .inr (.inl rfl)
    | update => exact .inr (.inr rfl)
    | _ =>
      rw [htype] at hneed
      cases hneed
  have hfree := parse_rangeFree hok hwhere
  by_cases hkind : stmt.predicateKind = .idEq
  · rw [determineLock_point hwhere hkind] at hneed
    exact ⟨hwhere, hkind, (Option.some.inj hneed).symm⟩
  · exfalso
    unfold determineLock at hneed
    rw [lockModeOf_hasWhere hwhere] at hneed
    by_cases hcmp : stmt.predicateKind = .fieldCmp ∧ stmt.predField = cstr "id"
    · have hne := hfree hcmp.1 hcmp.2
      simp [hcmp, hne, lockBounds] at hneed
    · simp [hkind, hcmp] at hneed

end

end MiniDb
