import MiniDb.Sql.ParserFacts
import MiniDb.Sql.Planner

/-! # EXPLAIN

What `EXPLAIN` says of a statement and the access path that the statement takes. `parse` copies the
type and the predicate of the inner statement, and its LIMIT flag; the planner builds the inner
statement again from the first two alone. -/

set_option autoImplicit false

namespace MiniDb

open Lib

/-! ## The text behind EXPLAIN -/

section Text

variable {s t w : CString}

/-- A text is trimmed at its end, whatever stands in front. -/
theorem trim_append (h : trim t ≠ []) : trim (w ++ t) = w ++ trim t := by
  have hrev : ((t.reverse).dropWhile fun c => isspace c || c == ch ';') ≠ [] := by
    intro hnil
    apply h
    rw [trim, List.rdropWhile, hnil]
    rfl
  have hempty : ((t.reverse).dropWhile fun c => isspace c || c == ch ';').isEmpty = false := by
    rwa [List.isEmpty_eq_false_iff]
  rw [trim, List.rdropWhile, List.reverse_append, List.dropWhile_append, hempty, if_neg (by simp),
    List.reverse_append, List.reverse_reverse]
  rfl

/-- What has been trimmed ends in a character that stays. -/
theorem trim_trim (t : CString) : trim (trim t) = trim t :=
  List.rdropWhile_idempotent _ t

theorem trim_skipWs (h : trim t = t) : trim (skipWs t) = skipWs t := by
  by_cases hnil : trim (skipWs t) = []
  · -- a text of blanks and semicolons only would have been trimmed away
    have hall : ∀ c ∈ t, (isspace c || c == ch ';') = true := by
      intro c hc
      rw [← List.takeWhile_append_dropWhile (p := isspace) (l := t)] at hc
      rcases List.mem_append.mp hc with hfront | hback
      · rw [List.mem_takeWhile_imp hfront]
        rfl
      · exact List.rdropWhile_eq_nil_iff.mp hnil c hback
    have ht : t = [] := by
      rw [← h]
      exact List.rdropWhile_eq_nil_iff.mpr hall
    rw [ht]
    rfl
  · have happ := trim_append (w := t.takeWhile isspace) hnil
    rw [show t.takeWhile isspace ++ skipWs t = t from List.takeWhile_append_dropWhile, h] at happ
    have hsplit : t.takeWhile isspace ++ skipWs t = t.takeWhile isspace ++ trim (skipWs t) := by
      rw [← happ]
      exact List.takeWhile_append_dropWhile
    exact (List.append_cancel_left hsplit).symm

theorem mem_commandText {c : UInt8} (h : c ∈ commandText s) : c ≠ 0 := by
  have htrim : c ∈ trim ((s.takeWhile (· != 0)).take 4095) := (List.dropWhile_sublist _).mem h
  have htake : c ∈ (s.takeWhile (· != 0)).take 4095 := by
    rw [trim, List.rdropWhile, List.mem_reverse] at htrim
    exact List.mem_reverse.mp ((List.dropWhile_sublist _).mem htrim)
  simpa using List.mem_takeWhile_imp ((List.take_sublist _ _).mem htake)

theorem length_commandText_le_bound (s : CString) : (commandText s).length ≤ 4095 := by
  calc (commandText s).length
      ≤ (trim ((s.takeWhile (· != 0)).take 4095)).length := length_skipWs_le _
    _ ≤ ((s.takeWhile (· != 0)).take 4095).length := length_trim_le _
    _ ≤ 4095 := by
      rw [List.length_take]
      exact Nat.min_le_left _ _

/-- The text in front of the first keyword stays as it is when it is parsed again. -/
theorem commandText_commandText (s : CString) : commandText (commandText s) = commandText s := by
  have hnul : (commandText s).takeWhile (· != 0) = commandText s := by
    rw [List.takeWhile_eq_self_iff]
    intro c hc
    simpa using mem_commandText hc
  have htrim : trim (commandText s) = commandText s := trim_skipWs (trim_trim _)
  show skipWs (trim (((commandText s).takeWhile (· != 0)).take 4095)) = commandText s
  rw [hnul, List.take_of_length_le (length_commandText_le_bound s), htrim]
  exact skipWs_skipWs _

/-- `parse` looks at this text only. -/
theorem parse_commandText (s : CString) : parse (commandText s) = parse s := by
  by_cases h : keyword (cstr "EXPLAIN") (commandText s) = true
  · rw [parse_explain h, parse_explain (by rwa [commandText_commandText]), commandText_commandText]
  · rw [parse_command h, parse_command (by rwa [commandText_commandText]), commandText_commandText]

theorem commandText_ne_nil {stmt : Statement} (h : parse s = .ok stmt) : commandText s ≠ [] := by
  intro hnil
  rw [← parse_commandText, hnil, parse_command (by decide)] at h
  cases h

/-- **A statement behind EXPLAIN** is parsed as it is without. -/
theorem parse_explain_append {stmt : Statement} (h : parse s = .ok stmt)
    (hfit : (cstr "EXPLAIN " ++ s).length ≤ 4095) :
    parse (cstr "EXPLAIN " ++ s) = .ok (explainStatement stmt) := by
  have hlen : (s.takeWhile (· != 0)).length ≤ s.length := (List.takeWhile_sublist _).length_le
  have hword : (cstr "EXPLAIN ").length = 8 := by decide
  rw [List.length_append, hword] at hfit
  have hnul : ((cstr "EXPLAIN " ++ s).takeWhile (· != 0)).take 4095 =
      cstr "EXPLAIN " ++ (s.takeWhile (· != 0)).take 4095 := by
    rw [List.takeWhile_append_of_pos (List.all_eq_true.mp (by decide)), List.take_of_length_le (by
      rw [List.length_append, hword]
      omega), List.take_of_length_le (by omega)]
  have hne : trim ((s.takeWhile (· != 0)).take 4095) ≠ [] := by
    intro hnil
    apply commandText_ne_nil h
    rw [commandText, hnil]
    rfl
  have htext : commandText (cstr "EXPLAIN " ++ s) =
      cstr "EXPLAIN " ++ trim ((s.takeWhile (· != 0)).take 4095) := by
    rw [commandText, hnul, trim_append hne]
    rfl
  have hkey : keyword (cstr "EXPLAIN") (commandText (cstr "EXPLAIN " ++ s)) = true := by
    rw [htext]
    show keyword (cstr "EXPLAIN") (cstr "EXPLAIN" ++ _) = true
    exact keyword_append (by decide)
  -- behind the word stand one blank and the statement
  have hrest : skipWs ((commandText (cstr "EXPLAIN " ++ s)).drop 7) = commandText s := by
    rw [htext]
    rfl
  rw [parse_explain hkey, hrest, parse_commandText, h]
  rfl

end Text

/-! ## The plan -/

/-- The clauses that keep a SELECT from the index although its predicate is one on the id. -/
def Statement.ScansById (stmt : Statement) : Prop :=
  stmt.type = .select ∧
    (stmt.predicateKind = .idEq ∧ (stmt.selectCount ∨ stmt.hasOrderBy ∨ stmt.hasLimit) ∨
      stmt.predicateKind = .idRange ∧ (stmt.selectCount ∨ stmt.hasOrderBy))

instance (stmt : Statement) : Decidable stmt.ScansById :=
  inferInstanceAs (Decidable (_ ∧ _))

/-- The plan of the copy is the plan of the statement unless the planner reads a clause that the
copy has not got. -/
theorem plannerCreatePlan_explainStatement {stmt : Statement} (htype : stmt.type ≠ .explain) :
    plannerCreatePlan (explainStatement stmt) = plannerCreatePlan stmt ↔ ¬ stmt.ScansById := by
  have hcopy : plannerCreatePlan (explainStatement stmt) =
      planByType { type := stmt.type, predicateKind := stmt.predicateKind } := rfl
  have hplan : plannerCreatePlan stmt = planByType stmt := by
    rw [plannerCreatePlan]
    cases h : stmt.type with
    | explain => exact absurd h htype
    | _ => rfl
  rw [hcopy, hplan]
  cases h : stmt.type with
  | explain => exact absurd h htype
  | select =>
    cases hkind : stmt.predicateKind <;> cases hcount : stmt.selectCount <;>
      cases horder : stmt.hasOrderBy <;> cases hlimit : stmt.hasLimit <;>
      simp [planByType, Statement.ScansById, h, hkind, hcount, horder, hlimit]
  | delete => simp [planByType, Statement.ScansById, h]
  | update => simp [planByType, Statement.ScansById, h]
  | _ => simp [planByType, Statement.ScansById, h]

/-- **What EXPLAIN says.** It is the path of the statement unless that is a SELECT on the id that
COUNT, ORDER BY or LIMIT take to the heap. -/
theorem explain_path_iff {s : CString} {stmt : Statement} (hparse : parse s = .ok stmt)
    (htype : stmt.type ≠ .explain) (hfit : (cstr "EXPLAIN " ++ s).length ≤ 4095) :
    (∃ e, parse (cstr "EXPLAIN " ++ s) = .ok e ∧ plannerCreatePlan e = plannerCreatePlan stmt) ↔
      ¬ stmt.ScansById := by
  rw [← plannerCreatePlan_explainStatement htype, parse_explain_append hparse hfit]
  constructor
  · rintro ⟨e, he, hpath⟩
    rwa [Except.ok.inj he]
  · intro hpath
    exact ⟨_, rfl, hpath⟩

/-- A lookup is explained as a lookup. -/
theorem explain_path_iff_lookup :
    ∃ e, parse (cstr "EXPLAIN SELECT * FROM t WHERE id = 5") = .ok e ∧
      plannerCreatePlan e = .indexLookup := by
  have hparse : parse (cstr "SELECT * FROM t WHERE id = 5") = .ok
      { type := .select, tableName := cstr "t", selectAll := true, predicateKind := .idEq
        predField := cstr "id", predValue := cstr "5", predId := 5 } := by
    decide +kernel
  exact (explain_path_iff hparse nofun (by decide +kernel)).mpr (by decide)

/-- With a LIMIT the lookup is a scan, and EXPLAIN still announces a lookup. -/
theorem not_explain_path_limit :
    ∃ stmt, parse (cstr "SELECT * FROM t WHERE id = 5 LIMIT 1") = .ok stmt ∧
      stmt.type ≠ .explain ∧
      (cstr "EXPLAIN " ++ cstr "SELECT * FROM t WHERE id = 5 LIMIT 1").length ≤ 4095 ∧
      plannerCreatePlan stmt = .tableScan ∧
      ∀ e, parse (cstr "EXPLAIN " ++ cstr "SELECT * FROM t WHERE id = 5 LIMIT 1") = .ok e →
        plannerCreatePlan e = .indexLookup := by
  have hparse : parse (cstr "SELECT * FROM t WHERE id = 5 LIMIT 1") = .ok
      { type := .select, tableName := cstr "t", selectAll := true, predicateKind := .idEq
        predField := cstr "id", predValue := cstr "5", predId := 5, limitCount := 1
        hasLimit := true } := by
    decide +kernel
  have hfit : (cstr "EXPLAIN " ++ cstr "SELECT * FROM t WHERE id = 5 LIMIT 1").length ≤ 4095 := by
    decide +kernel
  refine ⟨_, hparse, nofun, hfit, rfl, ?_⟩
  intro e he
  rw [parse_explain_append hparse hfit] at he
  obtain rfl := Except.ok.inj he
  rfl

end MiniDb
