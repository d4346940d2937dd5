import MiniDb.Sql.Executor.Basic
import MiniDb.Sql.IdCondition

/-! # Ranges of ids, signed and unsigned

The index compares the keys of a range as unsigned numbers, `match_predicate` compares the ids as
signed ones. A bound has the same side of a key in both orders when the two have the same sign, and
opposite sides when they have not. -/

set_option autoImplicit false

namespace MiniDb

open Lib

/-- The condition is one that `parse_where` makes a range of. -/
def IdCondition.IsRange : IdCondition → Prop
  | .compare op _ => op ≠ .eq ∧ op ≠ .ne
  | .between _ _ => True

/-- A number that has 64 bits. -/
def IsInt64 (a : Int) : Prop := int64Min ≤ a ∧ a ≤ int64Max

/-- The literals have 64 bits, as `atoll` reads them. -/
def IdCondition.Fits : IdCondition → Prop
  | .compare _ a => IsInt64 a
  | .between a b => IsInt64 a ∧ IsInt64 b

/-- The id with this key and the literal do not have the same sign. -/
def OtherSign (a : Int) (k : Nat) : Prop := ¬ (0 ≤ a ↔ k < 2 ^ 63)

instance (a : Int) (k : Nat) : Decidable (OtherSign a k) :=
  inferInstanceAs (Decidable (¬ (0 ≤ a ↔ k < 2 ^ 63)))

/-- The two orders disagree about the id with this key: it does not have the sign of the literal, or
of one of the two, and the other one does not shut it out. -/
def IdCondition.Splits (k : Nat) : IdCondition → Prop
  | .compare _ a => OtherSign a k
  | .between a b =>
    OtherSign a k ∧ ¬ OtherSign b k ∧ toI64 k ≤ b ∨ OtherSign b k ∧ ¬ OtherSign a k ∧ a ≤ toI64 k

instance (k : Nat) (c : IdCondition) : Decidable (c.Splits k) := by
  unfold IdCondition.Splits
  split <;> infer_instance

section

variable {t p : CString} {c : IdCondition} {stmt : Statement} {a : Int} {k k' : Nat}

/-! ## Literals -/

theorem isInt64_atoll (s : CString) : IsInt64 (atoll s) := by
  simp only [IsInt64, atoll, int64Min, int64Max]
  omega

theorem idCondition_fits (h : idCondition t = some c) : c.Fits := by
  unfold idCondition at h
  dsimp only at h
  split at h
  · split at h
    · split at h
      · split at h
        · rw [← Option.some.inj h]
          exact ⟨isInt64_atoll _, isInt64_atoll _⟩
        · cases h
      · obtain ⟨o, -, rfl⟩ := Option.map_eq_some_iff.mp h
        exact isInt64_atoll _
    · cases h
  · cases h

theorem commandCondition_fits (h : commandCondition p = some c) : c.Fits := by
  obtain ⟨r, -, hr⟩ := Option.bind_eq_some_iff.mp h
  exact idCondition_fits hr

/-! ## The two orders -/

theorem toI64_eq (h : k < 2 ^ 64) : toI64 k = if k < 2 ^ 63 then (k : Int) else k - 2 ^ 64 := by
  show (k : Int).bmod (2 ^ 64) = _
  simp only [Int.bmod_def]
  omega

theorem toU64_eq (h : IsInt64 a) : (toU64 a : Int) = if 0 ≤ a then a else a + 2 ^ 64 := by
  simp only [IsInt64, int64Min, int64Max] at h
  rw [toU64]
  omega

/-- A literal is read back as it is. -/
theorem toI64_toU64_of_isInt64 (h : IsInt64 a) : toI64 (toU64 a) = a := by
  rw [toI64_toU64]
  simp only [IsInt64, int64Min, int64Max] at h
  simp only [Int.bmod_def]
  omega

theorem toU64_le_iff (h : IsInt64 a) (hk : k < 2 ^ 64) :
    toU64 a ≤ k ↔ (a ≤ toI64 k ↔ ¬ OtherSign a k) := by
  have hu := toU64_eq h
  simp only [IsInt64, int64Min, int64Max] at h
  rw [toI64_eq hk, OtherSign]
  omega

theorem toU64_lt_iff (h : IsInt64 a) (hk : k < 2 ^ 64) :
    toU64 a < k ↔ (a < toI64 k ↔ ¬ OtherSign a k) := by
  have hu := toU64_eq h
  simp only [IsInt64, int64Min, int64Max] at h
  rw [toI64_eq hk, OtherSign]
  omega

theorem le_toU64_iff (h : IsInt64 a) (hk : k < 2 ^ 64) :
    k ≤ toU64 a ↔ (toI64 k ≤ a ↔ ¬ OtherSign a k) := by
  have hu := toU64_eq h
  simp only [IsInt64, int64Min, int64Max] at h
  rw [toI64_eq hk, OtherSign]
  omega

theorem lt_toU64_iff (h : IsInt64 a) (hk : k < 2 ^ 64) :
    k < toU64 a ↔ (toI64 k < a ↔ ¬ OtherSign a k) := by
  have hu := toU64_eq h
  simp only [IsInt64, int64Min, int64Max] at h
  rw [toI64_eq hk, OtherSign]
  omega

/-- A lower bound. -/
theorem matchIdRange_lower (hlo : stmt.hasLo = true) (hhi : stmt.hasHi = false) (id : Int) :
    matchIdRange id stmt = true ↔
      if stmt.loInclusive then toI64 stmt.rangeLo ≤ id else toI64 stmt.rangeLo < id := by
  simp only [matchIdRange, hlo, hhi, Bool.true_and, Bool.false_and, Bool.not_false, Bool.and_true]
  cases stmt.loInclusive <;> simp

/-- An upper bound. -/
theorem matchIdRange_upper (hlo : stmt.hasLo = false) (hhi : stmt.hasHi = true) (id : Int) :
    matchIdRange id stmt = true ↔
      if stmt.hiInclusive then id ≤ toI64 stmt.rangeHi else id < toI64 stmt.rangeHi := by
  simp only [matchIdRange, hlo, hhi, Bool.true_and, Bool.false_and, Bool.not_false]
  cases stmt.hiInclusive <;> simp

theorem matchIdRange_between {b : Int} (hfits : (IdCondition.between a b).Fits)
    (hrec : (IdCondition.between a b).Recorded stmt) :
    matchIdRange (toI64 k) stmt = true ↔ a ≤ toI64 k ∧ toI64 k ≤ b := by
  obtain ⟨-, ⟨hlo, hloi, hloval⟩, hhi, hhii, hhival⟩ := hrec
  simp [matchIdRange, hlo, hhi, hloi, hhii, hloval, hhival, toI64_toU64_of_isInt64 hfits.1,
    toI64_toU64_of_isInt64 hfits.2]

/-- With the signs of both bounds on the other side one bound shuts the id out and the other does
not. -/
theorem otherSign_both {b : Int} (hk : k < 2 ^ 64) (ha : OtherSign a k) (hb : OtherSign b k) :
    ¬ (a ≤ toI64 k ∧ toI64 k ≤ b) ∧ (a ≤ toI64 k ∨ toI64 k ≤ b) := by
  simp only [OtherSign] at ha hb
  rw [toI64_eq hk]
  omega

/-- **The index and the predicate agree** about an id exactly when the condition does not split
there. -/
theorem contains_iff_matchIdRange_iff (hfits : c.Fits) (hrange : c.IsRange)
    (hrec : c.Recorded stmt) (hk : k < 2 ^ 64) :
    (stmt.keyRange.Contains k ↔ matchIdRange (toI64 k) stmt = true) ↔ ¬ c.Splits k := by
  cases c with
  | compare op a =>
    have hread := toI64_toU64_of_isInt64 hfits
    cases op with
    | eq => exact absurd rfl hrange.1
    | ne => exact absurd rfl hrange.2
    | ge =>
      obtain ⟨-, ⟨hlo, hincl, hval⟩, hhi⟩ := hrec
      rw [matchIdRange_lower hlo hhi]
      simp only [KeyRange.Contains, KeyRange.AboveLo, KeyRange.BelowHi, Statement.keyRange, hlo, hhi,
        hincl, hval, hread, toU64_le_iff hfits hk, IdCondition.Splits]
      grind
    | gt =>
      obtain ⟨-, ⟨hlo, hincl, hval⟩, hhi⟩ := hrec
      rw [matchIdRange_lower hlo hhi]
      simp only [KeyRange.Contains, KeyRange.AboveLo, KeyRange.BelowHi, Statement.keyRange, hlo, hhi,
        hincl, hval, hread, toU64_lt_iff hfits hk, IdCondition.Splits]
      grind
    | le =>
      obtain ⟨-, hlo, hhi, hincl, hval⟩ := hrec
      rw [matchIdRange_upper hlo hhi]
      simp only [KeyRange.Contains, KeyRange.AboveLo, KeyRange.BelowHi, Statement.keyRange, hlo, hhi,
        hincl, hval, hread, le_toU64_iff hfits hk, IdCondition.Splits]
      grind
    | lt =>
      obtain ⟨-, hlo, hhi, hincl, hval⟩ := hrec
      rw [matchIdRange_upper hlo hhi]
      simp only [KeyRange.Contains, KeyRange.AboveLo, KeyRange.BelowHi, Statement.keyRange, hlo, hhi,
        hincl, hval, hread, lt_toU64_iff hfits hk, IdCondition.Splits]
      grind
  | between a b =>
    obtain ⟨hkind, ⟨hlo, hloi, hloval⟩, hhi, hhii, hhival⟩ := hrec
    obtain ⟨ha, hb⟩ := hfits
    rw [matchIdRange_between ⟨ha, hb⟩ ⟨hkind, ⟨hlo, hloi, hloval⟩, hhi, hhii, hhival⟩]
    simp only [KeyRange.Contains, KeyRange.AboveLo, KeyRange.BelowHi, Statement.keyRange, hlo, hhi,
      hloi, hhii, hloval, hhival, toU64_le_iff ha hk, le_toU64_iff hb hk, IdCondition.Splits]
    have hboth : OtherSign a k → OtherSign b k →
        ¬ (a ≤ toI64 k ∧ toI64 k ≤ b) ∧ (a ≤ toI64 k ∨ toI64 k ≤ b) := otherSign_both hk
    by_cases hsa : OtherSign a k <;> by_cases hsb : OtherSign b k <;> simp only [hsa, hsb] <;> grind

/-! ## What the index takes in -/

/-- A bound of the range does not have the sign of the key. -/
def Statement.MixesSigns (stmt : Statement) (k : Nat) : Prop :=
  stmt.hasLo = true ∧ OtherSign (toI64 stmt.rangeLo) k ∨
    stmt.hasHi = true ∧ OtherSign (toI64 stmt.rangeHi) k

instance (stmt : Statement) (k : Nat) : Decidable (stmt.MixesSigns k) :=
  inferInstanceAs (Decidable (_ ∨ _))

/-- The bounds are unsigned numbers of 64 bits. -/
def Statement.BoundsFit (stmt : Statement) : Prop :=
  (stmt.hasLo = true → stmt.rangeLo < 2 ^ 64) ∧ (stmt.hasHi = true → stmt.rangeHi < 2 ^ 64)

theorem toU64_lt (a : Int) : toU64 a < 2 ^ 64 := by
  rw [toU64]
  omega

theorem classifyPredicate_boundsFit (hlo : stmt.hasLo = false) (hhi : stmt.hasHi = false) :
    (classifyPredicate stmt).BoundsFit := by
  have hv := toU64_lt (atoll stmt.predValue)
  unfold classifyPredicate
  dsimp only
  split
  case h_2 | h_3 => exact ⟨fun _ => hv, by simp [hhi]⟩
  case h_4 | h_5 => exact ⟨by simp [hlo], fun _ => hv⟩
  all_goals exact ⟨by simp [hlo], by simp [hhi]⟩

theorem parseBetween_boundsFit {stmt₀ : Statement} (hok : parseBetween p stmt₀ = .ok stmt) :
    stmt.BoundsFit := by
  rw [parseBetween] at hok
  simp only [readInto_bound, ParseM.ok_bind, ParseM.pure_eq, ParseM.throw_eq] at hok
  split at hok
  · cases hok
  · split at hok
    · cases hok
    · cases hok
      exact ⟨fun _ => toU64_lt _, fun _ => toU64_lt _⟩

theorem parseWhere_boundsFit {stmt₀ : Statement} (hlo : stmt₀.hasLo = false)
    (hhi : stmt₀.hasHi = false) (hok : parseWhere p stmt₀ = .ok stmt) : stmt.BoundsFit := by
  have hnone : stmt₀.BoundsFit := ⟨by simp [hlo], by simp [hhi]⟩
  unfold parseWhere at hok
  simp only [readInto_name, ParseM.ok_bind, ParseM.pure_eq] at hok
  split at hok
  · cases hok
    exact hnone
  · split at hok
    · cases hok
      exact hnone
    · split at hok
      · exact parseBetween_boundsFit hok
      · unfold parseComparison at hok
        split at hok
        · cases hok
        · simp only [readValue_eq, ParseM.ok_bind, ParseM.pure_eq] at hok
          rw [← Except.ok.inj hok]
          exact classifyPredicate_boundsFit hlo hhi

theorem parse_boundsFit {text : CString} (hok : parse text = .ok stmt)
    (hwhere : stmt.type.HasWhere) : stmt.BoundsFit := by
  refine parse_where_induction hok hwhere
    (fun _ _ _ hlo hhi hcond => parseWhere_boundsFit hlo hhi hcond) ?_
  rintro stmt ⟨o, l⟩ hfit
  cases o <;> cases l <;> exact hfit

/-- Of two keys in order, the ids are in order when they have one sign. -/
theorem toI64_le_iff (hk : k' < 2 ^ 64) (hle : k ≤ k') :
    (toI64 k ≤ toI64 k' ↔ ¬ OtherSign (toI64 k) k') ∧
      (toI64 k ≤ toI64 k' ↔ ¬ OtherSign (toI64 k') k) := by
  rw [toI64_eq (lt_of_le_of_lt hle hk), toI64_eq hk, OtherSign, OtherSign]
  omega

theorem toI64_lt_iff (hk : k' < 2 ^ 64) (hlt : k < k') :
    toI64 k < toI64 k' ↔ toI64 k ≤ toI64 k' := by
  rw [toI64_eq (lt_trans hlt hk), toI64_eq hk]
  omega

/-- **An id that the index takes in** satisfies the predicate exactly when the bounds have its
sign. -/
theorem matchIdRange_iff_of_contains (hfit : stmt.BoundsFit) (hk : k < 2 ^ 64)
    (h : stmt.keyRange.Contains k) :
    matchIdRange (toI64 k) stmt = true ↔ ¬ stmt.MixesSigns k := by
  have hlo : stmt.hasLo = true → if stmt.loInclusive then stmt.rangeLo ≤ k else stmt.rangeLo < k :=
    h.1
  have hhi : stmt.hasHi = true → if stmt.hiInclusive then k ≤ stmt.rangeHi else k < stmt.rangeHi :=
    h.2
  have hlower : (!(stmt.hasLo && if stmt.loInclusive then decide (toI64 k < toI64 stmt.rangeLo)
      else decide (toI64 k ≤ toI64 stmt.rangeLo))) = true ↔
        ¬ (stmt.hasLo = true ∧ OtherSign (toI64 stmt.rangeLo) k) := by
    cases hl : stmt.hasLo with
    | false => simp
    | true =>
      have hin := hlo hl
      cases hi : stmt.loInclusive with
      | true =>
        rw [if_pos hi] at hin
        simpa using (toI64_le_iff hk hin).1
      | false =>
        rw [if_neg (by simp [hi])] at hin
        simpa using (toI64_lt_iff hk hin).trans (toI64_le_iff hk hin.le).1
  have hupper : (!(stmt.hasHi && if stmt.hiInclusive then decide (toI64 k > toI64 stmt.rangeHi)
      else decide (toI64 k ≥ toI64 stmt.rangeHi))) = true ↔
        ¬ (stmt.hasHi = true ∧ OtherSign (toI64 stmt.rangeHi) k) := by
    cases hh : stmt.hasHi with
    | false => simp
    | true =>
      have hin := hhi hh
      have hlt := hfit.2 hh
      cases hi : stmt.hiInclusive with
      | true =>
        rw [if_pos hi] at hin
        simpa using (toI64_le_iff hlt hin).2
      | false =>
        rw [if_neg (by simp [hi])] at hin
        simpa using (toI64_lt_iff hlt hin).trans (toI64_le_iff hlt hin.le).2
  rw [matchIdRange, Bool.and_eq_true, hlower, hupper, Statement.MixesSigns, not_or]

/-- The first literal. -/
def IdCondition.literal : IdCondition → Int
  | .compare _ a => a
  | .between a _ => a

/-- What is selected has the sign of the literal. -/
theorem not_otherSign_of_match (hfits : c.Fits) (hrec : c.Recorded stmt) (hk : k < 2 ^ 64)
    (hsplit : ¬ c.Splits k) (hmatch : matchIdRange (toI64 k) stmt = true) :
    ¬ OtherSign c.literal k := by
  cases c with
  | compare op a => exact hsplit
  | between a b =>
    intro ha
    obtain ⟨hlo, hhi⟩ := (matchIdRange_between hfits hrec).mp hmatch
    by_cases hb : OtherSign b k
    · exact (otherSign_both hk ha hb).1 ⟨hlo, hhi⟩
    · exact hsplit (.inl ⟨ha, hb, hhi⟩)

/-- Among ids of one sign the keys are in the order of the ids. -/
theorem toI64_lt (hk : k' < 2 ^ 64) (hlt : k < k') (h : ¬ OtherSign a k) (h' : ¬ OtherSign a k') :
    toI64 k < toI64 k' := by
  rw [toI64_eq (lt_trans hlt hk), toI64_eq hk]
  simp only [OtherSign] at h h'
  omega

end

end MiniDb
