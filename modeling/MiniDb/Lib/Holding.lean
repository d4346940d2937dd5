import Mathlib.Logic.Function.Basic
import Mathlib.Data.Fintype.Card

/-! # Things and their holders

Each of some holders has at most one thing of a kind; a thing is in use when somebody holds it, and
then one holder does. A free thing is taken, a held one is given back or passed on. -/

set_option autoImplicit false

namespace MiniDb.Lib

universe u v

variable {ι : Type u} {κ : Type v}

/-- The things in use are the ones that are held, each by one holder. -/
structure Holding (used : ι → Prop) (hold : κ → Option ι) : Prop where
  used_iff : ∀ i, used i ↔ ∃ k, hold k = some i
  inj : ∀ k k' i, hold k = some i → hold k' = some i → k = k'

section Holding

variable {used used' : ι → Prop} {hold hold' : κ → Option ι} {k k' : κ} {i : ι}

theorem Holding.in_use (h : Holding used hold) (hk : hold k = some i) : used i :=
  (h.used_iff i).mpr ⟨k, hk⟩

theorem Holding.ne (h : Holding used hold) (hk : hold k = some i) (hi : ¬ used i) : False :=
  hi (h.in_use hk)

/-- Nothing is held where nothing is in use. -/
theorem Holding.eq_none (h : Holding used hold) (hnone : ∀ i, ¬ used i) (k : κ) :
    hold k = none := by
  cases hk : hold k with
  | none => rfl
  | some i => exact (h.ne hk (hnone i)).elim

theorem holding_empty (hused : ∀ i, ¬ used i) (hhold : ∀ k, hold k = none) : Holding used hold := by
  refine ⟨fun i => iff_of_false (hused i) ?_, fun k k' i hk => ?_⟩
  · rintro ⟨k, hk⟩
    rw [hhold k] at hk
    cases hk
  · rw [hhold k] at hk
    cases hk

variable [DecidableEq κ]

/-- **A free thing is taken** by somebody who has none. -/
theorem Holding.take (h : Holding used hold) (hk : hold k = none) (hi : ¬ used i)
    (hused : ∀ j, used' j ↔ used j ∨ j = i) :
    Holding used' (Function.update hold k (some i)) := by
  constructor
  · intro j
    rw [hused, h.used_iff]
    constructor
    · intro hj
      rcases hj with ⟨l, hl⟩ | rfl
      · refine ⟨l, ?_⟩
        rw [Function.update_of_ne, hl]
        rintro rfl
        rw [hk] at hl
        cases hl
      · exact ⟨k, Function.update_self ..⟩
    · rintro ⟨l, hl⟩
      by_cases hlk : l = k
      · rw [hlk, Function.update_self] at hl
        exact .inr (Option.some.inj hl).symm
      · rw [Function.update_of_ne hlk] at hl
        exact .inl ⟨l, hl⟩
  · intro l l' j hl hl'
    by_cases hlk : l = k <;> by_cases hlk' : l' = k
    · rw [hlk, hlk']
    · rw [hlk, Function.update_self] at hl
      rw [Function.update_of_ne hlk'] at hl'
      exact (h.ne hl' (Option.some.inj hl ▸ hi)).elim
    · rw [hlk', Function.update_self] at hl'
      rw [Function.update_of_ne hlk] at hl
      exact (h.ne hl (Option.some.inj hl' ▸ hi)).elim
    · rw [Function.update_of_ne hlk] at hl
      rw [Function.update_of_ne hlk'] at hl'
      exact h.inj l l' j hl hl'

/-- **A held thing is given back.** -/
theorem Holding.drop (h : Holding used hold) (hk : hold k = some i)
    (hused : ∀ j, used' j ↔ used j ∧ j ≠ i) : Holding used' (Function.update hold k none) := by
  have hne : ∀ l j, Function.update hold k none l = some j → l ≠ k ∧ hold l = some j := by
    intro l j hl
    by_cases hlk : l = k
    · rw [hlk, Function.update_self] at hl
      cases hl
    · rw [Function.update_of_ne hlk] at hl
      exact ⟨hlk, hl⟩
  constructor
  · intro j
    rw [hused, h.used_iff]
    constructor
    · rintro ⟨⟨l, hl⟩, hj⟩
      refine ⟨l, ?_⟩
      rw [Function.update_of_ne, hl]
      rintro rfl
      rw [hk] at hl
      exact hj (Option.some.inj hl).symm
    · rintro ⟨l, hl⟩
      obtain ⟨hlk, hl⟩ := hne l j hl
      refine ⟨⟨l, hl⟩, ?_⟩
      rintro rfl
      exact hlk (h.inj l k j hl hk)
  · intro l l' j hl hl'
    exact h.inj l l' j (hne l j hl).2 (hne l' j hl').2

/-- **A held thing is passed on** to somebody who has none. -/
theorem Holding.pass (h : Holding used hold) (hk : hold k = some i) (hk' : hold k' = none) :
    Holding used (Function.update (Function.update hold k none) k' (some i)) := by
  have hdrop : Holding (fun j => used j ∧ j ≠ i) (Function.update hold k none) :=
    h.drop hk fun j => Iff.rfl
  have hfree : Function.update hold k none k' = none := by
    rw [Function.update_of_ne, hk']
    rintro rfl
    rw [hk] at hk'
    cases hk'
  refine hdrop.take hfree (fun hi => hi.2 rfl) fun j => ?_
  by_cases hj : j = i
  · subst hj
    exact iff_of_true (h.in_use hk) (.inr rfl)
  · exact ⟨fun hu => .inl ⟨hu, hj⟩, fun hu => (hu.resolve_right hj).1⟩

end Holding

/-! ## The number of things in use -/

section Card

variable [Fintype ι] [DecidableEq ι] {used used' : ι → Prop} [DecidablePred used]
  [DecidablePred used'] {i : ι}

/-- How many things are in use. -/
def usedCount (used : ι → Prop) [DecidablePred used] : Nat := (Finset.univ.filter used).card

theorem usedCount_take (hi : ¬ used i) (hused : ∀ j, used' j ↔ used j ∨ j = i) :
    usedCount used' = usedCount used + 1 := by
  have hset : Finset.univ.filter used' = insert i (Finset.univ.filter used) := by
    ext j
    simp only [Finset.mem_filter, Finset.mem_univ, true_and, Finset.mem_insert, hused]
    exact or_comm
  rw [usedCount, hset, Finset.card_insert_of_notMem (by simpa using hi), usedCount]

theorem usedCount_drop (hi : used i) (hused : ∀ j, used' j ↔ used j ∧ j ≠ i) :
    usedCount used' + 1 = usedCount used := by
  refine (usedCount_take (i := i) (fun h => ((hused i).mp h).2 rfl) fun j => ?_).symm
  by_cases hj : j = i
  · subst hj
    exact iff_of_true hi (.inr rfl)
  · rw [hused]
    exact ⟨fun h => .inl ⟨h, hj⟩, fun h => (h.resolve_right hj).1⟩

omit [DecidableEq ι] in
theorem usedCount_eq_zero : usedCount used = 0 ↔ ∀ i, ¬ used i := by
  rw [usedCount, Finset.card_eq_zero, Finset.filter_eq_empty_iff]
  exact ⟨fun h i => h (Finset.mem_univ i), fun h i _ => h i⟩

omit [DecidableEq ι] in
theorem usedCount_le : usedCount used ≤ Fintype.card ι := Finset.card_le_univ _

omit [DecidableEq ι] in
/-- As many in use as there are: all are. -/
theorem all_used (h : Fintype.card ι ≤ usedCount used) (i : ι) : used i := by
  have hall := Finset.eq_univ_of_card _ (le_antisymm usedCount_le h)
  have hi : i ∈ Finset.univ.filter used := by
    rw [hall]
    exact Finset.mem_univ i
  exact (Finset.mem_filter.mp hi).2

end Card

end MiniDb.Lib
