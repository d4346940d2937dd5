import Mathlib.Data.Finset.Card
import Mathlib.Logic.Function.Basic

/-! # Counting while a function changes

The arguments at which a function has a property, as a finite set. Where the function is changed at
one argument at a time and starts without any, they stay finitely many, and their number changes by
at most one at a time. -/

set_option autoImplicit false

namespace MiniDb.Lib

variable {τ α : Type*} {p : α → Prop} {f : τ → α} {F : Finset τ}

/-- `F` are the arguments at which `f` has the property. -/
def Counts (p : α → Prop) (f : τ → α) (F : Finset τ) : Prop := ∀ t, t ∈ F ↔ p (f t)

theorem counts_empty (h : ∀ t, ¬ p (f t)) : Counts p f ∅ :=
  fun t => iff_of_false (Finset.notMem_empty t) (h t)

theorem Counts.eq_empty (hF : Counts p f F) (h : ∀ t, ¬ p (f t)) : F = ∅ :=
  Finset.eq_empty_of_forall_notMem fun t ht => h t ((hF t).mp ht)

/-- **One argument is given another value.** -/
theorem Counts.update [DecidableEq τ] [DecidablePred p] (hF : Counts p f F) (t : τ) (a : α) :
    ∃ F', Counts p (Function.update f t a) F' ∧
      F'.card + (if p (f t) then 1 else 0) = F.card + (if p a then 1 else 0) := by
  have hother : ∀ u, u ≠ t → ∀ F' : Finset τ, (u ∈ F' ↔ u ∈ F) →
      (u ∈ F' ↔ p (Function.update f t a u)) := by
    intro u hu F' hmem
    rw [Function.update_of_ne hu]
    exact hmem.trans (hF u)
  by_cases ha : p a
  · refine ⟨insert t F, fun u => ?_, ?_⟩
    · by_cases hu : u = t
      · subst hu
        rw [Function.update_self]
        exact iff_of_true (Finset.mem_insert_self u F) ha
      · exact hother u hu _ (by rw [Finset.mem_insert]; exact or_iff_right hu)
    · rw [if_pos ha]
      by_cases ht : p (f t)
      · rw [if_pos ht, Finset.insert_eq_of_mem ((hF t).mpr ht)]
      · rw [if_neg ht, Finset.card_insert_of_notMem (fun hmem => ht ((hF t).mp hmem))]
  · refine ⟨F.erase t, fun u => ?_, ?_⟩
    · by_cases hu : u = t
      · subst hu
        rw [Function.update_self]
        exact iff_of_false (Finset.notMem_erase u F) ha
      · exact hother u hu _ (by rw [Finset.mem_erase]; exact and_iff_right hu)
    · rw [if_neg ha]
      by_cases ht : p (f t)
      · rw [if_pos ht, Finset.card_erase_add_one ((hF t).mpr ht)]
        rfl
      · rw [if_neg ht, Finset.erase_eq_of_notMem (fun hmem => ht ((hF t).mp hmem))]

end MiniDb.Lib
