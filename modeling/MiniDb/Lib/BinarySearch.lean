import Mathlib.Data.List.TakeWhile
import Mathlib.Order.Lattice

/-! # Binary search for a partition point

A list is split by a predicate `p` when every element that satisfies `p` stands before every
element that does not. `partitionPoint p xs` finds the border by halving the range `[lo, hi)`,
without looking at more than logarithmically many elements; `partitionPoint_eq` says that it
is the length of the prefix on which `p` holds. -/

set_option autoImplicit false

namespace MiniDb.Lib

variable {α : Type*}

/-- The halving loop. `fuel` bounds the number of rounds; `xs.length` rounds always suffice
because every round shortens `[lo, hi)`. -/
def partitionLoop (p : α → Bool) (xs : List α) : Nat → Nat → Nat → Nat
  | 0, lo, _ => lo
  | fuel + 1, lo, hi =>
    if lo < hi then
      let mid := (lo + hi) / 2
      if (xs[mid]?).any p then partitionLoop p xs fuel (mid + 1) hi
      else partitionLoop p xs fuel lo mid
    else lo

/-- The index of the first element of `xs` that fails `p`, or `xs.length`. -/
def partitionPoint (p : α → Bool) (xs : List α) : Nat :=
  partitionLoop p xs xs.length 0 xs.length

/-- `xs` is split by `p`: a prefix satisfies it and the rest does not. -/
def Partitioned (p : α → Bool) (xs : List α) : Prop :=
  xs.Pairwise fun a b => p b = true → p a = true

theorem partitionLoop_eq {p : α → Bool} {xs ys : List α} (hx : ∀ x ∈ xs, p x = true)
    (hy : ∀ y ∈ ys, p y = false) :
    ∀ (fuel lo hi : Nat), hi - lo ≤ fuel → lo ≤ xs.length → xs.length ≤ hi →
      hi ≤ (xs ++ ys).length → partitionLoop p (xs ++ ys) fuel lo hi = xs.length := by
  intro fuel
  induction fuel with
  | zero => intro lo hi hf h1 h2 _; simp only [partitionLoop]; omega
  | succ fuel ih =>
    intro lo hi hf h1 h2 h3
    rw [partitionLoop]
    split
    · next hlt =>
      have hmid : (lo + hi) / 2 < (xs ++ ys).length := by omega
      simp only [List.getElem?_eq_getElem hmid, Option.any_some]
      by_cases hside : (lo + hi) / 2 < xs.length
      · -- the middle element lies in the prefix: continue to its right
        have : p (xs ++ ys)[(lo + hi) / 2] = true := by
          rw [List.getElem_append_left hside]
          exact hx _ (List.getElem_mem _)
        rw [if_pos this]
        exact ih _ _ (by omega) (by omega) h2 h3
      · have : p (xs ++ ys)[(lo + hi) / 2] = false := by
          rw [List.getElem_append_right (by omega)]
          exact hy _ (List.getElem_mem _)
        rw [if_neg (by simp [this])]
        exact ih _ _ (by omega) h1 (by omega) (by omega)
    · omega

/-- On `xs ++ ys`, where `p` holds on `xs` only, the search stops at the border. -/
theorem partitionPoint_append {p : α → Bool} {xs ys : List α} (hx : ∀ x ∈ xs, p x = true)
    (hy : ∀ y ∈ ys, p y = false) : partitionPoint p (xs ++ ys) = xs.length :=
  partitionLoop_eq hx hy _ _ _ (by simp) (by simp) (by simp) (Nat.le_refl _)

/-- A partitioned list is its `p`-prefix followed by elements that all fail `p`. -/
theorem Partitioned.dropWhile_false {p : α → Bool} {xs : List α} (h : Partitioned p xs) :
    ∀ y ∈ xs.dropWhile p, p y = false := by
  induction xs with
  | nil => simp
  | cons x xs ih =>
    rw [Partitioned, List.pairwise_cons] at h
    by_cases hpx : p x = true
    · rw [List.dropWhile_cons_of_pos hpx]
      exact ih h.2
    · rw [List.dropWhile_cons_of_neg (by simpa using hpx)]
      intro y hy
      rcases List.mem_cons.mp hy with rfl | hy
      · simpa using hpx
      · by_contra hpy
        exact hpx (h.1 y hy (by simpa using hpy))

/-- **The binary search is right**: on a partitioned list it returns the length of the prefix
on which the predicate holds. -/
theorem partitionPoint_eq {p : α → Bool} {xs : List α} (h : Partitioned p xs) :
    partitionPoint p xs = (xs.takeWhile p).length := by
  have hsplit : partitionPoint p (xs.takeWhile p ++ xs.dropWhile p) = (xs.takeWhile p).length :=
    partitionPoint_append (fun x hx => List.mem_takeWhile_imp hx) h.dropWhile_false
  rwa [List.takeWhile_append_dropWhile] at hsplit

/-- The two halves around the partition point. -/
theorem partitionPoint_spec {p : α → Bool} {xs : List α} (h : Partitioned p xs) :
    ∃ l r, xs = l ++ r ∧ partitionPoint p xs = l.length ∧
      (∀ x ∈ l, p x = true) ∧ (∀ y ∈ r, p y = false) :=
  ⟨xs.takeWhile p, xs.dropWhile p, (List.takeWhile_append_dropWhile).symm, partitionPoint_eq h,
    fun _ hx => List.mem_takeWhile_imp hx, h.dropWhile_false⟩

/-- In a list sorted by `f`, the elements strictly below a bound form a prefix. -/
theorem partitioned_lt {β : Type*} [LinearOrder β] {f : α → β} {xs : List α}
    (h : xs.Pairwise fun a b => f a < f b) (k : β) :
    Partitioned (fun a => decide (f a < k)) xs :=
  h.imp fun hab hb => by
    simp only [decide_eq_true_eq] at hb ⊢
    exact lt_trans hab hb

/-- In a list sorted by `f`, the elements at or below a bound form a prefix. -/
theorem partitioned_le {β : Type*} [LinearOrder β] {f : α → β} {xs : List α}
    (h : xs.Pairwise fun a b => f a < f b) (k : β) :
    Partitioned (fun a => decide (f a ≤ k)) xs :=
  h.imp fun hab hb => by
    simp only [decide_eq_true_eq] at hb ⊢
    exact le_trans (le_of_lt hab) hb

end MiniDb.Lib
