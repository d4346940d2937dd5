import Mathlib.Data.List.Basic

/-! # Visiting a list with a callback

A C iterator hands its elements to a callback until the callback returns `false`. What the
callback writes is its context. -/

set_option autoImplicit false

namespace MiniDb.Lib

variable {α γ : Type*}

/-- The callback on one element after the other, up to and with the first one it answers `false`;
whether all were visited, and the context left. -/
def visit (f : α → γ → Bool × γ) : List α → γ → Bool × γ
  | [], ctx => (true, ctx)
  | x :: xs, ctx =>
    match f x ctx with
    | (true, ctx) => visit f xs ctx
    | (false, ctx) => (false, ctx)

@[simp] theorem visit_nil (f : α → γ → Bool × γ) (ctx : γ) : visit f [] ctx = (true, ctx) := rfl

theorem visit_append (f : α → γ → Bool × γ) (xs ys : List α) (ctx : γ) :
    visit f (xs ++ ys) ctx =
      if (visit f xs ctx).1 then visit f ys (visit f xs ctx).2 else visit f xs ctx := by
  induction xs generalizing ctx with
  | nil => rfl
  | cons x xs ih =>
    rw [List.cons_append, visit, visit]
    rcases f x ctx with ⟨_ | _, ctx'⟩
    · rfl
    · exact ih ctx'

/-- A callback that never stops folds over the list. -/
theorem visit_foldl (f : γ → α → γ) (xs : List α) (ctx : γ) :
    visit (fun x ctx => (true, f ctx x)) xs ctx = (true, xs.foldl f ctx) := by
  induction xs generalizing ctx with
  | nil => rfl
  | cons x xs ih => exact ih (f ctx x)

end MiniDb.Lib
