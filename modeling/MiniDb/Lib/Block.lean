import Mathlib.Algebra.Group.Nat.Defs
import MiniDb.Lib.Bytes

/-! # Blocks of memory that grow

A block is the list of its elements. `realloc` hands out a block of another size whose front is the
old one and whose other elements are whatever lies there, or nothing. No block has `2 ^ 63` bytes or
more. -/

set_option autoImplicit false

namespace MiniDb.Lib

/-- What `malloc` and `realloc` answer to a request for so many bytes: nothing, or a block with these
contents where nothing is copied to. -/
structure Allocator (α : Type*) where
  block : Nat → Option (Nat → α)
  bounded : ∀ size, 2 ^ 63 ≤ size → block size = none

/-- An allocator without memory. -/
def Allocator.exhausted (α : Type*) : Allocator α := ⟨fun _ => none, fun _ _ => rfl⟩

/-- An allocator that meets every request that can be met. -/
def Allocator.ample {α : Type*} (a : α) : Allocator α :=
  ⟨fun size => if size < 2 ^ 63 then some fun _ => a else none, fun _ h => if_neg (Nat.not_lt.mpr h)⟩

variable {α : Type*} {xs : List α} {n i : Nat} {fill : Nat → α}

theorem Allocator.lt_of_block {alloc : Allocator α} {size : Nat} (h : alloc.block size = some fill) :
    size < 2 ^ 63 := by
  by_contra hge
  rw [alloc.bounded size (Nat.not_lt.mp hge)] at h
  cases h

/-- The block of `n` elements after `realloc` of `xs`. -/
def regrow (xs : List α) (n : Nat) (fill : Nat → α) : List α :=
  (List.range n).map fun i => xs[i]?.getD (fill i)

@[simp] theorem length_regrow : (regrow xs n fill).length = n := by
  rw [regrow, List.length_map, List.length_range]

theorem getElem?_regrow (hi : i < n) : (regrow xs n fill)[i]? = some (xs[i]?.getD (fill i)) := by
  rw [regrow, List.getElem?_map, List.getElem?_range hi]
  rfl

/-- What fits into the new block is copied. -/
theorem getElem?_regrow_of_lt (hi : i < n) (hx : i < xs.length) :
    (regrow xs n fill)[i]? = xs[i]? := by
  rw [getElem?_regrow hi, List.getElem?_eq_getElem hx]
  rfl

theorem take_regrow {len : Nat} (hn : len ≤ n) (hx : len ≤ xs.length) :
    (regrow xs n fill).take len = xs.take len := by
  apply List.ext_getElem?
  intro i
  rw [List.getElem?_take, List.getElem?_take]
  split
  · exact getElem?_regrow_of_lt (by omega) (by omega)
  · rfl

theorem slice_regrow {off len : Nat} (hn : off + len ≤ n) (hx : off + len ≤ xs.length) :
    slice (regrow xs n fill) off len = slice xs off len := by
  apply List.ext_getElem?
  intro i
  rw [getElem?_slice, getElem?_slice]
  split
  · exact getElem?_regrow_of_lt (by omega) (by omega)
  · rfl

end MiniDb.Lib
