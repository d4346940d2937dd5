import Mathlib.Data.List.Basic

/-! # Reading and writing inside a buffer

`slice` is what `memcpy` reads from a buffer, `splice` the buffer after `memcpy` has written into
it. A write that stays inside the buffer keeps its length, is read back, and leaves everything
beside it alone. -/

set_option autoImplicit false

namespace MiniDb.Lib

variable {α : Type*} {buf src : List α} {off off' len : Nat}

/-- The `len` elements from `off` on. -/
def slice (buf : List α) (off len : Nat) : List α := (buf.drop off).take len

/-- The buffer with `src` written over it at `off`. -/
def splice (buf : List α) (off : Nat) (src : List α) : List α :=
  buf.take off ++ src ++ buf.drop (off + src.length)

theorem length_splice (h : off + src.length ≤ buf.length) :
    (splice buf off src).length = buf.length := by
  simp only [splice, List.length_append, List.length_take, List.length_drop]
  omega

theorem getElem?_slice (i : Nat) :
    (slice buf off len)[i]? = if i < len then buf[off + i]? else none := by
  rw [slice, List.getElem?_take, List.getElem?_drop]

theorem getElem?_splice (h : off + src.length ≤ buf.length) (i : Nat) :
    (splice buf off src)[i]? =
      if i < off then buf[i]? else if i < off + src.length then src[i - off]? else buf[i]? := by
  have htake : (buf.take off).length = off := by
    rw [List.length_take]
    omega
  rw [splice, List.append_assoc]
  split
  · rename_i hlt
    rw [List.getElem?_append_left (by omega), List.getElem?_take_of_lt hlt]
  · rename_i hge
    rw [List.getElem?_append_right (by omega), htake]
    split
    · rw [List.getElem?_append_left (by omega)]
    · rw [List.getElem?_append_right (by omega), List.getElem?_drop]
      congr 1
      omega

/-- What was written is read back. -/
theorem slice_splice_self (h : off + src.length ≤ buf.length) :
    slice (splice buf off src) off src.length = src := by
  apply List.ext_getElem?
  intro i
  rw [getElem?_slice, getElem?_splice h]
  by_cases hi : i < src.length
  · rw [if_pos hi, if_neg (by omega), if_pos (by omega), Nat.add_sub_cancel_left]
  · rw [if_neg hi, List.getElem?_eq_none (by omega)]

/-- What lies beside the write is as it was. -/
theorem slice_splice_of_disjoint (h : off + src.length ≤ buf.length)
    (hd : off' + len ≤ off ∨ off + src.length ≤ off') :
    slice (splice buf off src) off' len = slice buf off' len := by
  apply List.ext_getElem?
  intro i
  rw [getElem?_slice, getElem?_slice]
  split
  · rw [getElem?_splice h]
    rcases hd with hd | hd
    · rw [if_pos (by omega)]
    · rw [if_neg (by omega), if_neg (by omega)]
  · rfl

end MiniDb.Lib
