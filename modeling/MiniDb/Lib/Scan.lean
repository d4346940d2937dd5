import Mathlib.Data.List.TakeDrop

/-! # Scanning a list by hand

The loops a hand-written scanner is made of: `skipWhile` drops a prefix, `spanUpTo` copies a prefix
of at most `n` elements into a buffer and leaves the rest. What is copied and what is left make up
the input again, and where the loop stops either the input is over, the next element is refused, or
the buffer is full. -/

set_option autoImplicit false

namespace MiniDb.Lib

variable {α : Type*} {p : α → Bool} {n : Nat} {l w rest : List α}

/-- `while (p(*s) && i < n) buf[i++] = *s++;`: the buffer and the rest of the input. -/
def spanUpTo (p : α → Bool) : Nat → List α → List α × List α
  | 0, l => ([], l)
  | _ + 1, [] => ([], [])
  | n + 1, a :: l =>
    if p a then (a :: (spanUpTo p n l).1, (spanUpTo p n l).2) else ([], a :: l)

/-- Whether the loop stops at `rest` of its own accord: at the end, or at a refused element. -/
def StopsAt (p : α → Bool) (rest : List α) : Prop := ∀ a ∈ rest.head?, p a = false

instance : Decidable (StopsAt p rest) :=
  inferInstanceAs (Decidable (∀ a ∈ rest.head?, p a = false))

@[simp] theorem stopsAt_nil : StopsAt p [] := by
  simp [StopsAt]

@[simp] theorem stopsAt_cons {a : α} : StopsAt p (a :: l) ↔ p a = false := by
  simp [StopsAt]

theorem spanUpTo_append (p : α → Bool) (n : Nat) (l : List α) :
    (spanUpTo p n l).1 ++ (spanUpTo p n l).2 = l := by
  fun_induction spanUpTo p n l with
  | case1 l => rfl
  | case2 n => rfl
  | case3 n a l ha ih => simpa using ih
  | case4 n a l ha => rfl

theorem length_spanUpTo_le (p : α → Bool) (n : Nat) (l : List α) :
    (spanUpTo p n l).1.length ≤ n := by
  fun_induction spanUpTo p n l with
  | case1 l => exact Nat.le_refl 0
  | case2 n => exact Nat.zero_le _
  | case3 n a l ha ih => simpa using ih
  | case4 n a l ha => exact Nat.zero_le _

theorem all_spanUpTo (p : α → Bool) (n : Nat) (l : List α) :
    ∀ a ∈ (spanUpTo p n l).1, p a = true := by
  fun_induction spanUpTo p n l with
  | case1 l => simp
  | case2 n => simp
  | case3 n a l ha ih => simpa [ha] using ih
  | case4 n a l ha => simp

/-- The loop ends at its own stop or with a full buffer. -/
theorem spanUpTo_stops (p : α → Bool) (n : Nat) (l : List α) :
    StopsAt p (spanUpTo p n l).2 ∨ (spanUpTo p n l).1.length = n := by
  fun_induction spanUpTo p n l with
  | case1 l => exact .inr rfl
  | case2 n => exact .inl stopsAt_nil
  | case3 n a l ha ih => simpa using ih
  | case4 n a l ha => exact .inl (by simpa using ha)

/-- The loop reads off a word of accepted elements, when it fits the buffer and is followed by a
stop or fills the buffer. -/
theorem spanUpTo_of_append (hw : ∀ a ∈ w, p a = true) (hlen : w.length ≤ n)
    (hstop : StopsAt p rest ∨ w.length = n) : spanUpTo p n (w ++ rest) = (w, rest) := by
  induction w generalizing n with
  | nil =>
    rcases n with _ | n
    · rfl
    rcases hstop with hstop | hfull
    · rcases rest with _ | ⟨a, rest⟩
      · rfl
      have ha : p a = false := by simpa using hstop
      simp [spanUpTo, ha]
    · simp at hfull
  | cons a w ih =>
    rcases n with _ | n
    · simp at hlen
    have ha : p a = true := hw a (by simp)
    have htail := ih (n := n) (fun b hb => hw b (by simp [hb])) (by simpa using hlen)
      (by simpa using hstop)
    simp [spanUpTo, ha, htail]

/-- The two ends of the loop determine its result. -/
theorem spanUpTo_eq_iff {r : List α × List α} :
    spanUpTo p n l = r ↔
      l = r.1 ++ r.2 ∧ (∀ a ∈ r.1, p a = true) ∧ r.1.length ≤ n ∧
        (StopsAt p r.2 ∨ r.1.length = n) := by
  constructor
  · rintro rfl
    exact ⟨(spanUpTo_append p n l).symm, all_spanUpTo p n l, length_spanUpTo_le p n l,
      spanUpTo_stops p n l⟩
  · rintro ⟨rfl, hw, hlen, hstop⟩
    exact spanUpTo_of_append hw hlen hstop

/-! ## Skipping -/

theorem dropWhile_stopsAt (p : α → Bool) (l : List α) : StopsAt p (l.dropWhile p) := by
  induction l with
  | nil => exact stopsAt_nil
  | cons a l ih =>
    rw [List.dropWhile_cons]
    split
    · exact ih
    · rename_i ha
      simpa using ha

theorem dropWhile_of_stopsAt (h : StopsAt p l) : l.dropWhile p = l := by
  rcases l with _ | ⟨a, l⟩
  · rfl
  · have ha : p a = false := by simpa using h
    simp [ha]

theorem dropWhile_append_of_stopsAt (hw : ∀ a ∈ w, p a = true) (h : StopsAt p rest) :
    (w ++ rest).dropWhile p = rest := by
  rw [List.dropWhile_append_of_pos hw, dropWhile_of_stopsAt h]

theorem length_dropWhile_le (p : α → Bool) (l : List α) : (l.dropWhile p).length ≤ l.length :=
  (List.dropWhile_sublist p).length_le

end MiniDb.Lib
