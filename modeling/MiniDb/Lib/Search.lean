import Mathlib.Data.List.TakeDrop

/-! # Searching a list for a pattern

`findPattern f pat l` is the first place of `l` where `pat` stands, when elements count as equal
that `f` does not tell apart. What stands behind a list cannot move an occurrence inside it. -/

set_option autoImplicit false

namespace MiniDb.Lib

variable {α β : Type*} [DecidableEq β] {f : α → β} {pat l r : List α} {i : Nat}

/-- The pattern stands in front of the list. -/
def Occurs (f : α → β) (pat l : List α) : Prop := (l.take pat.length).map f = pat.map f

instance : Decidable (Occurs f pat l) :=
  inferInstanceAs (Decidable (_ = _))

omit [DecidableEq β] in
theorem Occurs.length_le (h : Occurs f pat l) : pat.length ≤ l.length := by
  have hlen := congrArg List.length h
  rw [List.length_map, List.length_map, List.length_take] at hlen
  omega

omit [DecidableEq β] in
theorem occurs_append (h : pat.length ≤ l.length) : Occurs f pat (l ++ r) ↔ Occurs f pat l := by
  rw [Occurs, Occurs, List.take_append_of_le_length h]

/-- The first place where the pattern stands. -/
def findPattern (f : α → β) (pat : List α) : List α → Option Nat
  | [] => if Occurs f pat [] then some 0 else none
  | a :: l => if Occurs f pat (a :: l) then some 0 else (findPattern f pat l).map (· + 1)

theorem findPattern_cons_of_not {a : α} (h : ¬ Occurs f pat (a :: l)) :
    findPattern f pat (a :: l) = (findPattern f pat l).map (· + 1) := if_neg h

theorem findPattern_of_occurs (h : Occurs f pat l) : findPattern f pat l = some 0 := by
  cases l with
  | nil => exact if_pos h
  | cons a l => exact if_pos h

/-- The pattern stands where it is found. -/
theorem findPattern_occurs (h : findPattern f pat l = some i) : Occurs f pat (l.drop i) := by
  induction l generalizing i with
  | nil =>
    rw [findPattern] at h
    split at h
    · rename_i hocc
      obtain rfl := Option.some.inj h
      exact hocc
    · cases h
  | cons a l ih =>
    by_cases hocc : Occurs f pat (a :: l)
    · rw [findPattern_of_occurs hocc] at h
      obtain rfl := Option.some.inj h
      exact hocc
    · rw [findPattern_cons_of_not hocc] at h
      obtain ⟨j, hj, rfl⟩ := Option.map_eq_some_iff.mp h
      exact ih hj

theorem findPattern_le (h : findPattern f pat l = some i) (hne : pat ≠ []) :
    i + pat.length ≤ l.length := by
  have hlen := (findPattern_occurs h).length_le
  have hpos := List.length_pos_iff.mpr hne
  rw [List.length_drop] at hlen
  omega

/-- A first occurrence stays the first one, whatever follows. -/
theorem findPattern_append (h : findPattern f pat l = some i) (hne : pat ≠ []) :
    findPattern f pat (l ++ r) = some i := by
  induction l generalizing i with
  | nil =>
    have hlen := findPattern_le h hne
    have hpos := List.length_pos_iff.mpr hne
    rw [List.length_nil] at hlen
    omega
  | cons a l ih =>
    by_cases hocc : Occurs f pat (a :: l)
    · rw [findPattern_of_occurs hocc] at h
      rw [← h]
      exact findPattern_of_occurs ((occurs_append hocc.length_le).mpr hocc)
    · rw [findPattern_cons_of_not hocc] at h
      obtain ⟨j, hj, rfl⟩ := Option.map_eq_some_iff.mp h
      -- the occurrence further back leaves no room for one here that needs what follows
      have hlen := findPattern_le hj hne
      have hnot : ¬ Occurs f pat (a :: (l ++ r)) := by
        intro hnew
        apply hocc
        apply (occurs_append (r := r) _).mp hnew
        rw [List.length_cons]
        omega
      rw [List.cons_append, findPattern_cons_of_not hnot, ih hj]
      rfl

/-- A pattern is found where it is somewhere inside. -/
theorem findPattern_isSome_iff : (findPattern f pat l).isSome ↔ pat.map f <:+: l.map f := by
  induction l with
  | nil =>
    rw [findPattern, List.map_nil, List.infix_nil]
    by_cases hocc : Occurs f pat []
    · rw [if_pos hocc]
      rw [Occurs, List.take_nil, List.map_nil] at hocc
      exact iff_of_true rfl hocc.symm
    · rw [if_neg hocc]
      rw [Occurs, List.take_nil, List.map_nil] at hocc
      exact iff_of_false (by simp) fun h => hocc h.symm
  | cons a l ih =>
    rw [List.map_cons, List.infix_cons_iff, ← ih]
    by_cases hocc : Occurs f pat (a :: l)
    · rw [findPattern_of_occurs hocc]
      refine iff_of_true rfl (.inl ?_)
      rw [← List.map_cons, ← hocc]
      exact (List.take_prefix _ _).map f
    · rw [findPattern_cons_of_not hocc, Option.isSome_map, or_iff_right]
      intro hpre
      apply hocc
      rw [← List.map_cons, List.prefix_iff_eq_take, List.length_map, ← List.map_take] at hpre
      exact hpre.symm

/-- A pattern without the last element of the first part is in one part or in the other. -/
theorem findPattern_append_isSome {c : α} (hlast : l.getLast? = some c) (hc : f c ∉ pat.map f) :
    (findPattern f pat (l ++ r)).isSome ↔
      (findPattern f pat l).isSome ∨ (findPattern f pat r).isSome := by
  rw [findPattern_isSome_iff, findPattern_isSome_iff, findPattern_isSome_iff, List.map_append,
    List.infix_append_iff]
  refine or_congr_right (or_iff_left_of_imp ?_)
  rintro ⟨p, q, hpq, hp, hq⟩
  -- the part that would lie in the first list is empty
  obtain ⟨k, rfl⟩ : ∃ k, l = k ++ [c] := by
    obtain ⟨k, hk⟩ := List.getLast?_eq_some_iff.mp hlast
    exact ⟨k, hk⟩
  rcases List.eq_nil_or_concat p with rfl | ⟨p', b, rfl⟩
  · rw [hpq]
    exact hq.isInfix
  · rw [List.concat_eq_append, List.map_append] at hp
    have hb : b = f c := by
      obtain ⟨t, ht⟩ := hp
      rw [← List.append_assoc] at ht
      exact List.singleton_inj.mp (List.append_inj_right' ht rfl)
    apply absurd _ hc
    rw [hpq, hb]
    simp

end MiniDb.Lib
