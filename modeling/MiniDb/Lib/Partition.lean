import Mathlib.Data.List.Basic
import Mathlib.Data.Int.Order.Basic
import Mathlib.Order.Lattice

/-! # Sorting a part of an array in place

An array is a list that is read by index, and the part from `left` to `right` is given by two
integers, which may cross. An exchange rearranges a part and leaves the rest alone; a partition runs
an index from either end towards the other and exchanges what it finds; two sorted parts around a
pivot are a sorted whole. -/

set_option autoImplicit false

namespace MiniDb.Lib

section Part

variable {α : Type*} {l l' l'' : List α} {a b : α} {i j n : Nat} {left right left' right' : Int}
  {P : α → Prop}

/-- The elements at `i` and `j` exchanged. -/
def swapAt (l : List α) (i j : Nat) : List α :=
  match l[i]?, l[j]? with
  | some a, some b => (l.set i b).set j a
  | _, _ => l

theorem swapAt_eq (hi : l[i]? = some a) (hj : l[j]? = some b) :
    swapAt l i j = (l.set i b).set j a := by
  rw [swapAt, hi, hj]

theorem swapAt_perm (l : List α) (i j : Nat) : (swapAt l i j).Perm l := by
  rw [swapAt]
  split
  · rename_i a b hi hj
    obtain ⟨hlt, rfl⟩ := List.getElem?_eq_some_iff.mp hi
    obtain ⟨hlt', rfl⟩ := List.getElem?_eq_some_iff.mp hj
    exact List.set_set_perm hlt hlt'
  · exact List.Perm.refl l

theorem getElem?_swapAt_left (hi : l[i]? = some a) (hj : l[j]? = some b) :
    (swapAt l i j)[i]? = some b := by
  rw [swapAt_eq hi hj]
  have hlen : i < l.length := (List.getElem?_eq_some_iff.mp hi).1
  by_cases h : j = i
  · subst h
    rw [hi] at hj
    rw [List.getElem?_set_self (by simpa using hlen), hj]
  · rw [List.getElem?_set_ne h, List.getElem?_set_self hlen]

theorem getElem?_swapAt_right (hi : l[i]? = some a) (hj : l[j]? = some b) :
    (swapAt l i j)[j]? = some a := by
  rw [swapAt_eq hi hj]
  exact List.getElem?_set_self (by simpa using (List.getElem?_eq_some_iff.mp hj).1)

theorem getElem?_swapAt_ne (hi : n ≠ i) (hj : n ≠ j) : (swapAt l i j)[n]? = l[n]? := by
  rw [swapAt]
  split
  · rw [List.getElem?_set_ne hj.symm, List.getElem?_set_ne hi.symm]
  · rfl

/-- What holds of every element from `left` to `right`. -/
def AllBetween (P : α → Prop) (left right : Int) (l : List α) : Prop :=
  ∀ (n : Nat) (a : α), left ≤ n → (n : Int) ≤ right → l[n]? = some a → P a

/-- The elements from `left` to `right` are in another order, the others in their places. -/
structure Rearranged (left right : Int) (l l' : List α) : Prop where
  perm : l'.Perm l
  outside : ∀ n : Nat, (n : Int) < left ∨ right < n → l'[n]? = l[n]?

theorem Rearranged.refl (left right : Int) (l : List α) : Rearranged left right l l :=
  ⟨List.Perm.refl l, fun _ _ => rfl⟩

theorem Rearranged.trans (h : Rearranged left right l l') (h' : Rearranged left right l' l'') :
    Rearranged left right l l'' :=
  ⟨h'.perm.trans h.perm, fun n hn => (h'.outside n hn).trans (h.outside n hn)⟩

theorem Rearranged.mono (h : Rearranged left right l l') (hl : left' ≤ left)
    (hr : right ≤ right') : Rearranged left' right' l l' :=
  ⟨h.perm, fun n hn => h.outside n (by omega)⟩

theorem Rearranged.swapAt (hi : left ≤ i ∧ (i : Int) ≤ right) (hj : left ≤ j ∧ (j : Int) ≤ right) :
    Rearranged left right l (swapAt l i j) :=
  ⟨swapAt_perm l i j, fun n hn => getElem?_swapAt_ne (by omega) (by omega)⟩

theorem Rearranged.length_eq (h : Rearranged left right l l') : l'.length = l.length :=
  h.perm.length_eq

/-- The part holds what it held before. -/
theorem Rearranged.part_perm (h : Rearranged left right l l') :
    ((l'.drop left.toNat).take ((right + 1).toNat - left.toNat)).Perm
      ((l.drop left.toNat).take ((right + 1).toNat - left.toNat)) := by
  obtain ⟨lo, hlo⟩ : ∃ lo, lo = left.toNat := ⟨_, rfl⟩
  obtain ⟨len, hlen⟩ : ∃ len, len = (right + 1).toNat - lo := ⟨_, rfl⟩
  rw [← hlo, ← hlen]
  have hfront : l'.take lo = l.take lo := by
    apply List.ext_getElem?
    intro m
    rw [List.getElem?_take, List.getElem?_take]
    split
    · exact h.outside m (by omega)
    · rfl
  have hback : (l'.drop lo).drop len = (l.drop lo).drop len := by
    apply List.ext_getElem?
    intro m
    simp only [List.getElem?_drop]
    exact h.outside _ (by omega)
  -- the two arrays agree in front of the part and behind it, so their parts are permutations
  have hperm := h.perm
  rwa [← List.take_append_drop lo l', ← List.take_append_drop lo l, hfront,
    List.perm_append_left_iff, ← List.take_append_drop len (l'.drop lo),
    ← List.take_append_drop len (l.drop lo), hback, List.perm_append_right_iff] at hperm

theorem Rearranged.exists_getElem? (h : Rearranged left right l l') (hl : left ≤ n)
    (hr : (n : Int) ≤ right) (hn : l'[n]? = some a) :
    ∃ m : Nat, left ≤ m ∧ (m : Int) ≤ right ∧ l[m]? = some a := by
  have hmem : a ∈ (l'.drop left.toNat).take ((right + 1).toNat - left.toNat) := by
    apply List.mem_of_getElem? (i := n - left.toNat)
    rw [List.getElem?_take, if_pos (by omega), List.getElem?_drop,
      show left.toNat + (n - left.toNat) = n by omega, hn]
  obtain ⟨m, hm⟩ := List.mem_iff_getElem?.mp (h.part_perm.mem_iff.mp hmem)
  rw [List.getElem?_take, List.getElem?_drop] at hm
  split at hm
  · exact ⟨left.toNat + m, by omega, by omega, hm⟩
  · cases hm

theorem Rearranged.allBetween (h : Rearranged left right l l') (hP : AllBetween P left right l) :
    AllBetween P left right l' := by
  intro n a hl hr hn
  obtain ⟨m, hml, hmr, hm⟩ := h.exists_getElem? hl hr hn
  exact hP m a hml hmr hm

/-- A part apart from the rearranged one. -/
theorem Rearranged.allBetween_of_disjoint (h : Rearranged left right l l')
    (hP : AllBetween P left' right' l) (hdisj : right' < left ∨ right < left') :
    AllBetween P left' right' l' := by
  intro n a hl hr hn
  rw [h.outside n (by omega)] at hn
  exact hP n a hl hr hn

end Part

section Key

variable {α κ : Type*} [LinearOrder κ] {key : α → κ} {p : κ} {l₀ l l' l'' : List α} {a b : α}
  {left right i j i' j' : Int} {m : Nat}

/-! ## Sorted parts -/

/-- The elements from `left` to `right` are in the order of their keys. -/
def SortedBetween (key : α → κ) (left right : Int) (l : List α) : Prop :=
  ∀ (m n : Nat) (a b : α), left ≤ m → m ≤ n → (n : Int) ≤ right → l[m]? = some a →
    l[n]? = some b → key a ≤ key b

theorem sortedBetween_of_le (h : right ≤ left) (l : List α) : SortedBetween key left right l := by
  intro m n a b hm hmn hn ha hb
  obtain rfl : m = n := by omega
  rw [ha] at hb
  rw [Option.some.inj hb]

theorem SortedBetween.pairwise (h : SortedBetween key 0 (l.length - 1) l) :
    l.Pairwise fun a b => key a ≤ key b := by
  rw [List.pairwise_iff_getElem]
  intro m n hm hn hmn
  exact h m n _ _ (by omega) (Nat.le_of_lt hmn) (by omega) (List.getElem?_eq_getElem hm)
    (List.getElem?_eq_getElem hn)

/-- Two parts, sorted one after the other: the first has keys up to `p`, the second from `p` on, and
what is between them has the key `p`. -/
theorem SortedBetween.join (hji : j < i) (hlow : AllBetween (key · ≤ p) left (i - 1) l)
    (hhigh : AllBetween (p ≤ key ·) (j + 1) right l) (hre : Rearranged left j l l')
    (hsorted : SortedBetween key left j l') (hre' : Rearranged i right l' l'')
    (hsorted' : SortedBetween key i right l'') :
    SortedBetween key left right l'' := by
  have hlow' : AllBetween (key · ≤ p) left (i - 1) l'' := by
    have hmid : AllBetween (key · ≤ p) left (i - 1) l' := by
      intro n c hl hr hc
      by_cases hn : (n : Int) ≤ j
      · exact hre.allBetween (fun n c hl hr => hlow n c hl (by omega)) n c hl hn hc
      · rw [hre.outside n (by omega)] at hc
        exact hlow n c hl hr hc
    exact hre'.allBetween_of_disjoint hmid (.inl (by omega))
  have hhigh' : AllBetween (p ≤ key ·) (j + 1) right l'' := by
    have hmid : AllBetween (p ≤ key ·) (j + 1) right l' :=
      hre.allBetween_of_disjoint hhigh (.inr (by omega))
    intro n c hl hr hc
    by_cases hn : i ≤ (n : Int)
    · exact hre'.allBetween (fun n c hl hr => hmid n c (by omega) hr) n c hn hr hc
    · rw [hre'.outside n (by omega)] at hc
      exact hmid n c hl hr hc
  intro m n a b hm hmn hn ha hb
  by_cases hnj : (n : Int) ≤ j
  · rw [hre'.outside m (by omega)] at ha
    rw [hre'.outside n (by omega)] at hb
    exact hsorted m n a b hm hmn hnj ha hb
  · by_cases hmi : i ≤ (m : Int)
    · exact hsorted' m n a b hmi hmn hn ha hb
    · exact le_trans (hlow' m a hm (by omega) ha) (hhigh' n b (by omega) hn hb)

/-! ## Partitioning -/

/-- In the middle of a partition by the pivot `p`: what `i` has passed has keys up to `p`, what `j`
has passed has keys from `p` on, either index meets an element that stops it, and neither stays
where it began. -/
structure Zone (key : α → κ) (p : κ) (left right : Int) (l₀ l : List α) (i j : Int) : Prop where
  rearranged : Rearranged left right l₀ l
  left_le : left ≤ i
  le_right : j ≤ right
  low : AllBetween (key · ≤ p) left (i - 1) l
  high : AllBetween (p ≤ key ·) (j + 1) right l
  stopUp : i ≤ j → ∃ (n : Nat) (a : α), i ≤ n ∧ (n : Int) ≤ right ∧ l[n]? = some a ∧ p ≤ key a
  stopDown : i ≤ j → ∃ (n : Nat) (a : α), left ≤ n ∧ (n : Int) ≤ j ∧ l[n]? = some a ∧ key a ≤ p
  moved : (left < i ∧ j < right) ∨
    ∃ (n : Nat) (a : α), i ≤ n ∧ (n : Int) ≤ j ∧ l[n]? = some a ∧ key a = p

theorem Zone.start (hl : left ≤ m) (hr : (m : Int) ≤ right) (hm : l[m]? = some a) :
    Zone key (key a) left right l l left right where
  rearranged := Rearranged.refl left right l
  left_le := le_refl left
  le_right := le_refl right
  low := fun n b hl hr => by omega
  high := fun n b hl hr => by omega
  stopUp := fun _ => ⟨m, a, hl, hr, hm, le_refl _⟩
  stopDown := fun _ => ⟨m, a, hl, hr, hm, le_refl _⟩
  moved := .inr ⟨m, a, hl, hr, hm, rfl⟩

/-- `i` goes up over smaller keys. -/
theorem Zone.up (h : Zone key p left right l₀ l i j) (hle : i ≤ i')
    (hless : AllBetween (key · < p) i (i' - 1) l) :
    Zone key p left right l₀ l i' j where
  rearranged := h.rearranged
  left_le := le_trans h.left_le hle
  le_right := h.le_right
  low := by
    intro n a hl hn ha
    by_cases hi : i ≤ (n : Int)
    · exact le_of_lt (hless n a hi hn ha)
    · exact h.low n a hl (by omega) ha
  high := h.high
  stopUp := by
    intro hij
    obtain ⟨n, a, hn, hnr, ha, hp⟩ := h.stopUp (by omega)
    refine ⟨n, a, ?_, hnr, ha, hp⟩
    by_contra hlt
    exact absurd (hless n a hn (by omega) ha) (not_lt.mpr hp)
  stopDown := fun hij => h.stopDown (by omega)
  moved := by
    rcases h.moved with ⟨hi, hj⟩ | ⟨n, a, hn, hnj, ha, hp⟩
    · exact .inl ⟨by omega, hj⟩
    · refine .inr ⟨n, a, ?_, hnj, ha, hp⟩
      by_contra hlt
      exact absurd (hless n a hn (by omega) ha) (not_lt.mpr hp.ge)

/-- `j` goes down over greater keys. -/
theorem Zone.down (h : Zone key p left right l₀ l i j) (hle : j' ≤ j)
    (hmore : AllBetween (p < key ·) (j' + 1) j l) : Zone key p left right l₀ l i j' where
  rearranged := h.rearranged
  left_le := h.left_le
  le_right := le_trans hle h.le_right
  low := h.low
  high := by
    intro n a hn hr ha
    by_cases hj : (n : Int) ≤ j
    · exact le_of_lt (hmore n a hn hj ha)
    · exact h.high n a (by omega) hr ha
  stopUp := fun hij => h.stopUp (by omega)
  stopDown := by
    intro hij
    obtain ⟨n, a, hl, hnj, ha, hp⟩ := h.stopDown (by omega)
    refine ⟨n, a, hl, ?_, ha, hp⟩
    by_contra hlt
    exact absurd (hmore n a (by omega) hnj ha) (not_lt.mpr hp)
  moved := by
    rcases h.moved with ⟨hi, hj⟩ | ⟨n, a, hn, hnj, ha, hp⟩
    · exact .inl ⟨hi, by omega⟩
    · refine .inr ⟨n, a, hn, ?_, ha, hp⟩
      by_contra hlt
      exact absurd (hmore n a (by omega) hnj ha) (not_lt.mpr hp.le)

/-- The two elements that stopped the indices change places. -/
theorem Zone.exchange {i j : Nat} (h : Zone key p left right l₀ l i j) (hij : i ≤ j)
    (hi : l[i]? = some a) (ha : p ≤ key a) (hj : l[j]? = some b) (hb : key b ≤ p) :
    Zone key p left right l₀ (swapAt l i j) (i + 1) (j - 1) := by
  have hl := h.left_le
  have hr := h.le_right
  have hi' := getElem?_swapAt_left hi hj
  have hj' := getElem?_swapAt_right hi hj
  exact {
    rearranged := h.rearranged.trans (Rearranged.swapAt (by omega) (by omega))
    left_le := by omega
    le_right := by omega
    low := by
      intro n c hn hni hc
      by_cases hin : n = i
      · subst hin
        rw [hi'] at hc
        exact Option.some.inj hc ▸ hb
      · rw [getElem?_swapAt_ne hin (by omega)] at hc
        exact h.low n c hn (by omega) hc
    high := by
      intro n c hn hnr hc
      by_cases hjn : n = j
      · subst hjn
        rw [hj'] at hc
        exact Option.some.inj hc ▸ ha
      · rw [getElem?_swapAt_ne (by omega) hjn] at hc
        exact h.high n c (by omega) hnr hc
    stopUp := fun hlt => ⟨j, a, by omega, by omega, hj', ha⟩
    stopDown := fun hlt => ⟨i, b, by omega, by omega, hi', hb⟩
    moved := .inl ⟨by omega, by omega⟩ }

/-- Once the indices have passed each other, both have moved. -/
theorem Zone.moved_of_lt (h : Zone key p left right l₀ l i j) (hji : j < i) :
    left < i ∧ j < right := by
  rcases h.moved with hmoved | ⟨n, a, hn, hnj, -, -⟩
  · exact hmoved
  · omega

end Key

end MiniDb.Lib
