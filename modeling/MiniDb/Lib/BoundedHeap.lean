import Mathlib.Data.List.Sort
import MiniDb.Lib.Partition

/-! # A heap of the least elements

A max-heap in an array, element `n` below element `(n - 1) / 2`. An element that is out of place goes
up or down by exchanges, and at most one pair is out of order all the while. A heap that holds at
most `n` elements, and gives up its root for a lesser one, holds the `n` least of those it was
offered. -/

set_option autoImplicit false

namespace MiniDb.Lib

variable {α κ : Type*} [LinearOrder κ] {key : α → κ} {l : List α} {a b x : α} {idx n w : Nat}

/-- The place above. -/
def parent (n : Nat) : Nat := (n - 1) / 2

theorem parent_lt (h : 0 < n) : parent n < n := by
  unfold parent
  omega

theorem parent_eq_iff (h : 0 < n) : parent n = idx ↔ n = idx * 2 + 1 ∨ n = idx * 2 + 1 + 1 := by
  unfold parent
  omega

/-- The element at `n` is not above the one at `m`. -/
def BelowAt (key : α → κ) (l : List α) (n m : Nat) : Prop :=
  ∀ a b, l[n]? = some a → l[m]? = some b → key a ≤ key b

/-- Every element is below the one at its parent. -/
def HeapOrdered (key : α → κ) (l : List α) : Prop := ∀ n, 0 < n → BelowAt key l n (parent n)

theorem heapOrdered_nil : HeapOrdered key ([] : List α) := by
  intro n _ a b ha
  simp at ha

/-- The root is above every element. -/
theorem HeapOrdered.root (h : HeapOrdered key l) (n : Nat) : BelowAt key l n 0 := by
  induction n using Nat.strongRecOn with
  | _ n ih =>
    intro a b ha hb
    rcases Nat.eq_zero_or_pos n with rfl | hn
    · rw [ha] at hb
      rw [Option.some.inj hb]
    · have hlt : parent n < l.length :=
        lt_trans (parent_lt hn) (List.getElem?_eq_some_iff.mp ha).1
      have hp := List.getElem?_eq_getElem hlt
      exact le_trans (h n hn a _ ha hp) (ih (parent n) (parent_lt hn) _ b hp hb)

/-! ## Going up -/

/-- All is in order but the element at `idx`, which may be above its parent. -/
structure UpOrdered (key : α → κ) (l : List α) (idx : Nat) : Prop where
  off : ∀ n, 0 < n → n ≠ idx → BelowAt key l n (parent n)
  grand : 0 < idx → ∀ n, 0 < n → parent n = idx → BelowAt key l n (parent idx)

theorem HeapOrdered.append (h : HeapOrdered key l) (x : α) :
    UpOrdered key (l ++ [x]) l.length where
  off := by
    intro n hn hne a b ha hb
    have hlt : n < l.length := by
      have hlen := (List.getElem?_eq_some_iff.mp ha).1
      rw [List.length_append, List.length_singleton] at hlen
      omega
    rw [List.getElem?_append_left hlt] at ha
    rw [List.getElem?_append_left (lt_trans (parent_lt hn) hlt)] at hb
    exact h n hn a b ha hb
  grand := by
    intro _ n hn hpar a b ha
    -- there is nothing below the last place
    have hlen := (List.getElem?_eq_some_iff.mp ha).1
    have hlt := parent_lt hn
    rw [List.length_append, List.length_singleton] at hlen
    omega

theorem UpOrdered.swap (h : UpOrdered key l idx) (hpos : 0 < idx) (ha : l[idx]? = some a)
    (hb : l[parent idx]? = some b) (hlt : key b ≤ key a) :
    UpOrdered key (swapAt l idx (parent idx)) (parent idx) := by
  have hup := parent_lt hpos
  have hidx := getElem?_swapAt_left ha hb
  have hpar := getElem?_swapAt_right ha hb
  constructor
  · intro n hn hne c d hc hd
    by_cases hni : n = idx
    · subst hni
      rw [hidx] at hc
      rw [hpar] at hd
      rwa [← Option.some.inj hc, ← Option.some.inj hd]
    · rw [getElem?_swapAt_ne hni hne] at hc
      by_cases hpi : parent n = idx
      · -- the children of the old place come below its parent
        rw [hpi, hidx] at hd
        exact h.grand hpos n hn hpi c d hc (hb.trans hd)
      · by_cases hpp : parent n = parent idx
        · rw [hpp, hpar] at hd
          rw [← Option.some.inj hd]
          exact le_trans (h.off n hn hni c b hc (hpp ▸ hb)) hlt
        · rw [getElem?_swapAt_ne hpi hpp] at hd
          exact h.off n hn hni c d hc hd
  · intro hpos' n hn hpn c d hc hd
    have hup' := parent_lt hpos'
    rw [getElem?_swapAt_ne (by omega) (by omega)] at hd
    have habove := h.off (parent idx) hpos' (by omega) b d hb hd
    by_cases hni : n = idx
    · subst hni
      rw [hidx] at hc
      rwa [← Option.some.inj hc]
    · have hlow := parent_lt hn
      rw [getElem?_swapAt_ne hni (by omega)] at hc
      exact le_trans (h.off n hn hni c b hc (hpn ▸ hb)) habove

theorem UpOrdered.done (h : UpOrdered key l idx) (hstop : 0 < idx → BelowAt key l idx (parent idx)) :
    HeapOrdered key l := by
  intro n hn
  by_cases hni : n = idx
  · subst hni
    exact hstop hn
  · exact h.off n hn hni

/-! ## Going down -/

/-- All is in order but the element at `idx`, which may be below its children. -/
structure DownOrdered (key : α → κ) (l : List α) (idx : Nat) : Prop where
  off : ∀ n, 0 < n → parent n ≠ idx → BelowAt key l n (parent n)
  grand : 0 < idx → ∀ n, 0 < n → parent n = idx → BelowAt key l n (parent idx)

theorem HeapOrdered.setRoot (h : HeapOrdered key l) (x : α) : DownOrdered key (l.set 0 x) 0 where
  off := by
    intro n hn hne a b ha hb
    rw [List.getElem?_set_ne (by omega)] at ha
    rw [List.getElem?_set_ne (by omega)] at hb
    exact h n hn a b ha hb
  grand := fun hpos => by omega

theorem DownOrdered.swap (h : DownOrdered key l idx) (hw : 0 < w) (hchild : parent w = idx)
    (ha : l[idx]? = some a) (hb : l[w]? = some b) (hle : key a ≤ key b)
    (hworst : ∀ n, 0 < n → parent n = idx → BelowAt key l n w) :
    DownOrdered key (swapAt l idx w) w := by
  have hdown := parent_lt hw
  have hidx := getElem?_swapAt_left ha hb
  have hwst := getElem?_swapAt_right ha hb
  constructor
  · intro n hn hne c d hc hd
    by_cases hni : n = idx
    · subst hni
      have hup := parent_lt hn
      rw [hidx] at hc
      rw [getElem?_swapAt_ne (by omega) (by omega)] at hd
      -- the child that has gone up was below its grandparent
      rw [← Option.some.inj hc]
      exact h.grand hn w hw hchild b d hb hd
    · by_cases hnw : n = w
      · subst hnw
        rw [hwst] at hc
        rw [hchild, hidx] at hd
        rwa [← Option.some.inj hc, ← Option.some.inj hd]
      · rw [getElem?_swapAt_ne hni hnw] at hc
        by_cases hpi : parent n = idx
        · rw [hpi, hidx] at hd
          exact hworst n hn hpi c d hc (hb.trans hd)
        · rw [getElem?_swapAt_ne hpi hne] at hd
          exact h.off n hn hpi c d hc hd
  · intro _ n hn hpn c d hc hd
    have hup := parent_lt hn
    rw [hchild, hidx] at hd
    rw [getElem?_swapAt_ne (by omega) (by omega)] at hc
    rw [← Option.some.inj hd]
    exact h.off n hn (by omega) c b hc (hpn ▸ hb)

theorem DownOrdered.done (h : DownOrdered key l idx)
    (hstop : ∀ n, 0 < n → parent n = idx → BelowAt key l n idx) : HeapOrdered key l := by
  intro n hn
  by_cases hpi : parent n = idx
  · rw [hpi]
    exact hstop n hn hpi
  · exact h.off n hn hpi

/-! ## The least elements -/

/-- A list sorted by its keys. -/
theorem pairwise_mergeSort_key (key : α → κ) (l : List α) :
    (l.mergeSort fun a b => decide (key a ≤ key b)).Pairwise fun a b => key a ≤ key b := by
  refine List.Pairwise.imp of_decide_eq_true (List.pairwise_mergeSort ?_ ?_ l)
  · intro a b c hab hbc
    exact decide_eq_true (le_trans (of_decide_eq_true hab) (of_decide_eq_true hbc))
  · intro a b
    simpa using le_total (key a) (key b)

/-- `kept` are `n` elements of `seen`, or all of them, and none of the others has a lesser key. -/
def KeepsLeast (key : α → κ) (n : Nat) (seen kept : List α) : Prop :=
  ∃ rest, seen.Perm (kept ++ rest) ∧ kept.length = min n seen.length ∧
    ∀ a ∈ kept, ∀ b ∈ rest, key a ≤ key b

section Least

variable {seen kept kept' others : List α} {top : α}

theorem keepsLeast_nil (n : Nat) : KeepsLeast key n ([] : List α) [] :=
  ⟨[], List.Perm.refl [], by simp, by simp⟩

theorem KeepsLeast.length_eq (h : KeepsLeast key n seen kept) :
    kept.length = min n seen.length := by
  obtain ⟨rest, -, hlen, -⟩ := h
  exact hlen

theorem KeepsLeast.subperm (h : KeepsLeast key n seen kept) : kept.Subperm seen := by
  obtain ⟨rest, hperm, -, -⟩ := h
  exact (List.sublist_append_left kept rest).subperm.trans hperm.symm.subperm

theorem KeepsLeast.perm (h : KeepsLeast key n seen kept) (hperm : kept'.Perm kept) :
    KeepsLeast key n seen kept' := by
  obtain ⟨rest, hseen, hlen, hle⟩ := h
  exact ⟨rest, hseen.trans (hperm.symm.append_right rest), hperm.length_eq.trans hlen,
    fun a ha => hle a (hperm.mem_iff.mp ha)⟩

/-- Below the limit all are kept. -/
theorem KeepsLeast.add (h : KeepsLeast key n seen kept) (hlt : kept.length < n) (x : α) :
    KeepsLeast key n (seen ++ [x]) (kept ++ [x]) := by
  obtain ⟨rest, hseen, hlen, -⟩ := h
  have hseenlen := hseen.length_eq
  rw [List.length_append] at hseenlen
  obtain rfl : rest = [] := List.length_eq_zero_iff.mp (by omega)
  rw [List.append_nil] at hseen
  refine ⟨[], ?_, ?_, by simp⟩
  · rw [List.append_nil]
    exact hseen.append_right [x]
  · rw [List.length_append, List.length_append, List.length_singleton]
    omega

/-- At the limit an element that is not less than any is refused. -/
theorem KeepsLeast.refuse (h : KeepsLeast key n seen kept) (hfull : n ≤ kept.length)
    (hx : ∀ a ∈ kept, key a ≤ key x) : KeepsLeast key n (seen ++ [x]) kept := by
  obtain ⟨rest, hseen, hlen, hle⟩ := h
  refine ⟨rest ++ [x], ?_, ?_, ?_⟩
  · rw [← List.append_assoc]
    exact hseen.append_right [x]
  · rw [List.length_append]
    omega
  · intro a ha b hb
    rcases List.mem_append.mp hb with hb | hb
    · exact hle a ha b hb
    · rw [List.mem_singleton.mp hb]
      exact hx a ha

/-- At the limit a lesser element takes the place of a greatest one. -/
theorem KeepsLeast.replace (h : KeepsLeast key n seen (top :: others)) (hfull : n ≤ others.length + 1)
    (htop : ∀ a ∈ others, key a ≤ key top) (hx : key x ≤ key top) :
    KeepsLeast key n (seen ++ [x]) (x :: others) := by
  obtain ⟨rest, hseen, hlen, hle⟩ := h
  refine ⟨top :: rest, ?_, ?_, ?_⟩
  · refine (hseen.append_right [x]).trans ((List.perm_append_comm).trans ?_)
    show (x :: (top :: (others ++ rest))).Perm (x :: (others ++ top :: rest))
    exact List.Perm.cons x List.perm_middle.symm
  · rw [List.length_append]
    rw [List.length_cons] at hlen ⊢
    omega
  · intro a ha b hb
    have hatop : key a ≤ key top := by
      rcases List.mem_cons.mp ha with rfl | ha
      · exact hx
      · exact htop a ha
    rcases List.mem_cons.mp hb with rfl | hb
    · exact hatop
    · exact le_trans hatop (hle top List.mem_cons_self b hb)

/-- The least elements in order have the first of all the keys in order. -/
theorem KeepsLeast.map_key_eq (h : KeepsLeast key n seen kept)
    (hkept : kept.Pairwise fun a b => key a ≤ key b) {keys : List κ}
    (hkeys : keys.Perm (seen.map key)) (hsorted : keys.Pairwise (· ≤ ·)) :
    kept.map key = keys.take n := by
  obtain ⟨rest, hseen, hlen, hle⟩ := h
  obtain ⟨rest', hrest', hsorted'⟩ : ∃ rest' : List α, rest'.Perm rest ∧
      rest'.Pairwise fun a b => key a ≤ key b :=
    ⟨_, List.mergeSort_perm _ _, pairwise_mergeSort_key key rest⟩
  have hall : (kept ++ rest').Pairwise fun a b => key a ≤ key b :=
    List.pairwise_append.mpr ⟨hkept, hsorted', fun a ha b hb => hle a ha b (hrest'.mem_iff.mp hb)⟩
  -- two sorted lists of the same keys are one
  have heq : keys = (kept ++ rest').map key := by
    apply List.Perm.eq_of_sortedLE hsorted.sortedLE (List.pairwise_map.mpr hall).sortedLE
    exact hkeys.trans ((hseen.trans (hrest'.symm.append_left kept)).map key)
  have hlen' := hseen.length_eq
  rw [List.length_append] at hlen'
  rw [heq, List.map_append]
  by_cases hn : n ≤ seen.length
  · have hkeep : n = (kept.map key).length := by
      rw [List.length_map]
      omega
    rw [hkeep, List.take_left]
  · obtain rfl : rest = [] := List.length_eq_zero_iff.mp (by omega)
    rw [List.perm_nil.mp hrest', List.map_nil, List.append_nil]
    rw [List.take_of_length_le (by rw [List.length_map]; omega)]

end Least

end MiniDb.Lib
