import Mathlib.Data.List.Nodup
import Mathlib.Data.List.Pairwise

/-! # Levels and preorder

The nodes below a node of a graph of children, level by level and in the order in which a recursive
walk meets them: a node before its children, the children from left to right. The walk goes down a
fixed number of steps, so both orders are lists whatever the graph looks like. The nodes that a walk
meets at one depth are the nodes of one level, in the same order. -/

set_option autoImplicit false

namespace MiniDb.Lib

universe u

variable {α : Type u} (children : α → List α)

/-- The nodes `k` steps below a node, from left to right. -/
def level : Nat → α → List α
  | 0, p => [p]
  | k + 1, p => (children p).flatMap (level k)

/-- The nodes at most `k` steps below a node of depth `d`, each with its depth. -/
def preorder : Nat → Nat → α → List (Nat × α)
  | 0, d, p => [(d, p)]
  | k + 1, d, p => (d, p) :: (children p).flatMap (preorder k (d + 1))

/-- The nodes of one depth in a walk. -/
def atDepth (nodes : List (Nat × α)) (d : Nat) : List α :=
  (nodes.filter (·.1 = d)).map Prod.snd

section

variable {children} {k d e j : Nat} {p q : α} {l l' : List (Nat × α)}

theorem mem_level_succ :
    q ∈ level children (k + 1) p ↔ ∃ r ∈ level children k p, q ∈ children r := by
  induction k generalizing p with
  | zero => simp [level]
  | succ k ih =>
    rw [level, List.mem_flatMap]
    constructor
    · intro hq
      obtain ⟨c, hc, hq⟩ := hq
      obtain ⟨r, hr, hq⟩ := ih.mp hq
      exact ⟨r, List.mem_flatMap.mpr ⟨c, hc, hr⟩, hq⟩
    · intro hq
      obtain ⟨r, hr, hq⟩ := hq
      obtain ⟨c, hc, hr⟩ := List.mem_flatMap.mp hr
      exact ⟨c, hc, ih.mpr ⟨r, hr, hq⟩⟩

/-- The next level has the children of this one. -/
theorem level_succ : level children (k + 1) p = (level children k p).flatMap children := by
  induction k generalizing p with
  | zero => simp [level]
  | succ k ih =>
    rw [level, level, List.flatMap_assoc]
    exact List.flatMap_congr fun c _ => ih

@[simp] theorem atDepth_nil : atDepth ([] : List (Nat × α)) d = [] := rfl

@[simp] theorem atDepth_append : atDepth (l ++ l') d = atDepth l d ++ atDepth l' d := by
  simp [atDepth]

theorem atDepth_cons_self : atDepth ((d, p) :: l) d = p :: atDepth l d := by
  simp [atDepth]

theorem atDepth_cons_of_ne (h : e ≠ d) : atDepth ((e, p) :: l) d = atDepth l d := by
  simp [atDepth, h]

theorem mem_atDepth : q ∈ atDepth l d ↔ (d, q) ∈ l := by
  simp [atDepth]

theorem atDepth_flatMap {f : α → List (Nat × α)} (ps : List α) :
    atDepth (ps.flatMap f) d = ps.flatMap fun p => atDepth (f p) d := by
  induction ps with
  | nil => rfl
  | cons p ps ih => rw [List.flatMap_cons, atDepth_append, ih, List.flatMap_cons]

/-- A walk stays between the depth it starts at and the steps it may go down. -/
theorem depth_of_mem_preorder (h : (e, q) ∈ preorder children k d p) : d ≤ e ∧ e ≤ d + k := by
  induction k generalizing d p with
  | zero =>
    obtain ⟨rfl, -⟩ := Prod.mk.inj (List.mem_singleton.mp h)
    omega
  | succ k ih =>
    rcases List.mem_cons.mp h with heq | hrest
    · obtain ⟨rfl, -⟩ := Prod.mk.inj heq
      omega
    · obtain ⟨c, -, hc⟩ := List.mem_flatMap.mp hrest
      have := ih hc
      omega

/-- **A walk meets the nodes of each level in their order.** -/
theorem atDepth_preorder (hj : j ≤ k) :
    atDepth (preorder children k d p) (d + j) = level children j p := by
  induction k generalizing d p j with
  | zero =>
    obtain rfl : j = 0 := Nat.le_zero.mp hj
    exact atDepth_cons_self
  | succ k ih =>
    rw [preorder]
    cases j with
    | zero =>
      -- below the root of the walk every depth is greater
      have hbelow : atDepth ((children p).flatMap (preorder children k (d + 1))) d = [] := by
        rw [List.eq_nil_iff_forall_not_mem]
        intro q hq
        obtain ⟨c, -, hc⟩ := List.mem_flatMap.mp (mem_atDepth.mp hq)
        have := (depth_of_mem_preorder hc).1
        omega
      calc atDepth ((d, p) :: (children p).flatMap (preorder children k (d + 1))) d
          = p :: atDepth ((children p).flatMap (preorder children k (d + 1))) d := atDepth_cons_self
        _ = [p] := by rw [hbelow]
    | succ j =>
      have hchild : ∀ c, atDepth (preorder children k (d + 1) c) (d + (j + 1)) =
          level children j c := by
        intro c
        rw [show d + (j + 1) = d + 1 + j by omega]
        exact ih (by omega)
      rw [atDepth_cons_of_ne (by omega), atDepth_flatMap, level]
      exact List.flatMap_congr fun c _ => hchild c

theorem mem_preorder :
    (e, q) ∈ preorder children k d p ↔ ∃ j ≤ k, e = d + j ∧ q ∈ level children j p := by
  constructor
  · intro h
    obtain ⟨hle, hge⟩ := depth_of_mem_preorder h
    obtain ⟨j, rfl⟩ := Nat.exists_eq_add_of_le hle
    refine ⟨j, by omega, rfl, ?_⟩
    rw [← atDepth_preorder (k := k) (d := d) (by omega)]
    exact mem_atDepth.mpr h
  · intro h
    obtain ⟨j, hj, rfl, hq⟩ := h
    rw [← atDepth_preorder (k := k) (d := d) hj] at hq
    exact mem_atDepth.mp hq

/-- A walk repeats no node where no level repeats one and no node is on two levels. -/
theorem preorder_nodup (hlevel : ∀ j ≤ k, (level children j p).Nodup)
    (hone : ∀ i ≤ k, ∀ j ≤ k, ∀ q ∈ level children i p, q ∈ level children j p → i = j) :
    ((preorder children k d p).map Prod.snd).Nodup := by
  classical
  apply List.Nodup.map_on
  · intro x hx y hy hxy
    obtain ⟨i, hi, hxi, hpx⟩ := mem_preorder.mp (show (x.1, x.2) ∈ _ from hx)
    obtain ⟨j, hj, hyj, hpy⟩ := mem_preorder.mp (show (y.1, y.2) ∈ _ from hy)
    obtain rfl : i = j := hone i hi j hj x.2 hpx (hxy ▸ hpy)
    exact Prod.ext (hxi.trans hyj.symm) hxy
  · rw [List.nodup_iff_count_le_one]
    intro x
    obtain ⟨e, q⟩ := x
    by_cases hmem : (e, q) ∈ preorder children k d p
    · obtain ⟨j, hj, rfl, -⟩ := mem_preorder.mp hmem
      have hcount : ((preorder children k d p).filter (·.1 = d + j)).count (d + j, q) ≤
          (level children j p).count q := by
        rw [← atDepth_preorder (k := k) (d := d) hj, atDepth]
        exact List.count_le_count_map (f := Prod.snd) (x := (d + j, q))
      rw [List.count_filter (by simp)] at hcount
      exact Nat.le_trans hcount (List.nodup_iff_count_le_one.mp (hlevel j hj) q)
    · rw [List.count_eq_zero_of_not_mem hmem]
      exact Nat.zero_le 1

end

end MiniDb.Lib
