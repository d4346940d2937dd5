import Mathlib.Data.List.Chain

/-! # Doubly linked lists held in two link functions

Nodes are values of a type `α` with a null value `nil`; `next` and `prev` give the links. A
*segment* `Seg a l b` says that walking right from `a` one meets exactly the nodes of `l` and
then `b`, and walking left from `b` the same nodes in reverse. A whole list is a segment between
two nulls. The rules below are the ones an in-place insertion or removal needs: where the list
is cut, which links change, and that all other links may stay. -/

set_option autoImplicit false

namespace MiniDb.Lib

variable {α : Type*}

/-- The two links between neighbours `a` and `b`; a null has no links of its own. -/
def Link (nil : α) (next prev : α → α) (a b : α) : Prop :=
  (a ≠ nil → next a = b) ∧ (b ≠ nil → prev b = a)

/-- The nodes `l` stand, linked both ways, between `a` and `b`. -/
def Seg (nil : α) (next prev : α → α) (a : α) (l : List α) (b : α) : Prop :=
  List.IsChain (Link nil next prev) (a :: (l ++ [b]))

/-- `l` is a complete list, null-terminated at both ends. -/
def DoublyLinked (nil : α) (next prev : α → α) (l : List α) : Prop :=
  Seg nil next prev nil l nil

section Seg

variable {nil : α} {next prev next' prev' : α → α} {a b c : α} {l r : List α}

@[simp] theorem seg_nil : Seg nil next prev a [] b ↔ Link nil next prev a b := by
  simp [Seg]

@[simp] theorem seg_cons :
    Seg nil next prev a (c :: l) b ↔ Link nil next prev a c ∧ Seg nil next prev c l b := by
  simp [Seg]

/-- A segment is cut at any of its nodes. -/
theorem seg_append_cons :
    Seg nil next prev a (l ++ c :: r) b ↔ Seg nil next prev a l c ∧ Seg nil next prev c r b := by
  induction l generalizing a with
  | nil => simp
  | cons x l ih => simp [ih, and_assoc]

/-- A segment only depends on the right links of `a :: l` and the left links of `l ++ [b]`. -/
theorem Seg.congr (h : Seg nil next prev a l b)
    (hn : ∀ x ∈ a :: l, x ≠ nil → next' x = next x)
    (hp : ∀ x ∈ l ++ [b], x ≠ nil → prev' x = prev x) :
    Seg nil next' prev' a l b := by
  induction l generalizing a with
  | nil =>
    rw [seg_nil] at h ⊢
    exact ⟨fun ha => (hn a (by simp) ha).trans (h.1 ha),
      fun hb => (hp b (by simp) hb).trans (h.2 hb)⟩
  | cons x l ih =>
    rw [seg_cons] at h ⊢
    refine ⟨⟨fun ha => (hn a (by simp) ha).trans (h.1.1 ha),
      fun hx => (hp x (by simp) hx).trans (h.1.2 hx)⟩, ih h.2 ?_ ?_⟩
    · intro y hy
      exact hn y (List.mem_cons_of_mem _ hy)
    · intro y hy
      exact hp y (by simp at hy ⊢; tauto)

/-- The node after `a` is the first of the segment, or its right end. -/
theorem Seg.next_eq (h : Seg nil next prev a l b) (ha : a ≠ nil) : next a = l.head?.getD b := by
  cases l with
  | nil => exact (seg_nil.mp h).1 ha
  | cons x l => exact (seg_cons.mp h).1.1 ha

/-- Replacing the left end: only the links between it and the first node are new. -/
theorem Seg.change_left (h : Seg nil next prev a l b) (hc : c ≠ nil → next' c = l.head?.getD b)
    (hp : l.head?.getD b ≠ nil → prev' (l.head?.getD b) = c)
    (hn : ∀ x ∈ l, x ≠ nil → next' x = next x)
    (hp' : ∀ x ∈ (l ++ [b]).tail, x ≠ nil → prev' x = prev x) :
    Seg nil next' prev' c l b := by
  cases l with
  | nil => exact seg_nil.mpr ⟨hc, hp⟩
  | cons x l => exact seg_cons.mpr ⟨⟨hc, hp⟩, (seg_cons.mp h).2.congr hn hp'⟩

end Seg

section DoublyLinked

variable {nil : α} {next prev next' prev' : α → α} {a n : α} {l r : List α}

/-- The right link of a node is the next node of the list, or null at the end. -/
theorem DoublyLinked.next_eq (h : DoublyLinked nil next prev (l ++ a :: r)) (ha : a ≠ nil) :
    next a = r.head?.getD nil :=
  (seg_append_cons.mp h).2.next_eq ha

theorem DoublyLinked.congr (h : DoublyLinked nil next prev l)
    (hn : ∀ x ∈ l, next' x = next x) (hp : ∀ x ∈ l, prev' x = prev x) :
    DoublyLinked nil next' prev' l := by
  refine Seg.congr h ?_ ?_
  · intro x hx hnil
    rcases List.mem_cons.mp hx with rfl | hx
    · exact absurd rfl hnil
    · exact hn x hx
  · intro x hx hnil
    rcases List.mem_append.mp hx with hx | hx
    · exact hp x hx
    · exact absurd (List.mem_singleton.mp hx) hnil

/-- **Insertion** of `n` right of `a`: the links `a ↔ n ↔ (the old right neighbour)` are set and
every other link stays. -/
theorem DoublyLinked.insert_after (h : DoublyLinked nil next prev (l ++ a :: r))
    (ha : next' a = n) (hn : next' n = r.head?.getD nil) (hn' : prev' n = a)
    (hr : r.head?.getD nil ≠ nil → prev' (r.head?.getD nil) = n)
    (hnext : ∀ x ∈ l ++ r, next' x = next x)
    (hprev : ∀ x ∈ l ++ a :: r.tail, prev' x = prev x) :
    DoublyLinked nil next' prev' (l ++ a :: n :: r) := by
  obtain ⟨hl, hr₀⟩ := seg_append_cons.mp h
  refine seg_append_cons.mpr ⟨hl.congr ?_ ?_, seg_cons.mpr ⟨⟨fun _ => ha, fun _ => hn'⟩, ?_⟩⟩
  · intro x hx hnil
    rcases List.mem_cons.mp hx with rfl | hx
    · exact absurd rfl hnil
    · exact hnext x (List.mem_append_left _ hx)
  · intro x hx _
    exact hprev x (by simp at hx ⊢; tauto)
  · refine hr₀.change_left (fun _ => hn) hr (fun x hx _ => hnext x (by simp [hx])) ?_
    intro x hx hnil
    cases r with
    | nil => simp at hx
    | cons y r =>
      simp only [List.cons_append, List.tail_cons, List.mem_append, List.mem_singleton] at hx
      rcases hx with hx | hx
      · exact hprev x (by simp [hx])
      · exact absurd hx hnil

/-- **Removal** of the node `n` right of `a`: `a` takes over the right link of `n`, the old right
neighbour of `n` points back to `a`, and every other link stays. -/
theorem DoublyLinked.remove_after (h : DoublyLinked nil next prev (l ++ a :: n :: r))
    (ha : next' a = r.head?.getD nil)
    (hr : r.head?.getD nil ≠ nil → prev' (r.head?.getD nil) = a)
    (hnext : ∀ x ∈ l ++ r, next' x = next x)
    (hprev : ∀ x ∈ l ++ a :: r.tail, prev' x = prev x) :
    DoublyLinked nil next' prev' (l ++ a :: r) := by
  obtain ⟨hl, hr₀⟩ := seg_append_cons.mp h
  refine seg_append_cons.mpr ⟨hl.congr ?_ ?_, (seg_cons.mp hr₀).2.change_left (fun _ => ha) hr
    (fun x hx _ => hnext x (by simp [hx])) ?_⟩
  · intro x hx hnil
    rcases List.mem_cons.mp hx with rfl | hx
    · exact absurd rfl hnil
    · exact hnext x (List.mem_append_left _ hx)
  · intro x hx _
    exact hprev x (by simp at hx ⊢; tauto)
  · intro x hx hnil
    cases r with
    | nil => simp at hx
    | cons y r =>
      simp only [List.cons_append, List.tail_cons, List.mem_append, List.mem_singleton] at hx
      rcases hx with hx | hx
      · exact hprev x (by simp [hx])
      · exact absurd hx hnil

/-- The left link of a node is the previous node of the list, or null at the start. -/
theorem DoublyLinked.prev_eq (h : DoublyLinked nil next prev (l ++ a :: r)) (ha : a ≠ nil) :
    prev a = l.getLast?.getD nil := by
  have hseg := (seg_append_cons.mp h).1
  rcases List.eq_nil_or_concat l with rfl | ⟨l, b, rfl⟩
  · exact (seg_nil.mp hseg).2 ha
  · rw [List.concat_eq_append, seg_append_cons] at hseg
    rw [List.concat_eq_append, List.getLast?_append_cons, List.getLast?_singleton]
    exact (seg_nil.mp hseg.2).2 ha

/-- **Insertion** of `n` in front: `n` points to the old first node, which points back, and every
other link stays. -/
theorem DoublyLinked.push (h : DoublyLinked nil next prev l) (hn : next' n = l.head?.getD nil)
    (hn' : n ≠ nil → prev' n = nil) (hl : l.head?.getD nil ≠ nil → prev' (l.head?.getD nil) = n)
    (hnext : ∀ x ∈ l, next' x = next x) (hprev : ∀ x ∈ l.tail, prev' x = prev x) :
    DoublyLinked nil next' prev' (n :: l) := by
  refine seg_cons.mpr ⟨⟨fun hnil => absurd rfl hnil, hn'⟩, ?_⟩
  refine Seg.change_left h (fun _ => hn) hl (fun x hx _ => hnext x hx) ?_
  intro x hx hnil
  cases l with
  | nil => simp at hx
  | cons y l =>
    simp only [List.cons_append, List.tail_cons, List.mem_append, List.mem_singleton] at hx
    rcases hx with hx | hx
    · exact hprev x hx
    · exact absurd hx hnil

/-- **Removal** of a node: its neighbours take over its links, and every other link stays. -/
theorem DoublyLinked.remove (h : DoublyLinked nil next prev (l ++ n :: r))
    (hl : ∀ a, l.getLast? = some a → next' a = r.head?.getD nil)
    (hr : r.head?.getD nil ≠ nil → prev' (r.head?.getD nil) = l.getLast?.getD nil)
    (hnext : ∀ x ∈ l.dropLast ++ r, next' x = next x)
    (hprev : ∀ x ∈ l ++ r.tail, prev' x = prev x) :
    DoublyLinked nil next' prev' (l ++ r) := by
  rcases List.eq_nil_or_concat l with rfl | ⟨l, a, rfl⟩
  · show Seg nil next' prev' nil r nil
    refine Seg.change_left (l := r) (seg_cons.mp h).2 (fun hnil => absurd rfl hnil) hr
      (fun x hx _ => hnext x hx) ?_
    intro x hx hnil
    cases r with
    | nil => simp at hx
    | cons y r =>
      simp only [List.cons_append, List.tail_cons, List.mem_append, List.mem_singleton] at hx
      rcases hx with hx | hx
      · exact hprev x hx
      · exact absurd hx hnil
  · rw [List.concat_eq_append] at h hl hr hnext hprev ⊢
    rw [List.append_assoc, List.singleton_append] at h ⊢
    rw [List.append_assoc, List.singleton_append] at hprev
    rw [List.dropLast_concat] at hnext
    rw [List.getLast?_concat] at hl hr
    exact h.remove_after (hl a rfl) hr hnext hprev

end DoublyLinked

end MiniDb.Lib
