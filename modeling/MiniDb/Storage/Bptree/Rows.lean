import Mathlib.Algebra.Group.Nat.Defs
import Mathlib.Data.List.Nodup
import MiniDb.Lib.LinkedList
import MiniDb.Storage.FreeList
import MiniDb.Storage.Bptree.Basic

/-! # The tree as a stack of rows

A B+ tree of height `h + 1` is described by its rows: the row of leaves at the bottom and `h` rows
of internal nodes above it, each a list from left to right. Every node carries its *low key*, the
lower end of the key range it is responsible for: the separator left of it, or 0 on the left edge.
An internal node with its leftmost child and entries is then one list of *kids*, pairs of a low key
and a child page, and the whole shape of the tree is one equation per row: the kids of a row, in
order, are the heads (low key, page) of the row below (`Upper`). Separators need no invariant of
their own: they are low keys of the row below, so it is enough that the low keys of the leaves
increase and bound the leaves' keys (`LeafOrder`).

A split, merge or borrow changes one row in one place and one entry of one node in the row above,
which is how the proofs of insertion and deletion climb. -/

set_option autoImplicit false

namespace MiniDb

open Lib

/-- A leaf with its low key. -/
structure LeafNode where
  low : Nat
  pid : Nat
  entries : List (Nat × RowRef)

/-- An internal node with its low key. -/
structure InnerNode where
  low : Nat
  pid : Nat
  leftmost : Nat
  entries : List (Nat × Nat)

abbrev Row := List InnerNode

/-- Low key and page of a node: how it appears among the kids of its parent. -/
def LeafNode.head (n : LeafNode) : Nat × Nat := (n.low, n.pid)

def InnerNode.head (n : InnerNode) : Nat × Nat := (n.low, n.pid)

/-- The children from left to right, each with its low key. -/
def InnerNode.kids (n : InnerNode) : List (Nat × Nat) := (n.low, n.leftmost) :: n.entries

def rowsPids (rows : List Row) : List Nat := rows.flatMap fun row => row.map InnerNode.pid

@[simp] theorem rowsPids_nil : rowsPids [] = [] := rfl

@[simp] theorem rowsPids_cons (row : Row) (rest : List Row) :
    rowsPids (row :: rest) = row.map InnerNode.pid ++ rowsPids rest := rfl

@[simp] theorem map_snd_head (row : Row) :
    (row.map InnerNode.head).map Prod.snd = row.map InnerNode.pid := by
  simp [InnerNode.head, Function.comp_def]

@[simp] theorem map_snd_leaf_head (leaves : List LeafNode) :
    (leaves.map LeafNode.head).map Prod.snd = leaves.map LeafNode.pid := by
  simp [LeafNode.head, Function.comp_def]

/-! ## What a page says -/

/-- The parent field of a tree page. -/
def Page.parent : Page → Nat
  | .leaf l => l.parentPageId
  | .internal i => i.parentPageId
  | _ => 0

def Page.withParent : Page → Nat → Page
  | .leaf l, p => .leaf { l with parentPageId := p }
  | .internal i, p => .internal { i with parentPageId := p }
  | pg, _ => pg

/-- A leaf or an internal node. -/
def Page.IsTree : Page → Prop
  | .leaf _ | .internal _ => True
  | _ => False

def Page.nextLeaf : Page → Nat
  | .leaf l => l.nextLeafPageId
  | _ => 0

def Page.prevLeaf : Page → Nat
  | .leaf l => l.prevLeafPageId
  | _ => 0

/-- Two pages agree on everything but the parent field. -/
def Page.SameBody (a b : Page) : Prop := a.withParent 0 = b.withParent 0

/-- The page holds the internal node `n`; its parent field is free. -/
def InnerNode.On (n : InnerNode) (pg : Page) : Prop :=
  ∃ par, pg = .internal ⟨par, n.leftmost, n.entries⟩

/-- The page holds the leaf `n`; its parent and sibling fields are free. -/
def LeafNode.On (n : LeafNode) (pg : Page) : Prop :=
  ∃ par next prev, pg = .leaf ⟨par, next, prev, n.entries⟩

section Page

variable {a b c pg : Page} {n : InnerNode} {l : LeafNode} {p q : Nat}

@[simp] theorem Page.withParent_withParent : (pg.withParent p).withParent q = pg.withParent q := by
  cases pg <;> rfl

theorem Page.withParent_sameBody : (pg.withParent p).SameBody pg := by
  simp [Page.SameBody]

theorem Page.SameBody.refl : pg.SameBody pg := rfl

theorem Page.SameBody.trans (h : a.SameBody b) (h' : b.SameBody c) : a.SameBody c := Eq.trans h h'

theorem Page.parent_withParent (h : pg.IsTree) : (pg.withParent p).parent = p := by
  cases pg <;> first | rfl | exact absurd h id

@[simp] theorem Page.isTree_withParent : (pg.withParent p).IsTree ↔ pg.IsTree := by
  cases pg <;> rfl

theorem Page.SameBody.isTree (h : a.SameBody b) : a.IsTree ↔ b.IsTree := by
  have ha : (a.withParent 0).IsTree ↔ a.IsTree := Page.isTree_withParent
  rw [← ha, h, Page.isTree_withParent]

theorem Page.SameBody.nextLeaf (h : a.SameBody b) : a.nextLeaf = b.nextLeaf := by
  cases a <;> cases b <;> simp_all [Page.SameBody, Page.withParent, Page.nextLeaf]

theorem Page.SameBody.prevLeaf (h : a.SameBody b) : a.prevLeaf = b.prevLeaf := by
  cases a <;> cases b <;> simp_all [Page.SameBody, Page.withParent, Page.prevLeaf]

theorem InnerNode.On.congr (h : n.On a) (hb : b.SameBody a) : n.On b := by
  obtain ⟨par, rfl⟩ := h
  cases b with
  | internal i =>
    simp only [Page.SameBody, Page.withParent, Page.internal.injEq, InternalPage.mk.injEq,
      true_and] at hb
    exact ⟨i.parentPageId, by rw [← hb.1, ← hb.2]⟩
  | _ => simp [Page.SameBody, Page.withParent] at hb

theorem LeafNode.On.congr (h : l.On a) (hb : b.SameBody a) : l.On b := by
  obtain ⟨par, next, prev, rfl⟩ := h
  cases b with
  | leaf i =>
    simp only [Page.SameBody, Page.withParent, Page.leaf.injEq, LeafPage.mk.injEq,
      true_and] at hb
    exact ⟨i.parentPageId, i.nextLeafPageId, i.prevLeafPageId, by rw [← hb.2.2]⟩
  | _ => simp [Page.SameBody, Page.withParent] at hb

theorem InnerNode.On.isTree (h : n.On pg) : pg.IsTree := by
  obtain ⟨par, rfl⟩ := h
  trivial

theorem LeafNode.On.isTree (h : l.On pg) : pg.IsTree := by
  obtain ⟨par, next, prev, rfl⟩ := h
  trivial

theorem InnerNode.On.eq (h : n.On pg) : pg = .internal ⟨pg.parent, n.leftmost, n.entries⟩ := by
  obtain ⟨par, rfl⟩ := h
  rfl

theorem LeafNode.On.eq (h : l.On pg) :
    pg = .leaf ⟨pg.parent, pg.nextLeaf, pg.prevLeaf, l.entries⟩ := by
  obtain ⟨par, next, prev, rfl⟩ := h
  rfl

end Page

/-! ## Rows above the leaves -/

/-- One row of internal nodes over a row with heads `hs`. -/
structure RowOk (g : Nat → Page) (hs : List (Nat × Nat)) (row : Row) : Prop where
  kids : row.flatMap InnerNode.kids = hs
  on : ∀ n ∈ row, n.On (g n.pid)
  parent : ∀ n ∈ row, ∀ c ∈ n.kids, (g c.2).parent = n.pid

/-- The rows over a row with heads `hs`, up to the root. -/
def Upper (g : Nat → Page) (root : Nat) : List (Nat × Nat) → List Row → Prop
  | hs, [] => hs = [(0, root)] ∧ (g root).parent = 0
  | hs, row :: rest => RowOk g hs row ∧ Upper g root (row.map InnerNode.head) rest

/-- The least number of entries of a node below `rest`: only a root may be less than half full. -/
def minKeys (pageSize : Nat) (rest : List Row) : Nat :=
  if rest = [] then 1 else minInternalKeys pageSize

/-- The occupancy of an internal node with the rows `rest` above it. -/
def InnerNode.Full (pageSize : Nat) (rest : List Row) (n : InnerNode) : Prop :=
  minKeys pageSize rest ≤ n.entries.length ∧ n.entries.length ≤ maxInternalKeys pageSize

/-- The occupancy of all internal nodes. -/
def Occupied (pageSize : Nat) : List Row → Prop
  | [] => True
  | row :: rest => (∀ n ∈ row, n.Full pageSize rest) ∧ Occupied pageSize rest

section Upper

variable {g g' : Nat → Page} {root : Nat} {hs : List (Nat × Nat)} {rows rest : List Row}
  {row : Row}

theorem RowOk.congr (h : RowOk g hs row) (hon : ∀ n ∈ row, (g' n.pid).SameBody (g n.pid))
    (hpar : ∀ c ∈ hs, (g' c.2).parent = (g c.2).parent) : RowOk g' hs row where
  kids := h.kids
  on := fun n hn => (h.on n hn).congr (hon n hn)
  parent := fun n hn c hc => by
    rw [hpar c (h.kids ▸ List.mem_flatMap.mpr ⟨n, hn, hc⟩)]
    exact h.parent n hn c hc

/-- Some neighbouring nodes of a row are replaced, the others stay as they are. -/
theorem RowOk.replace {a mid mid' b : Row} {hs' : List (Nat × Nat)}
    (h : RowOk g hs (a ++ mid ++ b)) (hkids : (a ++ mid' ++ b).flatMap InnerNode.kids = hs')
    (hside : ∀ n ∈ a ++ b, (g' n.pid).SameBody (g n.pid) ∧
      ∀ c ∈ n.kids, (g' c.2).parent = (g c.2).parent)
    (hon : ∀ n ∈ mid', n.On (g' n.pid))
    (hpar : ∀ n ∈ mid', ∀ c ∈ n.kids, (g' c.2).parent = n.pid) :
    RowOk g' hs' (a ++ mid' ++ b) := by
  have hcases : ∀ n ∈ a ++ mid' ++ b, n ∈ mid' ∨ n ∈ a ++ b ∧ n ∈ a ++ mid ++ b := by
    intro n hn
    simp only [List.mem_append] at hn ⊢
    tauto
  refine ⟨hkids, ?_, ?_⟩
  · intro n hn
    rcases hcases n hn with hn | ⟨hn, hold⟩
    · exact hon n hn
    · exact (h.on n hold).congr (hside n hn).1
  · intro n hn c hc
    rcases hcases n hn with hn | ⟨hn, hold⟩
    · exact hpar n hn c hc
    · rw [(hside n hn).2 c hc]
      exact h.parent n hold c hc

/-- The rows depend on the bodies of their own pages and on the parent fields of these and of the
row below. -/
theorem Upper.congr (h : Upper g root hs rows)
    (hbody : ∀ p ∈ rowsPids rows, (g' p).SameBody (g p))
    (hpar : ∀ p ∈ hs.map Prod.snd ++ rowsPids rows, (g' p).parent = (g p).parent) :
    Upper g' root hs rows := by
  induction rows generalizing hs with
  | nil =>
    obtain ⟨rfl, hr⟩ := h
    exact ⟨rfl, (hpar root (by simp)).trans hr⟩
  | cons row rest ih =>
    obtain ⟨hrow, hrest⟩ := h
    refine ⟨hrow.congr ?_ ?_, ih hrest ?_ ?_⟩
    · intro n hn
      exact hbody _ (by simp only [rowsPids_cons, List.mem_append]; exact .inl (List.mem_map_of_mem hn))
    · intro c hc
      exact hpar _ (List.mem_append_left _ (List.mem_map_of_mem hc))
    · intro p hp
      exact hbody p (by simp [hp])
    · intro p hp
      rw [map_snd_head] at hp
      exact hpar p (List.mem_append_right _ (by simpa using hp))

/-- Some neighbouring kids `ms` of the node `q` become `ms'`: only the entries of `q` change. -/
theorem Upper.replace {a b : Row} {q q' : InnerNode} {ka kb ms ms' : List (Nat × Nat)}
    (h : Upper g root (a.flatMap InnerNode.kids ++ ka ++ ms ++ (kb ++ b.flatMap InnerNode.kids))
      ((a ++ q :: b) :: rest))
    (hkids : q.kids = ka ++ ms ++ kb) (hkids' : q'.kids = ka ++ ms' ++ kb) (hpid : q'.pid = q.pid)
    (hlow : q'.low = q.low) (hon : q'.On (g' q.pid)) (hpar : (g' q.pid).parent = (g q.pid).parent)
    (hms : ∀ c ∈ ms', (g' c.2).parent = q.pid)
    (hkeep : ∀ c ∈ a.flatMap InnerNode.kids ++ ka ++ (kb ++ b.flatMap InnerNode.kids),
      (g' c.2).parent = (g c.2).parent)
    (hframe : ∀ p ∈ (a ++ b).map InnerNode.pid ++ rowsPids rest, g' p = g p) :
    Upper g' root (a.flatMap InnerNode.kids ++ ka ++ ms' ++ (kb ++ b.flatMap InnerNode.kids))
      ((a ++ q' :: b) :: rest) := by
  obtain ⟨hrow, hrest⟩ := h
  have hheads : (a ++ q' :: b).map InnerNode.head = (a ++ q :: b).map InnerNode.head := by
    simp [InnerNode.head, hpid, hlow]
  refine ⟨?_, ?_⟩
  · rw [List.append_cons] at hrow
    rw [List.append_cons a q' b]
    refine hrow.replace (by simp [hkids']) ?_ ?_ ?_
    · intro n hn
      refine ⟨?_, fun c hc => hkeep c ?_⟩
      · rw [hframe n.pid (List.mem_append_left _ (List.mem_map_of_mem hn))]
        exact .refl
      · rcases List.mem_append.mp hn with hn | hn
        · have : c ∈ a.flatMap InnerNode.kids := List.mem_flatMap.mpr ⟨n, hn, hc⟩
          simp [this]
        · have : c ∈ b.flatMap InnerNode.kids := List.mem_flatMap.mpr ⟨n, hn, hc⟩
          simp only [List.mem_append, this, or_true]
    · intro n hn
      rw [List.mem_singleton] at hn
      rw [hn, hpid]
      exact hon
    · intro n hn c hc
      rw [List.mem_singleton] at hn
      subst hn
      rw [hkids', List.append_assoc, List.mem_append, List.mem_append] at hc
      rw [hpid]
      have hold : c ∈ ka ∨ c ∈ kb → (g' c.2).parent = q.pid := by
        intro hc
        rw [hkeep c (by simp only [List.mem_append]; tauto)]
        exact hrow.parent q (by simp) c (by rw [hkids]; simp only [List.mem_append]; tauto)
      rcases hc with hc | hc | hc
      exacts [hold (.inl hc), hms c hc, hold (.inr hc)]
  · rw [hheads]
    refine hrest.congr (fun p hp => ?_) fun p hp => ?_
    · rw [hframe p (List.mem_append_right _ hp)]
      exact .refl
    · by_cases hq : p = q.pid
      · rw [hq, hpar]
      · rw [hframe p]
        simp only [map_snd_head, List.map_append, List.map_cons, List.mem_append,
          List.mem_cons] at hp ⊢
        tauto

/-- The low keys of a row are some of the low keys of the row below. -/
theorem heads_sublist : ((row.map InnerNode.head).map Prod.fst).Sublist
    ((row.flatMap InnerNode.kids).map Prod.fst) := by
  induction row with
  | nil => simp
  | cons n row ih =>
    simp only [List.map_cons, List.flatMap_cons, InnerNode.kids, List.cons_append, InnerNode.head,
      List.map_append]
    exact (List.Sublist.trans ih (List.sublist_append_right _ _)).cons_cons _

/-- Heads in strictly increasing order of their low keys. -/
def Increasing (hs : List (Nat × Nat)) : Prop := hs.Pairwise fun a b => a.1 < b.1

theorem increasing_iff {hs : List (Nat × Nat)} :
    Increasing hs ↔ (hs.map Prod.fst).Pairwise (· < ·) := by
  rw [Increasing, List.pairwise_map]

theorem Increasing.heads (h : Increasing (row.flatMap InnerNode.kids)) :
    Increasing (row.map InnerNode.head) :=
  increasing_iff.mpr ((increasing_iff.mp h).sublist heads_sublist)

/-- The top row is the root alone. -/
theorem Upper.single (h : Upper g root hs (row :: rest)) (hrest : rest = []) :
    ∃ n : InnerNode, row = [n] ∧ n.low = 0 ∧ n.pid = root := by
  subst hrest
  obtain ⟨-, htop, -⟩ := h
  obtain ⟨n, rfl, hn⟩ := List.map_eq_singleton_iff.mp htop
  exact ⟨n, rfl, congrArg Prod.fst hn, congrArg Prod.snd hn⟩

/-- The first head belongs to the left edge. -/
theorem Upper.first_low (h : Upper g root hs rows) : ∃ c t, hs = (0, c) :: t := by
  induction rows generalizing hs with
  | nil => exact ⟨root, [], h.1⟩
  | cons row rest ih =>
    obtain ⟨c, t, ht⟩ := ih h.2
    cases row with
    | nil => simp at ht
    | cons n row =>
      simp only [List.map_cons, InnerNode.head, List.cons.injEq, Prod.mk.injEq] at ht
      refine ⟨n.leftmost, n.entries ++ row.flatMap InnerNode.kids, ?_⟩
      rw [← h.1.kids, List.flatMap_cons, InnerNode.kids, ht.1.1]
      rfl

end Upper

/-! ## The whole tree -/

/-- The leaves' keys and low keys: every leaf is sorted, its keys lie at or above its low key and
below the low keys of all leaves to its right, and keys are 64-bit. -/
structure LeafOrder (leaves : List LeafNode) : Prop where
  pairwise : leaves.Pairwise fun a b => a.low < b.low ∧ ∀ e ∈ a.entries, e.1 < b.low
  sorted : ∀ n ∈ leaves, n.entries.Pairwise fun a b => a.1 < b.1
  low_le : ∀ n ∈ leaves, ∀ e ∈ n.entries, n.low ≤ e.1
  low_lt : ∀ n ∈ leaves, n.low < 2 ^ 64
  lt : ∀ n ∈ leaves, ∀ e ∈ n.entries, e.1 < 2 ^ 64

/-- The least number of entries of a leaf: only a root may be less than half full. -/
def minEntries (pageSize : Nat) (rows : List Row) : Nat :=
  if rows = [] then 0 else minLeafKeys pageSize

/-- All pages of the tree. -/
def treePids (leaves : List LeafNode) (rows : List Row) : List Nat :=
  leaves.map LeafNode.pid ++ rowsPids rows

/-- The pages of `st` hold the tree with these leaves and rows, some leaf perhaps short of
entries. -/
structure TreeShape (st : Pager) (free : List Nat) (leaves : List LeafNode) (rows : List Row) :
    Prop where
  pageSize : 4096 ≤ st.pageSize
  freeList : st.FreeList free
  upper : Upper st.pages st.header.rootIndexPageId (leaves.map LeafNode.head) rows
  occupied : Occupied st.pageSize rows
  leafOn : ∀ n ∈ leaves, n.On (st.pages n.pid)
  chain : DoublyLinked 0 (fun p => (st.pages p).nextLeaf) (fun p => (st.pages p).prevLeaf)
    (leaves.map LeafNode.pid)
  order : LeafOrder leaves
  nodup : (treePids leaves rows).Nodup
  held : ∀ p ∈ treePids leaves rows, st.Held free p

/-- **The tree invariant.** -/
structure TreeInv (st : Pager) (free : List Nat) (leaves : List LeafNode) (rows : List Row) : Prop
    extends TreeShape st free leaves rows where
  leafOcc : ∀ n ∈ leaves, minEntries st.pageSize rows ≤ n.entries.length ∧
    n.entries.length ≤ maxLeafKeys st.pageSize

/-- The entries of the tree, in key order. -/
def treeEntries (leaves : List LeafNode) : List (Nat × RowRef) := leaves.flatMap LeafNode.entries

/-! ## Positions

Pages are found by index in the source, nodes by a decomposition of their row here. -/

theorem modify_length_append {α : Type*} (f : α → α) (l r : List α) (y : α) :
    (l ++ y :: r).modify l.length f = l ++ f y :: r := by
  induction l with
  | nil => rfl
  | cons x l ih => simp [ih]

/-- A list that is not empty, cut in half before the entry in the middle. -/
theorem exists_half {α : Type*} {l : List α} (h : 0 < l.length) :
    ∃ l₁ m l₂, l = l₁ ++ m :: l₂ ∧ l₁.length = (l₁ ++ m :: l₂).length / 2 := by
  obtain ⟨m, l₂, hdrop⟩ := List.exists_cons_of_length_pos
    (show 0 < (l.drop (l.length / 2)).length by rw [List.length_drop]; omega)
  have heq : l = l.take (l.length / 2) ++ m :: l₂ := by rw [← hdrop, List.take_append_drop]
  refine ⟨l.take (l.length / 2), m, l₂, heq, ?_⟩
  rw [← heq, List.length_take]
  omega

/-- In a list without repeated images the others differ from the one in the middle. -/
theorem ne_of_nodup_map {α β : Type*} {f : α → β} {l r : List α} {x : α}
    (h : ((l ++ x :: r).map f).Nodup) : ∀ y ∈ l ++ r, f y ≠ f x := by
  rw [List.map_append, List.map_cons, List.nodup_middle, List.nodup_cons, ← List.map_append] at h
  intro y hy heq
  exact h.1 (heq ▸ List.mem_map_of_mem hy)

/-- The pages of the rows beside the page of `q`. -/
theorem rowsPids_beside {a b : Row} {q : InnerNode} {rest : List Row}
    (h : (rowsPids ((a ++ q :: b) :: rest)).Nodup) :
    ∀ p ∈ (a ++ b).map InnerNode.pid ++ rowsPids rest,
      p ∈ rowsPids ((a ++ q :: b) :: rest) ∧ p ≠ q.pid := by
  intro p hp
  rw [rowsPids_cons, List.map_append, List.map_cons, List.append_assoc, List.cons_append,
    List.nodup_middle, List.nodup_cons] at h
  simp only [rowsPids_cons, List.map_append, List.map_cons, List.mem_append, List.mem_cons] at hp h ⊢
  refine ⟨by tauto, ?_⟩
  rintro rfl
  exact h.1 (by tauto)

section Kids

variable {n : InnerNode} {ka kb : List (Nat × Nat)} {x y : Nat × Nat} {i par : Nat}

theorem InnerNode.entries_eq (h : n.kids = ka ++ x :: kb) : n.entries = (ka ++ [x]).tail ++ kb := by
  have : n.entries = n.kids.tail := rfl
  rw [this, h]
  cases ka <;> simp

theorem InnerNode.childAt_eq : InternalPage.childAt ⟨par, n.leftmost, n.entries⟩ i =
    (n.kids[i]?).map Prod.snd := by
  cases i <;> rfl

theorem InnerNode.childAt_of (par : Nat) (h : n.kids = ka ++ x :: kb) :
    InternalPage.childAt ⟨par, n.leftmost, n.entries⟩ ka.length = some x.2 := by
  rw [InnerNode.childAt_eq, h]
  simp

/-- `internal_find` yields the index of the kid whose range contains the key. -/
theorem InnerNode.internalFind_of {key : Nat} (h : n.kids = ka ++ x :: kb)
    (hle : ∀ y ∈ ka ++ [x], y.1 ≤ key) (hgt : ∀ y ∈ kb, key < y.1) :
    internalFind n.entries key = ka.length := by
  rw [n.entries_eq h, internalFind, partitionPoint_append]
  · simp
  · intro y hy
    simpa using hle y (List.mem_of_mem_tail hy)
  · intro y hy
    simpa using hgt y hy

/-- Inserting an entry at the index of a kid puts a new kid right of it. -/
theorem InnerNode.kids_insertAt (h : n.kids = ka ++ x :: kb) :
    (n.low, n.leftmost) :: insertAt n.entries ka.length y = ka ++ x :: y :: kb := by
  have h1 : (n.low, n.leftmost) :: insertAt n.entries ka.length y =
      insertAt n.kids (ka.length + 1) y := rfl
  have htake : ka.take (ka.length + 1) = ka := List.take_of_length_le (by omega)
  rw [h1, h]
  simp [insertAt, List.take_append, List.drop_append, htake]

/-- Erasing the entry after the index of a kid removes the next kid. -/
theorem InnerNode.kids_eraseIdx (h : n.kids = ka ++ x :: y :: kb) :
    (n.low, n.leftmost) :: n.entries.eraseIdx ka.length = ka ++ x :: kb := by
  have h1 : (n.low, n.leftmost) :: n.entries.eraseIdx ka.length =
      n.kids.eraseIdx (ka.length + 1) := rfl
  rw [h1, h, List.eraseIdx_append_of_length_le (by omega)]
  simp

/-- Overwriting the key of the entry after the index of a kid changes the next kid's low key. -/
theorem InnerNode.kids_setKey (h : n.kids = ka ++ x :: y :: kb) (key : Nat) :
    (n.low, n.leftmost) :: n.entries.modify ka.length (fun e => (key, e.2)) =
      ka ++ x :: (key, y.2) :: kb := by
  have h1 : (n.low, n.leftmost) :: n.entries.modify ka.length (fun e => (key, e.2)) =
      n.kids.modify (ka.length + 1) (fun e => (key, e.2)) := rfl
  have h2 : ka ++ x :: y :: kb = (ka ++ [x]) ++ y :: kb := by simp
  have h3 : ka.length + 1 = (ka ++ [x]).length := by simp
  rw [h1, h, h2, h3, modify_length_append]
  simp

/-- The entry at the index of a kid belongs to the next kid. -/
theorem InnerNode.entry_of (h : n.kids = ka ++ x :: y :: kb) : n.entries[ka.length]? = some y := by
  have h1 : n.entries[ka.length]? = n.kids[ka.length + 1]? := rfl
  rw [h1, h]
  simp

/-- `find_child_idx` finds a kid by its page. -/
theorem InnerNode.findChildIdx_of (h : n.kids = ka ++ x :: kb) (hx : ∀ y ∈ ka, y.2 ≠ x.2) :
    findChildIdx ⟨par, n.leftmost, n.entries⟩ x.2 = some ka.length := by
  have hkids : findChildIdx ⟨par, n.leftmost, n.entries⟩ x.2 =
      n.kids.findIdx? (·.2 == x.2) := by
    simp only [findChildIdx, InnerNode.kids, List.findIdx?_cons]
    by_cases hl : n.leftmost = x.2
    · simp [hl]
    · simp [hl]
  rw [hkids, h, List.findIdx?_append, List.findIdx?_eq_none_iff.mpr]
  · simp [List.findIdx?_cons]
  · intro y hy
    simpa using hx y hy

end Kids

end MiniDb
