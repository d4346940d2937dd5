import MiniDb.Storage.Bptree.Descent

/-! # How many keys a tree can have

Page ids have 32 bits. A leaf other than the root is half full, an internal node has two children
at least, so the pages of a tree are at most twice its leaves, and up to `treeCapacity` keys an
insertion finds the pages that it may need. -/

set_option autoImplicit false

namespace MiniDb

open Lib

/-- So many keys fit a tree in a file that has no other pages than an empty heap page. -/
def treeCapacity (pageSize : Nat) : Nat := 2147483616 * minLeafKeys pageSize

section Capacity

variable {g : Nat → Page} {root ps : Nat} {st : Pager} {free : List Nat} {leaves : List LeafNode}
  {rows : List Row}

/-- There are no more internal nodes than heads below them. -/
theorem Upper.length_rowsPids_le {hs : List (Nat × Nat)} (h : Upper g root hs rows)
    (hocc : Occupied ps rows) (hps : 4096 ≤ ps) : (rowsPids rows).length ≤ hs.length := by
  induction rows generalizing hs with
  | nil => simp
  | cons row rest ih =>
    obtain ⟨hrow, hrest⟩ := h
    obtain ⟨hfull, hocc'⟩ := hocc
    have habove := ih hrest hocc'
    have hkids : row.length * (1 + 1) ≤ (row.flatMap InnerNode.kids).length := by
      apply length_flatMap_kids_ge
      intro n hn
      have hmin := (hfull n hn).1
      have hbig := minInternalKeys_ge hps
      rw [minKeys] at hmin
      split at hmin
      · exact hmin
      · omega
    rw [hrow.kids] at hkids
    rw [List.length_map] at habove
    rw [rowsPids_cons, List.length_append, List.length_map]
    omega

/-- A tree has few leaves, or many entries. -/
theorem TreeInv.length_leaves (h : TreeInv st free leaves rows) : leaves.length = 1 ∨
    leaves.length * minLeafKeys st.pageSize ≤ (treeEntries leaves).length := by
  by_cases hne : rows = []
  · left
    subst hne
    simpa using congrArg List.length h.upper.1
  · right
    apply length_treeEntries_ge
    intro n hn
    simpa [minEntries, hne] using (h.leafOcc n hn).1

/-- Where nothing else is in use, the ids that have been given out are those of the tree, of the
free pages, of the header and of the heap page. -/
theorem nextPageId_le_of_owned
    (howned : ∀ p, st.Held free p → p = 1 ∨ p ∈ treePids leaves rows) :
    st.header.nextPageId ≤ 2 + free.length + (treePids leaves rows).length := by
  have hsub : List.range st.header.nextPageId ⊆ 0 :: 1 :: (free ++ treePids leaves rows) := by
    intro p hp
    simp only [List.mem_cons, List.mem_append]
    by_cases hzero : p = 0
    · exact .inl hzero
    by_cases hfree : p ∈ free
    · exact .inr (.inr (.inl hfree))
    rcases howned p ⟨hzero, List.mem_range.mp hp, hfree⟩ with hone | htree
    · exact .inr (.inl hone)
    · exact .inr (.inr (.inr htree))
  have hle := (List.subperm_of_subset List.nodup_range hsub).length_le
  simp only [List.length_range, List.length_cons, List.length_append] at hle
  omega

/-- **Below the capacity an insertion finds its pages.** -/
theorem TreeInv.hasRoom (h : TreeInv st free leaves rows)
    (howned : ∀ p, st.Held free p → p = 1 ∨ p ∈ treePids leaves rows)
    (hcap : (treeEntries leaves).length ≤ treeCapacity st.pageSize) :
    st.HasRoom free (rows.length + 2) := by
  have hids := nextPageId_le_of_owned howned
  have hinner := h.upper.length_rowsPids_le h.occupied h.pageSize
  have hdepth := h.depth
  have hleaves : leaves.length ≤ 2147483616 := by
    rcases h.length_leaves with hone | hmany
    · omega
    · have hpos := minLeafKeys_ge h.pageSize
      exact Nat.le_of_mul_le_mul_right (hmany.trans hcap) (by omega)
  rw [List.length_map] at hinner
  rw [treePids, List.length_append, List.length_map] at hids
  rw [Pager.HasRoom]
  simp only [pageIdCount, maxTreeDepth] at *
  omega

end Capacity

end MiniDb
