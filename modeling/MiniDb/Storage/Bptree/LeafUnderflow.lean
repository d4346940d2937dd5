import MiniDb.Storage.Bptree.Pins
import MiniDb.Storage.Bptree.Structure

/-! # Where a deletion merges two leaves

Which way `fix_leaf_underflow_latched` goes is decided by three pages: the leaf of the key, its
parent and the sibling that is asked. `MergesLeaf` is the case that neither sibling can lend an
entry. -/

set_option autoImplicit false

namespace MiniDb

open Lib

/-! ## Siblings that lend -/

/-- Child `idx` of the parent is a leaf with an entry to spare. -/
def Spares (st : Pager) (iph : InternalPage) (idx : Nat) : Prop :=
  ∃ sibPid lph, iph.childAt idx = some sibPid ∧ st.pages sibPid = .leaf lph ∧
    minLeafKeys st.pageSize < lph.entries.length

section Borrow

variable {st st' : Pager} {parentPid leafPid childIdx : Nat} {iph : InternalPage} {done : Bool}

theorem childAt_eq_none (h : iph.entries.length ≤ childIdx) : iph.childAt (childIdx + 1) = none := by
  rw [InternalPage.childAt, List.getElem?_eq_none h]
  rfl

/-- The right sibling lends an entry when it has one to spare; else nothing changes. -/
theorem tryBorrowLeafRight_cases
    (hrun : (tryBorrowLeafRight parentPid leafPid childIdx iph).run st = some (done, st')) :
    done = true ∧ Spares st iph (childIdx + 1) ∨
      done = false ∧ ¬ Spares st iph (childIdx + 1) ∧ st.SameData st' := by
  unfold tryBorrowLeafRight at hrun
  split at hrun
  · split at hrun
    · rename_i sep rsibPid hget
      have hchild : iph.childAt (childIdx + 1) = some rsibPid := by
        rw [InternalPage.childAt, hget]
        rfl
      obtain ⟨_, st₁, hrun₁, hrun⟩ := run_bind_eq_some.mp hrun
      obtain rfl := run_modify_eq_some.mp hrun₁
      obtain ⟨rlph, st₂, hrun₂, hrun⟩ := run_bind_eq_some.mp hrun
      obtain ⟨hpage, rfl⟩ := run_readLeaf_eq_some.mp hrun₂
      rw [run_bind_of run_getPageSize] at hrun
      split at hrun
      · rename_i hrich
        obtain ⟨_, st₃, -, hrun⟩ := run_bind_eq_some.mp hrun
        obtain ⟨rfl, -⟩ := run_pure_eq_some.mp hrun
        exact .inl ⟨rfl, rsibPid, rlph, hchild, hpage, hrich⟩
      · rename_i hpoor
        obtain ⟨_, st₃, hrun₃, hrun⟩ := run_bind_eq_some.mp hrun
        obtain rfl := run_modify_eq_some.mp hrun₃
        obtain ⟨rfl, rfl⟩ := run_pure_eq_some.mp hrun
        refine .inr ⟨rfl, ?_, .trans .log (.trans .log .log)⟩
        rintro ⟨sibPid, lph, hchild', hpage', hrich⟩
        obtain rfl := Option.some.inj (hchild.symm.trans hchild')
        obtain rfl := Page.leaf.inj (hpage.symm.trans hpage')
        exact hpoor hrich
    · cases hrun
  · rename_i hlast
    obtain ⟨rfl, rfl⟩ := run_pure_eq_some.mp hrun
    refine .inr ⟨rfl, ?_, .refl⟩
    rintro ⟨sibPid, lph, hchild, -⟩
    rw [childAt_eq_none (Nat.le_of_not_lt hlast)] at hchild
    cases hchild

/-- The left sibling is asked on the same terms. -/
theorem tryBorrowLeafLeft_cases
    (hrun : (tryBorrowLeafLeft parentPid leafPid childIdx iph).run st = some (done, st')) :
    done = true ∧ 0 < childIdx ∧ Spares st iph (childIdx - 1) ∨
      done = false ∧ (0 < childIdx → ¬ Spares st iph (childIdx - 1)) ∧ st.SameData st' := by
  unfold tryBorrowLeafLeft at hrun
  split at hrun
  · rename_i hpos
    split at hrun
    · rename_i lsibPid hchild
      obtain ⟨_, st₁, hrun₁, hrun⟩ := run_bind_eq_some.mp hrun
      obtain rfl := run_modify_eq_some.mp hrun₁
      obtain ⟨llph, st₂, hrun₂, hrun⟩ := run_bind_eq_some.mp hrun
      obtain ⟨hpage, rfl⟩ := run_readLeaf_eq_some.mp hrun₂
      rw [run_bind_of run_getPageSize] at hrun
      split at hrun
      · rename_i hrich
        obtain ⟨_, st₃, -, hrun⟩ := run_bind_eq_some.mp hrun
        obtain ⟨rfl, -⟩ := run_pure_eq_some.mp hrun
        exact .inl ⟨rfl, hpos, lsibPid, llph, hchild, hpage, hrich⟩
      · rename_i hpoor
        obtain ⟨_, st₃, hrun₃, hrun⟩ := run_bind_eq_some.mp hrun
        obtain rfl := run_modify_eq_some.mp hrun₃
        obtain ⟨rfl, rfl⟩ := run_pure_eq_some.mp hrun
        refine .inr ⟨rfl, fun _ => ?_, .trans .log (.trans .log .log)⟩
        rintro ⟨sibPid, lph, hchild', hpage', hrich⟩
        obtain rfl := Option.some.inj (hchild.symm.trans hchild')
        obtain rfl := Page.leaf.inj (hpage.symm.trans hpage')
        exact hpoor hrich
    · cases hrun
  · rename_i hedge
    obtain ⟨rfl, rfl⟩ := run_pure_eq_some.mp hrun
    exact .inr ⟨rfl, fun hpos => absurd hpos hedge, .refl⟩

theorem Pager.SameData.spares_iff (h : st.SameData st') :
    Spares st' iph childIdx ↔ Spares st iph childIdx := by
  rw [Spares, Spares, h.pages, h.pageSize]

end Borrow

/-! ## The way of `fix_leaf_underflow_latched` -/

section Fix

variable {fresh : Set Nat} {L : Ledger} {st st' : Pager} {parentPid leafPid childIdx : Nat}
  {iph : InternalPage} {stack parents : List Nat}

/-- A sibling lends an entry and everything is given back, or the leaf is merged. -/
theorem fixLeafUnderflowLatched_cases (hpage : st.pages parentPid = .internal iph)
    (hidx : findChildIdx iph leafPid = some childIdx) (hleaf : leafPid ∈ stack)
    (hparent : parentPid ∈ stack)
    (hrun : (fixLeafUnderflowLatched stack leafPid (parentPid :: parents)).run st =
      some ((), st')) :
    ((Spares st iph (childIdx + 1) ∨ 0 < childIdx ∧ Spares st iph (childIdx - 1)) ∧
        Paid fresh st (wlatches stack + L) st' L) ∨
      ¬ Spares st iph (childIdx + 1) ∧ (0 < childIdx → ¬ Spares st iph (childIdx - 1)) ∧
        ∃ st₁ st₂, st.SameData st₁ ∧
          Paid fresh st (wlatches stack + L) st₁ (.pin parentPid ::ₘ (wlatches stack + L)) ∧
          (mergeLeaves parentPid leafPid childIdx iph).run st₁ = some ((), st₂) ∧
          (propagateDelete stack (parentPid :: parents)).run st₂ = some ((), st') := by
  have hleafL : .wlatch leafPid ∈ wlatches stack + L ∨ leafPid ∈ fresh :=
    .inl (Multiset.mem_add.mpr (.inl (mem_wlatches.mpr hleaf)))
  have hparentL : .wlatch parentPid ∈ wlatches stack + L ∨ parentPid ∈ fresh :=
    .inl (Multiset.mem_add.mpr (.inl (mem_wlatches.mpr hparent)))
  unfold fixLeafUnderflowLatched at hrun
  obtain ⟨_, st₁, hrun₁, hrun⟩ := run_bind_eq_some.mp hrun
  have hpaid₁ : Paid fresh st (wlatches stack + L) st₁ (.pin parentPid ::ₘ (wlatches stack + L)) :=
    pays_pagerGetPage _ _ _ hrun₁
  obtain rfl := run_modify_eq_some.mp hrun₁
  have hread : (readInternal parentPid).run (st.log (.get parentPid)) = some (iph, _) :=
    run_readInternal hpage
  rw [run_bind_of hread] at hrun
  simp only [hidx] at hrun
  -- the right sibling is asked first
  obtain ⟨right, st₂, hrun₂, hrun⟩ := run_bind_eq_some.mp hrun
  have hpaid₂ := hpaid₁.trans (pays_tryBorrowLeafRight hleafL hparentL _ _ _ _ _ hrun₂)
  rcases tryBorrowLeafRight_cases hrun₂ with ⟨rfl, hright⟩ | ⟨rfl, hright, hsame₂⟩
  · exact .inl ⟨.inl (Pager.SameData.log.spares_iff.mp hright),
      hpaid₂.trans (pays_lsReleaseAll stack _ _ _ hrun)⟩
  -- then the left one
  obtain ⟨left, st₃, hrun₃, hrun⟩ := run_bind_eq_some.mp hrun
  have hpaid₃ := hpaid₂.trans (pays_tryBorrowLeafLeft hleafL hparentL _ _ _ _ _ hrun₃)
  have hsame₂' := Pager.SameData.log.trans hsame₂
  rcases tryBorrowLeafLeft_cases hrun₃ with ⟨rfl, hpos, hleft⟩ | ⟨rfl, hleft, hsame₃⟩
  · exact .inl ⟨.inr ⟨hpos, hsame₂'.spares_iff.mp hleft⟩,
      hpaid₃.trans (pays_lsReleaseAll stack _ _ _ hrun)⟩
  obtain ⟨_, st₄, hrun₄, hrun⟩ := run_bind_eq_some.mp hrun
  refine .inr ⟨fun h => hright (Pager.SameData.log.spares_iff.mpr h),
    fun hpos h => hleft hpos (hsame₂'.spares_iff.mpr h), st₃, st₄, hsame₂'.trans hsame₃, hpaid₃,
    hrun₄, hrun⟩

end Fix

/-! ## The leaf of a key and its parent -/

/-- The leaf responsible for the key, which is not the root, with its parent and its place among
the children of the parent. -/
structure LeafUnder (st : Pager) (key leafPid : Nat) (lph : LeafPage) (iph : InternalPage)
    (childIdx : Nat) : Prop where
  found : ∃ st', (findLeafRlatch key).run st = some (leafPid, st')
  notRoot : leafPid ≠ st.header.rootIndexPageId
  leaf : st.pages leafPid = .leaf lph
  parent : st.pages lph.parentPageId = .internal iph
  place : findChildIdx iph leafPid = some childIdx

/-- A deletion of the key merges its leaf with a sibling: the leaf has no entry to spare, and
neither sibling has one to lend. -/
structure MergesLeaf (st : Pager) (key leafPid : Nat) (lph : LeafPage) (iph : InternalPage)
    (childIdx : Nat) : Prop extends LeafUnder st key leafPid lph iph childIdx where
  present : ∃ ref, (key, ref) ∈ lph.entries
  short : lph.entries.length ≤ minLeafKeys st.pageSize
  right : ¬ Spares st iph (childIdx + 1)
  left : 0 < childIdx → ¬ Spares st iph (childIdx - 1)

section LeafUnder

variable {st : Pager} {free : List Nat} {a b leaves : List LeafNode} {n : LeafNode} {a' b' : Row}
  {q : InnerNode} {rest rows : List Row} {ka kb : List (Nat × Nat)}
  {key leafPid childIdx leafPid' childIdx' : Nat} {lph lph' : LeafPage} {iph iph' : InternalPage}

theorem LeafUnder.unique (h : LeafUnder st key leafPid lph iph childIdx)
    (h' : LeafUnder st key leafPid' lph' iph' childIdx') :
    leafPid' = leafPid ∧ lph' = lph ∧ iph' = iph ∧ childIdx' = childIdx := by
  obtain ⟨st₁, hrun⟩ := h.found
  obtain ⟨st₂, hrun'⟩ := h'.found
  obtain ⟨rfl, -⟩ := Prod.mk.inj (Option.some.inj (hrun.symm.trans hrun'))
  obtain rfl := Page.leaf.inj (h.leaf.symm.trans h'.leaf)
  obtain rfl := Page.internal.inj (h.parent.symm.trans h'.parent)
  exact ⟨rfl, rfl, rfl, Option.some.inj (h'.place.symm.trans h.place)⟩

/-- The pages of the tree are in use. -/
theorem TreeInv.not_unused (h : TreeInv st free leaves rows) {p : Nat}
    (hp : p ∈ treePids leaves rows) : ¬ st.Unused p := by
  rintro (hlast | ⟨next, hpage⟩)
  · exact Nat.not_lt.mpr hlast (h.held p hp).2.1
  · have htree := h.isTree hp
    rw [hpage] at htree
    exact htree

/-- Where the rows say the leaf of the key is. -/
theorem TreeInv.leafUnder (h : TreeInv st free leaves ((a' ++ q :: b') :: rest))
    (hn : LeafFor key leaves a n b) (hu : LeavesUnder a [n] b a' q b' ka kb) :
    LeafUnder st key n.pid (n.page (st.pages n.pid)) (q.page (st.pages q.pid).parent) ka.length := by
  have hmem : n ∈ leaves := hn.mem
  have hq : q ∈ a' ++ q :: b' := List.mem_append_right _ List.mem_cons_self
  have hkid : n.head ∈ q.kids := by
    rw [hu.kids]
    simp
  have hparent : (st.pages n.pid).parent = q.pid := h.upper.1.parent q hq n.head hkid
  have hshape : TreeShape st free (a ++ [n] ++ b) ((a' ++ q :: b') :: rest) := by
    rw [← List.append_cons, ← hn.eq]
    exact h.toTreeShape
  obtain ⟨st₁, -, hfound⟩ := h.findLeafRlatch hn
  refine ⟨⟨st₁, hfound⟩, ?_, (h.leafOn n hmem).eq, ?_, hshape.findChildIdx_eq hu _⟩
  · -- the root is an inner node
    intro hroot
    have hinner := h.upper.root_mem (List.cons_ne_nil _ _)
    rw [← hroot] at hinner
    exact (List.nodup_append.mp h.nodup).2.2 n.pid (List.mem_map_of_mem hmem) n.pid hinner rfl
  · show st.pages (st.pages n.pid).parent = _
    rw [hparent]
    exact (h.upper.1.on q hq).eq

/-- The pages on a latch stack above the leaf are inner nodes. -/
theorem Ancestors.mem_rowsPids {safe : InnerNode → Prop} :
    ∀ {rows : List Row} {ha : List (Nat × Nat)} {x : Nat × Nat} {hb : List (Nat × Nat)}
      {above : List Nat}, Ancestors safe ha x hb rows above → ∀ p ∈ above, p ∈ rowsPids rows
  | [], _, _, _, _, h, p, hp => by
    rw [show _ = [] from h] at hp
    cases hp
  | row :: rest, _, _, _, _, ⟨a, q, b, ka, kb, above', hrow, _, _, _, habove, hrest⟩, p, hp => by
    rw [rowsPids_cons, List.mem_append]
    rw [habove] at hp
    rcases List.mem_cons.mp hp with rfl | hp
    · refine .inl (List.mem_map_of_mem ?_)
      rw [hrow]
      exact List.mem_append_right _ List.mem_cons_self
    · rcases hrest with ⟨-, rfl⟩ | ⟨-, hrest⟩
      · cases hp
      · exact .inr (hrest.mem_rowsPids p hp)

end LeafUnder

/-! ## Tests of a deletion -/

/-- The source's test for the key, on a sorted leaf. -/
theorem any_leafFind_iff {entries : List (Nat × RowRef)} {key : Nat}
    (hs : entries.Pairwise fun a b => a.1 < b.1) :
    (entries[leafFind entries key]?).any (·.1 == key) = true ↔ ∃ ref, (key, ref) ∈ entries := by
  obtain ⟨l, r, hsplit⟩ := exists_leafSplit hs key
  rw [hsplit.any_iff]
  exact exists_congr fun ref => (hsplit.mem_iff hs).symm

/-- Taking a page out of the way does not change what the other children of a node can lend. -/
theorem spares_congr {st st' : Pager} {iph : InternalPage} {pid childIdx : Nat}
    (hne : iph.childAt childIdx ≠ some pid) (hps : st'.pageSize = st.pageSize)
    (hpages : ∀ p, p ≠ pid → st'.pages p = st.pages p) :
    Spares st' iph childIdx ↔ Spares st iph childIdx := by
  rw [Spares, Spares, hps]
  refine exists_congr fun sibPid => exists_congr fun lph => and_congr_right fun hchild => ?_
  rw [hpages sibPid fun heq => hne (heq ▸ hchild)]

end MiniDb
