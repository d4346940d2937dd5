import MiniDb.Storage.Bptree.LeafUnderflow

/-! # Insertions that split a leaf

An insertion ends at the leaf of its key, or splits it and hands the new page to the rows above
(`TreeInv.bptreeInsert_cases`). Splitting the last leaf writes only that leaf and the new page
(`paid_splitLeaf_last`). -/

set_option autoImplicit false

namespace MiniDb

open Lib

/-- An insertion of the key splits its leaf: the key is new, and the leaf is full. -/
structure SplitsLeaf (st : Pager) (key leafPid : Nat) (lph : LeafPage) : Prop where
  found : ∃ st', (findLeafRlatch key).run st = some (leafPid, st')
  leaf : st.pages leafPid = .leaf lph
  absent : ∀ ref, (key, ref) ∉ lph.entries
  full : maxLeafKeys st.pageSize ≤ lph.entries.length

/-- An insertion that splits a leaf: the latches of the descent are held, and what is left to run is
the split and the insertion into the rows above. -/
structure LeafSplitting (st : Pager) (free : List Nat) (leaves : List LeafNode) (rows : List Row)
    (key : Nat) (ref : RowRef) (st' : Pager) where
  a : List LeafNode
  n : LeafNode
  b : List LeafNode
  above : List Nat
  st₁ : Pager
  st₂ : Pager
  sep : Nat
  new : Nat
  leafFor : LeafFor key leaves a n b
  same : st.SameData st₁
  splits : SplitsLeaf st key n.pid (n.page (st.pages n.pid))
  ancestors : Ancestors (·.Safe st.pageSize true) (a.map LeafNode.head) n.head
    (b.map LeafNode.head) rows above
  paid : Paid ∅ st 0 st₁ (wlatches (n.pid :: above))
  split : (splitLeaf n.pid (n.page (st.pages n.pid)) key ref).run st₁ = some ((sep, new), st₂)
  propagate : (propagateInsert (n.pid :: above) sep new n.pid above).run st₂ = some ((), st')

section Cases

variable {st st' : Pager} {free : List Nat} {leaves : List LeafNode} {rows : List Row}
  {key : Nat} {ref : RowRef} {r : Int}

/-- **An insertion splits its leaf, or its events are in order whatever else it does.** -/
theorem TreeInv.bptreeInsert_cases (h : TreeInv st free leaves rows)
    (hrun : (bptreeInsert key ref).run st = some (r, st')) :
    (Paid ∅ st 0 st' 0 ∧ ∀ leafPid lph, ¬ SplitsLeaf st key leafPid lph) ∨
      Nonempty (LeafSplitting st free leaves rows key ref st') := by
  obtain ⟨a, n, b, hn⟩ := h.exists_leafFor key
  have hmem : n ∈ leaves := hn.mem
  obtain ⟨st₁, above, hsame₁, hfind, hanc⟩ := h.findLeafWlatch hn true
  set stack := n.pid :: if n.Safe st.pageSize true then [] else above with hstack
  have hpaid₁ : Paid ∅ st 0 st₁ (wlatches stack + 0) := h.paid_findLeafWlatch hfind
  have hleafPage := (h.leafOn n hmem).eq
  -- every leaf that an insertion could split is this one
  have hunique : ∀ {leafPid lph}, SplitsLeaf st key leafPid lph →
      leafPid = n.pid ∧ lph = n.page (st.pages n.pid) := by
    intro leafPid lph hs
    obtain ⟨st₂, hrun₂⟩ := hs.found
    obtain ⟨st₃, -, hfound⟩ := h.findLeafRlatch hn
    obtain ⟨rfl, -⟩ := Prod.mk.inj (Option.some.inj (hfound.symm.trans hrun₂))
    exact ⟨rfl, Page.leaf.inj (hs.leaf.symm.trans hleafPage)⟩
  have hread : (readLeaf n.pid).run st₁ = some (n.page (st.pages n.pid), st₁) := by
    refine run_readLeaf ?_
    rw [hsame₁.pages]
    exact hleafPage
  unfold bptreeInsert at hrun
  rw [run_bind_of hfind] at hrun
  dsimp only at hrun
  rw [run_bind_of hread] at hrun
  have hentries : (n.page (st.pages n.pid)).entries = n.entries := rfl
  have hpresent : (n.entries[leafFind n.entries key]?).any (·.1 == key) = true ↔ _ :=
    any_leafFind_iff (h.order.sorted n hmem)
  by_cases hany : (n.entries[leafFind n.entries key]?).any (·.1 == key) = true
  · -- the key is there
    rw [hentries, if_pos hany] at hrun
    obtain ⟨_, st₂, hrel, hrun⟩ := run_bind_eq_some.mp hrun
    obtain ⟨-, rfl⟩ := run_pure_eq_some.mp hrun
    refine .inl ⟨hpaid₁.trans (pays_lsReleaseAll stack _ _ _ hrel), fun leafPid lph hs => ?_⟩
    obtain ⟨-, rfl⟩ := hunique hs
    obtain ⟨ref', hin⟩ := hpresent.mp hany
    exact hs.absent ref' hin
  rw [hentries, if_neg hany, run_bind_of run_getPageSize, hsame₁.pageSize] at hrun
  by_cases hroom : n.entries.length < maxLeafKeys st.pageSize
  · -- the leaf has room
    rw [if_pos hroom] at hrun
    have hself : .wlatch n.pid ∈ wlatches stack + 0 :=
      Multiset.mem_add.mpr (.inl (mem_wlatches.mpr List.mem_cons_self))
    obtain ⟨_, st₂, hwrite, hrun⟩ := run_bind_eq_some.mp hrun
    obtain ⟨_, st₃, hdirty, hrun⟩ := run_bind_eq_some.mp hrun
    obtain ⟨_, st₄, hrel, hrun⟩ := run_bind_eq_some.mp hrun
    obtain ⟨-, rfl⟩ := run_pure_eq_some.mp hrun
    refine .inl ⟨((hpaid₁.trans (pays_writeLeaf (.inl hself) _ _ _ hwrite)).trans
      (pays_pagerMarkDirty _ _ _ hdirty)).trans (pays_lsReleaseAll stack _ _ _ hrel),
        fun leafPid lph hs => ?_⟩
    obtain ⟨-, rfl⟩ := hunique hs
    exact Nat.not_le.mpr hroom hs.full
  · -- the leaf is split
    rw [if_neg hroom] at hrun
    have hunsafe : ¬ n.Safe st.pageSize true := hroom
    rw [if_neg hunsafe] at hstack
    obtain ⟨⟨sep, new⟩, st₂, hsplit, hrun⟩ := run_bind_eq_some.mp hrun
    obtain ⟨_, st₃, hprop, hrun⟩ := run_bind_eq_some.mp hrun
    obtain ⟨-, rfl⟩ := run_pure_eq_some.mp hrun
    obtain ⟨st₄, -, hfound⟩ := h.findLeafRlatch hn
    rw [hstack, Multiset.add_zero] at hpaid₁
    rw [hstack] at hprop
    refine .inr ⟨{
      a := a
      n := n
      b := b
      above := above
      st₁ := st₁
      st₂ := st₂
      sep := sep
      new := new
      leafFor := hn
      same := hsame₁
      splits := ⟨⟨st₄, hfound⟩, hleafPage, ?_, Nat.not_lt.mp hroom⟩
      ancestors := hanc
      paid := hpaid₁
      split := hsplit
      propagate := hprop }⟩
    intro ref' hin
    exact hany (hpresent.mpr ⟨ref', hin⟩)

end Cases

/-! ## Splitting the last leaf -/

section Split

variable {fresh : Set Nat} {L : Ledger} {st st' : Pager} {leafPid key : Nat} {lph : LeafPage}
  {ref : RowRef}

/-- Writing a leaf makes no page unused. -/
theorem Pager.Unused.of_setPage {pid p : Nat} {l : LeafPage}
    (h : (st.setPage pid (.leaf l)).Unused p) : st.Unused p := by
  rcases h with hlast | ⟨next, hpage⟩
  · exact .inl hlast
  · by_cases heq : p = pid
    · rw [heq, Pager.setPage_pages, Function.update_self] at hpage
      cases hpage
    · rw [Pager.setPage_pages, Function.update_of_ne heq] at hpage
      exact .inr ⟨next, hpage⟩

/-- The last leaf has no right neighbour to redirect. -/
theorem paid_splitLeaf_last {r : Nat × Nat} (hnext : lph.nextLeafPageId = 0)
    (hleaf : .wlatch leafPid ∈ L) (hfresh : ∀ p, st.Unused p → p ∈ fresh)
    (hrun : (splitLeaf leafPid lph key ref).run st = some (r, st')) :
    Paid fresh st L st' L ∧ st.Unused r.2 ∧ (∀ p, st'.Unused p → st.Unused p) ∧
      (∀ p, ¬ st.Unused p → p ≠ leafPid → st'.pages p = st.pages p) ∧
      st'.pageSize = st.pageSize := by
  unfold splitLeaf at hrun
  dsimp only at hrun
  split at hrun
  · obtain ⟨newPid, st₁, halloc, hrun⟩ := run_bind_eq_some.mp hrun
    obtain ⟨hpaid, hunused, hkept, hpages, hps⟩ := paid_pagerAllocPage (L := L) halloc hfresh
    have hnew : newPid ∈ fresh := hfresh _ hunused
    obtain ⟨_, st₂, hget, hrun⟩ := run_bind_eq_some.mp hrun
    obtain ⟨_, st₃, hwrite, hrun⟩ := run_bind_eq_some.mp hrun
    obtain ⟨_, st₄, hdirty, hrun⟩ := run_bind_eq_some.mp hrun
    obtain ⟨_, st₅, hprev, hrun⟩ := run_bind_eq_some.mp hrun
    obtain ⟨_, st₆, hwrite', hrun⟩ := run_bind_eq_some.mp hrun
    obtain ⟨_, st₇, hdirty', hrun⟩ := run_bind_eq_some.mp hrun
    obtain ⟨_, st₈, hunpin, hrun⟩ := run_bind_eq_some.mp hrun
    obtain ⟨rfl, rfl⟩ := run_pure_eq_some.mp hrun
    have hpaid' : Paid fresh st L st' L :=
      (((((((hpaid.trans (pays_pagerGetPage _ _ _ hget)).trans
        (pays_writeLeaf (.inr hnew) _ _ _ hwrite)).trans (pays_pagerMarkDirty _ _ _ hdirty)).trans
        (pays_setPrevLeaf (.inl hnext) _ _ _ hprev)).trans
        (pays_writeLeaf (.inl (Multiset.mem_cons_of_mem hleaf)) _ _ _ hwrite')).trans
        (pays_pagerMarkDirty _ _ _ hdirty')).trans (pays_pagerUnpin rfl _ _ _ hunpin))
    obtain rfl := run_modify_eq_some.mp hget
    obtain rfl := run_writeLeaf_eq_some hwrite
    obtain rfl := run_modify_eq_some.mp hdirty
    rw [setPrevLeaf, if_neg (not_not.mpr hnext)] at hprev
    obtain ⟨-, rfl⟩ := run_pure_eq_some.mp hprev
    obtain rfl := run_writeLeaf_eq_some hwrite'
    obtain rfl := run_modify_eq_some.mp hdirty'
    obtain rfl := run_modify_eq_some.mp hunpin
    refine ⟨hpaid', hunused, fun p hp => hkept p ?_, fun p hp hne => ?_, hps⟩
    · exact Pager.Unused.of_setPage (Pager.Unused.of_setPage hp)
    · have hnew : p ≠ newPid := fun heq => hp (heq ▸ hunused)
      show Function.update (Function.update st₁.pages newPid _) leafPid _ p = _
      rw [Function.update_of_ne hne, Function.update_of_ne hnew, hpages, Function.update_of_ne hnew]
  · cases hrun

/-- A root that has been split gets a new page above it. -/
theorem paid_growRoot {oldRoot curKey curRight : Nat} (hroot : .wlatch oldRoot ∈ L)
    (hright : curRight ∈ fresh) (hfresh : ∀ p, st.Unused p → p ∈ fresh)
    (hrun : (growRoot oldRoot curKey curRight).run st = some ((), st')) : Paid fresh st L st' L := by
  obtain ⟨newRoot, st₁, halloc, hrun⟩ := run_bind_eq_some.mp hrun
  obtain ⟨hpaid, hunused, -⟩ := paid_pagerAllocPage (L := L) halloc hfresh
  have hnew : newRoot ∈ fresh := hfresh _ hunused
  have hrest : Pays fresh (do
      pagerGetPage newRoot
      writeInternal newRoot
        { parentPageId := 0, leftmostChildPageId := oldRoot, entries := [(curKey, curRight)] }
      pagerMarkDirty newRoot
      pagerUnpin newRoot
      updateChildParentPage oldRoot newRoot
      updateChildParentPage curRight newRoot
      modify fun st => st.setHeader { st.header with rootIndexPageId := newRoot }) L
        fun _ => L := by
    apply pays_pagerGetPage.bind
    intro _
    apply (pays_writeInternal (.inr hnew)).bind
    intro _
    apply pays_pagerMarkDirty.bind
    intro _
    apply (pays_pagerUnpin rfl).bind
    intro _
    apply (pays_updateChildParentPage (.inl hroot)).bind
    intro _
    apply (pays_updateChildParentPage (.inr hright)).bind
    intro _
    exact pays_modify fun _ => rfl
  exact hpaid.trans (hrest _ _ _ hrun)

/-- A parent with room takes the new page in. -/
theorem paid_propagateInsert_room {stack above : List Nat} {curKey curRight node parentPid : Nat}
    {iph : InternalPage} (hpage : st.pages parentPid = .internal iph)
    (hroom : iph.entries.length < maxInternalKeys st.pageSize) (hparent : parentPid ∈ stack)
    (hright : curRight ∈ fresh)
    (hrun : (propagateInsert stack curKey curRight node (parentPid :: above)).run st =
      some ((), st')) : Paid fresh st (wlatches stack + L) st' L := by
  have hparentL : .wlatch parentPid ∈ wlatches stack + L :=
    Multiset.mem_add.mpr (.inl (mem_wlatches.mpr hparent))
  rw [propagateInsert] at hrun
  obtain ⟨_, st₁, hget, hrun⟩ := run_bind_eq_some.mp hrun
  have hpaid := @pays_pagerGetPage fresh (wlatches stack + L) _ _ _ _ hget
  obtain rfl := run_modify_eq_some.mp hget
  have hread : (readInternal parentPid).run (st.log (.get parentPid)) = some (iph, _) :=
    run_readInternal hpage
  rw [run_bind_of hread, run_bind_of run_getPageSize] at hrun
  split at hrun
  · have hrest : Pays fresh (do
        writeInternal parentPid
          { iph with
            entries := insertAt iph.entries (internalFind iph.entries curKey) (curKey, curRight) }
        pagerMarkDirty parentPid
        pagerUnpin parentPid
        updateChildParentPage curRight parentPid
        lsReleaseAll stack) (.pin parentPid ::ₘ (wlatches stack + L)) fun _ => L := by
      apply (pays_writeInternal (.inl (Multiset.mem_cons_of_mem hparentL))).bind
      intro _
      apply pays_pagerMarkDirty.bind
      intro _
      apply (pays_pagerUnpin rfl).bind
      intro _
      exact (pays_updateChildParentPage (.inr hright)).bind fun _ => pays_lsReleaseAll stack
    exact hpaid.trans (hrest _ _ _ hrun)
  · rename_i hfull
    exact absurd hroom hfull

end Split

end MiniDb
