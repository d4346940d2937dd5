import MiniDb.Storage.Bptree.ForeignWrites
import MiniDb.Storage.Bptree.LeafSplit
import MiniDb.Storage.Bptree.PinDiscipline

/-! # The latches of insertion and deletion

When a call writes only pages that it has write-latched or allocated (`latchDiscipline_iff`). The
descent latches the path, and siblings are latched while they are read or written. Beyond that the
next leaf of a split or a merge, and the children that inner nodes hand over, are changed on a pin
alone, and a right sibling is freed after its latch has been dropped. -/

set_option autoImplicit false

namespace MiniDb

open Lib

/-! ## The repair of internal nodes -/

section Repair

variable {fresh : Set Nat} {stack parents above : List Nat} {nodePid parentPid childIdx : Nat}
  {propagate : PagerM Unit} {L : Ledger} {iph niph : InternalPage} {st st' : Pager}

/-- Whichever way `fix_internal_underflow_latched` goes, a child changes hands. -/
theorem fixInternalUnderflowLatched_wroteForeign
    (hpropagate : Keeps (fun st st' => st.trace <:+ st'.trace) propagate)
    (hpage : st.pages parentPid = .internal iph) (hnode : st.pages nodePid = .internal niph)
    (hmem : nodePid ∈ (Page.internal iph).children) (hidx : findChildIdx iph nodePid = some childIdx)
    (h : KidsForeign fresh L st.pages iph)
    (hrun : (fixInternalUnderflowLatched stack nodePid (parentPid :: above) propagate).run st =
      some ((), st')) : WroteForeign fresh st L st' := by
  have hrelease := extends_lsReleaseAll stack
  obtain ⟨_, st₁, hget, hrun⟩ := run_bind_eq_some.mp hrun
  have hpaid : Paid Set.univ st L st₁ (.pin parentPid ::ₘ L) := pays_pagerGetPage _ _ _ hget
  obtain rfl := run_modify_eq_some.mp hget
  have h₁ : KidsForeign fresh (.pin parentPid ::ₘ L) (st.log (.get parentPid)).pages iph :=
    fun p hp c hc => ⟨(h p hp c hc).1, foreign_pin.mpr (h p hp c hc).2⟩
  have hread : (readInternal parentPid).run (st.log (.get parentPid)) = some (iph, _) :=
    run_readInternal hpage
  rw [run_bind_of hread] at hrun
  have hread' : (readInternal nodePid).run (st.log (.get parentPid)) = some (niph, _) :=
    run_readInternal hnode
  rw [run_bind_of hread'] at hrun
  simp only [hidx] at hrun
  -- the right sibling is asked first
  obtain ⟨right, st₂, hright, hrun⟩ := run_bind_eq_some.mp hrun
  rcases tryBorrowInternalRight_wroteForeign h₁ hright with ⟨rfl, hbad⟩ | ⟨rfl, hsame₂, hpaid₂⟩
  · exact hpaid.meets (hbad.extend (hrelease _ _ _ hrun))
  have h₂ : KidsForeign fresh (.pin parentPid ::ₘ L) st₂.pages iph := by
    rw [hsame₂.pages]
    exact h₁
  -- then the left one
  obtain ⟨left, st₃, hleft, hrun⟩ := run_bind_eq_some.mp hrun
  rcases tryBorrowInternalLeft_wroteForeign h₂ hleft with ⟨rfl, hbad⟩ | ⟨rfl, hsame₃, hpaid₃⟩
  · exact (hpaid.trans hpaid₂).meets (hbad.extend (hrelease _ _ _ hrun))
  have h₃ : KidsForeign fresh (.pin parentPid ::ₘ L) st₃.pages iph := by
    rw [hsame₃.pages]
    exact h₂
  have hnode₃ : st₃.pages nodePid = .internal niph := by
    rw [hsame₃.pages, hsame₂.pages]
    exact hnode
  obtain ⟨_, st₄, hmerge, hrest⟩ := run_bind_eq_some.mp hrun
  have hbad := mergeInternal_wroteForeign h₃ hmem hnode₃ hmerge
  exact ((hpaid.trans hpaid₂).trans hpaid₃).meets (hbad.extend (hpropagate _ _ _ hrest))

/-- So it is when a node that has lost an entry is short of entries. -/
theorem propagateDelete_wroteForeign
    (hrun : (propagateDelete stack (nodePid :: parentPid :: above)).run st = some ((), st'))
    (hroot : nodePid ≠ st.header.rootIndexPageId) (hnode : st.pages nodePid = .internal niph)
    (hshort : niph.entries.length < minInternalKeys st.pageSize)
    (hpage : st.pages parentPid = .internal iph) (hmem : nodePid ∈ (Page.internal iph).children)
    (hidx : findChildIdx iph nodePid = some childIdx) (h : KidsForeign fresh L st.pages iph) :
    WroteForeign fresh st L st' := by
  rw [propagateDelete, run_bind_of run_rootId, if_neg hroot] at hrun
  obtain ⟨_, st₁, hget, hrun⟩ := run_bind_eq_some.mp hrun
  have hpaid := @pays_pagerGetPage Set.univ L _ _ _ _ hget
  obtain rfl := run_modify_eq_some.mp hget
  have hread : (readInternal nodePid).run (st.log (.get nodePid)) =
      some (niph, st.log (.get nodePid)) := run_readInternal hnode
  rw [run_bind_of hread] at hrun
  obtain ⟨_, st₂, hunpin, hrun⟩ := run_bind_eq_some.mp hrun
  have hpaid₂ := hpaid.trans (pays_pagerUnpin rfl _ _ _ hunpin)
  obtain rfl := run_modify_eq_some.mp hunpin
  rw [run_bind_of run_getPageSize] at hrun
  split at hrun
  · rename_i hfull
    exact absurd hfull (Nat.not_le.mpr hshort)
  · exact hpaid₂.meets (fixInternalUnderflowLatched_wroteForeign
      (extends_propagateDelete stack (parentPid :: above)) hpage hnode hmem hidx h hrun)

/-- A root with one child left hands over to it, and writes its parent field. -/
theorem shrinkRoot_wroteForeign (hpage : st.pages nodePid = .internal iph)
    (hempty : iph.entries.length = 0) (h : Foreign fresh L iph.leftmostChildPageId)
    (hrun : (shrinkRoot nodePid).run st = some ((), st')) : WroteForeign fresh st L st' := by
  obtain ⟨_, st₁, hget, hrun⟩ := run_bind_eq_some.mp hrun
  have hpaid : Paid Set.univ st L st₁ (.pin nodePid ::ₘ L) := pays_pagerGetPage _ _ _ hget
  obtain rfl := run_modify_eq_some.mp hget
  have hread : (readInternal nodePid).run (st.log (.get nodePid)) = some (iph, _) :=
    run_readInternal hpage
  rw [run_bind_of hread] at hrun
  dsimp only at hrun
  rw [if_pos hempty] at hrun
  have hbad : WritesForeign fresh (do
      pagerUnpin nodePid
      pagerFreePage nodePid
      modify fun st => st.setHeader
        { st.header with rootIndexPageId := iph.leftmostChildPageId }
      updateChildParentPage iph.leftmostChildPageId 0) (.pin nodePid ::ₘ L) := by
    apply (pays_pagerUnpin rfl).meets
    intro _
    apply (pays_pagerFreePage may).meets
    intro _
    refine (pays_modify ?_).meets fun _ => writesForeign_updateChildParentPage h
    intro st
    rfl
  exact hpaid.meets (hbad _ _ _ hrun)

/-- A root with more children stays as it is. -/
theorem paid_shrinkRoot (hpage : st.pages nodePid = .internal iph) (hne : iph.entries.length ≠ 0)
    (hrun : (shrinkRoot nodePid).run st = some ((), st')) : Paid fresh st L st' L := by
  obtain ⟨_, st₁, hget, hrun⟩ := run_bind_eq_some.mp hrun
  have hpaid : Paid fresh st L st₁ (.pin nodePid ::ₘ L) := pays_pagerGetPage _ _ _ hget
  obtain rfl := run_modify_eq_some.mp hget
  have hread : (readInternal nodePid).run (st.log (.get nodePid)) = some (iph, _) :=
    run_readInternal hpage
  rw [run_bind_of hread] at hrun
  dsimp only at hrun
  rw [if_neg hne] at hrun
  exact hpaid.trans (pays_pagerUnpin rfl _ _ _ hrun)

end Repair

/-! ## Deletion -/

/-- A deletion of the key writes beyond its latches: it merges two leaves, and that is not the last
leaf with its left sibling under a parent that can spare an entry. -/
def MergesBeyond (st : Pager) (key : Nat) : Prop :=
  ∃ leafPid lph iph childIdx, MergesLeaf st key leafPid lph iph childIdx ∧
    (childIdx = 0 ∨ lph.nextLeafPageId ≠ 0 ∨
      lph.parentPageId = st.header.rootIndexPageId ∧ iph.entries.length ≤ 1 ∨
      lph.parentPageId ≠ st.header.rootIndexPageId ∧
        iph.entries.length ≤ minInternalKeys st.pageSize)

section Delete

variable {st st' : Pager} {free : List Nat} {leaves : List LeafNode} {rows : List Row}
  {key : Nat}

/-- The other leaves are none of the pages that are latched. -/
theorem LeafMerge.foreign (m : LeafMerge st free key st') {p : Nat}
    (hp : p ∈ (m.a ++ [m.n] ++ m.b).map LeafNode.pid) (hne : p ≠ m.n.pid) :
    Foreign {p | st.Unused p} (wlatches (m.n.pid :: m.q.pid :: m.above)) p := by
  have hinner : p ∉ rowsPids ((m.a' ++ m.q :: m.b') :: m.rest) := fun hmem =>
    (List.nodup_append.mp m.shape.nodup).2.2 p hp p hmem rfl
  refine ⟨fun hlatch => ?_, m.inUse p (List.mem_append_left _ hp)⟩
  rw [mem_wlatches, List.mem_cons, List.mem_cons] at hlatch
  rcases hlatch with rfl | rfl | habove
  · exact hne rfl
  · exact hinner (by simp)
  · rcases m.ancestors with ⟨-, hnil⟩ | ⟨-, hanc⟩
    · rw [hnil] at habove
      cases habove
    · refine hinner ?_
      rw [rowsPids_cons]
      exact List.mem_append_right _ (hanc.mem_rowsPids p habove)

theorem LeafMerge.mergesBeyond_iff (m : LeafMerge st free key st') :
    MergesBeyond st key ↔ m.ka = [] ∨ m.lph.nextLeafPageId ≠ 0 ∨
      m.q.pid = st.header.rootIndexPageId ∧ m.q.entries.length ≤ 1 ∨
      m.q.pid ≠ st.header.rootIndexPageId ∧
        m.q.entries.length ≤ minInternalKeys st.pageSize := by
  rw [← List.length_eq_zero_iff, ← m.parent_eq]
  constructor
  · rintro ⟨leafPid, lph, iph, childIdx, hm, h⟩
    obtain ⟨-, rfl, rfl, rfl⟩ := m.merges.unique hm.toLeafUnder
    exact h
  · intro h
    exact ⟨_, _, _, _, m.merges, h⟩

/-- The merge itself writes a foreign page on the left edge, and before the end of the leaves. -/
theorem LeafMerge.wroteForeign_merge (m : LeafMerge st free key st')
    (h : m.ka = [] ∨ m.lph.nextLeafPageId ≠ 0) :
    WroteForeign {p | st.Unused p} m.st₁
      (.pin m.q.pid ::ₘ wlatches (m.n.pid :: m.q.pid :: m.above)) m.st₂ := by
  have hshape : TreeShape m.st₁ free (m.a ++ m.n :: m.b) ((m.a' ++ m.q :: m.b') :: m.rest) := by
    rw [List.append_cons]
    exact m.shape
  -- the leaves on the right
  have hright : ∀ l ∈ m.b, Foreign {p | st.Unused p}
      (wlatches (m.n.pid :: m.q.pid :: m.above)) l.pid := by
    intro l hl
    refine m.foreign (List.mem_map_of_mem (List.mem_append_right _ hl)) ?_
    exact ne_of_nodup_map (List.nodup_append.mp hshape.nodup).1 l (List.mem_append_right _ hl)
  by_cases hka : m.ka = []
  · -- the right sibling is freed
    have hmerge := m.merge
    rw [hka, List.length_nil] at hmerge
    refine writesForeign_mergeLeaves_edge (fun e he => ?_) _ _ _ hmerge
    have hkids : m.q.kids = [] ++ m.n.head :: m.kb := by
      rw [m.under.kids, hka]
      rfl
    have hentry : e ∈ m.q.entries := List.mem_of_getElem? he
    rw [m.q.entries_eq hkids] at hentry
    have hmem : e ∈ m.b.map LeafNode.head := by
      rw [m.under.right]
      exact List.mem_append_left _ hentry
    obtain ⟨l, hl, rfl⟩ := List.mem_map.mp hmem
    exact hright l hl
  · -- the next leaf gets another left neighbour
    refine wroteForeign_mergeLeaves (List.length_pos_iff.mpr hka) (m.shape.leafOn m.n (by simp)).eq
      ?_ ?_ m.merge
    · show (m.st₁.pages m.n.pid).nextLeaf ≠ 0
      rw [m.next_eq]
      exact h.resolve_left hka
    · show Foreign _ _ (m.st₁.pages m.n.pid).nextLeaf
      rcases hshape.nextLeaf_cases with ⟨-, hnone⟩ | ⟨l, b₂, hb, hnext, -⟩
      · rw [m.next_eq] at hnone
        exact absurd hnone (h.resolve_left hka)
      · rw [hnext]
        exact hright l (hb ▸ List.mem_cons_self)

/-- Where the rows are whole below a row, the repair of that row hands over foreign pages. -/
theorem RowsAround.kidsForeign {fresh : Set Nat} {L : Ledger} {hs : List (Nat × Nat)}
    {a mid b a' b' : Row} {q : InnerNode} {rest : List Row}
    (h : RowsAround st free hs a mid b ((a' ++ q :: b') :: rest))
    (hforeign : ∀ c ∈ hs, Foreign fresh L c.2) (par : Nat) :
    KidsForeign fresh L st.pages (q.page par) := by
  obtain ⟨hrow, hrow', -⟩ := h.upper
  -- a child of the node above is a node of the row
  have hchild : ∀ p ∈ (Page.internal (q.page par)).children, ∃ n ∈ a ++ mid ++ b, n.pid = p := by
    intro p hp
    obtain ⟨x, hx, rfl⟩ : ∃ x ∈ q.kids, x.2 = p := List.mem_map.mp hp
    have hmem : x ∈ (a ++ mid ++ b).map InnerNode.head := by
      rw [← hrow'.kids]
      exact List.mem_flatMap.mpr ⟨q, by simp, hx⟩
    obtain ⟨n, hn, rfl⟩ := List.mem_map.mp hmem
    exact ⟨n, hn, rfl⟩
  intro p hp c hc
  obtain ⟨n, hn, rfl⟩ := hchild p hp
  rw [(hrow.on n hn).children] at hc
  obtain ⟨x, hx, rfl⟩ := List.mem_map.mp hc
  have hx : x ∈ hs := by
    rw [← hrow.kids]
    exact List.mem_flatMap.mpr ⟨n, hn, hx⟩
  refine ⟨fun hmem => ?_, hforeign x hx⟩
  obtain ⟨n', hn', heq⟩ := hchild x.2 hmem
  refine (List.nodup_append.mp h.nodup).2.2 x.2 (List.mem_map_of_mem hx) n'.pid ?_ heq.symm
  rw [rowsPids_cons]
  exact List.mem_append_left _ (List.mem_map_of_mem hn')

/-- The last leaf goes into its left sibling: everything that is written is latched. -/
theorem paid_mergeLeaves_last {fresh : Set Nat} {L : Ledger} {parentPid leafPid childIdx : Nat}
    {iph : InternalPage} {lph : LeafPage} (hpos : 0 < childIdx)
    (hpage : st.pages leafPid = .leaf lph) (hnext : lph.nextLeafPageId = 0)
    (hleaf : .wlatch leafPid ∈ L) (hparent : .wlatch parentPid ∈ L)
    (hrun : (mergeLeaves parentPid leafPid childIdx iph).run st = some ((), st')) :
    Paid fresh st (.pin parentPid ::ₘ L) st' L := by
  unfold mergeLeaves at hrun
  rw [if_pos hpos] at hrun
  split at hrun
  · obtain ⟨_, st₁, hlatch, hrun⟩ := run_bind_eq_some.mp hrun
    have hpaid := @pays_pagerGetPageWlatch fresh (.pin parentPid ::ₘ L) _ _ _ _ hlatch
    obtain rfl := run_modify_eq_some.mp hlatch
    obtain ⟨llph, st₂, hread, hrun⟩ := run_bind_eq_some.mp hrun
    obtain ⟨-, rfl⟩ := run_readLeaf_eq_some.mp hread
    obtain ⟨lph', st₃, hread', hrun⟩ := run_bind_eq_some.mp hrun
    obtain ⟨hpage', rfl⟩ := run_readLeaf_eq_some.mp hread'
    obtain rfl := Page.leaf.inj (hpage.symm.trans hpage')
    exact hpaid.trans (pays_mergeLeaf (.inl (Multiset.mem_cons_self _ _)) (.inl hnext)
      (.inl hparent) (.inl hleaf) _ _ _ _ _ hrun)
  · cases hrun

/-- The repair above the merge does where the parent has no entry to spare. -/
theorem LeafMerge.wroteForeign_repair (m : LeafMerge st free key st') (hka : m.ka ≠ [])
    (h : m.q.pid = st.header.rootIndexPageId ∧ m.q.entries.length ≤ 1 ∨
      m.q.pid ≠ st.header.rootIndexPageId ∧ m.q.entries.length ≤ minInternalKeys st.pageSize) :
    WroteForeign {p | st.Unused p} m.st₂ (wlatches (m.n.pid :: m.q.pid :: m.above)) st' := by
  obtain ⟨free₂, hs, q', hhead, hlen, hroot, hps, haround, hleaves, hne⟩ := m.rowsAround
  have hpid : q'.pid = m.q.pid := congrArg Prod.snd hhead
  have hforeign : ∀ c ∈ hs, Foreign {p | st.Unused p}
      (wlatches (m.n.pid :: m.q.pid :: m.above)) c.2 := fun c hc =>
    m.foreign (hleaves c hc) (hne hka c hc)
  have hpage : m.st₂.pages m.q.pid =
      .internal ⟨(m.st₂.pages m.q.pid).parent, q'.leftmost, q'.entries⟩ := by
    rw [← hpid]
    exact (haround.upper.1.on q' (by simp)).eq
  have hprop := m.propagate
  rcases h with ⟨hq, hshort⟩ | ⟨hq, hshort⟩
  · -- the root has one child left
    rw [propagateDelete, run_bind_of run_rootId, hroot, if_pos hq] at hprop
    obtain ⟨_, st₃, hshrink, hrest⟩ := run_bind_eq_some.mp hprop
    refine (shrinkRoot_wroteForeign hpage (by show q'.entries.length = 0; omega) ?_ hshrink).extend
      (extends_lsReleaseAll _ _ _ _ hrest)
    refine hforeign (q'.low, q'.leftmost) ?_
    rw [← haround.upper.1.kids]
    exact List.mem_flatMap.mpr ⟨q', by simp, List.mem_cons_self⟩
  · -- the parent is repaired with its own parent
    have hunsafe : ¬ m.q.Safe st.pageSize false := by
      simp only [InnerNode.Safe, Bool.false_eq_true, if_false]
      omega
    obtain ⟨-, hanc⟩ := m.ancestors.resolve_left fun h => hunsafe h.1
    generalize m.rest = rest at hanc haround
    generalize m.above = above at hanc hprop hforeign ⊢
    cases rest with
    | nil =>
      -- there is a row above, since the parent is not the root
      obtain ⟨n, hrow, -, htop⟩ := haround.upper.single rfl
      have hmem : q' ∈ m.a' ++ [q'] ++ m.b' := by simp
      rw [hrow, List.mem_singleton] at hmem
      rw [← hpid, hmem, ← hroot] at hq
      exact absurd htop hq
    | cons row rest =>
      obtain ⟨a₂, p, b₂, ka₂, kb₂, above₂, rfl, hkids, hleft, hright, rfl, -⟩ := hanc
      have hu : Under m.a' [q'] m.b' a₂ p b₂ ka₂ kb₂ :=
        ⟨hleft, hright, by simpa [hhead] using hkids⟩
      have hidx := haround.findChildIdx_eq hu (m.st₂.pages p.pid).parent
      rw [hpid] at hidx
      refine propagateDelete_wroteForeign hprop (by rw [hroot]; exact hq) hpage
        (by rw [hps]; show q'.entries.length < _; omega) (haround.upper.2.1.on p (by simp)).eq ?_ hidx
        (haround.kidsForeign hforeign _)
      have hmem : m.q.head ∈ p.kids := by
        rw [hkids]
        simp
      exact List.mem_map_of_mem (f := Prod.snd) hmem

/-- A deletion that merges leaves. -/
theorem LeafMerge.latchDiscipline (m : LeafMerge st free key st') :
    LatchDiscipline {p | st.Unused p} (callEvents st st') ↔ ¬ MergesBeyond st key := by
  rw [m.mergesBeyond_iff]
  constructor
  · intro hlatches hbeyond
    refine not_latchDiscipline_of_meets ?_ hlatches
    by_cases hmerge : m.ka = [] ∨ m.lph.nextLeafPageId ≠ 0
    · have hbefore : Paid Set.univ st 0 m.st₁ _ := paid_mono m.paid fun _ hp => hp.elim
      exact hbefore.meets ((m.wroteForeign_merge hmerge).extend
        (extends_propagateDelete _ _ _ _ _ m.propagate))
    · rw [not_or] at hmerge
      have hbefore : Paid Set.univ st 0 m.st₂ _ :=
        (paid_mono m.paid fun _ hp => hp.elim).trans (pays_mergeLeaves _ _ _ _ _ m.merge)
      exact hbefore.meets (m.wroteForeign_repair hmerge.1
        ((hbeyond.resolve_left hmerge.1).resolve_left hmerge.2))
  · intro hinside
    simp only [not_or, not_and, not_le, not_not] at hinside
    obtain ⟨hka, hnext, hroot, hinner⟩ := hinside
    obtain ⟨free₂, hs, q', hhead, hlen, hroot₂, hps₂, haround, -, -⟩ := m.rowsAround
    have hpid : q'.pid = m.q.pid := congrArg Prod.snd hhead
    have hpage : m.st₂.pages m.q.pid =
        .internal ⟨(m.st₂.pages m.q.pid).parent, q'.leftmost, q'.entries⟩ := by
      rw [← hpid]
      exact (haround.upper.1.on q' (by simp)).eq
    have hpaid : Paid ∅ st 0 m.st₂ (wlatches (m.n.pid :: m.q.pid :: m.above)) := by
      refine m.paid.trans (paid_mergeLeaves_last (List.length_pos_iff.mpr hka)
        (m.shape.leafOn m.n (by simp)).eq (m.next_eq.trans hnext) ?_ ?_ m.merge)
      · exact mem_wlatches.mpr List.mem_cons_self
      · exact mem_wlatches.mpr (List.mem_cons_of_mem _ List.mem_cons_self)
    have hrest : Paid ∅ m.st₂ (wlatches (m.n.pid :: m.q.pid :: m.above) + 0) st' 0 := by
      have hprop := m.propagate
      by_cases hq : m.q.pid = st.header.rootIndexPageId
      · have hlong := hroot hq
        rw [propagateDelete, run_bind_of run_rootId, hroot₂, if_pos hq] at hprop
        obtain ⟨_, st₃, hshrink, hrelease⟩ := run_bind_eq_some.mp hprop
        have hne : q'.entries.length ≠ 0 := by omega
        exact (paid_shrinkRoot hpage hne hshrink).trans (pays_lsReleaseAll _ _ _ _ hrelease)
      · have hlong := hinner hq
        refine paid_propagateDelete_full hprop (by rw [hroot₂]; exact hq) hpage ?_
        rw [hps₂]
        show _ ≤ q'.entries.length
        omega
    rw [Multiset.add_zero] at hrest
    exact latchDiscipline_of_paid (paid_mono (hpaid.trans hrest) fun _ hp => hp.elim)

theorem latchDiscipline_bptreeDelete_iff (h : TreeInv st free leaves rows) {r : Int}
    (hrun : (bptreeDelete key).run st = some (r, st')) :
    LatchDiscipline {p | st.Unused p} (callEvents st st') ↔ ¬ MergesBeyond st key := by
  rcases h.bptreeDelete_cases hrun with ⟨hpaid, hnone⟩ | ⟨⟨m⟩⟩
  · refine iff_of_true (latchDiscipline_of_paid (paid_mono hpaid fun _ hp => hp.elim)) ?_
    rintro ⟨leafPid, lph, iph, childIdx, hm, -⟩
    exact hnone _ _ _ _ hm
  · exact m.latchDiscipline

end Delete

/-! ## Insertion -/

/-- An insertion of the key writes beyond its latches: it splits its leaf, and that is not the last
one, or its parent is full too. -/
def SplitsBeyond (st : Pager) (key : Nat) : Prop :=
  ∃ leafPid lph, SplitsLeaf st key leafPid lph ∧
    (lph.nextLeafPageId ≠ 0 ∨ leafPid ≠ st.header.rootIndexPageId ∧
      ∃ iph, st.pages lph.parentPageId = .internal iph ∧
        maxInternalKeys st.pageSize ≤ iph.entries.length)

section Insert

variable {st st' : Pager} {free : List Nat} {leaves : List LeafNode} {rows : List Row}
  {key : Nat} {ref : RowRef}

/-- The upper half of a full node with a new entry has a child that is neither the new one nor
another given page. -/
theorem exists_mem_upperHalf {entries : List (Nat × Nat)} {k new : Nat}
    (hnd : (entries.map Prod.snd).Nodup) (hnew : new ∉ entries.map Prod.snd)
    (hlen : 6 ≤ entries.length) (i p : Nat) :
    ∃ e ∈ (insertAt entries i (k, new)).drop ((insertAt entries i (k, new)).length / 2 + 1),
      e ∈ entries ∧ e.2 ≠ p := by
  have hperm : (insertAt entries i (k, new)).Perm ((k, new) :: entries) := by
    rw [insertAt]
    refine List.perm_middle.trans ?_
    rw [List.take_append_drop]
  have hcount := hperm.length_eq
  rw [List.length_cons] at hcount
  generalize insertAt entries i (k, new) = tmp at hperm hcount ⊢
  have htmp : (tmp.map Prod.snd).Nodup := by
    rw [(hperm.map Prod.snd).nodup_iff, List.map_cons, List.nodup_cons]
    exact ⟨hnew, hnd⟩
  have hupper : ((tmp.drop (tmp.length / 2 + 1)).map Prod.snd).Nodup :=
    htmp.sublist ((List.drop_sublist _ _).map _)
  by_contra hnone
  simp only [not_exists, not_and, not_not] at hnone
  -- then there are at most two children
  have hsub : (tmp.drop (tmp.length / 2 + 1)).map Prod.snd ⊆ [new, p] := by
    intro c hc
    obtain ⟨e, he, rfl⟩ := List.mem_map.mp hc
    rcases List.mem_cons.mp (hperm.subset (List.mem_of_mem_drop he)) with rfl | hmem
    · exact List.mem_cons_self
    · rw [hnone e he hmem]
      exact List.mem_cons_of_mem _ List.mem_cons_self
  have hle := (List.subperm_of_subset hupper hsub).length_le
  rw [List.length_map, List.length_drop, List.length_cons, List.length_singleton] at hle
  omega

theorem LeafSplitting.splitsBeyond_iff (s : LeafSplitting st free leaves rows key ref st') :
    SplitsBeyond st key ↔ (st.pages s.n.pid).nextLeaf ≠ 0 ∨
      s.n.pid ≠ st.header.rootIndexPageId ∧ ∃ iph,
        st.pages (st.pages s.n.pid).parent = .internal iph ∧
          maxInternalKeys st.pageSize ≤ iph.entries.length := by
  constructor
  · rintro ⟨leafPid, lph, hs, h⟩
    obtain ⟨st₂, hrun⟩ := hs.found
    obtain ⟨st₃, hrun'⟩ := s.splits.found
    obtain ⟨rfl, -⟩ := Prod.mk.inj (Option.some.inj (hrun'.symm.trans hrun))
    obtain rfl := Page.leaf.inj (s.splits.leaf.symm.trans hs.leaf)
    exact h
  · intro h
    exact ⟨_, _, s.splits, h⟩

/-- The other leaves are none of the pages that are latched. -/
theorem LeafSplitting.foreign (h : TreeInv st free leaves rows)
    (s : LeafSplitting st free leaves rows key ref st') {p : Nat}
    (hp : p ∈ leaves.map LeafNode.pid) (hne : p ≠ s.n.pid) :
    Foreign {p | st.Unused p} (wlatches (s.n.pid :: s.above)) p := by
  refine ⟨fun hlatch => ?_, h.not_unused (List.mem_append_left _ hp)⟩
  rw [mem_wlatches, List.mem_cons] at hlatch
  rcases hlatch with rfl | habove
  · exact hne rfl
  · exact (List.nodup_append.mp h.nodup).2.2 p hp p (s.ancestors.mem_rowsPids p habove) rfl

/-- The split itself writes a foreign page before the end of the leaves. -/
theorem LeafSplitting.wroteForeign_split (h : TreeInv st free leaves rows)
    (s : LeafSplitting st free leaves rows key ref st') (hnext : (st.pages s.n.pid).nextLeaf ≠ 0) :
    WroteForeign {p | st.Unused p} s.st₁ (wlatches (s.n.pid :: s.above)) s.st₂ := by
  refine writesForeign_splitLeaf ?_ hnext _ _ _ s.split
  show Foreign _ _ (st.pages s.n.pid).nextLeaf
  have hshape := h.toTreeShape
  have heq := s.leafFor.eq
  rw [heq] at hshape
  rcases hshape.nextLeaf_cases with ⟨-, hnone⟩ | ⟨l, b, hb, hl, -⟩
  · exact absurd hnone hnext
  · rw [hl]
    have hmem : l ∈ s.b := hb ▸ List.mem_cons_self
    refine s.foreign h ?_ ?_
    · rw [heq]
      exact List.mem_map_of_mem (List.mem_append_right _ (List.mem_cons_of_mem _ hmem))
    · exact ne_of_nodup_map (List.nodup_append.mp hshape.nodup).1 l (List.mem_append_right _ hmem)

/-- The leaf is the root, or its parent is latched above it. -/
theorem LeafSplitting.parent_cases (h : TreeInv st free leaves rows)
    (s : LeafSplitting st free leaves rows key ref st') :
    s.n.pid = st.header.rootIndexPageId ∧ s.above = [] ∨
      s.n.pid ≠ st.header.rootIndexPageId ∧ ∃ (q : InnerNode) (above : List Nat),
        s.above = q.pid :: above ∧
        st.pages (st.pages s.n.pid).parent = .internal (q.page (st.pages q.pid).parent) ∧
        (st.pages s.n.pid).parent = q.pid ∧ q.pid ∈ rowsPids rows ∧
        (q.entries.map Prod.snd).Nodup ∧ ∀ e ∈ q.entries, e.2 ∈ leaves.map LeafNode.pid := by
  have hanc := s.ancestors
  have hn := s.leafFor
  have hmem : s.n ∈ leaves := hn.mem
  cases rows with
  | nil =>
    have hhead : s.n.head ∈ [(0, st.header.rootIndexPageId)] := by
      rw [← h.upper.1]
      exact List.mem_map_of_mem hmem
    exact .inl ⟨congrArg Prod.snd (List.mem_singleton.mp hhead), hanc⟩
  | cons row rest =>
    obtain ⟨a', q, b', ka, kb, above, rfl, hkids, hha, hhb, habove, -⟩ := hanc
    have hu : LeavesUnder s.a [s.n] s.b a' q b' ka kb := ⟨hha, hhb, by simpa using hkids⟩
    have hunder := h.leafUnder hn hu
    have hparent : (st.pages s.n.pid).parent = q.pid := by
      refine h.upper.1.parent q (by simp) s.n.head ?_
      rw [hkids]
      simp
    have hshape : TreeShape st free (s.a ++ [s.n] ++ s.b) ((a' ++ q :: b') :: rest) := by
      rw [← List.append_cons, ← hn.eq]
      exact h.toTreeShape
    have hentries : q.kids = (q.low, q.leftmost) :: q.entries := rfl
    have hnd := hshape.kids_nodup hu
    rw [hentries, List.map_cons, List.nodup_cons] at hnd
    refine .inr ⟨hunder.notRoot, q, above, habove, hunder.parent, hparent, by simp, hnd.2, ?_⟩
    intro e he
    have hhead : e ∈ leaves.map LeafNode.head := by
      rw [← h.upper.1.kids]
      exact List.mem_flatMap.mpr ⟨q, by simp, List.mem_cons_of_mem _ he⟩
    obtain ⟨l, hl, rfl⟩ := List.mem_map.mp hhead
    exact List.mem_map_of_mem (f := LeafNode.pid) hl

/-- A full parent is split in its turn, and writes the parent fields of foreign leaves. -/
theorem LeafSplitting.wroteForeign_parent (h : TreeInv st free leaves rows)
    (s : LeafSplitting st free leaves rows key ref st') {q : InnerNode} {above : List Nat}
    {par : Nat} (habove : s.above = q.pid :: above)
    (hpage : s.st₂.pages q.pid = .internal (q.page par)) (hps : s.st₂.pageSize = st.pageSize)
    (hnew : st.Unused s.new) (hfull : maxInternalKeys st.pageSize ≤ q.entries.length)
    (hnd : (q.entries.map Prod.snd).Nodup)
    (hleaves : ∀ e ∈ q.entries, e.2 ∈ leaves.map LeafNode.pid) :
    WroteForeign {p | st.Unused p} s.st₂ (wlatches (s.n.pid :: s.above)) st' := by
  have hprop := s.propagate
  have hlen : 6 ≤ q.entries.length := by
    have hmin := minInternalKeys_ge h.pageSize
    have hmax := two_mul_minInternalKeys_le st.pageSize
    omega
  have hfresh : s.new ∉ q.entries.map Prod.snd := by
    intro hmem
    obtain ⟨e, he, heq⟩ := List.mem_map.mp hmem
    exact h.not_unused (List.mem_append_left _ (hleaves e he)) (heq ▸ hnew)
  obtain ⟨e, hupper, he, hne⟩ := exists_mem_upperHalf (k := s.sep) hnd hfresh hlen
    (internalFind q.entries s.sep) s.n.pid
  have hforeign := s.foreign h (hleaves e he) hne
  generalize s.n.pid :: s.above = stack at hprop hforeign ⊢
  rw [habove, propagateInsert] at hprop
  obtain ⟨_, st₃, hget, hprop⟩ := run_bind_eq_some.mp hprop
  have hpaid := @pays_pagerGetPage Set.univ (wlatches stack) _ _ _ _ hget
  obtain rfl := run_modify_eq_some.mp hget
  have hread : (readInternal q.pid).run (s.st₂.log (.get q.pid)) = some (q.page par, _) :=
    run_readInternal hpage
  rw [run_bind_of hread, run_bind_of run_getPageSize] at hprop
  split at hprop
  · rename_i hroom
    have hroom : q.entries.length < maxInternalKeys s.st₂.pageSize := hroom
    rw [hps] at hroom
    exact absurd hfull (Nat.not_le.mpr hroom)
  · obtain ⟨⟨sep', new'⟩, st₄, hsplit, hrest⟩ := run_bind_eq_some.mp hprop
    refine hpaid.meets (((writesForeign_splitInternal hupper (foreign_pin.mpr hforeign)) _ _ _
      hsplit).extend ?_)
    exact (@pays_propagateInsert 0 _ _ _ _ _).extends _ _ _ hrest

/-- An insertion that splits a leaf. -/
theorem LeafSplitting.latchDiscipline (h : TreeInv st free leaves rows)
    (s : LeafSplitting st free leaves rows key ref st') :
    LatchDiscipline {p | st.Unused p} (callEvents st st') ↔ ¬ SplitsBeyond st key := by
  rw [s.splitsBeyond_iff]
  have hextends : s.st₂.trace <:+ st'.trace :=
    (@pays_propagateInsert 0 _ _ _ _ _).extends _ _ _ s.propagate
  by_cases hnext : (st.pages s.n.pid).nextLeaf ≠ 0
  · -- not the last leaf
    have hbefore : Paid Set.univ st 0 s.st₁ _ := paid_mono s.paid fun _ hp => hp.elim
    refine iff_of_false ?_ fun hnot => hnot (.inl hnext)
    exact not_latchDiscipline_of_meets
      (hbefore.meets ((s.wroteForeign_split h hnext).extend hextends))
  -- the last leaf
  have hunused : ∀ p, s.st₁.Unused p → p ∈ {p | st.Unused p} := by
    intro p hp
    rcases hp with hlast | ⟨next, hfree⟩
    · rw [s.same.header] at hlast
      exact .inl hlast
    · rw [s.same.pages] at hfree
      exact .inr ⟨next, hfree⟩
  obtain ⟨hsplit, hnew, hkept, hpages, hps⟩ := paid_splitLeaf_last (not_not.mp hnext)
    (mem_wlatches.mpr List.mem_cons_self) hunused s.split
  have hnew' : s.new ∈ {p | st.Unused p} := hunused _ hnew
  have hbefore : Paid {p | st.Unused p} st 0 s.st₂ (wlatches (s.n.pid :: s.above)) :=
    (paid_mono s.paid fun _ hp => hp.elim).trans hsplit
  rcases s.parent_cases h with ⟨hroot, hnil⟩ | ⟨hroot, q, above, habove, hparent, hpid, hq, hnd, hleaves⟩
  · -- the leaf is the root, and gets a new one above it
    refine iff_of_true ?_ ?_
    · have hprop := s.propagate
      rw [hnil, propagateInsert] at hprop
      obtain ⟨_, st₃, hgrow, hrelease⟩ := run_bind_eq_some.mp hprop
      rw [hnil] at hbefore
      have hgrown := paid_growRoot (L := wlatches [s.n.pid]) (mem_wlatches.mpr List.mem_cons_self)
        hnew' (fun p hp => hunused p (hkept p hp)) hgrow
      rw [← Multiset.add_zero (wlatches [s.n.pid])] at hbefore hgrown
      exact latchDiscipline_of_paid ((hbefore.trans hgrown).trans
        (pays_lsReleaseAll _ _ _ _ hrelease))
    · rintro (hne | ⟨hne, -⟩)
      · exact hnext hne
      · exact hne hroot
  · -- the new leaf goes into the parent
    have hused : ¬ s.st₁.Unused q.pid := fun hmem =>
      h.not_unused (List.mem_append_right _ hq) (hunused _ hmem)
    have hqn : q.pid ≠ s.n.pid := fun heq => (List.nodup_append.mp h.nodup).2.2 s.n.pid
      (List.mem_map_of_mem s.leafFor.mem) q.pid hq heq.symm
    have hpage : s.st₂.pages q.pid = .internal (q.page (st.pages q.pid).parent) := by
      rw [hpages q.pid hused hqn, s.same.pages, ← hpid]
      rw [hpid] at hparent ⊢
      exact hparent
    rw [s.same.pageSize] at hps
    by_cases hfull : maxInternalKeys st.pageSize ≤ q.entries.length
    · refine iff_of_false ?_ fun hnot => hnot (.inr ⟨hroot, _, hparent, hfull⟩)
      have hbefore' : Paid Set.univ st 0 s.st₂ _ := paid_mono hbefore fun _ _ => Set.mem_univ _
      exact not_latchDiscipline_of_meets (hbefore'.meets
        (s.wroteForeign_parent h habove hpage hps hnew' hfull hnd hleaves))
    · refine iff_of_true ?_ ?_
      · have hprop := s.propagate
        have hlatched : q.pid ∈ s.n.pid :: s.above := by
          rw [habove]
          exact List.mem_cons_of_mem _ List.mem_cons_self
        generalize s.n.pid :: s.above = stack at hprop hbefore hlatched
        rw [habove] at hprop
        rw [← Multiset.add_zero (wlatches stack)] at hbefore
        refine latchDiscipline_of_paid (hbefore.trans (paid_propagateInsert_room hpage ?_ hlatched
          hnew' hprop))
        rw [hps]
        exact Nat.not_le.mp hfull
      · rintro (hne | ⟨-, iph, hiph, hlong⟩)
        · exact hnext hne
        · obtain rfl := Page.internal.inj (hparent.symm.trans hiph)
          exact hfull hlong

theorem latchDiscipline_bptreeInsert_iff (h : TreeInv st free leaves rows) {r : Int}
    (hrun : (bptreeInsert key ref).run st = some (r, st')) :
    LatchDiscipline {p | st.Unused p} (callEvents st st') ↔ ¬ SplitsBeyond st key := by
  rcases h.bptreeInsert_cases hrun with ⟨hpaid, hnone⟩ | ⟨⟨s⟩⟩
  · refine iff_of_true (latchDiscipline_of_paid (paid_mono hpaid fun _ hp => hp.elim)) ?_
    rintro ⟨leafPid, lph, hs, -⟩
    exact hnone _ _ hs
  · exact s.latchDiscipline h

end Insert

/-! ## Both -/

section Calls

variable {st : Pager} {free : List Nat} {leaves : List LeafNode} {rows : List Row}

/-- **The latch discipline**: insertions and deletions write only pages that they have write-latched
or allocated, except where a split or a merge goes beyond the pages of the descent. -/
theorem latchDiscipline_iff (h : TreeInv st free leaves rows) (key : UInt64) :
    (∀ ref, (st.HasRoom free (rows.length + 2) →
        ∃ rc st', (bptreeInsert key.toNat ref).run st = some (rc, st')) ∧
      ∀ rc st', (bptreeInsert key.toNat ref).run st = some (rc, st') →
        (LatchDiscipline {p | st.Unused p} (callEvents st st') ↔ ¬ SplitsBeyond st key.toNat)) ∧
    ∃ rc st', (bptreeDelete key.toNat).run st = some (rc, st') ∧
      (LatchDiscipline {p | st.Unused p} (callEvents st st') ↔ ¬ MergesBeyond st key.toNat) := by
  constructor
  · intro ref
    refine ⟨fun hroom => ?_, fun rc st' hrun => latchDiscipline_bptreeInsert_iff h hrun⟩
    obtain ⟨⟨rc, st'⟩, hrun⟩ := (h.bptreeInsertChecked_eq ref key.toNat_lt).2 hroom
    exact ⟨rc, st', hrun⟩
  · obtain ⟨⟨rc, st'⟩, hchecked⟩ := h.exists_run_bptreeDeleteChecked key.toNat
    have hrun := refines_bptreeDeleteChecked _ _ _ hchecked
    exact ⟨rc, st', hrun, latchDiscipline_bptreeDelete_iff h hrun⟩

/-- An insertion behind the last key of the sparse tree, and the deletion of the smallest key. -/
theorem latchDiscipline_iff_sparseTree :
    (∃ rc st', (bptreeInsert 49590 ⟨1, 0⟩).run sparseTree = some (rc, st') ∧
      (LatchDiscipline {p | sparseTree.Unused p} (callEvents sparseTree st') ↔
        ¬ SplitsBeyond sparseTree 49590)) ∧
    ∃ rc st', (bptreeDelete 0).run sparseTree = some (rc, st') ∧
      (LatchDiscipline {p | sparseTree.Unused p} (callEvents sparseTree st') ↔
        ¬ MergesBeyond sparseTree 0) := by
  obtain ⟨hinsert, -⟩ := latchDiscipline_iff treeInv_sparseTree 49590
  obtain ⟨-, hdelete⟩ := latchDiscipline_iff treeInv_sparseTree 0
  obtain ⟨hreturns, hiff⟩ := hinsert ⟨1, 0⟩
  obtain ⟨rc, st', hrun⟩ := hreturns (by decide +kernel)
  exact ⟨⟨rc, st', hrun, hiff rc st' hrun⟩, hdelete⟩

/-- The deletion of the smallest key merges the first leaf with its right sibling. -/
theorem not_latchDiscipline_sparseTree : TreeInv sparseTree [] sparseLeaves sparseRows ∧
    ∃ st', (bptreeDelete 0).run sparseTree = some (0, st') ∧
      ¬ LatchDiscipline {p | sparseTree.Unused p} (callEvents sparseTree st') := by
  obtain ⟨st', hrun⟩ := run_bptreeDelete_sparseTree
  obtain ⟨lph, iph, hm, -, -⟩ := mergesLeaf_sparseTree
  refine ⟨treeInv_sparseTree, st', hrun, fun hlatches => ?_⟩
  exact (latchDiscipline_bptreeDelete_iff treeInv_sparseTree hrun).mp hlatches
    ⟨_, lph, iph, _, hm, .inl rfl⟩

end Calls

end MiniDb
