import MiniDb.Storage.Bptree.Delete
import MiniDb.Storage.Bptree.RangeScan
import MiniDb.Storage.Ledger

/-! # The pins and latches of the tree operations

What each function of `bptree.c` takes and gives back. -/

set_option autoImplicit false

namespace MiniDb

open Lib

/-! ## Allocation -/

/-- A page that a call can only have from `pager_alloc_page`: behind the file, or on the free list. -/
def Pager.Unused (st : Pager) (p : Nat) : Prop :=
  st.header.nextPageId ≤ p ∨ ∃ next, st.pages p = .free next

section Alloc

variable {fresh : Set Nat} {L : Ledger} {st st' : Pager} {pid : Nat}

/-- The events of `pager_alloc_page` and of `pager_free_page`. -/
theorem replays_fresh (h : pid ∈ fresh) : Replays (LedgerStep fresh) L
    [.unpin pid, .markDirty pid, .write pid, .get pid] L :=
  (((Replays.nil.cons .get).cons (.write (.inr h))).cons .markDirty).cons .unpin

/-- `pager_alloc_page` hands out an unused page, makes no page unused and writes no other page. -/
theorem paid_pagerAllocPage (hrun : pagerAllocPage.run st = some (pid, st'))
    (hfresh : ∀ p, st.Unused p → p ∈ fresh) :
    Paid fresh st L st' L ∧ st.Unused pid ∧ (∀ p, st'.Unused p → st.Unused p) ∧
      st'.pages = Function.update st.pages pid .zero ∧ st'.pageSize = st.pageSize := by
  rw [pagerAllocPage, run_bind_get] at hrun
  by_cases hhead : st.header.freePageHead ≠ 0
  · rw [if_pos hhead] at hrun
    cases hpage : st.pages st.header.freePageHead with
    | free next =>
      have hunused : st.Unused st.header.freePageHead := .inr ⟨next, hpage⟩
      simp [hpage] at hrun
      obtain ⟨rfl, rfl⟩ := hrun
      refine ⟨⟨_, rfl, replays_fresh (hfresh _ hunused)⟩, hunused, ?_, rfl, rfl⟩
      rintro p (hp | ⟨next', hp⟩)
      · exact .inl hp
      · by_cases heq : p = st.header.freePageHead
        · rw [heq]
          exact hunused
        · have hp : Function.update st.pages st.header.freePageHead .zero p = .free next' := hp
          rw [Function.update_of_ne heq] at hp
          exact .inr ⟨next', hp⟩
    | _ => simp [hpage] at hrun
  · rw [if_neg hhead] at hrun
    have hids : st.header.nextPageId + 1 < pageIdCount := by
      by_contra hids
      simp [guard, hids] at hrun
    simp [guard, hids] at hrun
    obtain ⟨rfl, rfl⟩ := hrun
    have hunused : st.Unused st.header.nextPageId := .inl (le_refl _)
    refine ⟨⟨_, rfl, replays_fresh (hfresh _ hunused)⟩, hunused, ?_, rfl, rfl⟩
    rintro p (hp | ⟨next', hp⟩)
    · exact .inl (Nat.le_of_succ_le hp)
    · by_cases heq : p = st.header.nextPageId
      · rw [heq]
        exact hunused
      · have hp : Function.update st.pages st.header.nextPageId .zero p = .free next' := hp
        rw [Function.update_of_ne heq] at hp
        exact .inr ⟨next', hp⟩

theorem balanced_pagerAllocPage : Balanced pagerAllocPage :=
  fun _ _ _ _ hrun => (paid_pagerAllocPage hrun fun _ _ => Set.mem_univ _).1

end Alloc

/-! ## Writing through a pin -/

section

variable {fresh : Set Nat} {L : Ledger}

theorem pays_setParent {pid parent : Nat} (h : .wlatch pid ∈ L ∨ pid ∈ fresh) :
    Pays fresh (setParent pid parent) L fun _ => L := by
  apply pays_readPage.bind
  intro page
  split
  · exact pays_writePage h
  · exact pays_writePage h
  · exact records_failure

theorem pays_updateChildParentPage {childPid parentPid : Nat}
    (h : .wlatch childPid ∈ L ∨ childPid ∈ fresh) :
    Pays fresh (updateChildParentPage childPid parentPid) L fun _ => L :=
  pays_pagerGetPage.bind fun _ =>
    (pays_setParent (h.imp_left Multiset.mem_cons_of_mem)).bind fun _ =>
      pays_pagerMarkDirty.bind fun _ => pays_pagerUnpin rfl

theorem pays_rootId : Pays fresh rootId L fun _ => L :=
  records_get.bind fun _ => records_pure rfl

theorem pays_getPageSize : Pays fresh getPageSize L fun _ => L :=
  records_get.bind fun _ => records_pure rfl

/-- The ledger of the pages that are on the latch stack. -/
def wlatches (stack : List Nat) : Ledger := (stack.map Holding.wlatch : List Holding)

@[simp] theorem wlatches_nil : wlatches [] = 0 := rfl

@[simp] theorem wlatches_cons (p : Nat) (stack : List Nat) :
    wlatches (p :: stack) = .wlatch p ::ₘ wlatches stack := rfl

theorem mem_wlatches {p : Nat} {stack : List Nat} : .wlatch p ∈ wlatches stack ↔ p ∈ stack := by
  simp [wlatches]

theorem pays_forM_unlatchW (pids : List Nat) :
    Pays fresh (pids.forM pagerUnlatchW) (wlatches pids + L) fun _ => L := by
  induction pids with
  | nil =>
    rw [wlatches_nil, Multiset.zero_add]
    exact records_pure rfl
  | cons p pids ih =>
    rw [wlatches_cons, Multiset.cons_add]
    exact (pays_pagerUnlatchW rfl).bind fun _ => ih

/-- `ls_release_all` gives back the whole stack. -/
theorem pays_lsReleaseAll (stack : List Nat) :
    Pays fresh (lsReleaseAll stack) (wlatches stack + L) fun _ => L := by
  have hperm : wlatches stack = wlatches stack.reverse := by
    rw [wlatches, wlatches, List.map_reverse, Multiset.coe_reverse]
  rw [hperm]
  exact pays_forM_unlatchW stack.reverse

end

/-! ## Descent -/

section Descent

variable {fresh : Set Nat} {L : Ledger} {st st' : Pager} {free : List Nat} {leaves : List LeafNode}
  {rows : List Row} {γ : Type}

theorem pays_findLeafRlatchLoop (key fuel pid : Nat) :
    Pays fresh (findLeafRlatchLoop key fuel pid) (.rlatch pid ::ₘ L)
      fun leafPid => .rlatch leafPid ::ₘ L := by
  induction fuel generalizing pid with
  | zero => exact records_failure
  | succ fuel ih =>
    rw [findLeafRlatchLoop]
    apply pays_readPage.bind
    intro page
    split
    · exact records_pure rfl
    · split
      · exact pays_pagerGetPageRlatch.bind fun _ =>
          (pays_pagerUnlatchR (Multiset.cons_swap _ _ _)).bind fun _ => ih _
      · exact records_failure
    · exact records_failure

theorem pays_findLeafRlatch (key : Nat) :
    Pays fresh (findLeafRlatch key) L fun leafPid => .rlatch leafPid ::ₘ L :=
  pays_rootId.bind fun _ => pays_pagerGetPageRlatch.bind fun _ => records_get.bind fun _ =>
    pays_findLeafRlatchLoop _ _ _

theorem pays_findLeftmostLeafRlatchLoop (fuel pid : Nat) :
    Pays fresh (findLeftmostLeafRlatchLoop fuel pid) (.rlatch pid ::ₘ L)
      fun leafPid => .rlatch leafPid ::ₘ L := by
  induction fuel generalizing pid with
  | zero => exact records_failure
  | succ fuel ih =>
    rw [findLeftmostLeafRlatchLoop]
    apply pays_readPage.bind
    intro page
    split
    · exact records_pure rfl
    · exact pays_pagerGetPageRlatch.bind fun _ =>
        (pays_pagerUnlatchR (Multiset.cons_swap _ _ _)).bind fun _ => ih _
    · exact records_failure

theorem pays_findStartLeafRlatch (r : KeyRange) :
    Pays fresh (findStartLeafRlatch r) L fun leafPid => .rlatch leafPid ::ₘ L := by
  unfold findStartLeafRlatch
  split
  · exact pays_findLeafRlatch _
  · exact pays_rootId.bind fun _ => pays_pagerGetPageRlatch.bind fun _ => records_get.bind fun _ =>
      pays_findLeftmostLeafRlatchLoop _ _

theorem pays_findLeafWlatchLoopChecked (key : Nat) (isInsert : Bool) (fuel pid : Nat)
    (stack : List Nat) :
    Pays fresh (findLeafWlatchLoopChecked key isInsert fuel pid stack) (wlatches stack + L)
      fun r => wlatches r.2 + L := by
  induction fuel generalizing pid stack with
  | zero => exact records_failure
  | succ fuel ih =>
    -- the child is latched and then pushed
    have hpush : ∀ (childPid : Nat) (stack : List Nat),
        Pays fresh (do
            findLeafWlatchLoopChecked key isInsert fuel childPid (← lsPushChecked stack childPid))
          (.wlatch childPid ::ₘ (wlatches stack + L)) fun r => wlatches r.2 + L := by
      intro childPid stack
      unfold lsPushChecked
      split
      · have hrest := ih childPid (childPid :: stack)
        rwa [wlatches_cons, Multiset.cons_add] at hrest
      · exact records_failure
    rw [findLeafWlatchLoopChecked]
    apply pays_readPage.bind
    intro page
    split
    · exact records_pure rfl
    · split
      · rename_i childPid _
        apply pays_pagerGetPageWlatch.bind
        intro _
        apply pays_getPageSize.bind
        intro pageSize
        apply pays_readPage.bind
        intro childPage
        split
        · split
          · rw [← Multiset.add_cons]
            apply (pays_lsReleaseAll stack).bind
            intro _
            have hrest := hpush childPid []
            rwa [wlatches_nil, Multiset.zero_add] at hrest
          · exact hpush childPid stack
        · exact records_failure
      · exact records_failure
    · exact records_failure

/-- `find_leaf_wlatch` leaves what is on its stack latched. -/
theorem TreeInv.paid_findLeafWlatch (h : TreeInv st free leaves rows) {key : Nat}
    {isInsert : Bool} {r : Nat × List Nat}
    (hrun : (MiniDb.findLeafWlatch key isInsert).run st = some (r, st')) :
    Paid fresh st L st' (wlatches r.2 + L) := by
  obtain ⟨a, n, b, hn⟩ := h.exists_leafFor key
  obtain ⟨st₁, above, -, hchecked, -⟩ := h.findLeafWlatchChecked hn isInsert
  have hsame := refines_findLeafWlatchChecked key isInsert _ _ hchecked
  rw [hrun] at hsame
  rw [← hsame, run_findLeafWlatchChecked] at hchecked
  have hrest := @pays_findLeafWlatchLoopChecked fresh L key isInsert _ _ _ _ _ _ hchecked
  have hget : Paid fresh st L _ (.wlatch st.header.rootIndexPageId ::ₘ L) :=
    pays_pagerGetPageWlatch st () _ rfl
  rw [wlatches_cons, wlatches_nil, Multiset.cons_add, Multiset.zero_add] at hrest
  exact hget.trans hrest

theorem balanced_bptreeSearch (key : Nat) : Balanced (bptreeSearch key) := by
  intro L
  apply (pays_findLeafRlatch key).bind
  intro leafPid
  apply pays_readLeaf.bind
  intro lph
  exact (pays_pagerUnlatchR rfl).bind fun _ => records_pure rfl

theorem pays_rangeScanLoop (r : KeyRange) (cb : RangeCallback γ) (fuel pid : Nat) (lph : LeafPage)
    (entries : List (Nat × RowRef)) (ctx : γ) :
    Pays fresh (rangeScanLoop r cb fuel pid lph entries ctx) (.rlatch pid ::ₘ L) fun _ => L := by
  induction fuel generalizing pid lph entries ctx with
  | zero => exact records_failure
  | succ fuel ih =>
    rw [rangeScanLoop]
    rcases scanEntries r cb entries ctx with ⟨_ | _, ctx'⟩
    · exact (pays_pagerUnlatchR rfl).bind fun _ => records_pure rfl
    · dsimp only
      split
      · exact (pays_pagerUnlatchR rfl).bind fun _ => records_pure rfl
      · -- the next leaf is latched before this one is released
        apply pays_pagerGetPageRlatch.bind
        intro _
        apply (pays_pagerUnlatchR (Multiset.cons_swap _ _ _)).bind
        intro _
        apply pays_readLeaf.bind
        intro nlph
        exact ih _ nlph nlph.entries ctx'

theorem balanced_bptreeRangeScan (r : KeyRange) (cb : RangeCallback γ) (ctx : γ) :
    Balanced (bptreeRangeScan r cb ctx) := by
  intro L
  apply (pays_findStartLeafRlatch r).bind
  intro pid
  apply pays_readLeaf.bind
  intro lph
  apply records_get.bind
  intro st
  exact pays_rangeScanLoop r cb _ pid lph _ ctx

end Descent

/-! ## Insertion -/

section Insert

variable {L : Ledger}

theorem may {p : Nat} : .wlatch p ∈ L ∨ p ∈ (Set.univ : Set Nat) := .inr (Set.mem_univ p)

theorem pays_setPrevLeaf {fresh : Set Nat} {pid prev : Nat} (h : pid = 0 ∨ pid ∈ fresh) :
    Pays fresh (setPrevLeaf pid prev) L fun _ => L := by
  unfold setPrevLeaf
  split
  · rename_i hne
    exact pays_pagerGetPage.bind fun _ => pays_readLeaf.bind fun _ =>
      (pays_writeLeaf (.inr (h.resolve_left hne))).bind fun _ => pays_pagerMarkDirty.bind
        fun _ => pays_pagerUnpin rfl
  · exact records_pure rfl

theorem balanced_growRoot (oldRoot curKey curRight : Nat) :
    Balanced (growRoot oldRoot curKey curRight) := by
  intro L
  apply (balanced_pagerAllocPage L).bind
  intro newRoot
  apply pays_pagerGetPage.bind
  intro _
  apply (pays_writeInternal may).bind
  intro _
  apply pays_pagerMarkDirty.bind
  intro _
  apply (pays_pagerUnpin rfl).bind
  intro _
  apply (pays_updateChildParentPage may).bind
  intro _
  apply (pays_updateChildParentPage may).bind
  intro _
  exact pays_modify fun _ => rfl

/-- The pin on the parent is given back in the split. -/
theorem pays_splitInternal (parentPid : Nat) (iph : InternalPage) (curKey curRight : Nat) :
    Pays Set.univ (splitInternal parentPid iph curKey curRight) (.pin parentPid ::ₘ L)
      fun _ => L := by
  apply (pays_updateChildParentPage may).bind
  intro _
  dsimp only
  split
  · apply (balanced_pagerAllocPage _).bind
    intro newPid
    apply pays_pagerGetPage.bind
    intro _
    apply (pays_writeInternal may).bind
    intro _
    apply pays_pagerMarkDirty.bind
    intro _
    apply (pays_updateChildParentPage may).bind
    intro _
    apply (records_forM fun _ _ => pays_updateChildParentPage may).bind
    intro _
    apply (pays_writeInternal may).bind
    intro _
    apply pays_pagerMarkDirty.bind
    intro _
    apply (pays_pagerUnpin (Multiset.cons_swap _ _ _)).bind
    intro _
    exact (pays_pagerUnpin rfl).bind fun _ => records_pure rfl
  · exact records_failure

/-- `propagate_insert` gives back the latch stack. -/
theorem pays_propagateInsert (stack : List Nat) (curKey curRight node : Nat) (ancestors : List Nat) :
    Pays Set.univ (propagateInsert stack curKey curRight node ancestors) (wlatches stack + L)
      fun _ => L := by
  induction ancestors generalizing curKey curRight node with
  | nil => exact (balanced_growRoot _ _ _ _).bind fun _ => pays_lsReleaseAll stack
  | cons parentPid ancestors ih =>
    rw [propagateInsert]
    apply pays_pagerGetPage.bind
    intro _
    apply pays_readInternal.bind
    intro iph
    apply pays_getPageSize.bind
    intro pageSize
    split
    · apply (pays_writeInternal may).bind
      intro _
      apply pays_pagerMarkDirty.bind
      intro _
      apply (pays_pagerUnpin rfl).bind
      intro _
      exact (pays_updateChildParentPage may).bind fun _ => pays_lsReleaseAll stack
    · exact (pays_splitInternal _ _ _ _).bind fun r => ih r.1 r.2 parentPid

theorem balanced_splitLeaf (leafPid : Nat) (lph : LeafPage) (key : Nat) (ref : RowRef) :
    Balanced (splitLeaf leafPid lph key ref) := by
  intro L
  unfold splitLeaf
  dsimp only
  split
  · apply (balanced_pagerAllocPage _).bind
    intro newPid
    apply pays_pagerGetPage.bind
    intro _
    apply (pays_writeLeaf may).bind
    intro _
    apply pays_pagerMarkDirty.bind
    intro _
    apply (pays_setPrevLeaf (.inr (Set.mem_univ _))).bind
    intro _
    apply (pays_writeLeaf may).bind
    intro _
    apply pays_pagerMarkDirty.bind
    intro _
    exact (pays_pagerUnpin rfl).bind fun _ => records_pure rfl
  · exact records_failure

end Insert

/-! ## Deletion -/

section Delete

variable {fresh : Set Nat} {L : Ledger} {parentPid leafPid : Nat}

/-- Borrowing writes the sibling under its own latch; leaf and parent are latched by the descent. -/
theorem pays_borrowLeafRight (hleaf : .wlatch leafPid ∈ L ∨ leafPid ∈ fresh)
    (hparent : .wlatch parentPid ∈ L ∨ parentPid ∈ fresh) (rsibPid sepIdx : Nat)
    (iph : InternalPage) (rlph : LeafPage) :
    Pays fresh (borrowLeafRight parentPid leafPid rsibPid sepIdx iph rlph)
      (.wlatch rsibPid ::ₘ .pin parentPid ::ₘ L) fun _ => L := by
  unfold borrowLeafRight
  split
  · split
    · apply (pays_writeLeaf (.inl (Multiset.mem_cons_self _ _))).bind
      intro _
      apply pays_pagerMarkDirty.bind
      intro _
      apply (pays_pagerUnlatchW rfl).bind
      intro _
      apply pays_readLeaf.bind
      intro lph
      apply (pays_writeLeaf (hleaf.imp_left Multiset.mem_cons_of_mem)).bind
      intro _
      apply pays_pagerMarkDirty.bind
      intro _
      apply (pays_writeInternal (hparent.imp_left Multiset.mem_cons_of_mem)).bind
      intro _
      exact pays_pagerMarkDirty.bind fun _ => pays_pagerUnpin rfl
    · exact records_failure
  · exact records_failure

theorem pays_borrowLeafLeft (hleaf : .wlatch leafPid ∈ L ∨ leafPid ∈ fresh)
    (hparent : .wlatch parentPid ∈ L ∨ parentPid ∈ fresh) (lsibPid sepIdx : Nat)
    (iph : InternalPage) (llph : LeafPage) :
    Pays fresh (borrowLeafLeft parentPid leafPid lsibPid sepIdx iph llph)
      (.wlatch lsibPid ::ₘ .pin parentPid ::ₘ L) fun _ => L := by
  unfold borrowLeafLeft
  split
  · apply (pays_writeLeaf (.inl (Multiset.mem_cons_self _ _))).bind
    intro _
    apply pays_pagerMarkDirty.bind
    intro _
    apply (pays_pagerUnlatchW rfl).bind
    intro _
    apply pays_readLeaf.bind
    intro lph
    apply (pays_writeLeaf (hleaf.imp_left Multiset.mem_cons_of_mem)).bind
    intro _
    apply pays_pagerMarkDirty.bind
    intro _
    apply pays_readLeaf.bind
    intro lph'
    split
    · apply (pays_writeInternal (hparent.imp_left Multiset.mem_cons_of_mem)).bind
      intro _
      exact pays_pagerMarkDirty.bind fun _ => pays_pagerUnpin rfl
    · exact records_failure
  · exact records_failure

/-- The pin on the parent, unless it has been given back. -/
def pinUnless (done : Bool) (parentPid : Nat) (L : Ledger) : Ledger :=
  if done then L else .pin parentPid ::ₘ L

theorem pays_tryBorrowLeafRight (hleaf : .wlatch leafPid ∈ L ∨ leafPid ∈ fresh)
    (hparent : .wlatch parentPid ∈ L ∨ parentPid ∈ fresh) (childIdx : Nat) (iph : InternalPage) :
    Pays fresh (tryBorrowLeafRight parentPid leafPid childIdx iph) (.pin parentPid ::ₘ L)
      fun done => pinUnless done parentPid L := by
  unfold tryBorrowLeafRight
  split
  · split
    · apply pays_pagerGetPageWlatch.bind
      intro _
      apply pays_readLeaf.bind
      intro rlph
      apply pays_getPageSize.bind
      intro pageSize
      split
      · exact (pays_borrowLeafRight hleaf hparent _ _ _ _).bind fun _ => records_pure rfl
      · exact (pays_pagerUnlatchW rfl).bind fun _ => records_pure rfl
    · exact records_failure
  · exact records_pure rfl

theorem pays_tryBorrowLeafLeft (hleaf : .wlatch leafPid ∈ L ∨ leafPid ∈ fresh)
    (hparent : .wlatch parentPid ∈ L ∨ parentPid ∈ fresh) (childIdx : Nat) (iph : InternalPage) :
    Pays fresh (tryBorrowLeafLeft parentPid leafPid childIdx iph) (.pin parentPid ::ₘ L)
      fun done => pinUnless done parentPid L := by
  unfold tryBorrowLeafLeft
  split
  · split
    · apply pays_pagerGetPageWlatch.bind
      intro _
      apply pays_readLeaf.bind
      intro llph
      apply pays_getPageSize.bind
      intro pageSize
      split
      · exact (pays_borrowLeafLeft hleaf hparent _ _ _ _).bind fun _ => records_pure rfl
      · exact (pays_pagerUnlatchW rfl).bind fun _ => records_pure rfl
    · exact records_failure
  · exact records_pure rfl

/-- A merge writes the left leaf while the sibling is latched, and the right one afterwards. -/
theorem pays_mergeLeaf {leftPid rightPid unlatch : Nat} {left right : LeafPage}
    (hleft : .wlatch leftPid ∈ Holding.wlatch unlatch ::ₘ L ∨ leftPid ∈ fresh)
    (hnext : right.nextLeafPageId = 0 ∨ right.nextLeafPageId ∈ fresh)
    (hparent : .wlatch parentPid ∈ L ∨ parentPid ∈ fresh)
    (hright : .wlatch rightPid ∈ L ∨ rightPid ∈ fresh) (sepIdx : Nat) (iph : InternalPage) :
    Pays fresh (mergeLeaf parentPid leftPid rightPid unlatch sepIdx iph left right)
      (.wlatch unlatch ::ₘ .pin parentPid ::ₘ L) fun _ => L := by
  have hleft' : .wlatch leftPid ∈ Holding.wlatch unlatch ::ₘ .pin parentPid ::ₘ L ∨
      leftPid ∈ fresh := by
    rw [Multiset.cons_swap]
    exact hleft.imp_left Multiset.mem_cons_of_mem
  apply (pays_writeLeaf hleft').bind
  intro _
  apply pays_pagerMarkDirty.bind
  intro _
  apply (pays_pagerUnlatchW rfl).bind
  intro _
  apply (pays_setPrevLeaf hnext).bind
  intro _
  apply (pays_writeInternal (hparent.imp_left Multiset.mem_cons_of_mem)).bind
  intro _
  apply pays_pagerMarkDirty.bind
  intro _
  exact (pays_pagerUnpin rfl).bind fun _ => pays_pagerFreePage hright

theorem pays_mergeLeaves (childIdx : Nat) (iph : InternalPage) :
    Pays Set.univ (mergeLeaves parentPid leafPid childIdx iph) (.pin parentPid ::ₘ L)
      fun _ => L := by
  unfold mergeLeaves
  split
  · split
    · apply pays_pagerGetPageWlatch.bind
      intro _
      apply pays_readLeaf.bind
      intro llph
      apply pays_readLeaf.bind
      intro lph
      exact pays_mergeLeaf may (.inr (Set.mem_univ _)) may may _ _
    · exact records_failure
  · split
    · apply pays_readLeaf.bind
      intro lph
      apply pays_pagerGetPageWlatch.bind
      intro _
      apply pays_readLeaf.bind
      intro rlph
      exact pays_mergeLeaf may (.inr (Set.mem_univ _)) may may _ _
    · exact records_failure

theorem balanced_shrinkRoot (nodePid : Nat) : Balanced (shrinkRoot nodePid) := by
  intro L
  apply pays_pagerGetPage.bind
  intro _
  apply pays_readInternal.bind
  intro iph
  dsimp only
  split
  · apply (pays_pagerUnpin rfl).bind
    intro _
    apply (pays_pagerFreePage may).bind
    intro _
    refine (pays_modify ?_).bind fun _ => pays_updateChildParentPage may
    intro st
    rfl
  · exact pays_pagerUnpin rfl

end Delete

/-! ## The repair of internal nodes

It gives back a pin on the node, and with that pin it is in order. -/

section Repair

variable {L : Ledger} {parentPid nodePid : Nat}

/-- The pin on the node comes before what is latched and pinned after it. -/
theorem pin_beneath {x y z : Holding} : x ::ₘ y ::ₘ z ::ₘ L = z ::ₘ x ::ₘ y ::ₘ L := by
  rw [Multiset.cons_swap y z, Multiset.cons_swap x z]

theorem pays_borrowInternalRight (rsibPid sepIdx sep : Nat) (iph niph riph : InternalPage) :
    Pays Set.univ (borrowInternalRight parentPid nodePid rsibPid sepIdx sep iph niph riph)
      (.wlatch rsibPid ::ₘ .pin parentPid ::ₘ .pin nodePid ::ₘ L) fun _ => L := by
  unfold borrowInternalRight
  split
  · apply (pays_writeInternal may).bind
    intro _
    apply (pays_writeInternal may).bind
    intro _
    apply (pays_writeInternal may).bind
    intro _
    apply pays_pagerMarkDirty.bind
    intro _
    apply pays_pagerMarkDirty.bind
    intro _
    apply pays_pagerMarkDirty.bind
    intro _
    apply (pays_updateChildParentPage may).bind
    intro _
    apply (pays_pagerUnpin pin_beneath).bind
    intro _
    exact (pays_pagerUnlatchW rfl).bind fun _ => pays_pagerUnpin rfl
  · exact records_failure

theorem pays_borrowInternalLeft (lsibPid sepIdx sep : Nat) (iph niph liph : InternalPage) :
    Pays Set.univ (borrowInternalLeft parentPid nodePid lsibPid sepIdx sep iph niph liph)
      (.wlatch lsibPid ::ₘ .pin parentPid ::ₘ .pin nodePid ::ₘ L) fun _ => L := by
  unfold borrowInternalLeft
  split
  · apply (pays_writeInternal may).bind
    intro _
    apply (pays_writeInternal may).bind
    intro _
    apply (pays_writeInternal may).bind
    intro _
    apply pays_pagerMarkDirty.bind
    intro _
    apply pays_pagerMarkDirty.bind
    intro _
    apply pays_pagerMarkDirty.bind
    intro _
    apply (pays_updateChildParentPage may).bind
    intro _
    apply (pays_pagerUnpin pin_beneath).bind
    intro _
    exact (pays_pagerUnlatchW rfl).bind fun _ => pays_pagerUnpin rfl
  · exact records_failure

theorem balanced_appendInternal (leftPid : Nat) (left : InternalPage) (sep : Nat)
    (right : InternalPage) : Balanced (appendInternal leftPid left sep right) := by
  intro L
  apply (pays_writeInternal may).bind
  intro _
  apply pays_pagerMarkDirty.bind
  intro _
  apply (pays_updateChildParentPage may).bind
  intro _
  exact records_forM fun _ _ => pays_updateChildParentPage may

/-- The pins on parent and node, unless they have been given back. -/
def pinsUnless (done : Bool) (parentPid nodePid : Nat) (L : Ledger) : Ledger :=
  if done then L else .pin parentPid ::ₘ .pin nodePid ::ₘ L

theorem pays_tryBorrowInternalRight (childIdx : Nat) (iph niph : InternalPage) :
    Pays Set.univ (tryBorrowInternalRight parentPid nodePid childIdx iph niph)
      (.pin parentPid ::ₘ .pin nodePid ::ₘ L) fun done => pinsUnless done parentPid nodePid L := by
  unfold tryBorrowInternalRight
  split
  · split
    · apply pays_pagerGetPageWlatch.bind
      intro _
      apply pays_readInternal.bind
      intro riph
      apply pays_getPageSize.bind
      intro pageSize
      split
      · exact (pays_borrowInternalRight _ _ _ _ _ _).bind fun _ => records_pure rfl
      · exact (pays_pagerUnlatchW rfl).bind fun _ => records_pure rfl
    · exact records_failure
  · exact records_pure rfl

theorem pays_tryBorrowInternalLeft (childIdx : Nat) (iph niph : InternalPage) :
    Pays Set.univ (tryBorrowInternalLeft parentPid nodePid childIdx iph niph)
      (.pin parentPid ::ₘ .pin nodePid ::ₘ L) fun done => pinsUnless done parentPid nodePid L := by
  unfold tryBorrowInternalLeft
  split
  · split
    · split
      · apply pays_pagerGetPageWlatch.bind
        intro _
        apply pays_readInternal.bind
        intro liph
        apply pays_getPageSize.bind
        intro pageSize
        split
        · exact (pays_borrowInternalLeft _ _ _ _ _ _).bind fun _ => records_pure rfl
        · exact (pays_pagerUnlatchW rfl).bind fun _ => records_pure rfl
      · exact records_failure
    · exact records_failure
  · exact records_pure rfl

theorem pays_mergeInternal (childIdx : Nat) (iph niph : InternalPage) :
    Pays Set.univ (mergeInternal parentPid nodePid childIdx iph niph)
      (.pin parentPid ::ₘ .pin nodePid ::ₘ L) fun _ => L := by
  -- what follows the copy, in both merges
  have hfinish : ∀ sibPid freePid idx, Pays Set.univ (do
      deleteEntryFromInternal parentPid iph idx
      pagerMarkDirty parentPid
      pagerUnpin parentPid
      pagerUnpin nodePid
      pagerUnlatchW sibPid
      pagerFreePage freePid) (.wlatch sibPid ::ₘ .pin parentPid ::ₘ .pin nodePid ::ₘ L)
        fun _ => L := by
    intro sibPid freePid idx
    apply (pays_writeInternal may).bind
    intro _
    apply pays_pagerMarkDirty.bind
    intro _
    apply (pays_pagerUnpin (Multiset.cons_swap _ _ _)).bind
    intro _
    apply (pays_pagerUnpin (Multiset.cons_swap _ _ _)).bind
    intro _
    exact (pays_pagerUnlatchW rfl).bind fun _ => pays_pagerFreePage may
  unfold mergeInternal
  split
  · split
    · split
      · apply pays_pagerGetPageWlatch.bind
        intro _
        apply pays_readInternal.bind
        intro liph
        exact (balanced_appendInternal _ _ _ _ _).bind fun _ => hfinish _ _ _
      · exact records_failure
    · exact records_failure
  · split
    · apply pays_pagerGetPageWlatch.bind
      intro _
      apply pays_readInternal.bind
      intro riph
      exact (balanced_appendInternal _ _ _ _ _).bind fun _ => hfinish _ _ _
    · exact records_failure

end Repair

end MiniDb
