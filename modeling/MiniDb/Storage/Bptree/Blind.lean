import MiniDb.Storage.Blind
import MiniDb.Storage.Bptree.RangeScan

/-! # The index does not look at the hint

`bptree.c` reads pages and the header, and never `heap_may_have_free_slots`. -/

set_option autoImplicit false

namespace MiniDb

open Lib

section

variable {γ : Type}

/-! ## Tree pages -/

theorem blind_readLeaf (pid : Nat) : Blind (readLeaf pid) := by
  apply (blind_readPage pid).bind
  intro page
  split
  · exact blind_pure _
  · exact blind_failure

theorem blind_readInternal (pid : Nat) : Blind (readInternal pid) := by
  apply (blind_readPage pid).bind
  intro page
  split
  · exact blind_pure _
  · exact blind_failure

theorem blind_writeLeaf (pid : Nat) (lph : LeafPage) : Blind (writeLeaf pid lph) :=
  blind_bind_get (fun _ => (blind_guard _).bind fun _ => blind_writePage _ _) fun _ _ _ => rfl

theorem blind_writeInternal (pid : Nat) (iph : InternalPage) : Blind (writeInternal pid iph) :=
  blind_bind_get (fun _ => (blind_guard _).bind fun _ => blind_writePage _ _) fun _ _ _ => rfl

theorem blind_rootId : Blind rootId :=
  blind_bind_get (fun _ => blind_pure _) fun _ _ _ => rfl

theorem blind_getPageSize : Blind getPageSize :=
  blind_bind_get (fun _ => blind_pure _) fun _ _ _ => rfl

theorem blind_forM {α : Type} {f : α → PagerM Unit} (h : ∀ a, Blind (f a)) (l : List α) :
    Blind (l.forM f) := by
  induction l with
  | nil => exact blind_pure _
  | cons a l ih => exact (h a).bind fun _ => ih

theorem blind_lsReleaseAll (stack : List Nat) : Blind (lsReleaseAll stack) :=
  blind_forM blind_pagerUnlatchW _

/-! ## Descents and scans -/

theorem blind_findLeafRlatchLoop (key fuel pid : Nat) :
    Blind (findLeafRlatchLoop key fuel pid) := by
  induction fuel generalizing pid with
  | zero => exact blind_failure
  | succ fuel ih =>
    rw [findLeafRlatchLoop]
    apply (blind_readPage pid).bind
    intro page
    split
    · exact blind_pure _
    · split
      · exact (blind_pagerGetPageRlatch _).bind fun _ => (blind_pagerUnlatchR _).bind fun _ => ih _
      · exact blind_failure
    · exact blind_failure

theorem blind_findLeafRlatch (key : Nat) : Blind (findLeafRlatch key) := by
  apply blind_rootId.bind
  intro pid
  apply (blind_pagerGetPageRlatch pid).bind
  intro _
  apply blind_bind_get
  · exact fun _ => blind_findLeafRlatchLoop _ _ _
  · exact fun _ _ _ => rfl

theorem blind_bptreeSearch (key : Nat) : Blind (bptreeSearch key) :=
  (blind_findLeafRlatch key).bind fun _ => (blind_readLeaf _).bind fun _ =>
    (blind_pagerUnlatchR _).bind fun _ => blind_pure _

theorem blind_findLeafWlatchLoop (key : Nat) (isInsert : Bool) (fuel pid : Nat)
    (stack : List Nat) : Blind (findLeafWlatchLoop key isInsert fuel pid stack) := by
  induction fuel generalizing pid stack with
  | zero => exact blind_failure
  | succ fuel ih =>
    rw [findLeafWlatchLoop]
    apply (blind_readPage pid).bind
    intro page
    split
    · exact blind_pure _
    · split
      · rename_i childPid _
        apply (blind_pagerGetPageWlatch childPid).bind
        intro _
        apply blind_getPageSize.bind
        intro pageSize
        apply (blind_readPage childPid).bind
        intro child
        split
        · split
          · exact (blind_lsReleaseAll _).bind fun _ => ih _ _
          · exact ih _ _
        · exact blind_failure
      · exact blind_failure
    · exact blind_failure

theorem blind_findLeafWlatch (key : Nat) (isInsert : Bool) :
    Blind (findLeafWlatch key isInsert) := by
  apply blind_rootId.bind
  intro pid
  apply (blind_pagerGetPageWlatch pid).bind
  intro _
  apply blind_bind_get
  · exact fun _ => blind_findLeafWlatchLoop _ _ _ _ _
  · exact fun _ _ _ => rfl

theorem blind_findLeftmostLeafRlatchLoop (fuel pid : Nat) :
    Blind (findLeftmostLeafRlatchLoop fuel pid) := by
  induction fuel generalizing pid with
  | zero => exact blind_failure
  | succ fuel ih =>
    rw [findLeftmostLeafRlatchLoop]
    apply (blind_readPage pid).bind
    intro page
    split
    · exact blind_pure _
    · exact (blind_pagerGetPageRlatch _).bind fun _ => (blind_pagerUnlatchR _).bind fun _ => ih _
    · exact blind_failure

theorem blind_findStartLeafRlatch (r : KeyRange) : Blind (findStartLeafRlatch r) := by
  unfold findStartLeafRlatch
  split
  · exact blind_findLeafRlatch _
  · apply blind_rootId.bind
    intro pid
    apply (blind_pagerGetPageRlatch pid).bind
    intro _
    apply blind_bind_get
    · exact fun _ => blind_findLeftmostLeafRlatchLoop _ _
    · exact fun _ _ _ => rfl

theorem blind_rangeScanLoop (r : KeyRange) (cb : RangeCallback γ) (fuel pid : Nat)
    (lph : LeafPage) (entries : List (Nat × RowRef)) (ctx : γ) :
    Blind (rangeScanLoop r cb fuel pid lph entries ctx) := by
  induction fuel generalizing pid lph entries ctx with
  | zero => exact blind_failure
  | succ fuel ih =>
    rw [rangeScanLoop]
    split
    · exact (blind_pagerUnlatchR _).bind fun _ => blind_pure _
    · dsimp only
      split
      · exact (blind_pagerUnlatchR _).bind fun _ => blind_pure _
      · exact (blind_pagerGetPageRlatch _).bind fun _ => (blind_pagerUnlatchR _).bind fun _ =>
          (blind_readLeaf _).bind fun _ => ih _ _ _ _

theorem blind_bptreeRangeScan (r : KeyRange) (cb : RangeCallback γ) (ctx : γ) :
    Blind (bptreeRangeScan r cb ctx) := by
  apply (blind_findStartLeafRlatch r).bind
  intro pid
  apply (blind_readLeaf pid).bind
  intro lph
  apply blind_bind_get
  · exact fun _ => blind_rangeScanLoop _ _ _ _ _ _ _
  · exact fun _ _ _ => rfl

/-! ## Insertion -/

theorem blind_setParent (pid parent : Nat) : Blind (setParent pid parent) := by
  apply (blind_readPage pid).bind
  intro page
  split
  · exact blind_writePage _ _
  · exact blind_writePage _ _
  · exact blind_failure

theorem blind_updateChildParentPage (childPid parentPid : Nat) :
    Blind (updateChildParentPage childPid parentPid) :=
  (blind_pagerGetPage _).bind fun _ => (blind_setParent _ _).bind fun _ =>
    (blind_pagerMarkDirty _).bind fun _ => blind_pagerUnpin _

theorem blind_leafInsertEntry (pid : Nat) (lph : LeafPage) (key : Nat) (ref : RowRef) :
    Blind (leafInsertEntry pid lph key ref) :=
  blind_writeLeaf _ _

theorem blind_growRoot (oldRoot curKey curRight : Nat) :
    Blind (growRoot oldRoot curKey curRight) := by
  apply blind_pagerAllocPage.bind
  intro newRoot
  exact (blind_pagerGetPage _).bind fun _ => (blind_writeInternal _ _).bind fun _ =>
    (blind_pagerMarkDirty _).bind fun _ => (blind_pagerUnpin _).bind fun _ =>
      (blind_updateChildParentPage _ _).bind fun _ =>
        (blind_updateChildParentPage _ _).bind fun _ => blind_modify fun _ _ _ => ⟨_, _, rfl⟩

theorem blind_splitInternal (parentPid : Nat) (iph : InternalPage) (curKey curRight : Nat) :
    Blind (splitInternal parentPid iph curKey curRight) := by
  apply (blind_updateChildParentPage _ _).bind
  intro _
  dsimp only
  split
  · apply blind_pagerAllocPage.bind
    intro newPid
    exact (blind_pagerGetPage _).bind fun _ => (blind_writeInternal _ _).bind fun _ =>
      (blind_pagerMarkDirty _).bind fun _ => (blind_updateChildParentPage _ _).bind fun _ =>
        (blind_forM (fun _ => blind_updateChildParentPage _ _) _).bind fun _ =>
          (blind_writeInternal _ _).bind fun _ => (blind_pagerMarkDirty _).bind fun _ =>
            (blind_pagerUnpin _).bind fun _ => (blind_pagerUnpin _).bind fun _ => blind_pure _
  · exact blind_failure

theorem blind_propagateInsert (stack : List Nat) (curKey curRight node : Nat)
    (ancestors : List Nat) : Blind (propagateInsert stack curKey curRight node ancestors) := by
  induction ancestors generalizing curKey curRight node with
  | nil => exact (blind_growRoot _ _ _).bind fun _ => blind_lsReleaseAll _
  | cons parentPid ancestors ih =>
    rw [propagateInsert]
    apply (blind_pagerGetPage parentPid).bind
    intro _
    apply (blind_readInternal parentPid).bind
    intro iph
    apply blind_getPageSize.bind
    intro pageSize
    split
    · exact (blind_writeInternal _ _).bind fun _ => (blind_pagerMarkDirty _).bind fun _ =>
        (blind_pagerUnpin _).bind fun _ => (blind_updateChildParentPage _ _).bind fun _ =>
          blind_lsReleaseAll _
    · exact (blind_splitInternal _ _ _ _).bind fun _ => ih _ _ _

theorem blind_setPrevLeaf (pid prev : Nat) : Blind (setPrevLeaf pid prev) := by
  unfold setPrevLeaf
  split
  · exact (blind_pagerGetPage _).bind fun _ => (blind_readLeaf _).bind fun _ =>
      (blind_writeLeaf _ _).bind fun _ => (blind_pagerMarkDirty _).bind fun _ =>
        blind_pagerUnpin _
  · exact blind_pure _

theorem blind_splitLeaf (leafPid : Nat) (lph : LeafPage) (key : Nat) (ref : RowRef) :
    Blind (splitLeaf leafPid lph key ref) := by
  unfold splitLeaf
  dsimp only
  split
  · apply blind_pagerAllocPage.bind
    intro newPid
    exact (blind_pagerGetPage _).bind fun _ => (blind_writeLeaf _ _).bind fun _ =>
      (blind_pagerMarkDirty _).bind fun _ => (blind_setPrevLeaf _ _).bind fun _ =>
        (blind_writeLeaf _ _).bind fun _ => (blind_pagerMarkDirty _).bind fun _ =>
          (blind_pagerUnpin _).bind fun _ => blind_pure _
  · exact blind_failure

theorem blind_bptreeInsert (key : Nat) (ref : RowRef) : Blind (bptreeInsert key ref) := by
  apply (blind_findLeafWlatch key true).bind
  intro found
  apply (blind_readLeaf _).bind
  intro lph
  split
  · exact (blind_lsReleaseAll _).bind fun _ => blind_pure _
  · apply blind_getPageSize.bind
    intro pageSize
    split
    · exact (blind_leafInsertEntry _ _ _ _).bind fun _ => (blind_pagerMarkDirty _).bind fun _ =>
        (blind_lsReleaseAll _).bind fun _ => blind_pure _
    · exact (blind_splitLeaf _ _ _ _).bind fun _ => (blind_propagateInsert _ _ _ _ _).bind
        fun _ => blind_pure _

/-! ## Deletion -/

theorem blind_deleteEntryFromInternal (pid : Nat) (iph : InternalPage) (idx : Nat) :
    Blind (deleteEntryFromInternal pid iph idx) :=
  blind_writeInternal _ _

theorem blind_borrowInternalRight (parentPid nodePid rsibPid sepIdx sep : Nat)
    (iph niph riph : InternalPage) :
    Blind (borrowInternalRight parentPid nodePid rsibPid sepIdx sep iph niph riph) := by
  unfold borrowInternalRight
  split
  · exact (blind_writeInternal _ _).bind fun _ => (blind_writeInternal _ _).bind fun _ =>
      (blind_writeInternal _ _).bind fun _ => (blind_pagerMarkDirty _).bind fun _ =>
        (blind_pagerMarkDirty _).bind fun _ => (blind_pagerMarkDirty _).bind fun _ =>
          (blind_updateChildParentPage _ _).bind fun _ => (blind_pagerUnpin _).bind fun _ =>
            (blind_pagerUnlatchW _).bind fun _ => blind_pagerUnpin _
  · exact blind_failure

theorem blind_borrowInternalLeft (parentPid nodePid lsibPid sepIdx sep : Nat)
    (iph niph liph : InternalPage) :
    Blind (borrowInternalLeft parentPid nodePid lsibPid sepIdx sep iph niph liph) := by
  unfold borrowInternalLeft
  split
  · exact (blind_writeInternal _ _).bind fun _ => (blind_writeInternal _ _).bind fun _ =>
      (blind_writeInternal _ _).bind fun _ => (blind_pagerMarkDirty _).bind fun _ =>
        (blind_pagerMarkDirty _).bind fun _ => (blind_pagerMarkDirty _).bind fun _ =>
          (blind_updateChildParentPage _ _).bind fun _ => (blind_pagerUnpin _).bind fun _ =>
            (blind_pagerUnlatchW _).bind fun _ => blind_pagerUnpin _
  · exact blind_failure

theorem blind_appendInternal (leftPid : Nat) (left : InternalPage) (sep : Nat)
    (right : InternalPage) : Blind (appendInternal leftPid left sep right) :=
  (blind_writeInternal _ _).bind fun _ => (blind_pagerMarkDirty _).bind fun _ =>
    (blind_updateChildParentPage _ _).bind fun _ =>
      blind_forM (fun _ => blind_updateChildParentPage _ _) _

theorem blind_tryBorrowInternalRight (parentPid nodePid childIdx : Nat)
    (iph niph : InternalPage) :
    Blind (tryBorrowInternalRight parentPid nodePid childIdx iph niph) := by
  unfold tryBorrowInternalRight
  split
  · split
    · apply (blind_pagerGetPageWlatch _).bind
      intro _
      apply (blind_readInternal _).bind
      intro riph
      apply blind_getPageSize.bind
      intro pageSize
      split
      · exact (blind_borrowInternalRight _ _ _ _ _ _ _ _).bind fun _ => blind_pure _
      · exact (blind_pagerUnlatchW _).bind fun _ => blind_pure _
    · exact blind_failure
  · exact blind_pure _

theorem blind_tryBorrowInternalLeft (parentPid nodePid childIdx : Nat)
    (iph niph : InternalPage) :
    Blind (tryBorrowInternalLeft parentPid nodePid childIdx iph niph) := by
  unfold tryBorrowInternalLeft
  split
  · split
    · split
      · apply (blind_pagerGetPageWlatch _).bind
        intro _
        apply (blind_readInternal _).bind
        intro liph
        apply blind_getPageSize.bind
        intro pageSize
        split
        · exact (blind_borrowInternalLeft _ _ _ _ _ _ _ _).bind fun _ => blind_pure _
        · exact (blind_pagerUnlatchW _).bind fun _ => blind_pure _
      · exact blind_failure
    · exact blind_failure
  · exact blind_pure _

theorem blind_mergeInternal (parentPid nodePid childIdx : Nat) (iph niph : InternalPage) :
    Blind (mergeInternal parentPid nodePid childIdx iph niph) := by
  unfold mergeInternal
  split
  · split
    · split
      · exact (blind_pagerGetPageWlatch _).bind fun _ => (blind_readInternal _).bind fun _ =>
          (blind_appendInternal _ _ _ _).bind fun _ =>
            (blind_deleteEntryFromInternal _ _ _).bind fun _ =>
              (blind_pagerMarkDirty _).bind fun _ => (blind_pagerUnpin _).bind fun _ =>
                (blind_pagerUnpin _).bind fun _ => (blind_pagerUnlatchW _).bind fun _ =>
                  blind_pagerFreePage _
      · exact blind_failure
    · exact blind_failure
  · split
    · exact (blind_pagerGetPageWlatch _).bind fun _ => (blind_readInternal _).bind fun _ =>
        (blind_appendInternal _ _ _ _).bind fun _ =>
          (blind_deleteEntryFromInternal _ _ _).bind fun _ =>
            (blind_pagerMarkDirty _).bind fun _ => (blind_pagerUnpin _).bind fun _ =>
              (blind_pagerUnpin _).bind fun _ => (blind_pagerUnlatchW _).bind fun _ =>
                blind_pagerFreePage _
    · exact blind_failure

theorem blind_fixInternalUnderflowLatched {propagate : PagerM Unit} (h : Blind propagate)
    (stack : List Nat) (nodePid : Nat) (parents : List Nat) :
    Blind (fixInternalUnderflowLatched stack nodePid parents propagate) := by
  unfold fixInternalUnderflowLatched
  cases parents with
  | nil => exact (blind_pagerUnpin _).bind fun _ => blind_lsReleaseAll _
  | cons parentPid parents =>
    apply (blind_pagerGetPage parentPid).bind
    intro _
    apply (blind_readInternal parentPid).bind
    intro iph
    apply (blind_readInternal nodePid).bind
    intro niph
    split
    · exact (blind_pagerUnpin _).bind fun _ => (blind_pagerUnpin _).bind fun _ =>
        blind_lsReleaseAll _
    · apply (blind_tryBorrowInternalRight _ _ _ _ _).bind
      intro right
      split
      · exact blind_lsReleaseAll _
      · apply (blind_tryBorrowInternalLeft _ _ _ _ _).bind
        intro left
        split
        · exact blind_lsReleaseAll _
        · exact (blind_mergeInternal _ _ _ _ _).bind fun _ => h

theorem blind_shrinkRoot (nodePid : Nat) : Blind (shrinkRoot nodePid) := by
  apply (blind_pagerGetPage nodePid).bind
  intro _
  apply (blind_readInternal nodePid).bind
  intro iph
  split
  · exact (blind_pagerUnpin _).bind fun _ => (blind_pagerFreePage _).bind fun _ =>
      (blind_modify fun _ _ _ => ⟨_, _, rfl⟩).bind fun _ => blind_updateChildParentPage _ _
  · exact blind_pagerUnpin _

theorem blind_propagateDelete (stack nodes : List Nat) : Blind (propagateDelete stack nodes) := by
  induction nodes with
  | nil => exact blind_failure
  | cons nodePid parents ih =>
    rw [propagateDelete]
    apply blind_rootId.bind
    intro root
    split
    · exact (blind_shrinkRoot _).bind fun _ => blind_lsReleaseAll _
    · apply (blind_pagerGetPage nodePid).bind
      intro _
      apply (blind_readInternal nodePid).bind
      intro iph
      apply (blind_pagerUnpin nodePid).bind
      intro _
      apply blind_getPageSize.bind
      intro pageSize
      split
      · exact blind_lsReleaseAll _
      · exact blind_fixInternalUnderflowLatched ih _ _ _

theorem blind_borrowLeafRight (parentPid leafPid rsibPid sepIdx : Nat) (iph : InternalPage)
    (rlph : LeafPage) : Blind (borrowLeafRight parentPid leafPid rsibPid sepIdx iph rlph) := by
  unfold borrowLeafRight
  split
  · split
    · exact (blind_writeLeaf _ _).bind fun _ => (blind_pagerMarkDirty _).bind fun _ =>
        (blind_pagerUnlatchW _).bind fun _ => (blind_readLeaf _).bind fun _ =>
          (blind_leafInsertEntry _ _ _ _).bind fun _ => (blind_pagerMarkDirty _).bind fun _ =>
            (blind_writeInternal _ _).bind fun _ => (blind_pagerMarkDirty _).bind fun _ =>
              blind_pagerUnpin _
    · exact blind_failure
  · exact blind_failure

theorem blind_borrowLeafLeft (parentPid leafPid lsibPid sepIdx : Nat) (iph : InternalPage)
    (llph : LeafPage) : Blind (borrowLeafLeft parentPid leafPid lsibPid sepIdx iph llph) := by
  unfold borrowLeafLeft
  split
  · apply (blind_writeLeaf _ _).bind
    intro _
    apply (blind_pagerMarkDirty _).bind
    intro _
    apply (blind_pagerUnlatchW _).bind
    intro _
    apply (blind_readLeaf _).bind
    intro lph
    apply (blind_leafInsertEntry _ _ _ _).bind
    intro _
    apply (blind_pagerMarkDirty _).bind
    intro _
    apply (blind_readLeaf _).bind
    intro lph
    split
    · exact (blind_writeInternal _ _).bind fun _ => (blind_pagerMarkDirty _).bind fun _ =>
        blind_pagerUnpin _
    · exact blind_failure
  · exact blind_failure

theorem blind_mergeLeaf (parentPid leftPid rightPid unlatch sepIdx : Nat) (iph : InternalPage)
    (left right : LeafPage) :
    Blind (mergeLeaf parentPid leftPid rightPid unlatch sepIdx iph left right) :=
  (blind_writeLeaf _ _).bind fun _ => (blind_pagerMarkDirty _).bind fun _ =>
    (blind_pagerUnlatchW _).bind fun _ => (blind_setPrevLeaf _ _).bind fun _ =>
      (blind_deleteEntryFromInternal _ _ _).bind fun _ => (blind_pagerMarkDirty _).bind fun _ =>
        (blind_pagerUnpin _).bind fun _ => blind_pagerFreePage _

theorem blind_tryBorrowLeafRight (parentPid leafPid childIdx : Nat) (iph : InternalPage) :
    Blind (tryBorrowLeafRight parentPid leafPid childIdx iph) := by
  unfold tryBorrowLeafRight
  split
  · split
    · apply (blind_pagerGetPageWlatch _).bind
      intro _
      apply (blind_readLeaf _).bind
      intro rlph
      apply blind_getPageSize.bind
      intro pageSize
      split
      · exact (blind_borrowLeafRight _ _ _ _ _ _).bind fun _ => blind_pure _
      · exact (blind_pagerUnlatchW _).bind fun _ => blind_pure _
    · exact blind_failure
  · exact blind_pure _

theorem blind_tryBorrowLeafLeft (parentPid leafPid childIdx : Nat) (iph : InternalPage) :
    Blind (tryBorrowLeafLeft parentPid leafPid childIdx iph) := by
  unfold tryBorrowLeafLeft
  split
  · split
    · apply (blind_pagerGetPageWlatch _).bind
      intro _
      apply (blind_readLeaf _).bind
      intro llph
      apply blind_getPageSize.bind
      intro pageSize
      split
      · exact (blind_borrowLeafLeft _ _ _ _ _ _).bind fun _ => blind_pure _
      · exact (blind_pagerUnlatchW _).bind fun _ => blind_pure _
    · exact blind_failure
  · exact blind_pure _

theorem blind_mergeLeaves (parentPid leafPid childIdx : Nat) (iph : InternalPage) :
    Blind (mergeLeaves parentPid leafPid childIdx iph) := by
  unfold mergeLeaves
  split
  · split
    · exact (blind_pagerGetPageWlatch _).bind fun _ => (blind_readLeaf _).bind fun _ =>
        (blind_readLeaf _).bind fun _ => blind_mergeLeaf _ _ _ _ _ _ _ _
    · exact blind_failure
  · split
    · exact (blind_readLeaf _).bind fun _ => (blind_pagerGetPageWlatch _).bind fun _ =>
        (blind_readLeaf _).bind fun _ => blind_mergeLeaf _ _ _ _ _ _ _ _
    · exact blind_failure

theorem blind_fixLeafUnderflowLatched (stack : List Nat) (leafPid : Nat) (parents : List Nat) :
    Blind (fixLeafUnderflowLatched stack leafPid parents) := by
  unfold fixLeafUnderflowLatched
  cases parents with
  | nil => exact blind_lsReleaseAll _
  | cons parentPid parents =>
    apply (blind_pagerGetPage parentPid).bind
    intro _
    apply (blind_readInternal parentPid).bind
    intro iph
    split
    · exact (blind_pagerUnpin _).bind fun _ => blind_lsReleaseAll _
    · apply (blind_tryBorrowLeafRight _ _ _ _).bind
      intro right
      split
      · exact blind_lsReleaseAll _
      · apply (blind_tryBorrowLeafLeft _ _ _ _).bind
        intro left
        split
        · exact blind_lsReleaseAll _
        · exact (blind_mergeLeaves _ _ _ _).bind fun _ => blind_propagateDelete _ _

theorem blind_bptreeDelete (key : Nat) : Blind (bptreeDelete key) := by
  apply (blind_findLeafWlatch key false).bind
  intro found
  apply (blind_readLeaf _).bind
  intro lph
  dsimp only
  split
  · apply (blind_writeLeaf _ _).bind
    intro _
    apply (blind_pagerMarkDirty _).bind
    intro _
    apply blind_rootId.bind
    intro root
    apply blind_getPageSize.bind
    intro pageSize
    split
    · exact (blind_lsReleaseAll _).bind fun _ => blind_pure _
    · exact (blind_fixLeafUnderflowLatched _ _ _).bind fun _ => blind_pure _
  · exact (blind_lsReleaseAll _).bind fun _ => blind_pure _

end

end MiniDb
