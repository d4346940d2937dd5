import MiniDb.Lib.BinarySearch
import MiniDb.Storage.Pager

/-! # The on-disk B+ tree

`bptree.c`, function by function. Keys are row ids, values are row references; every node is a
page and children are page ids.

The latch stack of the source is an array `pids[0 .. size)` with the leaf last. Here it is a list
with the leaf first, so that the walk back up to the root is a recursion on its tail; `ls_push`
keeps the source's capacity. Entry arrays are lists, and the element shifts by which the source
opens or closes a gap in an array are `insertAt` and `eraseIdx`. -/

set_option autoImplicit false

namespace MiniDb

open Lib

/-! ## Binary search in nodes -/

/-- `leaf_find`: the first position with a key at or above `key`. -/
def leafFind (entries : List (Nat × RowRef)) (key : Nat) : Nat :=
  partitionPoint (fun e => e.1 < key) entries

/-- `internal_find`: the index of the child responsible for `key`. -/
def internalFind (entries : List (Nat × Nat)) (key : Nat) : Nat :=
  partitionPoint (fun e => e.1 ≤ key) entries

/-- The child at an index: 0 is the leftmost child, `i + 1` the right child of entry `i`. -/
def InternalPage.childAt (i : InternalPage) : Nat → Option Nat
  | 0 => some i.leftmostChildPageId
  | n + 1 => (i.entries[n]?).map (·.2)

/-- The list with `x` put in front of position `i`. -/
def insertAt {α : Type*} (l : List α) (i : Nat) (x : α) : List α := l.take i ++ x :: l.drop i

/-- `root_id`. -/
def rootId : PagerM Nat := do return (← get).header.rootIndexPageId

def getPageSize : PagerM Nat := do return (← get).pageSize

@[simp] theorem run_rootId {st : Pager} : rootId.run st = some (st.header.rootIndexPageId, st) :=
  rfl

@[simp] theorem run_getPageSize {st : Pager} : getPageSize.run st = some (st.pageSize, st) := rfl

/-! ## The latch stack -/

/-- `MAX_TREE_DEPTH`. -/
def maxTreeDepth : Nat := 32

/-- `ls_push`: a full stack silently drops the page. -/
def lsPush (stack : List Nat) (pid : Nat) : List Nat :=
  if stack.length < maxTreeDepth then pid :: stack else stack

/-- `ls_release_all`: from `pids[0]` upwards. -/
def lsReleaseAll (stack : List Nat) : PagerM Unit := stack.reverse.forM pagerUnlatchW

/-! ## Descent

A descent visits a page once per level, so one that makes more steps than there are pages has
come back to a page and never ends. `nextPageId` rounds of fuel therefore cut off no descent
that reaches a leaf. -/

/-- The loop of `find_leaf_rlatch`. -/
def findLeafRlatchLoop (key : Nat) : Nat → Nat → PagerM Nat
  | 0, _ => failure
  | fuel + 1, pid => do
    match ← readPage pid with
    | .leaf _ => return pid
    | .internal iph =>
      let some childPid := iph.childAt (internalFind iph.entries key) | failure
      -- the child is latched before the page is let go
      pagerGetPageRlatch childPid
      pagerUnlatchR pid
      findLeafRlatchLoop key fuel childPid
    | _ => failure

/-- `find_leaf_rlatch`. No other thread moves the root while the latch is awaited, so the source's
retry is not taken. -/
def findLeafRlatch (key : Nat) : PagerM Nat := do
  let pid ← rootId
  pagerGetPageRlatch pid
  findLeafRlatchLoop key (← get).header.nextPageId pid

/-- The safe-node test of `find_leaf_wlatch`: an insertion does not split the page, a deletion
does not merge it. -/
def safeNode (pageSize : Nat) (isInsert : Bool) : Page → Option Bool
  | .leaf lph =>
    some (if isInsert then decide (lph.entries.length < maxLeafKeys pageSize)
      else decide (minLeafKeys pageSize < lph.entries.length))
  | .internal iph =>
    some (if isInsert then decide (iph.entries.length < maxInternalKeys pageSize)
      else decide (minInternalKeys pageSize < iph.entries.length))
  | _ => none

/-- The loop of `find_leaf_wlatch`: below a safe node the ancestors' latches are released. -/
def findLeafWlatchLoop (key : Nat) (isInsert : Bool) :
    Nat → Nat → List Nat → PagerM (Nat × List Nat)
  | 0, _, _ => failure
  | fuel + 1, pid, stack => do
    match ← readPage pid with
    | .leaf _ => return (pid, stack)
    | .internal iph =>
      let some childPid := iph.childAt (internalFind iph.entries key) | failure
      pagerGetPageWlatch childPid
      let some safe := safeNode (← getPageSize) isInsert (← readPage childPid) | failure
      if safe then
        -- nothing above a safe page will be written
        lsReleaseAll stack
        findLeafWlatchLoop key isInsert fuel childPid (lsPush [] childPid)
      else
        findLeafWlatchLoop key isInsert fuel childPid (lsPush stack childPid)
    | _ => failure

/-- `find_leaf_wlatch`: the leaf and the stack of pages left write-latched. -/
def findLeafWlatch (key : Nat) (isInsert : Bool) : PagerM (Nat × List Nat) := do
  let pid ← rootId
  pagerGetPageWlatch pid
  findLeafWlatchLoop key isInsert (← get).header.nextPageId pid (lsPush [] pid)

/-! ## Search -/

/-- `bptree_search`. -/
def bptreeSearch (key : Nat) : PagerM (Option RowRef) := do
  let leafPid ← findLeafRlatch key
  let lph ← readLeaf leafPid
  let found := (lph.entries[leafFind lph.entries key]?).filter (·.1 == key)
  pagerUnlatchR leafPid
  return found.map (·.2)

/-! ## Insertion -/

/-- `memcpy(page + 4, &parent, 4)`: the parent field of a tree page. -/
def setParent (pid parent : Nat) : PagerM Unit := do
  match ← readPage pid with
  | .leaf l => writePage pid (.leaf { l with parentPageId := parent })
  | .internal i => writePage pid (.internal { i with parentPageId := parent })
  | _ => failure

/-- `update_child_parent_page`; `propagate_insert` has the same four calls inline. -/
def updateChildParentPage (childPid parentPid : Nat) : PagerM Unit := do
  pagerGetPage childPid
  setParent childPid parentPid
  pagerMarkDirty childPid
  pagerUnpin childPid

/-- `leaf_insert_entry`. -/
def leafInsertEntry (pid : Nat) (lph : LeafPage) (key : Nat) (ref : RowRef) : PagerM Unit :=
  writeLeaf pid { lph with entries := insertAt lph.entries (leafFind lph.entries key) (key, ref) }

/-- The last step of `propagate_insert`: a root that was split gets a new root above it. -/
def growRoot (oldRoot curKey curRight : Nat) : PagerM Unit := do
  let newRoot ← pagerAllocPage
  pagerGetPage newRoot
  writeInternal newRoot
    { parentPageId := 0, leftmostChildPageId := oldRoot, entries := [(curKey, curRight)] }
  pagerMarkDirty newRoot
  pagerUnpin newRoot
  updateChildParentPage oldRoot newRoot
  updateChildParentPage curRight newRoot
  -- the id of the root is the last thing to change
  modify fun st => st.setHeader { st.header with rootIndexPageId := newRoot }

/-- The split branch of one round of `propagate_insert`: the parent keeps the lower half, a new
page takes the upper half, and the middle key with the new page is what is left to insert. -/
def splitInternal (parentPid : Nat) (iph : InternalPage) (curKey curRight : Nat) :
    PagerM (Nat × Nat) := do
  -- `curRight` is made a kid of the old page first; the loop below moves it on if it goes up
  updateChildParentPage curRight parentPid
  let tmp := insertAt iph.entries (internalFind iph.entries curKey) (curKey, curRight)
  let split := tmp.length / 2
  let some promote := tmp[split]? | failure
  let newPid ← pagerAllocPage
  pagerGetPage newPid
  let newEntries := tmp.drop (split + 1)
  writeInternal newPid
    { parentPageId := iph.parentPageId, leftmostChildPageId := promote.2, entries := newEntries }
  pagerMarkDirty newPid
  updateChildParentPage promote.2 newPid
  newEntries.forM fun e => updateChildParentPage e.2 newPid
  writeInternal parentPid { iph with entries := tmp.take split }
  pagerMarkDirty parentPid
  pagerUnpin parentPid
  pagerUnpin newPid
  return (promote.1, newPid)

/-- `propagate_insert`: `node` has just been split off `curRight`; `ancestors` is the rest of the
latch stack above it. -/
def propagateInsert (stack : List Nat) (curKey curRight node : Nat) : List Nat → PagerM Unit
  | [] => do
    -- every latched page was split, the root among them
    growRoot node curKey curRight
    lsReleaseAll stack
  | parentPid :: ancestors => do
    pagerGetPage parentPid
    let iph ← readInternal parentPid
    if iph.entries.length < maxInternalKeys (← getPageSize) then
      writeInternal parentPid
        { iph with
          entries := insertAt iph.entries (internalFind iph.entries curKey) (curKey, curRight) }
      pagerMarkDirty parentPid
      pagerUnpin parentPid
      updateChildParentPage curRight parentPid
      lsReleaseAll stack
    else
      let (promoteKey, newPid) ← splitInternal parentPid iph curKey curRight
      propagateInsert stack promoteKey newPid parentPid ancestors

/-- The prev pointer of a leaf, if there is one, is redirected. -/
def setPrevLeaf (pid prev : Nat) : PagerM Unit := do
  if pid ≠ 0 then
    pagerGetPage pid
    let rlph ← readLeaf pid
    writeLeaf pid { rlph with prevLeafPageId := prev }
    pagerMarkDirty pid
    pagerUnpin pid

/-- The split branch of `bptree_insert`: a new right neighbour takes the upper half of a full
leaf together with the new entry. Returns the separator and the new page. -/
def splitLeaf (leafPid : Nat) (lph : LeafPage) (key : Nat) (ref : RowRef) : PagerM (Nat × Nat) := do
  let tmp := insertAt lph.entries (leafFind lph.entries key) (key, ref)
  let split := tmp.length / 2
  let some promote := tmp[split]? | failure
  let newPid ← pagerAllocPage
  pagerGetPage newPid
  writeLeaf newPid
    { parentPageId := lph.parentPageId, nextLeafPageId := lph.nextLeafPageId,
      prevLeafPageId := leafPid, entries := tmp.drop split }
  pagerMarkDirty newPid
  -- the leaf behind is written without its latch
  setPrevLeaf lph.nextLeafPageId newPid
  writeLeaf leafPid { lph with nextLeafPageId := newPid, entries := tmp.take split }
  pagerMarkDirty leafPid
  pagerUnpin newPid
  return (promote.1, newPid)

/-- `bptree_insert`: 0, or -1 for a duplicate key. -/
def bptreeInsert (key : Nat) (ref : RowRef) : PagerM Int := do
  let (leafPid, stack) ← findLeafWlatch key true
  let lph ← readLeaf leafPid
  if (lph.entries[leafFind lph.entries key]?).any (·.1 == key) then
    lsReleaseAll stack
    return -1
  else if lph.entries.length < maxLeafKeys (← getPageSize) then
    leafInsertEntry leafPid lph key ref
    pagerMarkDirty leafPid
    lsReleaseAll stack
    return 0
  else
    let (promoteKey, newPid) ← splitLeaf leafPid lph key ref
    propagateInsert stack promoteKey newPid leafPid stack.tail
    return 0

/-! ## Deletion -/

/-- `find_child_idx`: which child of the parent `childPid` is. -/
def findChildIdx (iph : InternalPage) (childPid : Nat) : Option Nat :=
  if iph.leftmostChildPageId = childPid then some 0
  else (iph.entries.findIdx? (·.2 == childPid)).map (· + 1)

/-- `delete_entry_from_internal`. -/
def deleteEntryFromInternal (pid : Nat) (iph : InternalPage) (idx : Nat) : PagerM Unit :=
  writeInternal pid { iph with entries := iph.entries.eraseIdx idx }

/-- The key of an entry of an internal node, overwritten in place. -/
def InternalPage.setKey (i : InternalPage) (idx key : Nat) : InternalPage :=
  { i with entries := i.entries.modify idx fun e => (key, e.2) }

/-- Borrowing from the right sibling in `fix_internal_underflow_latched`. -/
def borrowInternalRight (parentPid nodePid rsibPid sepIdx sep : Nat) (iph niph riph : InternalPage) :
    PagerM Unit := do
  -- the separator comes down, and the sibling's first key takes its place
  let some first := riph.entries[0]? | failure
  let movedChild := riph.leftmostChildPageId
  writeInternal nodePid { niph with entries := niph.entries ++ [(sep, movedChild)] }
  writeInternal rsibPid
    { riph with leftmostChildPageId := first.2, entries := riph.entries.eraseIdx 0 }
  writeInternal parentPid (iph.setKey sepIdx first.1)
  pagerMarkDirty nodePid
  pagerMarkDirty rsibPid
  pagerMarkDirty parentPid
  updateChildParentPage movedChild nodePid
  pagerUnpin nodePid
  pagerUnlatchW rsibPid
  pagerUnpin parentPid

/-- Borrowing from the left sibling in `fix_internal_underflow_latched`. -/
def borrowInternalLeft (parentPid nodePid lsibPid sepIdx sep : Nat) (iph niph liph : InternalPage) :
    PagerM Unit := do
  let some borrowed := liph.entries[liph.entries.length - 1]? | failure
  writeInternal nodePid
    { niph with
      leftmostChildPageId := borrowed.2
      entries := (sep, niph.leftmostChildPageId) :: niph.entries }
  writeInternal lsibPid { liph with entries := liph.entries.take (liph.entries.length - 1) }
  writeInternal parentPid (iph.setKey sepIdx borrowed.1)
  pagerMarkDirty nodePid
  pagerMarkDirty lsibPid
  pagerMarkDirty parentPid
  updateChildParentPage borrowed.2 nodePid
  pagerUnpin nodePid
  pagerUnlatchW lsibPid
  pagerUnpin parentPid

/-- Appending an internal node to its left neighbour, with the separator between them: the entry
copies and parent updates of both merges of `fix_internal_underflow_latched`. -/
def appendInternal (leftPid : Nat) (left : InternalPage) (sep : Nat) (right : InternalPage) :
    PagerM Unit := do
  writeInternal leftPid
    { left with entries := left.entries ++ (sep, right.leftmostChildPageId) :: right.entries }
  pagerMarkDirty leftPid
  updateChildParentPage right.leftmostChildPageId leftPid
  right.entries.forM fun e => updateChildParentPage e.2 leftPid

/-- Step 1 of `fix_internal_underflow_latched`: if the node has a right sibling with entries to
spare, borrow from it. -/
def tryBorrowInternalRight (parentPid nodePid childIdx : Nat) (iph niph : InternalPage) :
    PagerM Bool := do
  if childIdx < iph.entries.length then
    let some (sep, rsibPid) := iph.entries[childIdx]? | failure
    pagerGetPageWlatch rsibPid
    let riph ← readInternal rsibPid
    if minInternalKeys (← getPageSize) < riph.entries.length then
      borrowInternalRight parentPid nodePid rsibPid childIdx sep iph niph riph
      return true
    else
      pagerUnlatchW rsibPid
      return false
  else
    return false

/-- Step 2 of `fix_internal_underflow_latched`: the same with the left sibling. -/
def tryBorrowInternalLeft (parentPid nodePid childIdx : Nat) (iph niph : InternalPage) :
    PagerM Bool := do
  if childIdx > 0 then
    let some (sep, _) := iph.entries[childIdx - 1]? | failure
    let some lsibPid := iph.childAt (childIdx - 1) | failure
    pagerGetPageWlatch lsibPid
    let liph ← readInternal lsibPid
    if minInternalKeys (← getPageSize) < liph.entries.length then
      borrowInternalLeft parentPid nodePid lsibPid (childIdx - 1) sep iph niph liph
      return true
    else
      pagerUnlatchW lsibPid
      return false
  else
    return false

/-- Step 3 of `fix_internal_underflow_latched`: merge with the left sibling, or on the left edge of
the parent with the right one. -/
def mergeInternal (parentPid nodePid childIdx : Nat) (iph niph : InternalPage) : PagerM Unit := do
  if childIdx > 0 then
    let some (sep, _) := iph.entries[childIdx - 1]? | failure
    let some lsibPid := iph.childAt (childIdx - 1) | failure
    pagerGetPageWlatch lsibPid
    let liph ← readInternal lsibPid
    appendInternal lsibPid liph sep niph
    deleteEntryFromInternal parentPid iph (childIdx - 1)
    pagerMarkDirty parentPid
    pagerUnpin parentPid
    pagerUnpin nodePid
    pagerUnlatchW lsibPid
    pagerFreePage nodePid
  else
    let some (sep, rsibPid) := iph.entries[0]? | failure
    pagerGetPageWlatch rsibPid
    let riph ← readInternal rsibPid
    appendInternal nodePid niph sep riph
    deleteEntryFromInternal parentPid iph 0
    pagerMarkDirty parentPid
    pagerUnpin parentPid
    pagerUnpin nodePid
    pagerUnlatchW rsibPid
    pagerFreePage rsibPid

/-- `fix_internal_underflow_latched` for the node at stack level `parents.length`. `propagate` is
the call to `propagate_delete` for the level above that follows both merges. -/
def fixInternalUnderflowLatched (stack : List Nat) (nodePid : Nat) (parents : List Nat)
    (propagate : PagerM Unit) : PagerM Unit := do
  match parents with
  | [] =>
    -- `level < 0`: there is no latched parent
    pagerUnpin nodePid
    lsReleaseAll stack
  | parentPid :: _ =>
    pagerGetPage parentPid
    let iph ← readInternal parentPid
    let niph ← readInternal nodePid
    match findChildIdx iph nodePid with
    | none =>
      -- the parent does not have the node: the source gives up
      pagerUnpin nodePid
      pagerUnpin parentPid
      lsReleaseAll stack
    | some childIdx =>
      if ← tryBorrowInternalRight parentPid nodePid childIdx iph niph then
        lsReleaseAll stack
      else if ← tryBorrowInternalLeft parentPid nodePid childIdx iph niph then
        lsReleaseAll stack
      else
        mergeInternal parentPid nodePid childIdx iph niph
        -- the parent has lost an entry
        propagate

/-- The root shrink of `propagate_delete`: a root without keys hands over to its only child. -/
def shrinkRoot (nodePid : Nat) : PagerM Unit := do
  pagerGetPage nodePid
  let iph ← readInternal nodePid
  if iph.entries.length = 0 then
    let child := iph.leftmostChildPageId
    pagerUnpin nodePid
    pagerFreePage nodePid
    modify fun st => st.setHeader { st.header with rootIndexPageId := child }
    updateChildParentPage child 0
  else
    pagerUnpin nodePid

/-- `propagate_delete`: the node on top of the list has lost an entry. -/
def propagateDelete (stack : List Nat) : List Nat → PagerM Unit
  | [] => failure
  | nodePid :: parents => do
    if nodePid = (← rootId) then
      -- a root has no least number of keys
      shrinkRoot nodePid
      lsReleaseAll stack
    else
      pagerGetPage nodePid
      let iph ← readInternal nodePid
      pagerUnpin nodePid
      if minInternalKeys (← getPageSize) ≤ iph.entries.length then
        lsReleaseAll stack
      else
        fixInternalUnderflowLatched stack nodePid parents (propagateDelete stack parents)

/-- Borrowing from the right sibling in `fix_leaf_underflow_latched`. -/
def borrowLeafRight (parentPid leafPid rsibPid sepIdx : Nat) (iph : InternalPage)
    (rlph : LeafPage) : PagerM Unit := do
  let some borrowed := rlph.entries[0]? | failure
  let some newFirst := rlph.entries[1]? | failure
  writeLeaf rsibPid { rlph with entries := rlph.entries.eraseIdx 0 }
  pagerMarkDirty rsibPid
  -- the sibling is let go before the leaf and the parent are written
  pagerUnlatchW rsibPid
  let lph ← readLeaf leafPid
  leafInsertEntry leafPid lph borrowed.1 borrowed.2
  pagerMarkDirty leafPid
  writeInternal parentPid (iph.setKey sepIdx newFirst.1)
  pagerMarkDirty parentPid
  pagerUnpin parentPid

/-- Borrowing from the left sibling in `fix_leaf_underflow_latched`. -/
def borrowLeafLeft (parentPid leafPid lsibPid sepIdx : Nat) (iph : InternalPage)
    (llph : LeafPage) : PagerM Unit := do
  let some borrowed := llph.entries[llph.entries.length - 1]? | failure
  writeLeaf lsibPid { llph with entries := llph.entries.take (llph.entries.length - 1) }
  pagerMarkDirty lsibPid
  pagerUnlatchW lsibPid
  let lph ← readLeaf leafPid
  leafInsertEntry leafPid lph borrowed.1 borrowed.2
  pagerMarkDirty leafPid
  -- the page is read again: its first key is the borrowed one
  let lph ← readLeaf leafPid
  let some newFirst := lph.entries[0]? | failure
  writeInternal parentPid (iph.setKey sepIdx newFirst.1)
  pagerMarkDirty parentPid
  pagerUnpin parentPid

/-- Both merges of `fix_leaf_underflow_latched`: `right` moves into its left neighbour, the leaf
after it points back to that neighbour, and the parent loses the entry of `right`. The freed page
is `rightPid`; `unlatch` is the sibling whose latch is dropped on the way. -/
def mergeLeaf (parentPid leftPid rightPid unlatch sepIdx : Nat) (iph : InternalPage)
    (left right : LeafPage) : PagerM Unit := do
  writeLeaf leftPid
    { left with
      entries := left.entries ++ right.entries, nextLeafPageId := right.nextLeafPageId }
  pagerMarkDirty leftPid
  pagerUnlatchW unlatch
  -- as in a split, the leaf behind is only pinned
  setPrevLeaf right.nextLeafPageId leftPid
  deleteEntryFromInternal parentPid iph sepIdx
  pagerMarkDirty parentPid
  pagerUnpin parentPid
  pagerFreePage rightPid

/-- Step 1 of `fix_leaf_underflow_latched`. -/
def tryBorrowLeafRight (parentPid leafPid childIdx : Nat) (iph : InternalPage) : PagerM Bool := do
  if childIdx < iph.entries.length then
    let some (_, rsibPid) := iph.entries[childIdx]? | failure
    pagerGetPageWlatch rsibPid
    let rlph ← readLeaf rsibPid
    if minLeafKeys (← getPageSize) < rlph.entries.length then
      borrowLeafRight parentPid leafPid rsibPid childIdx iph rlph
      return true
    else
      pagerUnlatchW rsibPid
      return false
  else
    return false

/-- Step 2 of `fix_leaf_underflow_latched`. -/
def tryBorrowLeafLeft (parentPid leafPid childIdx : Nat) (iph : InternalPage) : PagerM Bool := do
  if childIdx > 0 then
    let some lsibPid := iph.childAt (childIdx - 1) | failure
    pagerGetPageWlatch lsibPid
    let llph ← readLeaf lsibPid
    if minLeafKeys (← getPageSize) < llph.entries.length then
      borrowLeafLeft parentPid leafPid lsibPid (childIdx - 1) iph llph
      return true
    else
      pagerUnlatchW lsibPid
      return false
  else
    return false

/-- Step 3 of `fix_leaf_underflow_latched`. -/
def mergeLeaves (parentPid leafPid childIdx : Nat) (iph : InternalPage) : PagerM Unit := do
  if childIdx > 0 then
    let some lsibPid := iph.childAt (childIdx - 1) | failure
    pagerGetPageWlatch lsibPid
    let llph ← readLeaf lsibPid
    let lph ← readLeaf leafPid
    mergeLeaf parentPid lsibPid leafPid lsibPid (childIdx - 1) iph llph lph
  else
    let some (_, rsibPid) := iph.entries[0]? | failure
    let lph ← readLeaf leafPid
    pagerGetPageWlatch rsibPid
    let rlph ← readLeaf rsibPid
    mergeLeaf parentPid leafPid rsibPid rsibPid 0 iph lph rlph

/-- `fix_leaf_underflow_latched`. -/
def fixLeafUnderflowLatched (stack : List Nat) (leafPid : Nat) (parents : List Nat) :
    PagerM Unit := do
  match parents with
  | [] => lsReleaseAll stack
  | parentPid :: _ =>
    pagerGetPage parentPid
    let iph ← readInternal parentPid
    match findChildIdx iph leafPid with
    | none =>
      pagerUnpin parentPid
      lsReleaseAll stack
    | some childIdx =>
      if ← tryBorrowLeafRight parentPid leafPid childIdx iph then
        lsReleaseAll stack
      else if ← tryBorrowLeafLeft parentPid leafPid childIdx iph then
        lsReleaseAll stack
      else
        mergeLeaves parentPid leafPid childIdx iph
        propagateDelete stack parents

/-- `bptree_delete`: 0, or -1 for an absent key. -/
def bptreeDelete (key : Nat) : PagerM Int := do
  let (leafPid, stack) ← findLeafWlatch key false
  let lph ← readLeaf leafPid
  let idx := leafFind lph.entries key
  if (lph.entries[idx]?).any (·.1 == key) then
    let entries := lph.entries.eraseIdx idx
    writeLeaf leafPid { lph with entries := entries }
    pagerMarkDirty leafPid
    if leafPid = (← rootId) ∨ minLeafKeys (← getPageSize) ≤ entries.length then
      -- a leaf that is the root may even be empty
      lsReleaseAll stack
      return 0
    else
      fixLeafUnderflowLatched stack leafPid stack.tail
      return 0
  else
    lsReleaseAll stack
    return -1

end MiniDb
