import MiniDb.Lib.Runs
import MiniDb.Storage.Bptree.Basic

/-! # Exits that no tree takes

Insertion and deletion release latches on the way down, and their ways up have exits for a latch
stack that ends too early: `ls_push` drops a page when the stack is full, `propagate_insert` takes
the last page of the stack for the root, the two underflow repairs give up without a parent, or when
the parent does not know its child. Here are the same programs with a failure at these exits. They
do what the originals do (`refines_bptreeInsertChecked`, `refines_bptreeDeleteChecked`), so on a
tree on which they succeed the originals take none of the exits. -/

set_option autoImplicit false

namespace MiniDb

open Lib

/-! ## Descent -/

/-- `ls_push` on a stack with room. -/
def lsPushChecked (stack : List Nat) (pid : Nat) : PagerM (List Nat) :=
  if stack.length < maxTreeDepth then return pid :: stack else failure

/-- `findLeafWlatchLoop`, where no page is dropped. -/
def findLeafWlatchLoopChecked (key : Nat) (isInsert : Bool) :
    Nat → Nat → List Nat → PagerM (Nat × List Nat)
  | 0, _, _ => failure
  | fuel + 1, pid, stack => do
    match ← readPage pid with
    | .leaf _ => return (pid, stack)
    | .internal iph =>
      let some childPid := iph.childAt (internalFind iph.entries key) | failure
      pagerGetPageWlatch childPid
      let some safe := safeNode (← getPageSize) isInsert (← readPage childPid) | failure
      if safe then
        lsReleaseAll stack
        findLeafWlatchLoopChecked key isInsert fuel childPid (← lsPushChecked [] childPid)
      else
        findLeafWlatchLoopChecked key isInsert fuel childPid (← lsPushChecked stack childPid)
    | _ => failure

/-- `findLeafWlatch`, where no page is dropped. -/
def findLeafWlatchChecked (key : Nat) (isInsert : Bool) : PagerM (Nat × List Nat) := do
  let pid ← rootId
  pagerGetPageWlatch pid
  findLeafWlatchLoopChecked key isInsert (← get).header.nextPageId pid (← lsPushChecked [] pid)

/-! ## Insertion -/

/-- `propagateInsert`, where only the root gets a new root above it. -/
def propagateInsertChecked (stack : List Nat) (curKey curRight node : Nat) : List Nat → PagerM Unit
  | [] => do
    if node = (← rootId) then
      growRoot node curKey curRight
      lsReleaseAll stack
    else
      failure
  | parentPid :: ancestors => do
    pagerGetPage parentPid
    let iph ← readInternal parentPid
    if iph.entries.length < maxInternalKeys (← getPageSize) then
      writeInternal parentPid
        { iph with
          entries := insertAt iph.entries (internalFind iph.entries curKey) (curKey, curRight) }
      pagerMarkDirty parentPid
      pagerUnpin parentPid
      updateChildParentPage curRight parentPid
      lsReleaseAll stack
    else
      let (promoteKey, newPid) ← splitInternal parentPid iph curKey curRight
      propagateInsertChecked stack promoteKey newPid parentPid ancestors

/-- `bptreeInsert` with these. -/
def bptreeInsertChecked (key : Nat) (ref : RowRef) : PagerM Int := do
  let (leafPid, stack) ← findLeafWlatchChecked key true
  let lph ← readLeaf leafPid
  if (lph.entries[leafFind lph.entries key]?).any (·.1 == key) then
    lsReleaseAll stack
    return -1
  else if lph.entries.length < maxLeafKeys (← getPageSize) then
    leafInsertEntry leafPid lph key ref
    pagerMarkDirty leafPid
    lsReleaseAll stack
    return 0
  else
    let (promoteKey, newPid) ← splitLeaf leafPid lph key ref
    propagateInsertChecked stack promoteKey newPid leafPid stack.tail
    return 0

/-! ## Deletion -/

/-- `fixInternalUnderflowLatched`, where the node has a parent that knows it. -/
def fixInternalUnderflowLatchedChecked (stack : List Nat) (nodePid : Nat) (parents : List Nat)
    (propagate : PagerM Unit) : PagerM Unit := do
  match parents with
  | [] => failure
  | parentPid :: _ =>
    pagerGetPage parentPid
    let iph ← readInternal parentPid
    let niph ← readInternal nodePid
    match findChildIdx iph nodePid with
    | none => failure
    | some childIdx =>
      if ← tryBorrowInternalRight parentPid nodePid childIdx iph niph then
        lsReleaseAll stack
      else if ← tryBorrowInternalLeft parentPid nodePid childIdx iph niph then
        lsReleaseAll stack
      else
        mergeInternal parentPid nodePid childIdx iph niph
        propagate

/-- `propagateDelete` with it. -/
def propagateDeleteChecked (stack : List Nat) : List Nat → PagerM Unit
  | [] => failure
  | nodePid :: parents => do
    if nodePid = (← rootId) then
      shrinkRoot nodePid
      lsReleaseAll stack
    else
      pagerGetPage nodePid
      let iph ← readInternal nodePid
      pagerUnpin nodePid
      if minInternalKeys (← getPageSize) ≤ iph.entries.length then
        lsReleaseAll stack
      else
        fixInternalUnderflowLatchedChecked stack nodePid parents
          (propagateDeleteChecked stack parents)

/-- `fixLeafUnderflowLatched`, where the leaf has a parent that knows it. -/
def fixLeafUnderflowLatchedChecked (stack : List Nat) (leafPid : Nat) (parents : List Nat) :
    PagerM Unit := do
  match parents with
  | [] => failure
  | parentPid :: _ =>
    pagerGetPage parentPid
    let iph ← readInternal parentPid
    match findChildIdx iph leafPid with
    | none => failure
    | some childIdx =>
      if ← tryBorrowLeafRight parentPid leafPid childIdx iph then
        lsReleaseAll stack
      else if ← tryBorrowLeafLeft parentPid leafPid childIdx iph then
        lsReleaseAll stack
      else
        mergeLeaves parentPid leafPid childIdx iph
        propagateDeleteChecked stack parents

/-- `bptreeDelete` with these. -/
def bptreeDeleteChecked (key : Nat) : PagerM Int := do
  let (leafPid, stack) ← findLeafWlatchChecked key false
  let lph ← readLeaf leafPid
  let idx := leafFind lph.entries key
  if (lph.entries[idx]?).any (·.1 == key) then
    let entries := lph.entries.eraseIdx idx
    writeLeaf leafPid { lph with entries := entries }
    pagerMarkDirty leafPid
    if leafPid = (← rootId) ∨ minLeafKeys (← getPageSize) ≤ entries.length then
      lsReleaseAll stack
      return 0
    else
      fixLeafUnderflowLatchedChecked stack leafPid stack.tail
      return 0
  else
    lsReleaseAll stack
    return -1

/-! ## The originals do the same -/

section

variable {stack : List Nat}

theorem lsPushChecked_eq {st st' : Pager} {stack' : List Nat} {pid : Nat}
    (h : (lsPushChecked stack pid).run st = some (stack', st')) :
    stack' = lsPush stack pid ∧ st' = st := by
  unfold lsPushChecked at h
  unfold lsPush
  by_cases hroom : stack.length < maxTreeDepth
  · rw [if_pos hroom] at h ⊢
    exact run_pure_eq_some.mp h
  · rw [if_neg hroom] at h
    cases h

/-- Where a page is pushed and nothing dropped, the rest goes on with the pushed stack. -/
theorem refines_lsPush {α : Type} {pid : Nat} {f f' : List Nat → PagerM α}
    (h : ∀ s, Refines (f s) (f' s)) :
    Refines (lsPushChecked stack pid >>= f) (f' (lsPush stack pid)) := by
  rintro st ⟨a, st'⟩ hrun
  obtain ⟨stack', st₁, hpush, hrest⟩ := run_bind_eq_some.mp hrun
  obtain ⟨rfl, rfl⟩ := lsPushChecked_eq hpush
  exact h _ _ _ hrest

theorem refines_findLeafWlatchLoopChecked (key : Nat) (isInsert : Bool) (fuel pid : Nat)
    (stack : List Nat) :
    Refines (findLeafWlatchLoopChecked key isInsert fuel pid stack)
      (findLeafWlatchLoop key isInsert fuel pid stack) := by
  induction fuel generalizing pid stack with
  | zero => exact refines_failure
  | succ fuel ih =>
    rw [findLeafWlatchLoopChecked, findLeafWlatchLoop]
    apply refines_bind
    intro page
    cases page with
    | internal iph =>
      dsimp only
      cases iph.childAt (internalFind iph.entries key) with
      | none => exact refines_failure
      | some childPid =>
        apply refines_bind
        intro _
        apply refines_bind
        intro pageSize
        apply refines_bind
        intro page
        cases safeNode pageSize isInsert page with
        | none => exact refines_failure
        | some safe =>
          apply refines_ite
          · intro _
            apply refines_bind
            intro _
            exact refines_lsPush fun s => ih childPid s
          · intro _
            exact refines_lsPush fun s => ih childPid s
    | _ => exact .refl _

theorem refines_findLeafWlatchChecked (key : Nat) (isInsert : Bool) :
    Refines (findLeafWlatchChecked key isInsert) (findLeafWlatch key isInsert) := by
  apply refines_bind
  intro pid
  apply refines_bind
  intro _
  apply refines_bind
  intro st
  exact refines_lsPush fun s => refines_findLeafWlatchLoopChecked key isInsert _ pid s

theorem refines_propagateInsertChecked (stack : List Nat) (curKey curRight node : Nat)
    (above : List Nat) :
    Refines (propagateInsertChecked stack curKey curRight node above)
      (propagateInsert stack curKey curRight node above) := by
  induction above generalizing curKey curRight node with
  | nil =>
    rintro st ⟨a, st'⟩ hrun
    obtain ⟨root, st₁, hroot, hrest⟩ := run_bind_eq_some.mp hrun
    obtain ⟨rfl, rfl⟩ := Prod.mk.inj (Option.some.inj hroot)
    by_cases h : node = st.header.rootIndexPageId
    · rw [if_pos h] at hrest
      exact hrest
    · rw [if_neg h] at hrest
      cases hrest
  | cons parentPid ancestors ih =>
    rw [propagateInsertChecked, propagateInsert]
    apply refines_bind
    intro _
    apply refines_bind
    intro iph
    apply refines_bind
    intro pageSize
    apply refines_ite
    · intro _
      exact .refl _
    · intro _
      apply refines_bind
      rintro ⟨promoteKey, newPid⟩
      exact ih promoteKey newPid parentPid

theorem refines_bptreeInsertChecked (key : Nat) (ref : RowRef) :
    Refines (bptreeInsertChecked key ref) (bptreeInsert key ref) := by
  apply (refines_findLeafWlatchChecked key true).bind
  rintro ⟨leafPid, stack⟩
  apply refines_bind
  intro lph
  apply refines_ite
  · intro _
    exact .refl _
  · intro _
    apply refines_bind
    intro pageSize
    apply refines_ite
    · intro _
      exact .refl _
    · intro _
      apply refines_bind
      rintro ⟨promoteKey, newPid⟩
      exact (refines_propagateInsertChecked _ _ _ _ _).bind fun _ => .refl _

theorem refines_fixInternalUnderflowLatchedChecked {nodePid : Nat} {parents : List Nat}
    {propagate propagate' : PagerM Unit} (h : Refines propagate propagate') :
    Refines (fixInternalUnderflowLatchedChecked stack nodePid parents propagate)
      (fixInternalUnderflowLatched stack nodePid parents propagate') := by
  cases parents with
  | nil => exact refines_failure
  | cons parentPid above =>
    apply refines_bind
    intro _
    apply refines_bind
    intro iph
    apply refines_bind
    intro niph
    cases findChildIdx iph nodePid with
    | none => exact refines_failure
    | some childIdx =>
      apply refines_bind
      intro right
      apply refines_ite
      · intro _
        exact .refl _
      · intro _
        apply refines_bind
        intro left
        apply refines_ite
        · intro _
          exact .refl _
        · intro _
          exact refines_bind _ fun _ => h

theorem refines_propagateDeleteChecked (stack nodes : List Nat) :
    Refines (propagateDeleteChecked stack nodes) (propagateDelete stack nodes) := by
  induction nodes with
  | nil => exact refines_failure
  | cons nodePid parents ih =>
    rw [propagateDeleteChecked, propagateDelete]
    apply refines_bind
    intro root
    apply refines_ite
    · intro _
      exact .refl _
    · intro _
      apply refines_bind
      intro _
      apply refines_bind
      intro iph
      apply refines_bind
      intro _
      apply refines_bind
      intro pageSize
      apply refines_ite
      · intro _
        exact .refl _
      · intro _
        exact refines_fixInternalUnderflowLatchedChecked ih

theorem refines_fixLeafUnderflowLatchedChecked (leafPid : Nat) (parents : List Nat) :
    Refines (fixLeafUnderflowLatchedChecked stack leafPid parents)
      (fixLeafUnderflowLatched stack leafPid parents) := by
  cases parents with
  | nil => exact refines_failure
  | cons parentPid above =>
    apply refines_bind
    intro _
    apply refines_bind
    intro iph
    cases findChildIdx iph leafPid with
    | none => exact refines_failure
    | some childIdx =>
      apply refines_bind
      intro right
      apply refines_ite
      · intro _
        exact .refl _
      · intro _
        apply refines_bind
        intro left
        apply refines_ite
        · intro _
          exact .refl _
        · intro _
          exact refines_bind _ fun _ => refines_propagateDeleteChecked stack (parentPid :: above)

theorem refines_bptreeDeleteChecked (key : Nat) :
    Refines (bptreeDeleteChecked key) (bptreeDelete key) := by
  apply (refines_findLeafWlatchChecked key false).bind
  rintro ⟨leafPid, stack⟩
  apply refines_bind
  intro lph
  apply refines_ite
  · intro _
    apply refines_bind
    intro _
    apply refines_bind
    intro _
    apply refines_bind
    intro root
    apply refines_bind
    intro pageSize
    apply refines_ite
    · intro _
      exact .refl _
    · intro _
      exact (refines_fixLeafUnderflowLatchedChecked leafPid stack.tail).bind fun _ => .refl _
  · intro _
    exact .refl _

end

end MiniDb
