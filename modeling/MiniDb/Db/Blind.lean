import MiniDb.Db.FreeHint
import MiniDb.Storage.Bptree.Blind

/-! # Statements do not look at the hint

No function of `executor.c` reads `heap_may_have_free_slots`. The one that calls `heap_insert` is left
out here: what a search for a page does with the hint depends on the heap. -/

set_option autoImplicit false

namespace MiniDb

open Lib

section

variable {γ : Type} {env : ExecEnv} {stmt : Statement} {hdr : DbHeader}

/-! ## Reading -/

theorem blind_scanSlots (pid rowSize : Nat) (cb : ScanCallback γ) (n i : Nat) (ctx : γ) :
    Blind (scanSlots pid rowSize cb n i ctx) := by
  induction n generalizing i ctx with
  | zero => exact blind_pure _
  | succ n ih =>
    apply (blind_pagerGetPageRlatch _).bind
    intro _
    apply (blind_readHeap _).bind
    intro hph
    split
    · split
      · split
        · split <;> apply (blind_pagerUnlatchR _).bind <;> intro _
          · exact blind_pure _
          · exact ih _ _
        · exact blind_failure
      · exact (blind_pagerUnlatchR _).bind fun _ => ih _ _
    · exact blind_failure

theorem blind_scanPage (malloc : Nat → Nat → Bool) (rowSize : Nat) (cb : ScanCallback γ) (pid : Nat)
    (ctx : γ) : Blind (scanPage malloc rowSize cb pid ctx) := by
  apply (blind_pagerGetPageRlatch _).bind
  intro _
  apply (blind_readHeap _).bind
  intro hph
  dsimp only
  split
  · split
    · exact (blind_pagerUnlatchR _).bind fun _ => blind_pure _
    · exact blind_failure
  · apply (blind_pagerUnlatchR _).bind
    intro _
    exact (blind_scanSlots _ _ _ _ _ _).bind fun _ => blind_pure _

theorem blind_scanPages (malloc : Nat → Nat → Bool) (rowSize : Nat) (cb : ScanCallback γ)
    (fuel pid : Nat) (ctx : γ) : Blind (scanPages malloc rowSize cb fuel pid ctx) := by
  induction fuel generalizing pid ctx with
  | zero => exact blind_failure
  | succ fuel ih =>
    rw [scanPages]
    split
    · exact blind_pure _
    · apply (blind_scanPage _ _ _ _ _).bind
      rintro ⟨⟨_ | _, ctx'⟩, next⟩
      · exact blind_pure _
      · exact ih _ _

theorem blind_scanMatching (push : RowValues → γ → Bool × Option γ) (ctx : γ) :
    Blind (scanMatching env stmt push ctx) := by
  apply blind_bind_get
  · intro st
    apply Agrees.bind
    · apply blind_bind_get
      · exact fun _ => blind_scanPages _ _ _ _ _ _
      · exact fun _ _ _ => rfl
    · exact fun _ => blind_orUndefined _
  · exact fun _ _ _ => rfl

theorem blind_execIndexLookup : Blind (execIndexLookup stmt) := by
  apply blind_bind_get
  · intro st
    apply (blind_bptreeSearch _).bind
    intro found
    cases found with
    | none => exact blind_pure _
    | some ref =>
      apply (blind_heapFetch _ _).bind
      intro row
      cases row with
      | none => exact blind_pure _
      | some row =>
        exact (blind_orUndefined _).bind fun _ => (blind_pagerUnlatchR _).bind fun _ =>
          blind_pure _
  · exact fun _ _ _ => rfl

theorem blind_fetchMatchingRowById (id : Nat) : Blind (fetchMatchingRowById hdr id stmt) := by
  apply (blind_bptreeSearch _).bind
  intro found
  cases found with
  | none => exact blind_pure _
  | some ref =>
    apply (blind_heapFetch _ _).bind
    intro row
    cases row with
    | none => exact blind_pure _
    | some row =>
      exact (blind_orUndefined _).bind fun _ => (blind_pagerUnlatchR _).bind fun _ => blind_pure _

theorem blind_latchRowPage (cur : Option Nat) (pid : Nat) : Blind (latchRowPage cur pid) := by
  cases cur with
  | none => exact blind_pagerGetPageRlatch _
  | some curPid =>
    unfold latchRowPage
    dsimp only
    split
    · exact (blind_pagerUnlatchR _).bind fun _ => blind_pagerGetPageRlatch _
    · exact blind_pure _

theorem blind_fetchRange (cur : Option Nat) (refs : List RowRef) :
    Blind (fetchRange hdr cur refs) := by
  induction refs generalizing cur with
  | nil =>
    cases cur with
    | none =>
      show Blind (pure [])
      exact blind_pure _
    | some pid => exact (blind_pagerUnlatchR _).bind fun _ => blind_pure _
  | cons ref refs ih =>
    rw [fetchRange]
    apply (blind_latchRowPage cur ref.pageId).bind
    intro _
    apply (blind_readHeap _).bind
    intro hph
    apply (blind_orUndefined _).bind
    intro slot
    split
    · exact (blind_orUndefined _).bind fun _ => (blind_orUndefined _).bind fun _ =>
        (ih _).bind fun _ => blind_pure _
    · exact ih _

theorem blind_execIndexRangeScan : Blind (execIndexRangeScan env stmt) := by
  apply blind_bind_get
  · intro st
    dsimp only
    split
    · exact blind_pure _
    · apply (blind_bptreeRangeScan _ _ _).bind
      intro found
      apply (blind_orUndefined _).bind
      intro rc
      split
      · exact blind_pure _
      · exact (blind_fetchRange none _).bind fun _ => blind_pure _
  · exact fun _ _ _ => rfl

theorem blind_printOrdered (cmp : RowValues → RowValues → Option Int) (rows : List RowValues) :
    Blind (printOrdered hdr cmp stmt rows) := by
  unfold printOrdered
  dsimp only
  split
  · exact (blind_orUndefined _).bind fun _ => blind_pure _
  · rw [pure_bind]
    exact blind_pure _

theorem blind_execOrderedScan : Blind (execOrderedScan env stmt) := by
  apply blind_bind_get
  · intro st
    dsimp only
    split
    · exact blind_pure _
    · split
      · split
        · exact blind_pure _
        · exact (blind_scanMatching _ _).bind fun _ => blind_printOrdered _ _
      · split
        · exact blind_pure _
        · apply (blind_scanMatching _ _).bind
          intro rc
          split
          · exact blind_pure _
          · exact blind_printOrdered _ _
  · exact fun _ _ _ => rfl

theorem blind_execTableScan : Blind (execTableScan env stmt) := by
  apply blind_bind_get
  · intro st
    dsimp only
    split
    · split
      · exact blind_pure _
      · exact (blind_scanMatching _ _).bind fun _ => blind_pure _
    · split
      · exact blind_pure _
      · split
        · exact blind_execOrderedScan
        · exact (blind_scanMatching _ _).bind fun _ => blind_pure _
  · exact fun _ _ _ => rfl

/-! ## Writing -/

theorem blind_takeNextId : Blind takeNextId :=
  blind_bind_get (fun _ => (blind_guard _).bind fun _ => (blind_setHeader _).bind fun _ =>
    blind_pure _) fun _ _ _ => rfl

theorem blind_incrementRowCount : Blind incrementRowCount :=
  blind_modify fun _ _ _ => ⟨_, _, rfl⟩

theorem blind_decrementRowCount : Blind decrementRowCount :=
  blind_modify fun _ _ _ => ⟨_, _, rfl⟩

theorem blind_execIndexDelete : Blind (execIndexDelete stmt) := by
  apply (blind_bptreeSearch _).bind
  intro found
  cases found with
  | none => exact blind_pure _
  | some ref =>
    exact (blind_heapDelete _).bind fun _ => (blind_bptreeDelete _).bind fun _ =>
      blind_decrementRowCount.bind fun _ => blind_pure _

theorem blind_deleteRow (ref : RowRef) (id : Nat) : Blind (deleteRow ref id) := by
  apply (blind_heapDelete ref).bind
  intro rc
  split
  · exact (blind_bptreeDelete _).bind fun _ => blind_pure _
  · exact blind_pure _

theorem blind_deleteLocked (ids : List Nat) : Blind (deleteLocked hdr stmt ids) := by
  induction ids with
  | nil => exact blind_pure _
  | cons id ids ih =>
    rw [deleteLocked]
    apply (blind_fetchMatchingRowById id).bind
    intro found
    cases found with
    | none => exact ih
    | some p =>
      apply (blind_deleteRow _ _).bind
      intro gone
      split
      · exact blind_decrementRowCount.bind fun _ => ih.bind fun _ => blind_pure _
      · exact ih

theorem blind_execDeleteScan : Blind (execDeleteScan env stmt) := by
  apply (blind_scanMatching _ _).bind
  intro dc
  split
  · exact blind_pure _
  · split
    · exact blind_pure _
    · apply blind_bind_get
      · exact fun _ => (blind_deleteLocked _).bind fun _ => blind_pure _
      · exact fun _ _ _ => rfl

theorem blind_overwriteRow (ref : RowRef) (row : List UInt8) : Blind (overwriteRow ref row) := by
  apply (blind_pagerGetPageWlatch _).bind
  intro _
  apply (blind_readHeap _).bind
  intro hph
  exact (blind_orUndefined _).bind fun _ => (blind_orUndefined _).bind fun _ =>
    (blind_writePage _ _).bind fun _ => (blind_pagerMarkDirty _).bind fun _ =>
      blind_pagerUnlatchW _

theorem blind_updateRow (colIdx : Nat) (ref : RowRef) (values : RowValues) :
    Blind (updateRow hdr stmt colIdx ref values) :=
  (blind_orUndefined _).bind fun _ => (blind_orUndefined _).bind fun _ => blind_overwriteRow _ _

theorem blind_execIndexUpdate : Blind (execIndexUpdate stmt) := by
  apply blind_bind_get
  · intro st
    dsimp only
    split
    · exact blind_pure _
    · apply (blind_bptreeSearch _).bind
      intro found
      cases found with
      | none => exact blind_pure _
      | some ref =>
        apply (blind_heapFetch _ _).bind
        intro row
        cases row with
        | none => exact blind_pure _
        | some row =>
          exact (blind_orUndefined _).bind fun _ => (blind_pagerUnlatchR _).bind fun _ =>
            (blind_updateRow _ _ _).bind fun _ => blind_pure _
  · exact fun _ _ _ => rfl

theorem blind_updateLocked (colIdx : Nat) (ids : List Nat) :
    Blind (updateLocked hdr stmt colIdx ids) := by
  induction ids with
  | nil => exact blind_pure _
  | cons id ids ih =>
    rw [updateLocked]
    apply (blind_fetchMatchingRowById id).bind
    intro found
    cases found with
    | none => exact ih
    | some p => exact (blind_updateRow _ _ _).bind fun _ => ih.bind fun _ => blind_pure _

theorem blind_execUpdateScan : Blind (execUpdateScan env stmt) := by
  apply blind_bind_get
  · intro st
    dsimp only
    split
    · exact blind_pure _
    · apply (blind_scanMatching _ _).bind
      intro uc
      split
      · exact blind_pure _
      · split
        · exact blind_pure _
        · exact (blind_updateLocked _ _).bind fun _ => blind_pure _
  · exact fun _ _ _ => rfl

end

end MiniDb
