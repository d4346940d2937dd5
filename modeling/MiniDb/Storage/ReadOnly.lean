import MiniDb.Lib.Runs
import MiniDb.Storage.Bptree.RangeScan
import MiniDb.Storage.Heap.Operations

/-! # Lookups and scans change nothing

A lookup or a scan latches pages, reads them and lets them go. Whatever state it starts in, it
leaves nothing behind but its trace. -/

set_option autoImplicit false

namespace MiniDb

open Lib

instance : IsPreorder Pager Pager.SameData where
  refl _ := .refl
  trans _ _ _ h h' := h.trans h'

/-- Every run leaves the data as it was. -/
abbrev ReadOnly {α : Type} (m : PagerM α) : Prop := Keeps Pager.SameData m

section

variable {α γ : Type}

/-! ## Page access -/

theorem readOnly_pagerGetPageRlatch (pid : Nat) : ReadOnly (pagerGetPageRlatch pid) :=
  keeps_modify fun _ => Pager.SameData.log.trans .log

theorem readOnly_pagerUnlatchR (pid : Nat) : ReadOnly (pagerUnlatchR pid) :=
  keeps_modify fun _ => .log

theorem readOnly_readPage (pid : Nat) : ReadOnly (readPage pid) :=
  keeps_get.bind fun _ => keeps_pure

theorem readOnly_readLeaf (pid : Nat) : ReadOnly (readLeaf pid) := by
  apply (readOnly_readPage pid).bind
  intro page
  split
  · exact keeps_pure
  · exact keeps_failure

theorem readOnly_readHeap (pid : Nat) : ReadOnly (readHeap pid) := by
  apply (readOnly_readPage pid).bind
  intro page
  split
  · exact keeps_pure
  · exact keeps_failure

theorem readOnly_rootId : ReadOnly rootId :=
  keeps_get.bind fun _ => keeps_pure

/-! ## The index -/

theorem readOnly_findLeafRlatchLoop (key fuel pid : Nat) :
    ReadOnly (findLeafRlatchLoop key fuel pid) := by
  induction fuel generalizing pid with
  | zero => exact keeps_failure
  | succ fuel ih =>
    rw [findLeafRlatchLoop]
    apply (readOnly_readPage pid).bind
    intro page
    split
    · exact keeps_pure
    · split
      · exact (readOnly_pagerGetPageRlatch _).bind fun _ =>
          (readOnly_pagerUnlatchR _).bind fun _ => ih _
      · exact keeps_failure
    · exact keeps_failure

theorem readOnly_findLeafRlatch (key : Nat) : ReadOnly (findLeafRlatch key) :=
  readOnly_rootId.bind fun _ => (readOnly_pagerGetPageRlatch _).bind fun _ =>
    keeps_get.bind fun _ => readOnly_findLeafRlatchLoop _ _ _

theorem readOnly_bptreeSearch (key : Nat) : ReadOnly (bptreeSearch key) :=
  (readOnly_findLeafRlatch key).bind fun _ => (readOnly_readLeaf _).bind fun _ =>
    (readOnly_pagerUnlatchR _).bind fun _ => keeps_pure

theorem readOnly_findLeftmostLeafRlatchLoop (fuel pid : Nat) :
    ReadOnly (findLeftmostLeafRlatchLoop fuel pid) := by
  induction fuel generalizing pid with
  | zero => exact keeps_failure
  | succ fuel ih =>
    rw [findLeftmostLeafRlatchLoop]
    apply (readOnly_readPage pid).bind
    intro page
    split
    · exact keeps_pure
    · exact (readOnly_pagerGetPageRlatch _).bind fun _ =>
        (readOnly_pagerUnlatchR _).bind fun _ => ih _
    · exact keeps_failure

theorem readOnly_findStartLeafRlatch (r : KeyRange) : ReadOnly (findStartLeafRlatch r) := by
  unfold findStartLeafRlatch
  split
  · exact readOnly_findLeafRlatch _
  · exact readOnly_rootId.bind fun _ => (readOnly_pagerGetPageRlatch _).bind fun _ =>
      keeps_get.bind fun _ => readOnly_findLeftmostLeafRlatchLoop _ _

theorem readOnly_rangeScanLoop (r : KeyRange) (cb : RangeCallback γ) (fuel pid : Nat)
    (lph : LeafPage) (entries : List (Nat × RowRef)) (ctx : γ) :
    ReadOnly (rangeScanLoop r cb fuel pid lph entries ctx) := by
  induction fuel generalizing pid lph entries ctx with
  | zero => exact keeps_failure
  | succ fuel ih =>
    rw [rangeScanLoop]
    split
    · exact (readOnly_pagerUnlatchR _).bind fun _ => keeps_pure
    · dsimp only
      split
      · exact (readOnly_pagerUnlatchR _).bind fun _ => keeps_pure
      · exact (readOnly_pagerGetPageRlatch _).bind fun _ => (readOnly_pagerUnlatchR _).bind
          fun _ => (readOnly_readLeaf _).bind fun _ => ih _ _ _ _

theorem readOnly_bptreeRangeScan (r : KeyRange) (cb : RangeCallback γ) (ctx : γ) :
    ReadOnly (bptreeRangeScan r cb ctx) :=
  (readOnly_findStartLeafRlatch r).bind fun _ => (readOnly_readLeaf _).bind fun _ =>
    keeps_get.bind fun _ => readOnly_rangeScanLoop _ _ _ _ _ _ _

/-! ## The heap -/

theorem readOnly_heapFetch (ref : RowRef) (rowSize : Nat) : ReadOnly (heapFetch ref rowSize) := by
  apply (readOnly_pagerGetPageRlatch _).bind
  intro _
  apply (readOnly_readHeap _).bind
  intro hph
  split
  · split
    · split
      · exact keeps_pure
      · exact keeps_failure
    · exact (readOnly_pagerUnlatchR _).bind fun _ => keeps_pure
  · exact keeps_failure

theorem readOnly_scanSlots (pid rowSize : Nat) (cb : ScanCallback γ) (n i : Nat) (ctx : γ) :
    ReadOnly (scanSlots pid rowSize cb n i ctx) := by
  induction n generalizing i ctx with
  | zero => exact keeps_pure
  | succ n ih =>
    apply (readOnly_pagerGetPageRlatch _).bind
    intro _
    apply (readOnly_readHeap _).bind
    intro hph
    split
    · split
      · split
        · split <;> apply (readOnly_pagerUnlatchR _).bind <;> intro _
          · exact keeps_pure
          · exact ih _ _
        · exact keeps_failure
      · exact (readOnly_pagerUnlatchR _).bind fun _ => ih _ _
    · exact keeps_failure

theorem readOnly_scanPage (malloc : Nat → Nat → Bool) (rowSize : Nat) (cb : ScanCallback γ)
    (pid : Nat) (ctx : γ) : ReadOnly (scanPage malloc rowSize cb pid ctx) := by
  apply (readOnly_pagerGetPageRlatch _).bind
  intro _
  apply (readOnly_readHeap _).bind
  intro hph
  dsimp only
  split
  · split
    · exact (readOnly_pagerUnlatchR _).bind fun _ => keeps_pure
    · exact keeps_failure
  · apply (readOnly_pagerUnlatchR _).bind
    intro _
    exact (readOnly_scanSlots _ _ _ _ _ _).bind fun _ => keeps_pure

theorem readOnly_heapScan (malloc : Nat → Nat → Bool) (rowSize : Nat) (cb : ScanCallback γ)
    (ctx : γ) : ReadOnly (heapScan malloc rowSize cb ctx) := by
  have hpages : ∀ fuel pid ctx, ReadOnly (scanPages malloc rowSize cb fuel pid ctx) := by
    intro fuel
    induction fuel with
    | zero => exact fun _ _ => keeps_failure
    | succ fuel ih =>
      intro pid ctx
      rw [scanPages]
      split
      · exact keeps_pure
      · apply (readOnly_scanPage _ _ _ _ _).bind
        rintro ⟨⟨_ | _, ctx'⟩, next⟩
        · exact keeps_pure
        · exact ih _ _
  exact keeps_get.bind fun _ => hpages _ _ _

end

end MiniDb
