import MiniDb.Storage.Bptree.Pins
import MiniDb.Storage.Heap.Basic

/-! # The pins and latches of the heap operations

What each function of `table.c` takes and gives back. Only a fetch that finds its row keeps something:
the read latch on the page, which its caller gives back. -/

set_option autoImplicit false

namespace MiniDb

open Lib

section

variable {fresh : Set Nat} {L : Ledger} {γ : Type}

theorem pays_readHeap {pid : Nat} : Pays fresh (readHeap pid) L fun _ => L := by
  apply pays_readPage.bind
  intro page
  split
  · exact records_pure rfl
  · exact records_failure

/-! ## Insertion -/

theorem pays_findFreeSlotPage (fuel pid : Nat) :
    Pays fresh (findFreeSlotPage fuel pid) L fun _ => L := by
  induction fuel generalizing pid with
  | zero => exact records_failure
  | succ fuel ih =>
    rw [findFreeSlotPage]
    split
    · refine Records.bind (pays_modify ?_) fun _ => records_pure rfl
      exact fun _ => rfl
    · apply pays_pagerGetPageRlatch.bind
      intro _
      apply pays_readHeap.bind
      intro hph
      apply (pays_pagerUnlatchR rfl).bind
      intro _
      split
      · exact records_pure rfl
      · exact ih _

theorem pays_findReusablePage : Pays fresh findReusablePage L fun _ => L := by
  apply records_get.bind
  intro st
  split
  · exact pays_findFreeSlotPage _ _
  · exact records_pure rfl

theorem pays_findHeapPage (rowSize : Nat) : Pays fresh (findHeapPage rowSize) L fun _ => L := by
  apply records_get.bind
  intro st
  dsimp only
  split
  · apply pays_pagerGetPageRlatch.bind
    intro _
    apply pays_readHeap.bind
    intro hph
    apply (pays_pagerUnlatchR rfl).bind
    intro _
    apply records_get.bind
    intro st₁
    split
    · exact records_pure rfl
    · exact pays_findReusablePage
  · exact pays_findReusablePage

theorem pays_linkHeapPage (prevPid pid : Nat) :
    Pays fresh (linkHeapPage prevPid pid) L fun _ => L := by
  unfold linkHeapPage
  split
  · apply pays_pagerGetPageWlatch.bind
    intro _
    apply pays_readHeap.bind
    intro ph
    apply (pays_writePage (.inl (Multiset.mem_cons_self _ _))).bind
    intro _
    exact pays_pagerMarkDirty.bind fun _ => pays_pagerUnlatchW rfl
  · exact records_pure rfl

theorem balanced_appendHeapPage : Balanced appendHeapPage := by
  intro L
  apply (balanced_pagerAllocPage L).bind
  intro pid
  apply pays_pagerGetPageWlatch.bind
  intro _
  apply records_get.bind
  intro st
  apply (pays_writePage (.inl (Multiset.mem_cons_self _ _))).bind
  intro _
  apply pays_pagerMarkDirty.bind
  intro _
  apply (pays_pagerUnlatchW rfl).bind
  intro _
  apply records_get.bind
  intro st₁
  apply (pays_linkHeapPage _ _).bind
  intro _
  refine Records.bind (pays_modify ?_) fun _ => records_pure rfl
  exact fun _ => rfl

theorem balanced_retryInsert (rowData : List UInt8) (rounds pid : Nat) :
    Balanced (retryInsert rowData rounds pid) := by
  intro L
  induction rounds generalizing pid with
  | zero => exact records_failure
  | succ rounds ih =>
    rw [retryInsert]
    apply pays_pagerGetPageWlatch.bind
    intro _
    apply pays_readHeap.bind
    intro hph
    apply records_get.bind
    intro st
    dsimp only
    split
    · apply (pays_pagerUnlatchW rfl).bind
      intro _
      exact (balanced_appendHeapPage L).bind fun pid' => ih pid'
    · split
      · apply (pays_writePage (.inl (Multiset.mem_cons_self _ _))).bind
        intro _
        apply pays_pagerMarkDirty.bind
        intro _
        exact (pays_pagerUnlatchW rfl).bind fun _ => records_pure rfl
      · exact records_failure

theorem balanced_heapInsert (rounds : Nat) (rowData : List UInt8) :
    Balanced (heapInsert rounds rowData) := by
  intro L
  apply (pays_findHeapPage _).bind
  intro pid
  split
  · exact (balanced_appendHeapPage L).bind fun _ => balanced_retryInsert _ _ _ L
  · exact balanced_retryInsert _ _ _ L

/-! ## Single rows -/

/-- What a fetch keeps: the read latch of the page on which it has found its row. -/
def latchIfFound (pid : Nat) (L : Ledger) : Option (List UInt8) → Ledger
  | some _ => .rlatch pid ::ₘ L
  | none => L

theorem pays_heapFetch (ref : RowRef) (rowSize : Nat) :
    Pays fresh (heapFetch ref rowSize) L (latchIfFound ref.pageId L) := by
  apply pays_pagerGetPageRlatch.bind
  intro _
  apply pays_readHeap.bind
  intro hph
  split
  · split
    · split
      · exact records_pure rfl
      · exact records_failure
    · exact (pays_pagerUnlatchR rfl).bind fun _ => records_pure rfl
  · exact records_failure

theorem pays_heapDelete (ref : RowRef) : Pays fresh (heapDelete ref) L fun _ => L := by
  apply pays_pagerGetPageWlatch.bind
  intro _
  apply pays_readHeap.bind
  intro hph
  split
  · split
    · apply (pays_writePage (.inl (Multiset.mem_cons_self _ _))).bind
      intro _
      apply pays_pagerMarkDirty.bind
      intro _
      apply (pays_pagerUnlatchW rfl).bind
      intro _
      refine Records.bind (pays_modify ?_) fun _ => records_pure rfl
      exact fun _ => rfl
    · exact (pays_pagerUnlatchW rfl).bind fun _ => records_pure rfl
  · exact records_failure

/-! ## Scan -/

theorem pays_scanSlots (pid rowSize : Nat) (cb : ScanCallback γ) (n i : Nat) (ctx : γ) :
    Pays fresh (scanSlots pid rowSize cb n i ctx) L fun _ => L := by
  induction n generalizing i ctx with
  | zero => exact records_pure rfl
  | succ n ih =>
    apply pays_pagerGetPageRlatch.bind
    intro _
    apply pays_readHeap.bind
    intro hph
    split
    · split
      · split
        · -- the callback runs under the latch, and either way the latch is given back
          split <;> apply (pays_pagerUnlatchR rfl).bind <;> intro _
          · exact records_pure rfl
          · exact ih _ _
        · exact records_failure
      · exact (pays_pagerUnlatchR rfl).bind fun _ => ih _ _
    · exact records_failure

theorem pays_scanPage (malloc : Nat → Nat → Bool) (rowSize : Nat) (cb : ScanCallback γ) (pid : Nat)
    (ctx : γ) : Pays fresh (scanPage malloc rowSize cb pid ctx) L fun _ => L := by
  apply pays_pagerGetPageRlatch.bind
  intro _
  apply pays_readHeap.bind
  intro hph
  dsimp only
  split
  · split
    · exact (pays_pagerUnlatchR rfl).bind fun _ => records_pure rfl
    · exact records_failure
  · apply (pays_pagerUnlatchR rfl).bind
    intro _
    exact (pays_scanSlots _ _ _ _ _ _).bind fun _ => records_pure rfl

/-- A scan holds one latch at a time. -/
theorem pays_heapScan (malloc : Nat → Nat → Bool) (rowSize : Nat) (cb : ScanCallback γ) (ctx : γ) :
    Pays fresh (heapScan malloc rowSize cb ctx) L fun _ => L := by
  have hpages : ∀ fuel pid ctx,
      Pays fresh (scanPages malloc rowSize cb fuel pid ctx) L fun _ => L := by
    intro fuel
    induction fuel with
    | zero => exact fun _ _ => records_failure
    | succ fuel ih =>
      intro pid ctx
      rw [scanPages]
      split
      · exact records_pure rfl
      · apply (pays_scanPage _ _ _ _ _).bind
        rintro ⟨⟨_ | _, ctx'⟩, next⟩
        · exact records_pure rfl
        · exact ih _ _
  exact records_get.bind fun _ => hpages _ _ _

end

end MiniDb
