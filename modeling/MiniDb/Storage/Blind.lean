import MiniDb.Lib.Runs
import MiniDb.Storage.Heap.Chain

/-! # Programs that do not look at the hint

`heap_may_have_free_slots` is read in one place only, in front of the walk along the heap chain. All
other code is *blind*: from files that differ in the hint alone (and in the trace, which nobody
reads) it has the same outcome and leaves such files again. -/

set_option autoImplicit false

namespace MiniDb

open Lib

/-- The program has the same outcome whatever the hint. -/
abbrev Blind {α : Type} (m : PagerM α) : Prop := Agrees Pager.SameRows m m

section

variable {α β : Type} {st : Pager}

theorem Pager.SameRows.refl (st : Pager) : st.SameRows st := ⟨_, _, rfl⟩

theorem Pager.SameRows.symm {st' : Pager} (h : st.SameRows st') : st'.SameRows st := by
  obtain ⟨t, b, rfl⟩ := h
  exact ⟨_, _, rfl⟩

theorem blind_failure : Blind (failure : PagerM α) := agrees_failure

theorem blind_pure (a : α) : Blind (pure a : PagerM α) := agrees_pure

/-- A read of the state of which the rest does not see the hint. -/
theorem blind_bind_get {k : Pager → PagerM α} (hk : ∀ st, Blind (k st))
    (hsame : ∀ (st : Pager) t b, k { st with trace := t, heapMayHaveFreeSlots := b } = k st) :
    Blind (get >>= k) := by
  apply agrees_bind_get
  rintro st _ ⟨t, b, rfl⟩
  rw [hsame st t b]
  exact hk st

theorem blind_modify {g : Pager → Pager}
    (h : ∀ (st : Pager) t b, (g st).SameRows
      (g { st with trace := t, heapMayHaveFreeSlots := b })) :
    Blind (modify g) := by
  apply agrees_modify
  rintro st _ ⟨t, b, rfl⟩
  exact h st t b

/-! ## Page access -/

theorem blind_log (e : PagerEvent) : Blind (modify (·.log e)) :=
  blind_modify fun _ _ _ => ⟨_, _, rfl⟩

theorem blind_pagerGetPage (pid : Nat) : Blind (pagerGetPage pid) := blind_log _

theorem blind_pagerUnpin (pid : Nat) : Blind (pagerUnpin pid) := blind_log _

theorem blind_pagerMarkDirty (pid : Nat) : Blind (pagerMarkDirty pid) := blind_log _

theorem blind_pagerUnlatchR (pid : Nat) : Blind (pagerUnlatchR pid) := blind_log _

theorem blind_pagerUnlatchW (pid : Nat) : Blind (pagerUnlatchW pid) := blind_log _

theorem blind_pagerGetPageRlatch (pid : Nat) : Blind (pagerGetPageRlatch pid) :=
  blind_modify fun _ _ _ => ⟨_, _, rfl⟩

theorem blind_pagerGetPageWlatch (pid : Nat) : Blind (pagerGetPageWlatch pid) :=
  blind_modify fun _ _ _ => ⟨_, _, rfl⟩

theorem blind_readPage (pid : Nat) : Blind (readPage pid) :=
  blind_bind_get (fun _ => blind_pure _) fun _ _ _ => rfl

theorem blind_writePage (pid : Nat) (page : Page) : Blind (writePage pid page) :=
  blind_modify fun _ _ _ => ⟨_, _, rfl⟩

theorem blind_setHeader (hdr : DbHeader) : Blind (modify (·.setHeader hdr)) :=
  blind_modify fun _ _ _ => ⟨_, _, rfl⟩

theorem blind_guard (p : Prop) [Decidable p] : Blind (guard p : PagerM Unit) := by
  unfold guard
  split
  · exact blind_pure _
  · exact blind_failure

theorem blind_readHeap (pid : Nat) : Blind (readHeap pid) := by
  apply (blind_readPage pid).bind
  intro page
  split
  · exact blind_pure _
  · exact blind_failure

/-! ## Allocation -/

theorem blind_pagerAllocPage : Blind pagerAllocPage := by
  apply blind_bind_get
  · intro st
    dsimp only
    split
    · apply (blind_pagerGetPage _).bind
      intro _
      apply (blind_readPage _).bind
      intro page
      split
      · exact (blind_setHeader _).bind fun _ => (blind_writePage _ _).bind fun _ =>
          (blind_pagerMarkDirty _).bind fun _ => (blind_pagerUnpin _).bind fun _ => blind_pure _
      · exact blind_failure
    · exact (blind_guard _).bind fun _ => (blind_setHeader _).bind fun _ =>
        (blind_pagerGetPage _).bind fun _ => (blind_writePage _ _).bind fun _ =>
          (blind_pagerMarkDirty _).bind fun _ => (blind_pagerUnpin _).bind fun _ => blind_pure _
  · exact fun _ _ _ => rfl

theorem blind_pagerFreePage (pid : Nat) : Blind (pagerFreePage pid) := by
  apply (blind_pagerGetPage pid).bind
  intro _
  apply blind_bind_get
  · intro st
    exact (blind_writePage _ _).bind fun _ => (blind_pagerMarkDirty _).bind fun _ =>
      (blind_pagerUnpin _).bind fun _ => blind_setHeader _
  · exact fun _ _ _ => rfl

/-! ## The heap -/

theorem blind_linkHeapPage (prevPid pid : Nat) : Blind (linkHeapPage prevPid pid) := by
  unfold linkHeapPage
  split
  · exact (blind_pagerGetPageWlatch _).bind fun _ => (blind_readHeap _).bind fun _ =>
      (blind_writePage _ _).bind fun _ => (blind_pagerMarkDirty _).bind fun _ =>
        blind_pagerUnlatchW _
  · exact blind_pure _

theorem blind_appendHeapPage : Blind appendHeapPage := by
  apply blind_pagerAllocPage.bind
  intro pid
  apply (blind_pagerGetPageWlatch _).bind
  intro _
  apply blind_bind_get
  · intro st
    apply (blind_writePage _ _).bind
    intro _
    apply (blind_pagerMarkDirty _).bind
    intro _
    apply (blind_pagerUnlatchW _).bind
    intro _
    apply blind_bind_get
    · intro st
      exact (blind_linkHeapPage _ _).bind fun _ =>
        (blind_modify fun _ _ _ => ⟨_, _, rfl⟩).bind fun _ => blind_pure _
    · exact fun _ _ _ => rfl
  · exact fun _ _ _ => rfl

theorem blind_retryInsert (rowData : List UInt8) (rounds pid : Nat) :
    Blind (retryInsert rowData rounds pid) := by
  induction rounds generalizing pid with
  | zero => exact blind_failure
  | succ rounds ih =>
    rw [retryInsert]
    apply (blind_pagerGetPageWlatch _).bind
    intro _
    apply (blind_readHeap _).bind
    intro hph
    apply blind_bind_get
    · intro st
      dsimp only
      split
      · exact (blind_pagerUnlatchW _).bind fun _ => blind_appendHeapPage.bind fun _ => ih _
      · split
        · exact (blind_writePage _ _).bind fun _ => (blind_pagerMarkDirty _).bind fun _ =>
            (blind_pagerUnlatchW _).bind fun _ => blind_pure _
        · exact blind_failure
    · exact fun _ _ _ => rfl

theorem blind_heapFetch (ref : RowRef) (rowSize : Nat) : Blind (heapFetch ref rowSize) := by
  apply (blind_pagerGetPageRlatch _).bind
  intro _
  apply (blind_readHeap _).bind
  intro hph
  split
  · split
    · split
      · exact blind_pure _
      · exact blind_failure
    · exact (blind_pagerUnlatchR _).bind fun _ => blind_pure _
  · exact blind_failure

theorem blind_heapDelete (ref : RowRef) : Blind (heapDelete ref) := by
  apply (blind_pagerGetPageWlatch _).bind
  intro _
  apply (blind_readHeap _).bind
  intro hph
  split
  · split
    · exact (blind_writePage _ _).bind fun _ => (blind_pagerMarkDirty _).bind fun _ =>
        (blind_pagerUnlatchW _).bind fun _ =>
          (blind_modify fun _ _ _ => ⟨_, _, rfl⟩).bind fun _ => blind_pure _
    · exact (blind_pagerUnlatchW _).bind fun _ => blind_pure _
  · exact blind_failure

end

end MiniDb
