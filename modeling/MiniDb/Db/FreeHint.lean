import MiniDb.Db.DropTable
import MiniDb.Storage.Heap.FreeHint

/-! # The hint over whole runs

A file is created, rows are inserted and deleted, the table is dropped, the file is closed and
opened again. The build that trusts `heap_may_have_free_slots` and the build that always walks the
chain give the same replies, so every row is at the same place in both. -/

set_option autoImplicit false

namespace MiniDb

open Lib

/-- What can be done with the heap. -/
inductive HeapCall
  | insert (rounds : Nat) (row : List UInt8)
  | delete (ref : RowRef)
  | createTable (stmt : Statement)
  | dropTable (stmt : Statement)
  | reopen

/-- What is returned. -/
inductive HeapReply
  | placed (ref : RowRef)
  | status (rc : Int)
  | result (res : ExecResult)
  | reopened

/-- The calls over a version of `heap_insert`. -/
def HeapCall.execWith (heapInsert : Nat → List UInt8 → PagerM RowRef) : HeapCall → PagerM HeapReply
  | .insert rounds row => .placed <$> heapInsert rounds row
  | .delete ref => .status <$> heapDelete ref
  | .createTable stmt => .result <$> execCreateTable stmt
  | .dropTable stmt => .result <$> execDropTable stmt
  | .reopen => do
    pagerReopen
    return .reopened

/-- The default build. -/
def HeapCall.exec : HeapCall → PagerM HeapReply := HeapCall.execWith heapInsert

/-- The build with `MINIDB_DISABLE_FREE_HINT`. -/
def HeapCall.execNoHint : HeapCall → PagerM HeapReply := HeapCall.execWith heapInsertNoHint

/-! ## The statements that replace the table -/

section Table

variable {st st' : Pager} {res : ExecResult} {stmt : Statement} {α : Type}

theorem blind_orUndefined (o : Option α) : Blind (orUndefined o) := by
  cases o with
  | none => exact blind_failure
  | some a => exact blind_pure a

theorem blind_execCreateTable (stmt : Statement) : Blind (execCreateTable stmt) := by
  apply blind_bind_get
  · intro st
    dsimp only
    split
    · exact blind_pure _
    · apply (blind_orUndefined _).bind
      intro columns
      exact (blind_setHeader _).bind fun _ => blind_pure _
  · exact fun _ _ _ => rfl

theorem blind_freePages (pids : List Nat) : Blind (freePages pids) := by
  induction pids with
  | nil => exact blind_pure _
  | cons pid pids ih =>
    apply (blind_pagerGetPage pid).bind
    intro _
    apply (blind_readPage pid).bind
    intro page
    apply (blind_pagerUnpin pid).bind
    intro _
    split
    · exact ih
    · exact (blind_pagerFreePage pid).bind fun _ => ih

theorem blind_allocPageWith (page : Nat → Page) : Blind (allocPageWith page) := by
  apply blind_pagerAllocPage.bind
  intro pid
  apply (blind_pagerGetPage pid).bind
  intro _
  apply blind_bind_get
  · intro st
    exact (blind_writePage _ _).bind fun _ => (blind_pagerMarkDirty _).bind fun _ =>
      (blind_pagerUnpin _).bind fun _ => blind_pure _
  · exact fun _ _ _ => rfl

theorem blind_execDropTable (stmt : Statement) : Blind (execDropTable stmt) := by
  apply blind_bind_get
  · intro st
    dsimp only
    split
    · exact blind_pure _
    · apply (blind_freePages _).bind
      intro _
      apply (blind_allocPageWith _).bind
      intro newHeap
      apply (blind_allocPageWith _).bind
      intro newRoot
      exact (blind_modify fun _ _ _ => ⟨_, _, rfl⟩).bind fun _ => blind_pure _
  · exact fun _ _ _ => rfl

/-- A new schema leaves the pages alone. -/
theorem SlotsHinted.execCreateTable (h : SlotsHinted st)
    (hrun : (execCreateTable stmt).run st = some (res, st')) : SlotsHinted st' := by
  rw [MiniDb.execCreateTable, run_bind_get] at hrun
  dsimp only at hrun
  split at hrun
  · obtain ⟨-, rfl⟩ := run_pure_eq_some.mp hrun
    exact h
  · obtain ⟨columns, st₁, hcols, hrun⟩ := run_bind_eq_some.mp hrun
    obtain ⟨-, rfl⟩ := orUndefined_eq_some hcols
    obtain ⟨u, st₂, hmod, hdone⟩ := run_bind_eq_some.mp hrun
    obtain rfl := run_modify_eq_some.mp hmod
    obtain ⟨-, rfl⟩ := run_pure_eq_some.mp hdone
    exact h.setSchema _ _

/-- Two fresh pages take the place of all others. -/
theorem SlotsHinted.execDropTable (h : SlotsHinted st)
    (hrun : (execDropTable stmt).run st = some (res, st')) : SlotsHinted st' := by
  rw [MiniDb.execDropTable, run_bind_get] at hrun
  dsimp only at hrun
  split at hrun
  · obtain ⟨-, rfl⟩ := run_pure_eq_some.mp hrun
    exact h
  obtain ⟨free, chain, hchain⟩ := h
  have hmem : ∀ p, p ∈ List.range' 1 (st.header.nextPageId - 1) ↔
      p ≠ 0 ∧ p < st.header.nextPageId := by
    intro p
    rw [List.mem_range'_1]
    have := hchain.freeList.pos
    omega
  obtain ⟨st₁, free₁, hfreed, hrel⟩ := freePages_spec hchain.freeList List.nodup_range'
    (fun p hp => (hmem p).mp hp)
    (fun p hp hnot => hchain.unmarked p ⟨((hmem p).mp hp).1, ((hmem p).mp hp).2, hnot⟩)
  rw [run_bind_of hfreed] at hrun
  obtain ⟨heap, st₂, hheap, hrun⟩ := run_bind_eq_some.mp hrun
  obtain ⟨root, st₃, hroot, hrun⟩ := run_bind_eq_some.mp hrun
  obtain ⟨free₂, hfree₂, -, hheld₂, hpages₂, -, -⟩ := allocPageWith_spec hrel.freeList hheap
  obtain ⟨free₃, hfree₃, hnew, hheld₃, hpages₃, -, -⟩ := allocPageWith_spec hfree₂ hroot
  obtain ⟨u, st₄, hmod, hdone⟩ := run_bind_eq_some.mp hrun
  obtain rfl := run_modify_eq_some.mp hmod
  obtain ⟨-, rfl⟩ := run_pure_eq_some.mp hdone
  -- only the two fresh pages are held
  have hnone : ∀ p, ¬ st₁.Held free₁ p := by
    intro p hp
    obtain ⟨hheld, hnot⟩ := (hrel.held p).mp hp
    exact hnot ((hmem p).mpr ⟨hheld.1, hheld.2.1⟩)
  have hheld : ∀ p, st₃.Held free₃ p ↔ p = heap ∨ p = root := by
    intro p
    rw [hheld₃, hheld₂, or_iff_right (hnone p)]
  have hne : heap ≠ root := fun heq => hnew ((hheld₂ root).mpr (.inr heq.symm))
  have hheapPage : st₃.pages heap = emptyHeapPage st₁.pageSize := by
    rw [hpages₃, Function.update_of_ne hne, hpages₂, Function.update_self]
  have hrootPage : st₃.pages root = emptyLeafPage := by
    rw [hpages₃, Function.update_self]
  refine ⟨free₃, [(heap, ⟨0, slotNone, 0, [], List.replicate st₁.pageSize 0⟩)], ⟨?_, ?_, ?_, ?_, ?_,
    ?_⟩, ?_, ?_, ?_⟩
  · exact hfree₃.congr (fun _ _ => rfl) rfl rfl
  · intro n hn
    obtain rfl := List.mem_singleton.mp hn
    exact hheapPage
  · exact ⟨rfl, rfl⟩
  · rfl
  · exact List.nodup_singleton heap
  · intro p hp
    obtain rfl := List.mem_singleton.mp hp
    exact (hheld p).mpr (.inl rfl)
  · intro p hp next
    show st₃.pages p ≠ .free next
    rcases (hheld p).mp hp with rfl | rfl
    · rw [hheapPage]
      exact Page.noConfusion
    · rw [hrootPage]
      exact Page.noConfusion
  · intro n hn
    obtain rfl := List.mem_singleton.mp hn
    exact ⟨[], threaded_empty _ _ _⟩
  · intro _ n hn
    obtain rfl := List.mem_singleton.mp hn
    rfl

end Table

/-! ## Runs -/

/-- A fresh file has one empty heap page. -/
theorem slotsHinted_create (pageSize : Nat) : SlotsHinted (pagerOpenCreate pageSize) := by
  have hheld : ∀ p, (pagerOpenCreate pageSize).Held [] p ↔ p = 1 ∨ p = 2 := by
    intro p
    simp only [Pager.Held, pagerOpenCreate, List.not_mem_nil, not_false_eq_true, and_true]
    omega
  refine ⟨[], [(1, ⟨0, slotNone, 0, [], List.replicate pageSize 0⟩)], ⟨?_, ?_, ?_, ?_, ?_, ?_⟩, ?_,
    ?_, ?_⟩
  · exact ⟨rfl, List.nodup_nil, fun _ hp => absurd hp List.not_mem_nil, Nat.succ_pos _⟩
  · intro n hn
    obtain rfl := List.mem_singleton.mp hn
    rfl
  · exact ⟨rfl, rfl⟩
  · rfl
  · exact List.nodup_singleton 1
  · intro p hp
    obtain rfl := List.mem_singleton.mp hp
    exact (hheld 1).mpr (.inl rfl)
  · intro p hp next
    rcases (hheld p).mp hp with rfl | rfl
    · exact Page.noConfusion
    · exact Page.noConfusion
  · intro n hn
    obtain rfl := List.mem_singleton.mp hn
    exact ⟨[], threaded_empty _ _ _⟩
  · intro _ n hn
    obtain rfl := List.mem_singleton.mp hn
    rfl

/-- Both builds answer every call alike, as long as no free slot is hidden by the hint; and then
none is hidden afterwards. -/
theorem heapCall_agrees (call : HeapCall) :
    Agrees (fun st t => SlotsHinted st ∧ st.SameRows t) call.exec call.execNoHint := by
  have hreply : ∀ {α : Type} (f : α → HeapReply) (m m' : PagerM α),
      Agrees (fun st t => SlotsHinted st ∧ st.SameRows t) m m' →
      Agrees (fun st t => SlotsHinted st ∧ st.SameRows t) (f <$> m) (f <$> m') := by
    intro α f m m' hm
    rw [map_eq_pure_bind, map_eq_pure_bind]
    exact hm.bind fun a => agrees_pure
  cases call with
  | insert rounds row => exact hreply _ _ _ (heapInsert_agrees rounds row)
  | delete ref =>
    exact hreply _ _ _ ((blind_heapDelete ref).and fun _ _ _ hs hrun => hs.heapDelete hrun)
  | createTable stmt =>
    exact hreply _ _ _ ((blind_execCreateTable stmt).and fun _ _ _ hs hrun =>
      hs.execCreateTable hrun)
  | dropTable stmt =>
    exact hreply _ _ _ ((blind_execDropTable stmt).and fun _ _ _ hs hrun => hs.execDropTable hrun)
  | reopen =>
    exact (blind_pagerReopen.and fun _ _ _ hs hrun => hs.reopen hrun).bind fun _ => agrees_pure

/-- **The hint only saves walks.** From a fresh file both builds answer every sequence of calls
alike. While the hint is off no page of the chain has a free slot. -/
theorem freeHint_transparent (pageSize : Nat) (calls : List HeapCall) :
    Option.Rel (fun x y => x.1 = y.1)
      ((runAll HeapCall.exec calls).run (pagerOpenCreate pageSize))
      ((runAll HeapCall.execNoHint calls).run (pagerOpenCreate pageSize)) ∧
    ∀ replies st, (runAll HeapCall.exec calls).run (pagerOpenCreate pageSize) =
        some (replies, st) → st.heapMayHaveFreeSlots = false → NoFreeSlot st := by
  have hagrees := Agrees.runAll heapCall_agrees calls
  have hstart : SlotsHinted (pagerOpenCreate pageSize) ∧
      (pagerOpenCreate pageSize).SameRows (pagerOpenCreate pageSize) :=
    ⟨slotsHinted_create pageSize, .refl _⟩
  constructor
  · have hrel := hagrees _ _ hstart
    generalize (runAll HeapCall.exec calls).run (pagerOpenCreate pageSize) = x at hrel ⊢
    generalize (runAll HeapCall.execNoHint calls).run (pagerOpenCreate pageSize) = y at hrel ⊢
    cases hrel with
    | none => exact .none
    | some h => exact .some h.1
  · intro replies st hrun hoff
    obtain ⟨t, -, hend, -⟩ := hagrees.of_run hstart hrun
    exact hend.noFreeSlot hoff

end MiniDb
