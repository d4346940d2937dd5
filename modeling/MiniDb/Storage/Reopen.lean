import MiniDb.Storage.Blind

/-! # Closing and opening a file

`pager_close` writes all pages and the header back. `pager_open` reads the header and walks the heap
chain once, to find the last heap page and to learn whether any page has a free slot. -/

set_option autoImplicit false

namespace MiniDb

open Lib

/-- The walk of `pager_open` along the heap chain. -/
def restoreHeapTail : Nat → Nat → PagerM Unit
  | 0, _ => failure
  | fuel + 1, pid => do
    if pid = 0 then
      return ()
    else
      pagerGetPage pid
      let hph ← readHeap pid
      pagerUnpin pid
      modify fun st => { st with
        heapMayHaveFreeSlots :=
          if hph.freeSlotHead ≠ slotNone then true else st.heapMayHaveFreeSlots
        lastHeapPageId := pid }
      restoreHeapTail fuel hph.nextHeapPageId

/-- `pager_close`, then `pager_open` of the same file. -/
def pagerReopen : PagerM Unit := do
  let header := (← get).header
  modify ({ · with
    lastHeapPageId := header.firstHeapPageId
    heapMayHaveFreeSlots := false })
  restoreHeapTail header.nextPageId header.firstHeapPageId

/-- The hint after a walk along these pages. -/
def HeapChain.mayHaveFreeSlots (chain : HeapChain) (hint : Bool) : Bool :=
  hint || chain.any fun n => n.2.freeSlotHead ≠ slotNone

/-- The walk ends at the last page of the chain and has seen all free slots. -/
theorem restoreHeapTail_spec {st : Pager} {chain : HeapChain} {head fuel : Nat}
    (hpages : ∀ n ∈ chain, st.pages n.1 = .heap n.2) (hne : ∀ p ∈ chain.pids, p ≠ 0)
    (hlinks : HeapLinks head chain) (hfuel : chain.length < fuel) :
    ∃ t, (restoreHeapTail fuel head).run st = some ((), { st with
      trace := t
      lastHeapPageId := chain.pids.getLast?.getD st.lastHeapPageId
      heapMayHaveFreeSlots := chain.mayHaveFreeSlots st.heapMayHaveFreeSlots }) := by
  induction chain generalizing head st fuel with
  | nil =>
    obtain ⟨fuel, rfl⟩ : ∃ f, fuel = f + 1 := ⟨fuel - 1, by simp at hfuel; omega⟩
    obtain rfl : head = 0 := hlinks
    refine ⟨st.trace, ?_⟩
    rw [restoreHeapTail, if_pos rfl]
    simp [HeapChain.mayHaveFreeSlots]
  | cons n chain ih =>
    obtain ⟨fuel, rfl⟩ : ∃ f, fuel = f + 1 := ⟨fuel - 1, by simp at hfuel; omega⟩
    obtain ⟨rfl, hrest⟩ := hlinks
    set st₁ : Pager := { (st.log (.get n.1)).log (.unpin n.1) with
      heapMayHaveFreeSlots :=
        if n.2.freeSlotHead ≠ slotNone then true else st.heapMayHaveFreeSlots
      lastHeapPageId := n.1 } with hst₁
    obtain ⟨t, hrun⟩ := @ih st₁ n.2.nextHeapPageId fuel
      (fun m hm => hpages m (List.mem_cons_of_mem _ hm))
      (fun p hp => hne p (List.mem_cons_of_mem _ hp)) hrest (by simp at hfuel; omega)
    refine ⟨t, ?_⟩
    have hread : (readHeap n.1).run (st.log (.get n.1)) = some (n.2, st.log (.get n.1)) :=
      run_readHeap (hpages n List.mem_cons_self)
    rw [restoreHeapTail, if_neg (hne n.1 List.mem_cons_self), run_bind_of run_pagerGetPage,
      run_bind_of hread, run_bind_of run_pagerUnpin, run_bind_of (StateT.run_modify _ _)]
    refine hrun.trans ?_
    have hlast : (HeapChain.pids (n :: chain)).getLast?.getD st.lastHeapPageId =
        (HeapChain.pids chain).getLast?.getD n.1 := by
      rw [HeapChain.pids_cons, List.getLast?_cons, Option.getD_some]
    have hhint : HeapChain.mayHaveFreeSlots (n :: chain) st.heapMayHaveFreeSlots =
        HeapChain.mayHaveFreeSlots chain st₁.heapMayHaveFreeSlots := by
      simp only [HeapChain.mayHaveFreeSlots, List.any_cons, hst₁]
      by_cases hslot : n.2.freeSlotHead = slotNone <;> simp [hslot]
    rw [hlast, hhint]
    rfl

/-- Opening a file again finds the last heap page, and whether there are free slots. -/
theorem ChainAt.reopen {st : Pager} {free : List Nat} {chain : HeapChain}
    (h : ChainAt st free chain) :
    ∃ t, pagerReopen.run st = some ((), { st with
      trace := t
      heapMayHaveFreeSlots := chain.mayHaveFreeSlots false }) := by
  set st₁ : Pager := { st with
    lastHeapPageId := st.header.firstHeapPageId
    heapMayHaveFreeSlots := false } with hst₁
  obtain ⟨t, hrun⟩ := @restoreHeapTail_spec st₁ _ _ _ h.pages h.ne_zero h.links h.length_lt
  refine ⟨t, ?_⟩
  rw [pagerReopen, run_bind_get]
  refine hrun.trans ?_
  rw [h.last]
  rfl

theorem blind_restoreHeapTail (fuel pid : Nat) : Blind (restoreHeapTail fuel pid) := by
  induction fuel generalizing pid with
  | zero => exact blind_failure
  | succ fuel ih =>
    rw [restoreHeapTail]
    split
    · exact blind_pure _
    · apply (blind_pagerGetPage pid).bind
      intro _
      apply (blind_readHeap pid).bind
      intro hph
      apply (blind_pagerUnpin pid).bind
      intro _
      apply (blind_modify fun _ _ _ => ⟨_, _, rfl⟩).bind
      intro _
      exact ih _

theorem blind_pagerReopen : Blind pagerReopen := by
  apply blind_bind_get
  · intro st
    apply (blind_modify fun _ _ _ => ⟨_, _, rfl⟩).bind
    intro _
    exact blind_restoreHeapTail _ _
  · exact fun _ _ _ => rfl

end MiniDb
