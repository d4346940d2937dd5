import MiniDb.Lib.Runs
import MiniDb.Storage.Heap.Operations

/-! # The two ways of scanning a page

`heap_scan` copies the rows of a page and calls back without its latch when there is memory for the
copy. Without memory, and for a page that has no row to copy, it latches the page anew for each slot.
Both visit the same rows. -/

set_option autoImplicit false

namespace MiniDb

open Lib

section Scan

variable {γ : Type} {st : Pager} {free : List Nat} {rowSize pageSize pid : Nat} {chain : HeapChain}
  {hph : HeapPage} {slots : List Nat}

/-- Slot by slot the same rows are visited as in the copy. -/
theorem scanSlots_spec (hpage : st.pages pid = .heap hph) (cb : ScanCallback γ)
    (hread : ∀ s ∈ hph.slots, hph.readRow s.offset rowSize =
      some (slice hph.data s.offset rowSize)) (i : Nat) (rest : List Slot)
    (hrest : hph.slots.drop i = rest) (ctx : γ) :
    ∃ t, (scanSlots pid rowSize cb rest.length i ctx).run st =
      some (visit cb.onRow (liveRows pid (fun off => slice hph.data off rowSize) i rest) ctx,
        { st with trace := t }) := by
  induction rest generalizing st i ctx with
  | nil => exact ⟨st.trace, rfl⟩
  | cons s rest ih =>
    have hs : hph.slots[i]? = some s := by
      have hhead := congrArg List.head? hrest
      rwa [List.head?_drop] at hhead
    have htail : hph.slots.drop (i + 1) = rest := by
      rw [← List.tail_drop, hrest]
      rfl
    have hheap : (readHeap pid).run ((st.log (.get pid)).log (.rlatch pid)) =
        some (hph, (st.log (.get pid)).log (.rlatch pid)) := run_readHeap hpage
    rw [List.length_cons, scanSlots, run_bind_of run_pagerGetPageRlatch, run_bind_of hheap, hs,
      liveRows]
    dsimp only
    by_cases halive : s.status = .alive
    · rw [if_pos halive, if_pos halive, hread s (List.mem_of_getElem? hs), visit]
      have hcb : cb.onRow (⟨pid, i⟩, slice hph.data s.offset rowSize) ctx =
          cb (slice hph.data s.offset rowSize) ⟨pid, i⟩ ctx := rfl
      rw [hcb]
      dsimp only
      rcases cb (slice hph.data s.offset rowSize) ⟨pid, i⟩ ctx with ⟨_ | _, ctx'⟩
      · exact ⟨_, rfl⟩
      · dsimp only
        rw [run_bind_of run_pagerUnlatchR]
        exact @ih (((st.log (.get pid)).log (.rlatch pid)).log (.unlatchR pid)) hpage (i + 1)
          htail ctx'
    · rw [if_neg halive, if_neg halive, run_bind_of run_pagerUnlatchR]
      exact @ih (((st.log (.get pid)).log (.rlatch pid)).log (.unlatchR pid)) hpage (i + 1)
        htail ctx

/-- Both ways visit the rows of the page. -/
theorem scanPage_spec (hpage : st.pages pid = .heap hph) (hlay : hph.Layout pageSize rowSize slots)
    (malloc : Nat → Nat → Bool) (cb : ScanCallback γ) (ctx : γ) :
    ∃ t, (scanPage malloc rowSize cb pid ctx).run st =
      some ((visit cb.onRow (hph.rows pid rowSize) ctx, hph.nextHeapPageId),
        { st with trace := t }) := by
  have hheap : (readHeap pid).run ((st.log (.get pid)).log (.rlatch pid)) =
      some (hph, (st.log (.get pid)).log (.rlatch pid)) := run_readHeap hpage
  rw [scanPage, run_bind_of run_pagerGetPageRlatch, run_bind_of hheap]
  dsimp only
  split
  · rw [hlay.snapshot]
    exact ⟨_, rfl⟩
  · rw [run_bind_of run_pagerUnlatchR]
    have hread : ∀ s ∈ hph.slots, hph.readRow s.offset rowSize =
        some (slice hph.data s.offset rowSize) := by
      intro s hs
      obtain ⟨i, hi⟩ := List.mem_iff_getElem?.mp hs
      exact hlay.readRow hi
    obtain ⟨t, hrun⟩ := @scanSlots_spec γ (((st.log (.get pid)).log (.rlatch pid)).log
      (.unlatchR pid)) rowSize pid hph hpage cb hread 0 hph.slots rfl ctx
    rw [run_bind_of hrun]
    exact ⟨t, rfl⟩

theorem scanPages_spec (malloc : Nat → Nat → Bool) (cb : ScanCallback γ) {head : Nat}
    (hpages : ∀ n ∈ chain, st.pages n.1 = .heap n.2) (hne : ∀ p ∈ chain.pids, p ≠ 0)
    (hlay : ∀ n ∈ chain, ∃ slots, n.2.Layout pageSize rowSize slots)
    (hlinks : HeapLinks head chain) {fuel : Nat} (hfuel : chain.length < fuel) (ctx : γ) :
    ∃ t, (scanPages malloc rowSize cb fuel head ctx).run st =
      some ((visit cb.onRow (heapRows chain rowSize) ctx).2, { st with trace := t }) := by
  induction chain generalizing head st fuel ctx with
  | nil =>
    obtain ⟨fuel, rfl⟩ : ∃ f, fuel = f + 1 := ⟨fuel - 1, by simp at hfuel; omega⟩
    obtain rfl : head = 0 := hlinks
    refine ⟨st.trace, ?_⟩
    rw [scanPages, if_pos rfl]
    rfl
  | cons n chain ih =>
    obtain ⟨fuel, rfl⟩ : ∃ f, fuel = f + 1 := ⟨fuel - 1, by simp at hfuel; omega⟩
    obtain ⟨rfl, hrest⟩ := hlinks
    obtain ⟨slots, hl⟩ := hlay n List.mem_cons_self
    obtain ⟨t, hpage⟩ := scanPage_spec (hpages n List.mem_cons_self) hl malloc cb ctx
    rw [scanPages, if_neg (hne n.1 List.mem_cons_self), run_bind_of hpage, heapRows_cons,
      visit_append]
    rcases visit cb.onRow (n.2.rows n.1 rowSize) ctx with ⟨_ | _, ctx'⟩
    · exact ⟨t, rfl⟩
    · exact @ih { st with trace := t } _ (fun m hm => hpages m (List.mem_cons_of_mem _ hm))
        (fun p hp => hne p (List.mem_cons_of_mem _ hp))
        (fun m hm => hlay m (List.mem_cons_of_mem _ hm)) hrest _ (by simp at hfuel; omega) ctx'

/-- Whatever memory there is, the rows of the heap are visited, one after the other. -/
theorem heapScan_spec (h : HeapInv st free rowSize chain) (malloc : Nat → Nat → Bool)
    (cb : ScanCallback γ) (ctx : γ) :
    ∃ t, (heapScan malloc rowSize cb ctx).run st =
      some ((visit cb.onRow (heapRows chain rowSize) ctx).2, { st with trace := t }) := by
  rw [heapScan, run_bind_get]
  exact scanPages_spec malloc cb h.pages h.ne_zero h.layout h.links h.length_lt ctx

end Scan

end MiniDb
