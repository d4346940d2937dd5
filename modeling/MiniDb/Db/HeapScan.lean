import MiniDb.Db.InStep
import MiniDb.Storage.Heap.Oversize
import MiniDb.Storage.Heap.Refinement
import MiniDb.Storage.Heap.Scan

/-! # What a scan of the heap visits

In every heap that calls lead to, and in every database that statements lead to, `heap_scan` hands
out the rows of the chain once each, in the order of pages and slots, until the callback has enough.
It does not matter for which pages there is memory for a copy. -/

set_option autoImplicit false

namespace MiniDb

open Lib

/-- A scan for rows of this size visits the rows of the chain. -/
structure ScansExactly (st : Pager) (rowSize : Nat) (chain : HeapChain) : Prop where
  links : HeapLinks st.header.firstHeapPageId chain
  pages : ∀ n ∈ chain, st.pages n.1 = .heap n.2
  /-- a row for each alive slot, with its bytes -/
  rows : ∀ ref row, (ref, row) ∈ heapRows chain rowSize ↔ ∃ hph s, (ref.pageId, hph) ∈ chain ∧
    hph.slots[ref.slotId]? = some s ∧ s.status = .alive ∧ row = slice hph.data s.offset rowSize
  once : ((heapRows chain rowSize).map Prod.fst).Nodup
  visits : ∀ (γ : Type) (malloc : Nat → Nat → Bool) (cb : ScanCallback γ) (ctx : γ),
    ∃ t, (heapScan malloc rowSize cb ctx).run st =
      some ((visit cb.onRow (heapRows chain rowSize) ctx).2, { st with trace := t })

section

variable {st : Pager} {free : List Nat} {rowSize pageSize : Nat} {chain : HeapChain} {m : RowMap}
  {places : Set RowRef}

theorem HeapInv.scansExactly (h : HeapInv st free rowSize chain) : ScansExactly st rowSize chain where
  links := h.links
  pages := h.pages
  rows := by
    intro ref row
    constructor
    · intro hrow
      obtain ⟨hph, s, hslot, halive, hbytes⟩ := exists_isSlot hrow
      exact ⟨hph, s, hslot.page, hslot.slot, halive, hbytes⟩
    · rintro ⟨hph, s, hpage, hs, halive, rfl⟩
      exact IsSlot.mem_heapRows ⟨hpage, hs⟩ halive
  once := heapRows_nodup h.nodup
  visits := fun _ malloc cb ctx => heapScan_spec h malloc cb ctx

/-- For rows that fit no page there is no call that returns. -/
theorem HeapReach.oversize (hps : IsPageSize pageSize) (hbig : ¬ RowFits pageSize rowSize)
    (hsize : rowSize < 65536) (h : HeapReach pageSize rowSize st m places) :
    st = pagerOpenCreate pageSize ∧ m = (fun _ => none) ∧ places = ∅ := by
  have hhdr : heapHeaderSize ≤ pageSize := by
    have hle := hps.le
    simp only [heapHeaderSize]
    omega
  induction h with
  | start => exact ⟨rfl, rfl, rfl⟩
  | @insert st st' m places rounds row ref _ hrow hrun ih =>
    obtain ⟨rfl, -, -⟩ := ih
    subst hrow
    have hnone : (heapInsert rounds row).run (pagerOpenCreate pageSize) = none := by
      refine heapInsert_oversize hps hbig hsize rounds (heapInv_create hhdr row.length) fun n hn => ?_
      obtain rfl := List.mem_singleton.mp hn
      exact ⟨rfl, rfl, rfl, List.length_replicate⟩
    rw [hnone] at hrun
    cases hrun
  | delete _ href _ ih =>
    obtain ⟨-, -, rfl⟩ := ih
    cases href

/-- Every heap that calls lead to holds the rows of its map. -/
theorem HeapReach.exists_heapInv (hps : IsPageSize pageSize) (hsize : rowSize < 65536)
    (h : HeapReach pageSize rowSize st m places) :
    ∃ free chain, HeapInv st free rowSize chain ∧
      ∀ ref row, m ref = some row ↔ (ref, row) ∈ heapRows chain rowSize := by
  by_cases hfit : RowFits pageSize rowSize
  · obtain ⟨free, chain, hinv, -, hmap, -⟩ := h.holdsRows hfit
    exact ⟨free, chain, hinv, hmap⟩
  · obtain ⟨rfl, rfl, -⟩ := h.oversize hps hfit hsize
    have hhdr : heapHeaderSize ≤ pageSize := by
      have hle := hps.le
      simp only [heapHeaderSize]
      omega
    exact ⟨_, _, heapInv_create hhdr rowSize, by simp [HeapPage.rows, liveRows]⟩

/-- **A scan visits every live row once**: of a heap for rows of any size, the rows that insertions
have put there and no deletion has taken; of a database, the rows of its table. -/
theorem heapScan_visits (hps : IsPageSize pageSize) :
    (∀ rowSize st m places, rowSize < 65536 → HeapReach pageSize rowSize st m places →
      ∃ chain, ScansExactly st rowSize chain ∧
        ∀ ref row, m ref = some row ↔ (ref, row) ∈ heapRows chain rowSize) ∧
    ∀ st, DbReach pageSize st → ∃ chain, ScansExactly st st.header.rowSize chain := by
  constructor
  · intro rowSize st m places hsize h
    obtain ⟨free, chain, hinv, hmap⟩ := h.exists_heapInv hps hsize
    exact ⟨chain, hinv.scansExactly, hmap⟩
  · intro st h
    obtain ⟨entries, chain, hinv, -⟩ := h.inv hps
    obtain ⟨free, leaves, rows, hat, -⟩ := hinv.stored
    exact ⟨chain, hat.heap.scansExactly⟩

/-- Of a heap with a dead slot, and of a table without any memory for copies. -/
theorem heapScan_visits_sample :
    (∃ st chain, (∃ res, sampleHeapCalls.run (pagerOpenCreate 4096) = some (res, st)) ∧
      ScansExactly st 2 chain ∧ (⟨1, 1⟩, [9, 10]) ∈ heapRows chain 2 ∧
      ∀ row, (⟨1, 0⟩, row) ∉ heapRows chain 2) ∧
    ∃ chain, ScansExactly twoRowTable 12 chain ∧ heapRows chain 12 =
      [(⟨1, 0⟩, [1, 0, 0, 0, 0, 0, 0, 0, 7, 0, 0, 0]),
        (⟨1, 1⟩, [2, 0, 0, 0, 0, 0, 0, 0, 9, 0, 0, 0])] := by
  have hps : IsPageSize 4096 := ⟨12, Nat.le_refl 12, rfl⟩
  obtain ⟨hheap, hdb⟩ := heapScan_visits hps
  constructor
  · obtain ⟨st, hrun, -, hreach⟩ := exists_sampleHeap
    obtain ⟨chain, hscan, hmap⟩ := hheap 2 st _ _ (by decide) hreach
    refine ⟨st, chain, ⟨_, hrun⟩, hscan, (hmap _ _).mp rfl, fun row hrow => ?_⟩
    cases (hmap _ _).mpr hrow
  · obtain ⟨chain, hscan⟩ := hdb _ dbReach_twoRowTable
    have hsize : twoRowTable.header.rowSize = 12 := by decide +kernel
    rw [hsize] at hscan
    refine ⟨chain, hscan, ?_⟩
    obtain ⟨t, hrun⟩ := hscan.visits _ (fun _ _ => false)
      (fun row ref rows => (true, rows ++ [(ref, row)])) []
    have hvisit := visit_foldl (fun rows e => rows ++ [e]) (heapRows chain 12) []
    rw [show ScanCallback.onRow (fun row ref rows => (true, rows ++ [(ref, row)])) =
      fun e rows => (true, rows ++ [e]) from rfl, hvisit, foldl_snoc, List.nil_append] at hrun
    have hrows : ((heapScan (fun _ _ => false) 12
        (fun row ref rows => (true, rows ++ [(ref, row)])) []).run twoRowTable).map Prod.fst =
        some [(⟨1, 0⟩, [1, 0, 0, 0, 0, 0, 0, 0, 7, 0, 0, 0]),
          (⟨1, 1⟩, [2, 0, 0, 0, 0, 0, 0, 0, 9, 0, 0, 0])] := by
      decide +kernel
    rw [hrun] at hrows
    exact Option.some.inj hrows

end

end MiniDb
