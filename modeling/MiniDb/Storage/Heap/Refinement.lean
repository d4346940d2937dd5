import MiniDb.Storage.Heap.Operations

/-! # The heap is a map

Whoever uses the heap sees a partial map from places to rows (`RowMap`): an insertion binds a place
that is not bound, a deletion unbinds one, a lookup reads. `HeapReach` are the states that
insertions and deletions lead to from a new file, each with the map that the calls' replies have
built and the places they have returned. -/

set_option autoImplicit false

namespace MiniDb

open Lib

/-- What the heap is for: rows by their place. -/
abbrev RowMap := RowRef → Option (List UInt8)

/-- The states of a heap for rows of `rowSize` bytes, with its rows and the places that insertions
have returned. Deletions are of such places. -/
inductive HeapReach (pageSize rowSize : Nat) : Pager → RowMap → Set RowRef → Prop
  | start : HeapReach pageSize rowSize (pagerOpenCreate pageSize) (fun _ => none) ∅
  | insert {st st' : Pager} {m : RowMap} {places : Set RowRef} {rounds : Nat} {row : List UInt8}
      {ref : RowRef} (h : HeapReach pageSize rowSize st m places) (hrow : row.length = rowSize)
      (hrun : (heapInsert rounds row).run st = some (ref, st')) :
      HeapReach pageSize rowSize st' (Function.update m ref (some row)) (insert ref places)
  | delete {st st' : Pager} {m : RowMap} {places : Set RowRef} {ref : RowRef} {rc : Int}
      (h : HeapReach pageSize rowSize st m places) (href : ref ∈ places)
      (hrun : (heapDelete ref).run st = some (rc, st')) :
      HeapReach pageSize rowSize st' (Function.update m ref none) places

/-- What a reader finds on a heap page. -/
structure HeapPage.WellFormed (hph : HeapPage) (pageSize rowSize : Nat) : Prop where
  /-- the rows of two slots have no byte in common -/
  disjoint : ∀ (i j : Nat) (s t : Slot), hph.slots[i]? = some s → hph.slots[j]? = some t → i ≠ j →
    s.offset + rowSize ≤ t.offset ∨ t.offset + rowSize ≤ s.offset
  /-- the directory ends before the rows begin -/
  directory : slotsEnd hph.slots.length ≤ pageSize - hph.freeSpaceOffset
  space : hph.freeSpaceOffset = hph.slots.length * rowSize
  /-- the chain of free slots ends, meets no slot twice, and consists of the free slots -/
  free : ∃ free, FreeSlots hph.slots hph.freeSlotHead free ∧ free.Nodup ∧
    ∀ i, i ∈ free ↔ ∃ s, hph.slots[i]? = some s ∧ s.status = .free

/-- The heap's pages, from the first on, and what they hold. -/
def HeapWellFormed (st : Pager) (rowSize : Nat) : Prop :=
  ∃ chain : HeapChain, HeapLinks st.header.firstHeapPageId chain ∧ chain.pids.Nodup ∧
    ∀ n ∈ chain, st.pages n.1 = .heap n.2 ∧ n.2.WellFormed st.pageSize rowSize

section Refinement

variable {st st' : Pager} {free : List Nat} {rowSize pageSize : Nat} {chain : HeapChain}
  {m : RowMap} {places : Set RowRef} {ref : RowRef}

theorem HeapPage.Layout.wellFormed {hph : HeapPage} {slots : List Nat}
    (h : hph.Layout pageSize rowSize slots) (hps : pageSize < 65536) :
    hph.WellFormed pageSize rowSize where
  disjoint := fun _ _ _ _ hs ht hne => h.disjoint hs ht hne
  directory := by
    have hfits := h.fits
    have hend : slotsEnd hph.slots.length = heapHeaderSize + hph.slots.length * slotSize :=
      u16_eq (n := heapHeaderSize + hph.slots.length * slotSize) (by omega)
    rw [hend, h.space]
    omega
  space := h.space
  free := by
    refine ⟨slots, h.chain, h.nodup, fun i => ⟨fun hi => ?_, ?_⟩⟩
    · have hlt := h.chain.lt i hi
      exact ⟨_, List.getElem?_eq_getElem hlt,
        (h.free_iff i _ (List.getElem?_eq_getElem hlt)).mpr hi⟩
    · rintro ⟨s, hs, hfree⟩
      exact (h.free_iff i s hs).mp hfree

theorem HeapInv.wellFormed (h : HeapInv st free rowSize chain) (hps : st.pageSize < 65536) :
    HeapWellFormed st rowSize := by
  refine ⟨chain, h.links, h.nodup, fun n hn => ⟨h.pages n hn, ?_⟩⟩
  obtain ⟨slots, hlay⟩ := h.layout n hn
  exact hlay.wellFormed hps

/-- The heap of a new file is one empty page. -/
theorem heapInv_create (hps : heapHeaderSize ≤ pageSize) (rowSize : Nat) :
    HeapInv (pagerOpenCreate pageSize) [] rowSize
      [(1, ⟨0, slotNone, 0, [], List.replicate pageSize 0⟩)] where
  freeList := ⟨rfl, List.nodup_nil, by simp, Nat.succ_pos _⟩
  pages := by simp [pagerOpenCreate]
  links := ⟨rfl, rfl⟩
  last := rfl
  nodup := by simp
  held := by simp [Pager.Held, pagerOpenCreate]
  layout := by
    intro n hn
    rw [List.mem_singleton] at hn
    subst hn
    exact ⟨[], layout_empty 0 hps rowSize⟩
  hint := by simp

/-- A place of the heap is one slot. -/
theorem IsSlot.unique {hph hph' : HeapPage} {s s' : Slot} (h : HeapInv st free rowSize chain)
    (hs : IsSlot chain ref hph s) (hs' : IsSlot chain ref hph' s') : hph = hph' ∧ s = s' := by
  have hpage : Page.heap hph = Page.heap hph' :=
    (h.pages (ref.pageId, hph) hs.page).symm.trans (h.pages (ref.pageId, hph') hs'.page)
  obtain rfl := Page.heap.inj hpage
  exact ⟨rfl, Option.some.inj (hs.slot.symm.trans hs'.slot)⟩

/-- The pager holds a heap with the rows of `m`; `places` are some of its slots. -/
def HoldsRows (pageSize rowSize : Nat) (st : Pager) (m : RowMap) (places : Set RowRef) : Prop :=
  ∃ free chain, HeapInv st free rowSize chain ∧ st.pageSize = pageSize ∧
    (∀ ref row, m ref = some row ↔ (ref, row) ∈ heapRows chain rowSize) ∧
    ∀ ref ∈ places, chain.IsPlace ref

/-- The map at the place of a slot. -/
theorem rowMap_slot {hph : HeapPage} {s : Slot} (h : HeapInv st free rowSize chain)
    (hmap : ∀ ref row, m ref = some row ↔ (ref, row) ∈ heapRows chain rowSize)
    (hslot : IsSlot chain ref hph s) :
    m ref = if s.status = .alive then some (slice hph.data s.offset rowSize) else none := by
  split
  · rename_i halive
    exact (hmap ref _).mpr (hslot.mem_heapRows halive)
  · rename_i hdead
    rw [Option.eq_none_iff_forall_ne_some]
    intro row hrow
    obtain ⟨hph', s', hslot', halive, -⟩ := exists_isSlot ((hmap ref row).mp hrow)
    obtain ⟨-, rfl⟩ := hslot.unique h hslot'
    exact hdead halive

/-- The map after a row has been put into the list of rows. -/
theorem rowMap_insert {chain' : HeapChain} {l r : List (RowRef × List UInt8)} {row : List UInt8}
    (hnd : ((heapRows chain' rowSize).map Prod.fst).Nodup)
    (hmap : ∀ ref row, m ref = some row ↔ (ref, row) ∈ heapRows chain rowSize)
    (hl : heapRows chain rowSize = l ++ r) (hr : heapRows chain' rowSize = l ++ (ref, row) :: r) :
    m ref = none ∧ ∀ ref' row', Function.update m ref (some row) ref' = some row' ↔
      (ref', row') ∈ heapRows chain' rowSize := by
  have hnew : ∀ row', (ref, row') ∉ l ++ r := by
    rw [hr, List.map_append, List.map_cons, List.nodup_middle, List.nodup_cons,
      ← List.map_append] at hnd
    exact fun row' hmem => hnd.1 (List.mem_map.mpr ⟨_, hmem, rfl⟩)
  constructor
  · rw [Option.eq_none_iff_forall_ne_some]
    intro row' hrow'
    exact hnew row' (hl ▸ (hmap ref row').mp hrow')
  · intro ref' row'
    rw [hr, List.mem_append, List.mem_cons, or_left_comm, ← List.mem_append, ← hl]
    by_cases hne : ref' = ref
    · subst hne
      rw [Function.update_self]
      constructor
      · rintro heq
        exact .inl (by rw [Option.some.inj heq])
      · rintro (heq | hmem)
        · rw [(Prod.mk.inj heq).2]
        · exact absurd (hl ▸ hmem) (hnew row')
    · rw [Function.update_of_ne hne, hmap]
      simp [hne]

/-- The map after a row has been taken out of the list of rows. -/
theorem rowMap_delete {chain' : HeapChain} {l r : List (RowRef × List UInt8)} {row : List UInt8}
    (hnd : ((heapRows chain rowSize).map Prod.fst).Nodup)
    (hmap : ∀ ref row, m ref = some row ↔ (ref, row) ∈ heapRows chain rowSize)
    (hl : heapRows chain rowSize = l ++ (ref, row) :: r) (hr : heapRows chain' rowSize = l ++ r) :
    ∀ ref' row', Function.update m ref none ref' = some row' ↔
      (ref', row') ∈ heapRows chain' rowSize := by
  intro ref' row'
  have hgone : ∀ row', (ref, row') ∉ l ++ r := by
    rw [hl, List.map_append, List.map_cons, List.nodup_middle, List.nodup_cons,
      ← List.map_append] at hnd
    exact fun row' hmem => hnd.1 (List.mem_map.mpr ⟨_, hmem, rfl⟩)
  rw [hr]
  by_cases hne : ref' = ref
  · subst hne
    simp [hgone row']
  · rw [Function.update_of_ne hne, hmap, hl]
    simp [hne]

/-! ## Each call from a reachable state -/

theorem HoldsRows.insert (h : HoldsRows pageSize rowSize st m places)
    (hfit : RowFits pageSize rowSize) {row : List UInt8} (hrow : row.length = rowSize)
    (rounds : Nat) :
    (∃ ref st', (heapInsert (rounds + 1) row).run st = some (ref, st') ∧ m ref = none ∧
      HoldsRows pageSize rowSize st' (Function.update m ref (some row)) (insert ref places)) ∨
    (pageIdCount ≤ st.header.nextPageId + 1 ∧ (heapInsert (rounds + 1) row).run st = none) := by
  obtain ⟨free, chain, hinv, rfl, hmap, hplaces⟩ := h
  obtain ⟨ref, st', free', chain', l, r, hrun, hinv', hstep, hl, hr⟩ | ⟨hfull, hnone⟩ :=
    heapInsert_spec hinv hfit hrow rounds
  case inr =>
    rw [Pager.HasRoom] at hfull
    exact .inr ⟨by omega, hnone⟩
  left
  obtain ⟨hnone, hmap'⟩ := rowMap_insert (heapRows_nodup hinv'.nodup) hmap hl hr
  refine ⟨ref, st', hrun, hnone, free', chain', hinv', hstep.pageSize, hmap', ?_⟩
  rintro ref' (rfl | href')
  · have hmem : (ref', row) ∈ heapRows chain' rowSize := by simp [hr]
    obtain ⟨hph, s, hslot, -⟩ := exists_isSlot hmem
    exact hslot.isPlace
  · exact hstep.places ref' (hplaces ref' href')

theorem HoldsRows.delete (h : HoldsRows pageSize rowSize st m places) (href : ref ∈ places) :
    ∃ rc st', (heapDelete ref).run st = some (rc, st') ∧
      rc = (if (m ref).isSome then 0 else -1) ∧
      (m ref = none → ∃ t, st' = { st with trace := t }) ∧
      HoldsRows pageSize rowSize st' (Function.update m ref none) places := by
  obtain ⟨free, chain, hinv, rfl, hmap, hplaces⟩ := h
  obtain ⟨hph, s, hslot⟩ := (hplaces ref href).exists_isSlot
  have hm := rowMap_slot hinv hmap hslot
  rcases heapDelete_spec hinv hslot with ⟨halive, st', chain', l, r, hrun, hinv', hstep, -, hl, hr⟩ |
    ⟨hdead, st', hrun, t, rfl⟩
  · rw [if_pos halive] at hm
    refine ⟨0, st', hrun, by simp [hm], by simp [hm], free, chain', hinv', hstep.pageSize,
      rowMap_delete (heapRows_nodup hinv.nodup) hmap hl hr, ?_⟩
    exact fun ref' href' => hstep.places ref' (hplaces ref' href')
  · rw [hdead, if_neg nofun] at hm
    refine ⟨-1, _, hrun, by simp [hm], fun _ => ⟨t, rfl⟩, free, chain,
      hinv.sameRows ⟨t, _, rfl⟩ hinv.hint, rfl, ?_, hplaces⟩
    rw [← hm, Function.update_eq_self]
    exact hmap

theorem HoldsRows.fetch (h : HoldsRows pageSize rowSize st m places) (href : ref ∈ places) :
    ∃ st', (heapFetch ref rowSize).run st = some (m ref, st') ∧ ∃ t, st' = { st with trace := t } := by
  obtain ⟨free, chain, hinv, rfl, hmap, hplaces⟩ := h
  obtain ⟨hph, s, hslot⟩ := (hplaces ref href).exists_isSlot
  obtain ⟨st', hrun, hsame⟩ := heapFetch_spec hinv hslot
  exact ⟨st', by rw [hrun, rowMap_slot hinv hmap hslot], hsame⟩

/-- Every state that calls lead to holds the rows of its map. -/
theorem HeapReach.holdsRows (h : HeapReach pageSize rowSize st m places)
    (hfit : RowFits pageSize rowSize) : HoldsRows pageSize rowSize st m places := by
  induction h with
  | start =>
    have hps : heapHeaderSize ≤ pageSize := by
      have := hfit.fits
      omega
    exact ⟨_, _, heapInv_create hps rowSize, rfl, by simp [HeapPage.rows, liveRows], by simp⟩
  | @insert st st' m places rounds row ref _ hrow hrun ih =>
    cases rounds with
    | zero =>
      -- no round, no result
      have hzero : (heapInsert 0 row).run st = none := by
        obtain ⟨free, chain, hinv, rfl, -, -⟩ := ih
        obtain ⟨pid, st₁, hfind, hsame, hhint, -⟩ := findHeapPage_spec hinv
        rw [← hrow] at hfind
        have hhdr : heapHeaderSize ≤ st₁.pageSize := by
          obtain ⟨t, b, rfl⟩ := hsame
          have := hfit.fits
          exact (by omega : heapHeaderSize ≤ st.pageSize)
        obtain ⟨p, st₂, free₂, chain₂, happ, -⟩ | ⟨-, hnone⟩ :=
          appendHeapPage_spec (hinv.sameRows hsame hhint) hhdr
        case inr =>
          rw [heapInsert, run_bind_of hfind]
          split
          · exact run_bind_none hnone
          · rfl
        simp only [heapInsert, StateT.run_bind, hfind, Option.bind_eq_bind, Option.bind_some]
        split
        · simp only [StateT.run_bind, happ, Option.bind_eq_bind, Option.bind_some, retryInsert,
            run_failure]
        · simp only [retryInsert, run_failure]
      rw [hzero] at hrun
      cases hrun
    | succ rounds =>
      obtain ⟨ref', st'', hrun', -, hrows⟩ | ⟨-, hnone⟩ := ih.insert hfit hrow rounds
      case inr =>
        rw [hnone] at hrun
        cases hrun
      rw [hrun] at hrun'
      obtain ⟨rfl, rfl⟩ := Prod.mk.inj (Option.some.inj hrun')
      exact hrows
  | delete _ href hrun ih =>
    obtain ⟨rc', st'', hrun', -, -, hrows⟩ := ih.delete href
    rw [hrun] at hrun'
    obtain ⟨rfl, rfl⟩ := Prod.mk.inj (Option.some.inj hrun')
    exact hrows

/-- **The heap refines a map.** In every state that insertions and deletions lead to, an insertion
returns a place that is not bound, where there is an id for a new page or it needs none, a deletion
of a bound place returns 0 and of another one -1 and changes nothing, and a lookup returns what the
map has; and the pages are well formed. -/
theorem heap_refines_map (hfit : 24 + rowSize ≤ pageSize) (hps : pageSize ≤ 32768)
    (h : HeapReach pageSize rowSize st m places) :
    (∀ row : List UInt8, row.length = rowSize → ∀ rounds,
      (∀ ref st', (heapInsert (rounds + 1) row).run st = some (ref, st') → m ref = none ∧
        ∀ ref' ∈ insert ref places, ∃ st'', (heapFetch ref' rowSize).run st' =
          some (if ref' = ref then some row else m ref', st'')) ∧
      (st.header.nextPageId + 1 < pageIdCount →
        ∃ ref st', (heapInsert (rounds + 1) row).run st = some (ref, st'))) ∧
    (∀ ref ∈ places, ∃ rc st', (heapDelete ref).run st = some (rc, st') ∧
      rc = (if (m ref).isSome then 0 else -1) ∧
      (m ref = none → ∃ t, st' = { st with trace := t }) ∧
      ∀ ref' ∈ places, ∃ st'', (heapFetch ref' rowSize).run st' =
        some (if ref' = ref then none else m ref', st'')) ∧
    (∀ ref ∈ places, ∃ st', (heapFetch ref rowSize).run st = some (m ref, st')) ∧
    HeapWellFormed st rowSize := by
  have hfits : RowFits pageSize rowSize :=
    ⟨by simpa [heapHeaderSize, slotSize] using hfit, by omega⟩
  have hrows := h.holdsRows hfits
  refine ⟨fun row hlen rounds => ?_, fun ref href => ?_, fun ref href => ?_, ?_⟩
  · obtain ⟨ref, st', hrun, hnone, hrows'⟩ | ⟨hfull, hnone⟩ := hrows.insert hfits hlen rounds
    · refine ⟨fun ref₁ st₁ hrun₁ => ?_, fun _ => ⟨ref, st', hrun⟩⟩
      obtain ⟨rfl, rfl⟩ := Prod.mk.inj (Option.some.inj (hrun.symm.trans hrun₁))
      refine ⟨hnone, fun ref' href' => ?_⟩
      obtain ⟨st'', hfetch, -⟩ := hrows'.fetch href'
      exact ⟨st'', by rw [hfetch, Function.update_apply]⟩
    · refine ⟨fun ref₁ st₁ hrun₁ => ?_, fun hids => absurd hids (Nat.not_lt.mpr hfull)⟩
      rw [hnone] at hrun₁
      cases hrun₁
  · obtain ⟨rc, st', hrun, hrc, hsame, hrows'⟩ := hrows.delete href
    refine ⟨rc, st', hrun, hrc, hsame, fun ref' href' => ?_⟩
    obtain ⟨st'', hfetch, -⟩ := hrows'.fetch href'
    exact ⟨st'', by rw [hfetch, Function.update_apply]⟩
  · obtain ⟨st', hrun, -⟩ := hrows.fetch href
    exact ⟨st', hrun⟩
  · obtain ⟨free, chain, hinv, hpsz, -⟩ := hrows
    exact hinv.wellFormed (by omega)

end Refinement

/-- Two rows are inserted, and the first is deleted again. -/
def sampleHeapCalls : PagerM (RowRef × RowRef × Int) := do
  let first ← heapInsert 1 [7, 8]
  let second ← heapInsert 1 [9, 10]
  let rc ← heapDelete first
  return (first, second, rc)

/-- What they leave: the second row. -/
def sampleRows : RowMap :=
  Function.update (Function.update (Function.update (fun _ => none) ⟨1, 0⟩ (some [7, 8])) ⟨1, 1⟩
    (some [9, 10])) ⟨1, 0⟩ none

theorem exists_sampleHeap : ∃ st, sampleHeapCalls.run (pagerOpenCreate 4096) =
      some ((⟨1, 0⟩, ⟨1, 1⟩, 0), st) ∧ st.header.nextPageId = 3 ∧
    HeapReach 4096 2 st sampleRows (insert ⟨1, 1⟩ (insert ⟨1, 0⟩ ∅)) := by
  have hresult : (sampleHeapCalls.run (pagerOpenCreate 4096)).map
      (fun x => (x.1, x.2.header.nextPageId)) = some ((⟨1, 0⟩, ⟨1, 1⟩, 0), 3) := by
    decide +kernel
  obtain ⟨⟨refs, st⟩, hrun, heq⟩ := Option.map_eq_some_iff.mp hresult
  obtain ⟨rfl, hids⟩ := Prod.mk.inj heq
  refine ⟨st, hrun, hids, ?_⟩
  obtain ⟨first, st₁, hfirst, hrest⟩ := run_bind_eq_some.mp hrun
  obtain ⟨second, st₂, hsecond, hrest⟩ := run_bind_eq_some.mp hrest
  obtain ⟨rc, st₃, hdelete, hrest⟩ := run_bind_eq_some.mp hrest
  obtain ⟨hrefs, rfl⟩ := run_pure_eq_some.mp hrest
  cases hrefs
  have h₁ : HeapReach 4096 2 st₁ (Function.update (fun _ => none) ⟨1, 0⟩ (some [7, 8]))
      (insert ⟨1, 0⟩ ∅) := HeapReach.start.insert rfl hfirst
  have h₂ : HeapReach 4096 2 st₂ (Function.update (Function.update (fun _ => none) ⟨1, 0⟩
      (some [7, 8])) ⟨1, 1⟩ (some [9, 10])) (insert ⟨1, 1⟩ (insert ⟨1, 0⟩ ∅)) :=
    h₁.insert rfl hsecond
  exact h₂.delete (Set.mem_insert_of_mem _ (Set.mem_insert _ _)) hdelete

/-- Behind these calls the second row is there and the first is not, its place is dead, and the next
row leaves the second one alone. -/
theorem heap_refines_map_reuse : ∃ st, sampleHeapCalls.run (pagerOpenCreate 4096) =
      some ((⟨1, 0⟩, ⟨1, 1⟩, 0), st) ∧
    (∃ st', (heapFetch ⟨1, 1⟩ 2).run st = some (some [9, 10], st')) ∧
    (∃ st', (heapFetch ⟨1, 0⟩ 2).run st = some (none, st')) ∧
    (∃ st', (heapDelete ⟨1, 0⟩).run st = some (-1, st')) ∧
    (∃ ref st' st'', (heapInsert 1 [11, 12]).run st = some (ref, st') ∧ ref ≠ ⟨1, 1⟩ ∧
      (heapFetch ⟨1, 1⟩ 2).run st' = some (some [9, 10], st'')) ∧
    HeapWellFormed st 2 := by
  obtain ⟨st, hrun, hids, hreach⟩ := exists_sampleHeap
  obtain ⟨hinsert, hdelete, hfetch, hwf⟩ := heap_refines_map (by decide) (by decide) hreach
  have hone : (⟨1, 1⟩ : RowRef) ∈ insert ⟨1, 1⟩ (insert ⟨1, 0⟩ (∅ : Set RowRef)) :=
    Set.mem_insert _ _
  have hzero : (⟨1, 0⟩ : RowRef) ∈ insert ⟨1, 1⟩ (insert ⟨1, 0⟩ (∅ : Set RowRef)) :=
    Set.mem_insert_of_mem _ (Set.mem_insert _ _)
  refine ⟨st, hrun, hfetch _ hone, hfetch _ hzero, ?_, ?_, hwf⟩
  · obtain ⟨rc, st', hrc, rfl, -⟩ := hdelete _ hzero
    exact ⟨st', hrc⟩
  · obtain ⟨hright, hreturns⟩ := hinsert [11, 12] rfl 0
    obtain ⟨ref, st', hnext⟩ := hreturns (by rw [hids]; decide)
    obtain ⟨hfree, hrows⟩ := hright ref st' hnext
    have hne : ref ≠ ⟨1, 1⟩ := by
      rintro rfl
      cases hfree
    obtain ⟨st'', hkept⟩ := hrows _ (Set.mem_insert_of_mem ref hone)
    rw [if_neg hne.symm] at hkept
    exact ⟨ref, st', st'', hnext, hne, hkept⟩

end MiniDb
