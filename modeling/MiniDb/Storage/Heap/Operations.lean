import MiniDb.Storage.Heap.Chain

/-! # Heap operations

One specification for each function of `table.c`: an insertion puts one row into the list of rows,
at a place that was not taken; a deletion takes one out; a lookup reads it; a scan visits them all
in order. -/

set_option autoImplicit false

namespace MiniDb

open Lib

section Operations

variable {st st' : Pager} {free : List Nat} {rowSize : Nat} {chain : HeapChain}

theorem HeapStep.refl (h : HeapInv st free rowSize chain) (hs : st.SameRows st') :
    HeapStep st free chain st' free chain := by
  obtain ⟨t, b, rfl⟩ := hs
  exact ⟨⟨[], by simp, by simp, by simp⟩, fun _ _ => rfl, fun _ hp => hp,
    fun p => ⟨.inl, fun hp => hp.elim id (h.held p)⟩, rfl, le_refl _, rfl⟩

/-- An operation on the chain as another one has left it. -/
theorem HeapStep.trans {st₁ st₂ : Pager} {free₁ free₂ : List Nat} {chain₁ chain₂ : HeapChain}
    (h : HeapStep st free chain st₁ free₁ chain₁) (h' : HeapStep st₁ free₁ chain₁ st₂ free₂ chain₂)
    (hone : chain₁.pids = chain.pids ∨ chain₂.pids = chain₁.pids) :
    HeapStep st free chain st₂ free₂ chain₂ := by
  obtain ⟨new, hpids, hlen, hnew⟩ := h.pids
  obtain ⟨new', hpids', hlen', hnew'⟩ := h'.pids
  have hsub : ∀ p, p ∈ chain₁.pids → p ∈ chain₂.pids := by
    intro p hp
    rw [hpids']
    exact List.mem_append_left _ hp
  constructor
  · rcases hone with heq | heq
    · refine ⟨new', by rw [hpids', heq], hlen', fun p hp hheld => hnew' p hp ?_⟩
      exact (h.held p).mpr (.inl hheld)
    · exact ⟨new, by rw [heq, hpids], hlen, hnew⟩
  · intro p hp
    rw [h'.pages p hp, h.pages p fun hp' => hp (hsub p hp')]
  · exact fun ref href => h'.places ref (h.places ref href)
  · intro p
    rw [h'.held, h.held, or_assoc]
    exact or_congr_right (or_iff_right_of_imp (hsub p))
  · rw [h'.pageSize, h.pageSize]
  · exact h.nextPageId_le.trans h'.nextPageId_le
  · rw [h'.header, h.header]

/-- A page given a row. -/
theorem retryInsert_spec (h : HeapInv st free rowSize chain) (hfit : RowFits st.pageSize rowSize)
    {n : Nat × HeapPage} (hn : n ∈ chain)
    (hroom : n.2.freeSlotHead = slotNone → rowNeed rowSize ≤ availableSpace st.pageSize n.2)
    {row : List UInt8} (hrow : row.length = rowSize) (rounds : Nat) :
    ∃ ref st' chain' l r, (retryInsert row (rounds + 1) n.1).run st = some (ref, st') ∧
      HeapInv st' free rowSize chain' ∧ HeapStep st free chain st' free chain' ∧
      chain'.pids = chain.pids ∧ heapRows chain rowSize = l ++ r ∧
      heapRows chain' rowSize = l ++ (ref, row) :: r := by
  obtain ⟨pid, hph⟩ := n
  obtain ⟨slots, hlay⟩ := h.layout _ hn
  obtain ⟨i, hph', slots', hplace, hlay', hplaced, hempty⟩ :=
    placeRow_spec hlay hfit hrow hroom pid
  obtain ⟨a, b, rfl⟩ := List.append_of_mem hn
  obtain ⟨l, r, hrows, hrows'⟩ := hplaced.rows
  set st' : Pager := ((((st.log (.get pid)).log (.wlatch pid)).setPage pid (.heap hph')).log
    (.markDirty pid)).log (.unlatchW pid) with hst'
  have hrun : (retryInsert row (rounds + 1) pid).run st = some (⟨pid, i⟩, st') := by
    have hread : (readHeap pid).run ((st.log (.get pid)).log (.wlatch pid)) =
        some (hph, (st.log (.get pid)).log (.wlatch pid)) := run_readHeap (h.pages _ hn)
    have hno : ¬ (hph.freeSlotHead = slotNone ∧
        availableSpace st.pageSize hph < rowNeed row.length) := by
      rintro ⟨hnone, hlt⟩
      rw [hrow] at hlt
      exact absurd (hroom hnone) (by simpa using hlt)
    rw [retryInsert]
    simp only [StateT.run_bind, run_pagerGetPageWlatch, Option.bind_eq_bind, Option.bind_some, hread,
      StateT.run_get, Option.pure_def, Pager.log_pageSize]
    erw [if_neg hno]
    simp only [hplace, StateT.run_bind, run_writePage, run_pagerMarkDirty, run_pagerUnlatchW,
      Option.bind_eq_bind, Option.bind_some, StateT.run_pure, Option.pure_def, hst']
  refine ⟨⟨pid, i⟩, st', a ++ (pid, hph') :: b, heapRows a rowSize ++ l,
    r ++ heapRows b rowSize, hrun, ?_, ?_, by simp, ?_, ?_⟩
  · refine h.setPage hplaced.next ⟨slots', hlay'⟩ rfl rfl rfl rfl fun hoff => ⟨?_, hoff⟩
    have hslots : slots = [] := (hlay.freeSlotHead_iff hfit.small).mp (h.hint hoff _ hn)
    exact (hlay'.freeSlotHead_iff hfit.small).mpr (hempty hslots)
  · exact h.stepSetPage rfl hplaced.slots rfl rfl
  · simp [hrows]
  · simp [hrows']

/-- An empty page has room for a row that fits. -/
theorem rowNeed_le_empty {pageSize : Nat} (hfit : RowFits pageSize rowSize) (next : Nat) :
    rowNeed rowSize ≤ availableSpace pageSize
      ⟨next, slotNone, 0, [], List.replicate pageSize 0⟩ := by
  have hfits := hfit.fits
  rw [rowNeed_eq hfit,
    (layout_empty next (by omega) rowSize).availableSpace_eq hfit.small]
  simp only [List.length_nil, Nat.zero_mul]
  omega

/-- **Insertion.** A row of the row size finds a place, after at most one new page, and is then one
of the heap's rows; unless a page is needed and there is none. -/
theorem heapInsert_spec (h : HeapInv st free rowSize chain) (hfit : RowFits st.pageSize rowSize)
    {row : List UInt8} (hrow : row.length = rowSize) (rounds : Nat) :
    (∃ ref st' free' chain' l r, (heapInsert (rounds + 1) row).run st = some (ref, st') ∧
      HeapInv st' free' rowSize chain' ∧ HeapStep st free chain st' free' chain' ∧
      heapRows chain rowSize = l ++ r ∧ heapRows chain' rowSize = l ++ (ref, row) :: r) ∨
    (¬ st.HasRoom free 1 ∧ (heapInsert (rounds + 1) row).run st = none) := by
  obtain ⟨pid, st₁, hfind, hsame, hhint, hpage⟩ := findHeapPage_spec h
  have h₁ := h.sameRows hsame hhint
  have hps : st₁.pageSize = st.pageSize := by
    obtain ⟨t, b, rfl⟩ := hsame
    rfl
  have hfit₁ : RowFits st₁.pageSize rowSize := hps ▸ hfit
  rw [← hrow] at hfind
  rcases hpage with ⟨n, hn, rfl, hroom⟩ | rfl
  · left
    obtain ⟨ref, st', chain', l, r, hrun, hinv, hstep, hpids, hl, hr⟩ :=
      retryInsert_spec h₁ hfit₁ hn (hps ▸ hroom) hrow rounds
    have hn0 : n.1 ≠ 0 := h.ne_zero n.1 (HeapChain.mem_pids hn)
    refine ⟨ref, st', free, chain', l, r, ?_, hinv,
      (HeapStep.refl h hsame).trans hstep (.inl rfl), hl, hr⟩
    simp only [heapInsert, StateT.run_bind, hfind, Option.bind_eq_bind, Option.bind_some, if_neg hn0,
      hrun]
  · have hhdr : heapHeaderSize ≤ st₁.pageSize := by
      have := hfit₁.fits
      omega
    obtain ⟨pid, st₂, free₂, chain₂, happ, hinv₂, hstep₂, hrows₂, -⟩ | ⟨hfull, hnone⟩ :=
      appendHeapPage_spec h₁ hhdr
    case inr =>
      obtain ⟨t, b, rfl⟩ := hsame
      refine .inr ⟨hfull, ?_⟩
      rw [heapInsert, run_bind_of hfind, if_pos rfl, run_bind_none hnone]
    left
    have hps₂ : st₂.pageSize = st₁.pageSize := hstep₂.pageSize
    have hfit₂ : RowFits st₂.pageSize rowSize := hps₂ ▸ hfit₁
    obtain ⟨ref, st', chain', l, r, hrun, hinv, hstep, hpids, hl, hr⟩ :=
      retryInsert_spec hinv₂ hfit₂
        (n := (pid, ⟨0, slotNone, 0, [], List.replicate st₁.pageSize 0⟩)) (by simp)
        (fun _ => by rw [hps₂]; exact rowNeed_le_empty hfit₁ 0) hrow rounds
    refine ⟨ref, st', free₂, chain', l, r, ?_, hinv,
      ((HeapStep.refl h hsame).trans hstep₂ (.inl rfl)).trans hstep (.inr hpids), ?_, hr⟩
    · simp only [heapInsert, StateT.run_bind, hfind, Option.bind_eq_bind, Option.bind_some, if_true,
        happ, hrun]
    · rw [← hrows₂, ← hl]
      simp [HeapPage.rows, liveRows]

/-- The page and the slot of a place in the directory of a heap page. -/
structure IsSlot (chain : HeapChain) (ref : RowRef) (hph : HeapPage) (s : Slot) : Prop where
  page : (ref.pageId, hph) ∈ chain
  slot : hph.slots[ref.slotId]? = some s

theorem HeapChain.IsPlace.exists_isSlot {ref : RowRef} (h : chain.IsPlace ref) :
    ∃ hph s, IsSlot chain ref hph s := by
  obtain ⟨hph, hpage, hlt⟩ := h
  exact ⟨hph, hph.slots[ref.slotId], hpage, List.getElem?_eq_getElem hlt⟩

theorem IsSlot.isPlace {ref : RowRef} {hph : HeapPage} {s : Slot} (h : IsSlot chain ref hph s) :
    chain.IsPlace ref :=
  ⟨hph, h.page, (List.getElem?_eq_some_iff.mp h.slot).1⟩

/-- A row of the heap lies in an alive slot. -/
theorem exists_isSlot {ref : RowRef} {row : List UInt8} (hrow : (ref, row) ∈ heapRows chain rowSize) :
    ∃ hph s, IsSlot chain ref hph s ∧ s.status = .alive ∧
      row = slice hph.data s.offset rowSize := by
  obtain ⟨⟨pid, hph⟩, hn, hmem⟩ := mem_heapRows.mp hrow
  obtain ⟨rfl, s, hs, halive, heq⟩ := HeapPage.mem_rows.mp hmem
  exact ⟨hph, s, ⟨hn, hs⟩, halive, heq⟩

/-- An alive slot holds a row. -/
theorem IsSlot.mem_heapRows {ref : RowRef} {hph : HeapPage} {s : Slot} (h : IsSlot chain ref hph s)
    (halive : s.status = .alive) : (ref, slice hph.data s.offset rowSize) ∈ heapRows chain rowSize :=
  MiniDb.mem_heapRows.mpr ⟨_, h.page, HeapPage.mem_rows.mpr ⟨rfl, s, h.slot, halive, rfl⟩⟩

/-- **Lookup.** An alive place yields its row, with the page left read-latched; a free one
nothing. -/
theorem heapFetch_spec (h : HeapInv st free rowSize chain) {ref : RowRef} {hph : HeapPage} {s : Slot}
    (hslot : IsSlot chain ref hph s) :
    ∃ st', (heapFetch ref rowSize).run st = some (if s.status = .alive then
        some (slice hph.data s.offset rowSize) else none, st') ∧ ∃ t, st' = { st with trace := t } := by
  obtain ⟨slots, hlay⟩ := h.layout _ hslot.page
  have hread : (readHeap ref.pageId).run ((st.log (.get ref.pageId)).log (.rlatch ref.pageId)) =
      some (hph, (st.log (.get ref.pageId)).log (.rlatch ref.pageId)) :=
    run_readHeap (h.pages _ hslot.page)
  cases hstatus : s.status with
  | alive =>
    refine ⟨(st.log (.get ref.pageId)).log (.rlatch ref.pageId), ?_, _, rfl⟩
    simp only [heapFetch, StateT.run_bind, run_pagerGetPageRlatch, Option.bind_eq_bind,
      Option.bind_some, hread, hslot.slot, hstatus, if_true, hlay.readRow hslot.slot,
      StateT.run_pure, Option.pure_def]
  | free =>
    refine ⟨((st.log (.get ref.pageId)).log (.rlatch ref.pageId)).log (.unlatchR ref.pageId), ?_, _,
      rfl⟩
    simp only [heapFetch, StateT.run_bind, run_pagerGetPageRlatch, Option.bind_eq_bind,
      Option.bind_some, hread, hslot.slot, hstatus, reduceCtorEq, if_false, run_pagerUnlatchR,
      StateT.run_pure, Option.pure_def]

/-- **Deletion.** An alive place loses its row; a free one is left alone. -/
theorem heapDelete_spec (h : HeapInv st free rowSize chain) {ref : RowRef} {hph : HeapPage}
    {s : Slot} (hslot : IsSlot chain ref hph s) :
    (s.status = .alive ∧ ∃ st' chain' l r, (heapDelete ref).run st = some (0, st') ∧
      HeapInv st' free rowSize chain' ∧ HeapStep st free chain st' free chain' ∧
      chain'.pids = chain.pids ∧
      heapRows chain rowSize = l ++ (ref, slice hph.data s.offset rowSize) :: r ∧
      heapRows chain' rowSize = l ++ r) ∨
    s.status = .free ∧ ∃ st', (heapDelete ref).run st = some (-1, st') ∧
      ∃ t, st' = { st with trace := t } := by
  obtain ⟨pid, i⟩ := ref
  obtain ⟨hn, hs⟩ := hslot
  obtain ⟨slots, hlay⟩ := h.layout _ hn
  have hread : (readHeap pid).run ((st.log (.get pid)).log (.wlatch pid)) =
      some (hph, (st.log (.get pid)).log (.wlatch pid)) := run_readHeap (h.pages _ hn)
  cases hstatus : s.status with
  | free =>
    refine .inr ⟨rfl, ((st.log (.get pid)).log (.wlatch pid)).log (.unlatchW pid), ?_, _, rfl⟩
    simp only [heapDelete, StateT.run_bind, run_pagerGetPageWlatch, Option.bind_eq_bind,
      Option.bind_some, hread, hs, hstatus, reduceCtorEq, if_false, run_pagerUnlatchW,
      StateT.run_pure, Option.pure_def]
  | alive =>
    obtain ⟨a, b, rfl⟩ := List.append_of_mem hn
    obtain ⟨hlay', l, r, hrows, hrows'⟩ := freeSlot_spec hlay hs hstatus pid
    set st' : Pager := { ((((st.log (.get pid)).log (.wlatch pid)).setPage pid
      (.heap (hph.freeSlot i s))).log (.markDirty pid)).log (.unlatchW pid) with
      heapMayHaveFreeSlots := true } with hst'
    have hrun : (heapDelete ⟨pid, i⟩).run st = some (0, st') := by
      simp only [heapDelete, StateT.run_bind, run_pagerGetPageWlatch, Option.bind_eq_bind,
        Option.bind_some, hread, hs, hstatus, if_true, run_writePage, run_pagerMarkDirty,
        run_pagerUnlatchW, StateT.run_modify, StateT.run_pure, Option.pure_def]
      rfl
    refine .inl ⟨rfl, st', a ++ (pid, hph.freeSlot i s) :: b, heapRows a rowSize ++ l,
      r ++ heapRows b rowSize, hrun, ?_, h.stepSetPage rfl ?_ rfl rfl, by simp, ?_, ?_⟩
    · exact h.setPage rfl ⟨_, hlay'⟩ rfl rfl rfl rfl nofun
    · simp [HeapPage.freeSlot]
    · simp [hrows]
    · simp [hrows']

end Operations

end MiniDb
