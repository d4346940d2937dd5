import Mathlib.Data.List.Perm.Subperm
import MiniDb.Lib.Runs
import MiniDb.Storage.FreeList
import MiniDb.Storage.Heap.Layout

/-! # The chain of heap pages

The heap is the list of its pages in chain order, each with its contents. `HeapInv` says that the
pager holds this list: every page has the layout for the row size, the links lead from
`first_heap_page_id` through the pages to 0, `last_heap_page_id` is the last of them, and while the
hint `heap_may_have_free_slots` is off no page has a free slot. Insertion, deletion and lookup of
a row are then changes and reads of the list `heapRows` of all rows. -/

set_option autoImplicit false

namespace MiniDb

open Lib

/-- Heap pages in chain order. -/
abbrev HeapChain := List (Nat × HeapPage)

/-- All rows of the heap, in the order in which a scan visits them. -/
def heapRows (chain : HeapChain) (rowSize : Nat) : List (RowRef × List UInt8) :=
  chain.flatMap fun n => n.2.rows n.1 rowSize

/-- Following `next_heap_page_id` from `head` visits exactly the pages of the chain and ends
at 0. -/
def HeapLinks : Nat → HeapChain → Prop
  | head, [] => head = 0
  | head, n :: ns => head = n.1 ∧ HeapLinks n.2.nextHeapPageId ns

/-- The pages of the chain. -/
def HeapChain.pids (chain : HeapChain) : List Nat := chain.map Prod.fst

/-- **The heap invariant.** -/
structure HeapInv (st : Pager) (free : List Nat) (rowSize : Nat) (chain : HeapChain) : Prop where
  freeList : st.FreeList free
  pages : ∀ n ∈ chain, st.pages n.1 = .heap n.2
  links : HeapLinks st.header.firstHeapPageId chain
  last : chain.pids.getLast? = some st.lastHeapPageId
  nodup : chain.pids.Nodup
  held : ∀ p ∈ chain.pids, st.Held free p
  layout : ∀ n ∈ chain, ∃ slots, n.2.Layout st.pageSize rowSize slots
  hint : st.heapMayHaveFreeSlots = false → ∀ n ∈ chain, n.2.freeSlotHead = slotNone

/-- The part of it that does not look into the pages. -/
structure ChainAt (st : Pager) (free : List Nat) (chain : HeapChain) : Prop where
  freeList : st.FreeList free
  pages : ∀ n ∈ chain, st.pages n.1 = .heap n.2
  links : HeapLinks st.header.firstHeapPageId chain
  last : chain.pids.getLast? = some st.lastHeapPageId
  nodup : chain.pids.Nodup
  held : ∀ p ∈ chain.pids, st.Held free p

theorem HeapInv.chainAt {st : Pager} {free : List Nat} {rowSize : Nat} {chain : HeapChain}
    (h : HeapInv st free rowSize chain) : ChainAt st free chain :=
  ⟨h.freeList, h.pages, h.links, h.last, h.nodup, h.held⟩

/-- A slot of one of the pages. -/
def HeapChain.IsPlace (chain : HeapChain) (ref : RowRef) : Prop :=
  ∃ hph, (ref.pageId, hph) ∈ chain ∧ ref.slotId < hph.slots.length

/-- What an operation on the heap may do to the rest of the pager. -/
structure HeapStep (st : Pager) (free : List Nat) (chain : HeapChain)
    (st' : Pager) (free' : List Nat) (chain' : HeapChain) : Prop where
  pids : ∃ new, chain'.pids = chain.pids ++ new ∧ new.length ≤ 1 ∧ ∀ p ∈ new, ¬ st.Held free p
  pages : ∀ p, p ∉ chain'.pids → st'.pages p = st.pages p
  places : ∀ ref, chain.IsPlace ref → chain'.IsPlace ref
  held : ∀ p, st'.Held free' p ↔ st.Held free p ∨ p ∈ chain'.pids
  pageSize : st'.pageSize = st.pageSize
  nextPageId_le : st.header.nextPageId ≤ st'.header.nextPageId
  header : st'.header = { st.header with
    freePageHead := st'.header.freePageHead, nextPageId := st'.header.nextPageId }

section Chain

variable {st st' : Pager} {free : List Nat} {rowSize : Nat} {chain a b : HeapChain} {head pid : Nat}
  {hph hph' : HeapPage}

@[simp] theorem HeapChain.pids_append : (a ++ b).pids = a.pids ++ b.pids := List.map_append

@[simp] theorem HeapChain.pids_cons {n : Nat × HeapPage} :
    HeapChain.pids (n :: chain) = n.1 :: chain.pids := rfl

@[simp] theorem HeapChain.pids_nil : HeapChain.pids [] = [] := rfl

theorem HeapChain.mem_pids {n : Nat × HeapPage} (h : n ∈ chain) : n.1 ∈ chain.pids :=
  List.mem_map_of_mem h

@[simp] theorem heapRows_append :
    heapRows (a ++ b) rowSize = heapRows a rowSize ++ heapRows b rowSize := List.flatMap_append

@[simp] theorem heapRows_cons {n : Nat × HeapPage} :
    heapRows (n :: chain) rowSize = n.2.rows n.1 rowSize ++ heapRows chain rowSize := rfl

@[simp] theorem heapRows_nil : heapRows [] rowSize = [] := rfl

theorem HeapChain.mem_middle {n m : Nat × HeapPage} : n ∈ a ++ m :: b ↔ n = m ∨ n ∈ a ++ b :=
  List.perm_middle.mem_iff.trans List.mem_cons

/-- The places of rows lie on the pages of the chain. -/
theorem mem_heapRows {ref : RowRef} {row : List UInt8} :
    (ref, row) ∈ heapRows chain rowSize ↔ ∃ n ∈ chain, (ref, row) ∈ n.2.rows n.1 rowSize :=
  List.mem_flatMap

/-- Every place occurs once. -/
theorem heapRows_nodup (h : chain.pids.Nodup) : ((heapRows chain rowSize).map Prod.fst).Nodup := by
  induction chain with
  | nil => simp
  | cons n chain ih =>
    obtain ⟨hn, hnd⟩ := List.nodup_cons.mp h
    rw [heapRows_cons, List.map_append, List.nodup_append]
    refine ⟨liveRows_nodup, ih hnd, ?_⟩
    rintro _ hx _ hy rfl
    obtain ⟨⟨ref, row⟩, hrow, rfl⟩ := List.mem_map.mp hx
    obtain ⟨⟨ref', row'⟩, hrow', heq⟩ := List.mem_map.mp hy
    obtain ⟨m, hm, hmrow⟩ := mem_heapRows.mp hrow'
    have h₁ := (HeapPage.mem_rows.mp hrow).1
    have h₂ := (HeapPage.mem_rows.mp hmrow).1
    simp only at heq
    rw [heq, h₁] at h₂
    exact hn (h₂ ▸ HeapChain.mem_pids hm)

theorem HeapLinks.replace (hnext : hph'.nextHeapPageId = hph.nextHeapPageId)
    (h : HeapLinks head (a ++ (pid, hph) :: b)) : HeapLinks head (a ++ (pid, hph') :: b) := by
  induction a generalizing head with
  | nil => exact ⟨h.1, hnext ▸ h.2⟩
  | cons n a ih => exact ⟨h.1, ih h.2⟩

theorem HeapLinks.snoc {p : Nat} (h : HeapLinks head (a ++ [(pid, hph)]))
    (hnext : hph'.nextHeapPageId = 0) :
    HeapLinks head (a ++ [(pid, { hph with nextHeapPageId := p }), (p, hph')]) := by
  induction a generalizing head with
  | nil => exact ⟨h.1, rfl, hnext⟩
  | cons n a ih => exact ⟨h.1, ih h.2⟩

theorem ChainAt.ne_zero (h : ChainAt st free chain) : ∀ p ∈ chain.pids, p ≠ 0 :=
  fun p hp => (h.held p hp).ne_zero

/-- The chain ends with the last heap page. -/
theorem ChainAt.exists_last (h : ChainAt st free chain) :
    ∃ a hph, chain = a ++ [(st.lastHeapPageId, hph)] := by
  have hlast := h.last
  rcases List.eq_nil_or_concat chain with rfl | ⟨a, n, rfl⟩
  · simp at hlast
  · rw [List.concat_eq_append, HeapChain.pids_append] at hlast
    have hn : n.1 = st.lastHeapPageId := by simpa using hlast
    exact ⟨a, n.2, by rw [← hn]; simp⟩

/-- A walk along the chain ends before it runs out of pages. -/
theorem ChainAt.length_lt (h : ChainAt st free chain) : chain.length < st.header.nextPageId := by
  have hsub : 0 :: chain.pids ⊆ List.range st.header.nextPageId := by
    intro p hp
    rcases List.mem_cons.mp hp with rfl | hp
    · exact List.mem_range.mpr h.freeList.pos
    · exact List.mem_range.mpr (h.held p hp).2.1
  have hnd : (0 :: chain.pids).Nodup :=
    List.nodup_cons.mpr ⟨fun h0 => h.ne_zero 0 h0 rfl, h.nodup⟩
  have hle := (List.subperm_of_subset hnd hsub).length_le
  simp only [HeapChain.pids, List.length_cons, List.length_map, List.length_range] at hle
  omega

theorem HeapInv.ne_zero (h : HeapInv st free rowSize chain) : ∀ p ∈ chain.pids, p ≠ 0 :=
  h.chainAt.ne_zero

theorem HeapInv.exists_last (h : HeapInv st free rowSize chain) :
    ∃ a hph, chain = a ++ [(st.lastHeapPageId, hph)] :=
  h.chainAt.exists_last

theorem HeapInv.length_lt (h : HeapInv st free rowSize chain) :
    chain.length < st.header.nextPageId :=
  h.chainAt.length_lt

/-! ## Finding a page -/

/-- Only what clients do not see, and perhaps the hint, has changed. -/
def Pager.SameRows (st st' : Pager) : Prop :=
  ∃ t hint, st' = { st with trace := t, heapMayHaveFreeSlots := hint }

theorem Pager.SameRows.trans {st'' : Pager} (h : st.SameRows st') (h' : st'.SameRows st'') :
    st.SameRows st'' := by
  obtain ⟨t, b, rfl⟩ := h
  obtain ⟨t', b', rfl⟩ := h'
  exact ⟨t', b', rfl⟩

/-- The walk finds a page with a free slot, or turns the hint off because there is none. -/
theorem findFreeSlotPage_spec (hpages : ∀ n ∈ chain, st.pages n.1 = .heap n.2)
    (hne : ∀ p ∈ chain.pids, p ≠ 0) (hlinks : HeapLinks head chain) {fuel : Nat}
    (hfuel : chain.length < fuel) :
    ∃ pid st', (findFreeSlotPage fuel head).run st = some (pid, st') ∧ st.SameRows st' ∧
      ((∃ n ∈ chain, n.1 = pid ∧ n.2.freeSlotHead ≠ slotNone ∧
          st'.heapMayHaveFreeSlots = st.heapMayHaveFreeSlots) ∨
        pid = 0 ∧ ∀ n ∈ chain, n.2.freeSlotHead = slotNone) := by
  induction chain generalizing head st fuel with
  | nil =>
    obtain ⟨fuel, rfl⟩ : ∃ f, fuel = f + 1 := ⟨fuel - 1, by simp at hfuel; omega⟩
    obtain rfl : head = 0 := hlinks
    refine ⟨0, { st with heapMayHaveFreeSlots := false }, ?_, ⟨_, _, rfl⟩, .inr ⟨rfl, by simp⟩⟩
    simp [findFreeSlotPage]
  | cons n chain ih =>
    obtain ⟨fuel, rfl⟩ : ∃ f, fuel = f + 1 := ⟨fuel - 1, by simp at hfuel; omega⟩
    obtain ⟨rfl, hrest⟩ := hlinks
    have hn0 : n.1 ≠ 0 := hne n.1 (by simp)
    set st₁ := ((st.log (.get n.1)).log (.rlatch n.1)).log (.unlatchR n.1) with hst₁
    have hsame : st.SameRows st₁ := ⟨st₁.trace, _, rfl⟩
    have hread : (readHeap n.1).run ((st.log (.get n.1)).log (.rlatch n.1)) =
        some (n.2, (st.log (.get n.1)).log (.rlatch n.1)) := run_readHeap (hpages n (by simp))
    by_cases hslot : n.2.freeSlotHead = slotNone
    · obtain ⟨pid, st', hrun, hsame', hres⟩ := @ih st₁ n.2.nextHeapPageId
        (fun m hm => hpages m (List.mem_cons_of_mem _ hm))
        (fun p hp => hne p (List.mem_cons_of_mem _ hp)) hrest fuel (by simp at hfuel; omega)
      refine ⟨pid, st', ?_, hsame.trans hsame', ?_⟩
      · rw [← hrun, findFreeSlotPage]
        simp only [if_neg hn0, StateT.run_bind, run_pagerGetPageRlatch, Option.bind_eq_bind,
          Option.bind_some, hread, run_pagerUnlatchR, hslot, ne_eq, not_true_eq_false, if_false,
          hst₁]
      · rcases hres with ⟨m, hm, hpid, hfree, hhint⟩ | ⟨hpid, hnone⟩
        · exact .inl ⟨m, List.mem_cons_of_mem _ hm, hpid, hfree, hhint⟩
        · exact .inr ⟨hpid, List.forall_mem_cons.mpr ⟨hslot, hnone⟩⟩
    · refine ⟨n.1, st₁, ?_, hsame, .inl ⟨n, by simp, rfl, hslot, rfl⟩⟩
      rw [findFreeSlotPage]
      simp only [if_neg hn0, StateT.run_bind, run_pagerGetPageRlatch, Option.bind_eq_bind,
        Option.bind_some, hread, run_pagerUnlatchR, ne_eq, hslot, not_false_eq_true, if_true, hst₁,
        StateT.run_pure, Option.pure_def]

/-- A page with a free slot, or 0 when the heap has none. -/
theorem findReusablePage_spec (h : HeapInv st free rowSize chain) :
    ∃ pid st', findReusablePage.run st = some (pid, st') ∧ st.SameRows st' ∧
      (st'.heapMayHaveFreeSlots = false → ∀ n ∈ chain, n.2.freeSlotHead = slotNone) ∧
      ((∃ n ∈ chain, n.1 = pid ∧ n.2.freeSlotHead ≠ slotNone) ∨
        pid = 0 ∧ ∀ n ∈ chain, n.2.freeSlotHead = slotNone) := by
  by_cases hhint : st.heapMayHaveFreeSlots = true
  · obtain ⟨pid, st', hrun, hsame, hres⟩ :=
      findFreeSlotPage_spec h.pages h.ne_zero h.links h.length_lt
    refine ⟨pid, st', by simp [findReusablePage, hhint, hrun], hsame, ?_, ?_⟩
    · intro hoff
      rcases hres with ⟨n, hn, hpid, hfree, hkeep⟩ | ⟨hpid, hnone⟩
      · rw [hkeep, hhint] at hoff
        cases hoff
      · exact hnone
    · rcases hres with ⟨n, hn, hpid, hfree, -⟩ | hzero
      · exact .inl ⟨n, hn, hpid, hfree⟩
      · exact .inr hzero
  · have hoff : st.heapMayHaveFreeSlots = false := by simpa using hhint
    exact ⟨0, st, by simp [findReusablePage, hoff], ⟨_, _, rfl⟩, h.hint, .inr ⟨rfl, h.hint hoff⟩⟩

/-- `find_heap_page` returns a page on which a row can be placed, or 0 when no page of the chain
has a free slot. -/
theorem findHeapPage_spec (h : HeapInv st free rowSize chain) :
    ∃ pid st', (findHeapPage rowSize).run st = some (pid, st') ∧ st.SameRows st' ∧
      (st'.heapMayHaveFreeSlots = false → ∀ n ∈ chain, n.2.freeSlotHead = slotNone) ∧
      ((∃ n ∈ chain, n.1 = pid ∧ (n.2.freeSlotHead = slotNone →
          rowNeed rowSize ≤ availableSpace st.pageSize n.2)) ∨ pid = 0) := by
  obtain ⟨a, hph, rfl⟩ := h.exists_last
  set tail := st.lastHeapPageId with htail
  have hmem : (tail, hph) ∈ a ++ [(tail, hph)] := by simp
  have hne : tail ≠ 0 := h.ne_zero tail (HeapChain.mem_pids hmem)
  set st₁ := ((st.log (.get tail)).log (.rlatch tail)).log (.unlatchR tail) with hst₁
  have hsame : st.SameRows st₁ := ⟨st₁.trace, _, rfl⟩
  have hread : (readHeap tail).run ((st.log (.get tail)).log (.rlatch tail)) =
      some (hph, (st.log (.get tail)).log (.rlatch tail)) := run_readHeap (h.pages _ hmem)
  by_cases hroom : ¬ hph.freeSlotHead = slotNone ∨
      availableSpace st.pageSize hph ≥ rowNeed rowSize
  · refine ⟨tail, st₁, ?_, hsame, h.hint, .inl ⟨_, hmem, rfl, fun hnone => ?_⟩⟩
    · simp only [findHeapPage, StateT.run_bind, StateT.run_get, Option.pure_def,
        Option.bind_eq_bind, Option.bind_some, ← htail, ne_eq, hne, not_false_eq_true, if_true,
        run_pagerGetPageRlatch, hread, run_pagerUnlatchR, Pager.log_pageSize, hst₁]
      erw [if_pos hroom]
      rfl
    · exact hroom.resolve_left fun hfree => hfree hnone
  · have h₁ : HeapInv st₁ free rowSize (a ++ [(tail, hph)]) :=
      ⟨h.freeList.congr (fun _ _ => rfl) rfl rfl, h.pages, h.links, h.last, h.nodup, h.held,
        h.layout, h.hint⟩
    obtain ⟨pid, st', hrun, hsame', hoff, hres⟩ := findReusablePage_spec h₁
    refine ⟨pid, st', ?_, hsame.trans hsame', hoff, ?_⟩
    · rw [← hrun]
      simp only [findHeapPage, StateT.run_bind, StateT.run_get, Option.pure_def,
        Option.bind_eq_bind, Option.bind_some, ← htail, ne_eq, hne, not_false_eq_true, if_true,
        run_pagerGetPageRlatch, hread, run_pagerUnlatchR, Pager.log_pageSize, hst₁]
      erw [if_neg hroom]
    · rcases hres with ⟨n, hn, hpid, hfree⟩ | ⟨hpid, -⟩
      · exact .inl ⟨n, hn, hpid, fun hnone => absurd hnone hfree⟩
      · exact .inr hpid

/-! ## Changing a page -/

/-- The invariant does not see latches and pins. -/
theorem HeapInv.sameRows (h : HeapInv st free rowSize chain) (hs : st.SameRows st')
    (hhint : st'.heapMayHaveFreeSlots = false → ∀ n ∈ chain, n.2.freeSlotHead = slotNone) :
    HeapInv st' free rowSize chain := by
  obtain ⟨t, b, rfl⟩ := hs
  exact ⟨h.freeList.congr (fun _ _ => rfl) rfl rfl, h.pages, h.links, h.last, h.nodup, h.held,
    h.layout, hhint⟩

/-- A page of the chain gets new contents. -/
theorem ChainAt.setPage (h : ChainAt st free (a ++ (pid, hph) :: b))
    (hnext : hph'.nextHeapPageId = hph.nextHeapPageId)
    (hpages : st'.pages = Function.update st.pages pid (.heap hph'))
    (hheader : st'.header = st.header) (hlast : st'.lastHeapPageId = st.lastHeapPageId) :
    ChainAt st' free (a ++ (pid, hph') :: b) := by
  have hpids : (a ++ (pid, hph') :: b).pids = (a ++ (pid, hph) :: b).pids := by simp
  have hne : ∀ n ∈ a ++ b, n.1 ≠ pid := by
    have hnd := h.nodup
    rw [HeapChain.pids_append, HeapChain.pids_cons, List.nodup_middle, List.nodup_cons] at hnd
    intro n hn heq
    have hmem := HeapChain.mem_pids hn
    rw [HeapChain.pids_append, heq] at hmem
    exact hnd.1 hmem
  constructor
  · refine h.freeList.congr (fun p hp => ?_) (by rw [hheader]) (by rw [hheader])
    rw [hpages, Function.update_of_ne]
    rintro rfl
    exact (h.held p (by simp)).not_mem hp
  · intro n hn
    rcases HeapChain.mem_middle.mp hn with rfl | hn
    · rw [hpages, Function.update_self]
    · rw [hpages, Function.update_of_ne (hne n hn)]
      exact h.pages n (HeapChain.mem_middle.mpr (.inr hn))
  · rw [hheader]
    exact h.links.replace hnext
  · rw [hpids, hlast]
    exact h.last
  · rw [hpids]
    exact h.nodup
  · rw [hpids]
    exact fun p hp => (Pager.Held.congr (by rw [hheader])).mpr (h.held p hp)

theorem HeapInv.setPage (h : HeapInv st free rowSize (a ++ (pid, hph) :: b))
    (hnext : hph'.nextHeapPageId = hph.nextHeapPageId)
    (hlay : ∃ slots, hph'.Layout st.pageSize rowSize slots)
    (hpages : st'.pages = Function.update st.pages pid (.heap hph'))
    (hheader : st'.header = st.header) (hps : st'.pageSize = st.pageSize)
    (hlast : st'.lastHeapPageId = st.lastHeapPageId)
    (hhint : st'.heapMayHaveFreeSlots = false → hph'.freeSlotHead = slotNone ∧
      st.heapMayHaveFreeSlots = false) :
    HeapInv st' free rowSize (a ++ (pid, hph') :: b) := by
  have hat := h.chainAt.setPage hnext hpages hheader hlast
  refine ⟨hat.freeList, hat.pages, hat.links, hat.last, hat.nodup, hat.held, ?_, ?_⟩
  · intro n hn
    rw [hps]
    rcases HeapChain.mem_middle.mp hn with rfl | hn
    · exact hlay
    · exact h.layout n (HeapChain.mem_middle.mpr (.inr hn))
  · intro hoff n hn
    rcases HeapChain.mem_middle.mp hn with rfl | hn
    · exact (hhint hoff).1
    · exact h.hint (hhint hoff).2 n (HeapChain.mem_middle.mpr (.inr hn))

/-- The step of an operation that changes one page of the chain. -/
theorem HeapInv.stepSetPage (h : HeapInv st free rowSize (a ++ (pid, hph) :: b))
    (hpages : st'.pages = Function.update st.pages pid (.heap hph'))
    (hslots : hph.slots.length ≤ hph'.slots.length)
    (hheader : st'.header = st.header) (hps : st'.pageSize = st.pageSize) :
    HeapStep st free (a ++ (pid, hph) :: b) st' free (a ++ (pid, hph') :: b) where
  pids := ⟨[], by simp, by simp, by simp⟩
  pages := by
    intro p hp
    rw [hpages, Function.update_of_ne]
    rintro rfl
    simp at hp
  places := by
    rintro ref ⟨page, hpage, hlt⟩
    rcases List.mem_append.mp hpage with hpage | hpage
    · exact ⟨page, by simp [hpage], hlt⟩
    · rcases List.mem_cons.mp hpage with heq | hpage
      · obtain ⟨hpid, rfl⟩ := Prod.mk.inj heq
        exact ⟨hph', by simp [hpid], lt_of_lt_of_le hlt hslots⟩
      · exact ⟨page, by simp [hpage], hlt⟩
  held := by
    intro p
    have hsame : st'.Held free p ↔ st.Held free p := Pager.Held.congr (by rw [hheader])
    rw [hsame, iff_self_or]
    intro hp
    exact h.held p (by simpa using hp)
  pageSize := hps
  nextPageId_le := by rw [hheader]
  header := by rw [hheader]

/-! ## A new page -/

/-- `linkHeapPage` sets the next pointer of a heap page. -/
theorem run_linkHeapPage (st : Pager) (pid p : Nat) (hne : pid ≠ 0)
    (hpage : st.pages pid = .heap hph) :
    ∃ t, (linkHeapPage pid p).run st = some ((), { st with
      pages := Function.update st.pages pid (.heap { hph with nextHeapPageId := p })
      trace := t }) := by
  have hread : (readHeap pid).run ((st.log (.get pid)).log (.wlatch pid)) =
      some (hph, (st.log (.get pid)).log (.wlatch pid)) := run_readHeap hpage
  refine ⟨.unlatchW pid :: .markDirty pid :: .write pid :: .wlatch pid :: .get pid :: st.trace, ?_⟩
  simp only [linkHeapPage, ne_eq, hne, not_false_eq_true, if_true, StateT.run_bind,
    run_pagerGetPageWlatch, Option.bind_eq_bind, Option.bind_some, hread, run_writePage,
    run_pagerMarkDirty, run_pagerUnlatchW]
  rfl

/-- What `appendHeapPage` leaves: a fresh empty page, to which the last page of the chain links. -/
structure Appended (st : Pager) (free : List Nat) (hph : HeapPage) (pid : Nat) (st' : Pager)
    (free' : List Nat) : Prop where
  freeList : st'.FreeList free'
  not_held : ¬ st.Held free pid
  held : ∀ p, st'.Held free' p ↔ st.Held free p ∨ p = pid
  pages : st'.pages = Function.update
    (Function.update st.pages pid (.heap ⟨0, slotNone, 0, [], List.replicate st.pageSize 0⟩))
    st.lastHeapPageId (.heap { hph with nextHeapPageId := pid })
  pageSize : st'.pageSize = st.pageSize
  nextPageId_le : st.header.nextPageId ≤ st'.header.nextPageId
  header : st'.header = { st.header with
    freePageHead := st'.header.freePageHead, nextPageId := st'.header.nextPageId }
  lastHeapPageId : st'.lastHeapPageId = pid
  hint : st'.heapMayHaveFreeSlots = st.heapMayHaveFreeSlots

theorem run_appendHeapPage (h : st.FreeList free) (hheld : st.Held free st.lastHeapPageId)
    (hpage : st.pages st.lastHeapPageId = .heap hph) :
    (∃ pid st' free', appendHeapPage.run st = some (pid, st') ∧
      Appended st free hph pid st' free') ∨
    (¬ st.HasRoom free 1 ∧ appendHeapPage.run st = none) := by
  set tail := st.lastHeapPageId with htail
  obtain ⟨pid, st₁, free', halloc, hal⟩ | ⟨hroom, hnone⟩ := pagerAllocPage_spec h
  case inr => exact .inr ⟨hroom, by rw [appendHeapPage, run_bind_none hnone]⟩
  left
  set empty : HeapPage := ⟨0, slotNone, 0, [], List.replicate st.pageSize 0⟩ with hempty
  have hfresh : tail ≠ pid := fun heq => hal.not_held (heq ▸ hheld)
  set st₂ := ((((st₁.log (.get pid)).log (.wlatch pid)).setPage pid (.heap empty)).log
    (.markDirty pid)).log (.unlatchW pid) with hst₂
  have hpages₂ : st₂.pages = Function.update st.pages pid (.heap empty) := by
    simp [hst₂, hal.pages]
  have hpage₂ : st₂.pages tail = .heap hph := by
    rw [hpages₂, Function.update_of_ne hfresh]
    exact hpage
  obtain ⟨t, hlink⟩ := run_linkHeapPage st₂ tail pid hheld.ne_zero hpage₂
  set st' : Pager := { st₂ with
    pages := Function.update st₂.pages tail (.heap { hph with nextHeapPageId := pid })
    trace := t
    lastHeapPageId := pid } with hst'
  have hrun : appendHeapPage.run st = some (pid, st') := by
    have hlast₂ : st₂.lastHeapPageId = tail := hal.lastHeapPageId
    have hpsz : st₁.pageSize = st.pageSize := hal.pageSize
    simp only [appendHeapPage, StateT.run_bind, halloc, Option.bind_eq_bind, Option.bind_some,
      run_pagerGetPageWlatch, StateT.run_get, Option.pure_def, Pager.log_pageSize, hpsz,
      run_writePage, run_pagerMarkDirty, run_pagerUnlatchW, ← hempty, ← hst₂, hlast₂, hlink]
    rfl
  have hpages' : st'.pages = Function.update (Function.update st.pages pid (.heap empty)) tail
      (.heap { hph with nextHeapPageId := pid }) := by
    simp only [hst', hpages₂]
  refine ⟨pid, st', free', hrun, hal.freeList.congr (fun p hp => ?_) rfl rfl, hal.not_held,
    hal.held, hpages', hal.pageSize, hal.nextPageId_le, hal.header, rfl,
    hal.heapMayHaveFreeSlots⟩
  have hpid : p ≠ pid := fun heq => ((hal.held p).mpr (.inr heq)).not_mem hp
  have hpt : p ≠ tail := fun heq => ((hal.held p).mpr (.inl (heq ▸ hheld))).not_mem hp
  rw [hpages', Function.update_of_ne hpt, Function.update_of_ne hpid, hal.pages,
    Function.update_of_ne hpid]

/-- A chain that ends with the last page grows by the new one. -/
theorem ChainAt.append (h : ChainAt st free (a ++ [(st.lastHeapPageId, hph)])) {free' : List Nat}
    (happ : Appended st free hph pid st' free') :
    ChainAt st' free' (a ++ [(st.lastHeapPageId, { hph with nextHeapPageId := pid })] ++
      [(pid, ⟨0, slotNone, 0, [], List.replicate st.pageSize 0⟩)]) := by
  set tail := st.lastHeapPageId with htail
  have hmem : (tail, hph) ∈ a ++ [(tail, hph)] := by simp
  have hfresh : ∀ p ∈ HeapChain.pids (a ++ [(tail, hph)]), p ≠ pid :=
    fun p hp heq => happ.not_held (heq ▸ h.held p hp)
  have hnd := h.nodup
  constructor
  · exact happ.freeList
  · intro n hn
    rw [happ.pages, ← htail]
    simp only [List.append_assoc, List.mem_append, List.mem_singleton] at hn
    rcases hn with hn | rfl | rfl
    · have hn' : n ∈ a ++ [(tail, hph)] := by simp [hn]
      have hnt : n.1 ≠ tail := by
        rintro heq
        rw [HeapChain.pids_append, List.nodup_append] at hnd
        exact hnd.2.2 n.1 (HeapChain.mem_pids hn) tail (by simp) heq
      rw [Function.update_of_ne hnt, Function.update_of_ne (hfresh n.1 (HeapChain.mem_pids hn'))]
      exact h.pages n hn'
    · rw [Function.update_self]
    · rw [Function.update_of_ne (hfresh tail (HeapChain.mem_pids hmem)).symm, Function.update_self]
  · rw [happ.header, List.append_assoc]
    exact h.links.snoc rfl
  · simp [happ.lastHeapPageId]
  · rw [HeapChain.pids_append, HeapChain.pids_append, List.nodup_append]
    rw [HeapChain.pids_append] at hnd
    refine ⟨by simpa using hnd, by simp, ?_⟩
    intro p hp q hq
    have hq' : q = pid := by simpa using hq
    rw [hq']
    exact hfresh p (by simpa using hp)
  · intro p hp
    rw [happ.held]
    simp only [HeapChain.pids_append, HeapChain.pids_cons, HeapChain.pids_nil, List.mem_append,
      List.mem_singleton] at hp
    exact hp.imp (fun hp => h.held p (by simpa using hp)) id

/-- A chain grows at its end by an empty page, unless there is none to allocate. -/
theorem appendHeapPage_spec (h : HeapInv st free rowSize chain)
    (hps : heapHeaderSize ≤ st.pageSize) :
    (∃ pid st' free' chain', appendHeapPage.run st = some (pid, st') ∧
      HeapInv st' free' rowSize
        (chain' ++ [(pid, ⟨0, slotNone, 0, [], List.replicate st.pageSize 0⟩)]) ∧
      HeapStep st free chain st' free'
        (chain' ++ [(pid, ⟨0, slotNone, 0, [], List.replicate st.pageSize 0⟩)]) ∧
      (∀ r, heapRows chain' r = heapRows chain r) ∧
      st'.heapMayHaveFreeSlots = st.heapMayHaveFreeSlots ∧
      ∀ n ∈ chain', ∃ m ∈ chain, ∃ next, n.2 = { m.2 with nextHeapPageId := next }) ∨
    (¬ st.HasRoom free 1 ∧ appendHeapPage.run st = none) := by
  obtain ⟨a, hph, rfl⟩ := h.exists_last
  set tail := st.lastHeapPageId with htail
  have hmem : (tail, hph) ∈ a ++ [(tail, hph)] := by simp
  obtain ⟨pid, st', free', hrun, happ⟩ | hnone := run_appendHeapPage h.freeList
    (h.held tail (HeapChain.mem_pids hmem)) (h.pages (tail, hph) hmem)
  case inr => exact .inr hnone
  left
  have hat := h.chainAt.append happ
  refine ⟨pid, st', free', a ++ [(tail, { hph with nextHeapPageId := pid })], hrun,
    ⟨hat.freeList, hat.pages, hat.links, hat.last, hat.nodup, hat.held, ?_, ?_⟩, ?_, ?_, happ.hint,
    ?_⟩
  · intro n hn
    rw [happ.pageSize]
    simp only [List.append_assoc, List.mem_append, List.mem_singleton] at hn
    rcases hn with hn | rfl | rfl
    · exact h.layout n (by simp [hn])
    · obtain ⟨slots, hl⟩ := h.layout _ hmem
      exact ⟨slots, hl.length, hl.offset, hl.space, hl.fits, hl.chain, hl.nodup, hl.free_iff⟩
    · exact ⟨[], layout_empty 0 hps rowSize⟩
  · intro hoff n hn
    rw [happ.hint] at hoff
    simp only [List.append_assoc, List.mem_append, List.mem_singleton] at hn
    rcases hn with hn | rfl | rfl
    · exact h.hint hoff n (by simp [hn])
    · exact h.hint hoff (tail, hph) hmem
    · rfl
  · constructor
    · exact ⟨[pid], by simp, by simp, by simpa using happ.not_held⟩
    · intro p hp
      simp only [HeapChain.pids_append, HeapChain.pids_cons, HeapChain.pids_nil, List.mem_append,
        List.mem_singleton, not_or] at hp
      rw [happ.pages, Function.update_of_ne hp.1.2, Function.update_of_ne hp.2]
    · rintro ref ⟨page, hpage, hlt⟩
      rcases List.mem_append.mp hpage with hpage | hpage
      · exact ⟨page, by simp [hpage], hlt⟩
      · obtain ⟨hpid, rfl⟩ := Prod.mk.inj (List.mem_singleton.mp hpage)
        exact ⟨{ page with nextHeapPageId := pid }, by simp [hpid], hlt⟩
    · intro p
      rw [happ.held]
      simp only [HeapChain.pids_append, HeapChain.pids_cons, HeapChain.pids_nil, List.mem_append,
        List.mem_singleton]
      constructor
      · exact Or.imp_right .inr
      · rintro (hp | hp | rfl)
        · exact .inl hp
        · exact .inl (h.held p (by simpa using hp))
        · exact .inr rfl
    · exact happ.pageSize
    · exact happ.nextPageId_le
    · exact happ.header
  · intro r
    simp [HeapPage.rows]
  · intro n hn
    rcases List.mem_append.mp hn with hn | hn
    · exact ⟨n, List.mem_append_left _ hn, n.2.nextHeapPageId, rfl⟩
    · obtain rfl := List.mem_singleton.mp hn
      exact ⟨_, hmem, pid, rfl⟩

end Chain

end MiniDb
