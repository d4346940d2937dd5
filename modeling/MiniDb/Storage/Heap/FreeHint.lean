import MiniDb.Storage.Reopen

/-! # The hint and the free slots

`heap_may_have_free_slots` lets `find_heap_page` skip the walk along the heap chain. The build with
`MINIDB_DISABLE_FREE_HINT` always walks. Both find the same page as long as no page has a free slot
while the hint is off; that is kept by every call, whatever the sizes of its rows. -/

set_option autoImplicit false

namespace MiniDb

open Lib

/-! ## The build without the hint -/

/-- The walk of `find_heap_page`, which leaves the hint alone. -/
def walkHeapChain : Nat → Nat → PagerM Nat
  | 0, _ => failure
  | fuel + 1, pid => do
    if pid = 0 then
      return 0
    else
      pagerGetPageRlatch pid
      let hph ← readHeap pid
      pagerUnlatchR pid
      if hph.freeSlotHead ≠ slotNone then
        return pid
      else
        walkHeapChain fuel hph.nextHeapPageId

/-- The second half of `find_heap_page`. -/
def walkReusablePage : PagerM Nat := do
  let st ← get
  walkHeapChain st.header.nextPageId st.header.firstHeapPageId

/-- `find_heap_page` with `MINIDB_DISABLE_FREE_HINT`. -/
def findHeapPageNoHint (rowSize : Nat) : PagerM Nat := do
  let tail := (← get).lastHeapPageId
  if tail ≠ 0 then
    pagerGetPageRlatch tail
    let hph ← readHeap tail
    pagerUnlatchR tail
    if hph.freeSlotHead ≠ slotNone ∨ availableSpace (← get).pageSize hph ≥ rowNeed rowSize then
      return tail
    else
      walkReusablePage
  else
    walkReusablePage

/-- `heap_insert` over it. -/
def heapInsertNoHint (rounds : Nat) (rowData : List UInt8) : PagerM RowRef := do
  let pid ← findHeapPageNoHint rowData.length
  if pid = 0 then
    let pid ← appendHeapPage
    retryInsert rowData rounds pid
  else
    retryInsert rowData rounds pid

/-! ## Free slots of a page -/

/-- The chain of free slots meets exactly the free slots. -/
structure HeapPage.Threaded (hph : HeapPage) (free : List Nat) : Prop where
  chain : FreeSlots hph.slots hph.freeSlotHead free
  nodup : free.Nodup
  free_iff : ∀ i s, hph.slots[i]? = some s → (s.status = .free ↔ i ∈ free)
  small : hph.slots.length < slotNone

section Page

variable {hph hph' : HeapPage} {free : List Nat} {row : List UInt8} {i pageSize : Nat} {s : Slot}

theorem threaded_empty (next space : Nat) (data : List UInt8) :
    HeapPage.Threaded ⟨next, slotNone, space, [], data⟩ [] :=
  ⟨rfl, List.nodup_nil, nofun, Nat.zero_lt_succ _⟩

/-- Without a head of the chain there is no free slot. -/
theorem HeapPage.Threaded.not_free (h : hph.Threaded free) (hnone : hph.freeSlotHead = slotNone) :
    ∀ s ∈ hph.slots, s.status ≠ .free := by
  intro s hs hfree
  obtain ⟨i, hi⟩ := List.mem_iff_getElem?.mp hs
  have hmem := (h.free_iff i s hi).mp hfree
  have hchain := h.chain
  cases free with
  | nil => cases hmem
  | cons j free =>
    have hlt := h.chain.lt j List.mem_cons_self
    rw [← hchain.1, hnone] at hlt
    exact absurd (hlt.trans h.small) (lt_irrefl _)

theorem slots_writeRow {offset : Nat} (h : hph.writeRow offset row = some hph') :
    hph' = { hph with data := hph'.data } ∧
      heapHeaderSize + hph.slots.length * slotSize ≤ offset := by
  unfold HeapPage.writeRow at h
  obtain ⟨u, hdir, h⟩ := Option.bind_eq_some_iff.mp h
  obtain ⟨v, hend, h⟩ := Option.bind_eq_some_iff.mp h
  obtain rfl := Option.some.inj h
  refine ⟨rfl, ?_⟩
  unfold guard at hdir
  split at hdir
  · assumption
  · cases hdir

/-- A page keeps its link, and gets no free slot. -/
theorem placeRow_head {slotId : Nat} (hrun : placeRow pageSize hph row = some (slotId, hph')) :
    hph'.nextHeapPageId = hph.nextHeapPageId ∧
      (hph.freeSlotHead = slotNone → hph'.freeSlotHead = slotNone) := by
  unfold placeRow at hrun
  split at hrun
  · rename_i hhead
    obtain ⟨s, -, hrun⟩ := Option.bind_eq_some_iff.mp hrun
    obtain ⟨hph₁, hwrite, hrun⟩ := Option.bind_eq_some_iff.mp hrun
    obtain ⟨-, rfl⟩ := Prod.mk.inj (Option.some.inj hrun)
    obtain ⟨heq, -⟩ := slots_writeRow hwrite
    have hnext : hph₁.nextHeapPageId = hph.nextHeapPageId := by rw [heq]
    exact ⟨hnext, fun hnone => absurd hnone hhead⟩
  · obtain ⟨hph₁, hwrite, hrun⟩ := Option.bind_eq_some_iff.mp hrun
    obtain ⟨-, rfl⟩ := Prod.mk.inj (Option.some.inj hrun)
    obtain ⟨heq, -⟩ := slots_writeRow hwrite
    have hnext : hph₁.nextHeapPageId = hph.nextHeapPageId := by rw [heq]
    have hhead : hph₁.freeSlotHead = hph.freeSlotHead := by rw [heq]
    exact ⟨hnext, hhead.trans⟩

/-- A row put into a page takes the first free slot or a new one. -/
theorem HeapPage.Threaded.placeRow {slotId : Nat} (h : hph.Threaded free)
    (hrun : placeRow pageSize hph row = some (slotId, hph')) :
    ∃ free', hph'.Threaded free' := by
  unfold MiniDb.placeRow at hrun
  split at hrun
  · rename_i hhead
    obtain ⟨s, hs, hrun⟩ := Option.bind_eq_some_iff.mp hrun
    obtain ⟨hph₁, hwrite, hrun⟩ := Option.bind_eq_some_iff.mp hrun
    obtain ⟨rfl, rfl⟩ := Prod.mk.inj (Option.some.inj hrun)
    obtain ⟨heq, -⟩ := slots_writeRow hwrite
    have hslots : hph₁.slots = hph.slots := by rw [heq]
    -- the head of the chain is taken
    have hchain := h.chain
    cases free with
    | nil => exact absurd hchain hhead
    | cons j free =>
      obtain ⟨rfl, t, ht, hrest⟩ := hchain
      obtain rfl : s = t := Option.some.inj (hs.symm.trans ht)
      obtain ⟨hnot, hnodup⟩ := List.nodup_cons.mp h.nodup
      refine ⟨free, ?_, hnodup, ?_, ?_⟩
      · apply hrest.congr
        intro k hk
        rw [hslots]
        have hne : hph.freeSlotHead ≠ k := fun heq => hnot (heq ▸ hk)
        exact List.getElem?_set_ne hne
      · intro k t hk
        rw [hslots] at hk
        rcases getElem?_set_status hk with ⟨rfl, rfl⟩ | ⟨hne, hk⟩
        · simp [hnot]
        · rw [h.free_iff k t hk, List.mem_cons, or_iff_right hne]
      · rw [hslots, List.length_set]
        exact h.small
  · rename_i hhead
    have hnone : hph.freeSlotHead = slotNone := not_not.mp hhead
    obtain ⟨hph₁, hwrite, hrun⟩ := Option.bind_eq_some_iff.mp hrun
    obtain ⟨rfl, rfl⟩ := Prod.mk.inj (Option.some.inj hrun)
    obtain ⟨heq, hdir⟩ := slots_writeRow hwrite
    have hslots : hph₁.slots = hph.slots ++
        [⟨u16 (pageSize - hph.freeSpaceOffset - row.length), .alive, slotNone⟩] := by rw [heq]
    have hhead₁ : hph₁.freeSlotHead = hph.freeSlotHead := by rw [heq]
    have hnil : free = [] := by
      cases free with
      | nil => rfl
      | cons j free =>
        have hlt := h.chain.lt j List.mem_cons_self
        rw [← h.chain.1, hnone] at hlt
        exact absurd (hlt.trans h.small) (lt_irrefl _)
    subst hnil
    refine ⟨[], hhead₁.trans hnone, List.nodup_nil, ?_, ?_⟩
    · intro k t hk
      have hk' : hph₁.slots[k]? = some t := hk
      rw [hslots, List.getElem?_append] at hk'
      split at hk'
      · exact h.free_iff k t hk'
      · have hmem := List.mem_of_getElem? hk'
        obtain rfl := List.mem_singleton.mp hmem
        simp
    · -- the directory with the new slot ends at a 16-bit offset
      have hlt : ∀ x : Int, u16 x < 65536 := by
        intro x
        simp only [u16]
        omega
      have hoff := hlt (pageSize - hph.freeSpaceOffset - row.length)
      simp only [List.length_append, List.length_singleton, heapHeaderSize, slotSize] at hdir
      show hph₁.slots.length < slotNone
      rw [hslots, List.length_append, List.length_singleton]
      simp only [slotNone]
      omega

/-- A deletion puts its slot in front of the chain. -/
theorem HeapPage.Threaded.freeSlot (h : hph.Threaded free) (hs : hph.slots[i]? = some s)
    (halive : s.status = .alive) : (hph.freeSlot i s).Threaded (i :: free) := by
  have hlt := (List.getElem?_eq_some_iff.mp hs).1
  have hnot : i ∉ free := by
    rw [← h.free_iff i s hs, halive]
    simp
  refine ⟨⟨rfl, _, List.getElem?_set_self hlt, h.chain.congr fun j hj => ?_⟩,
    List.nodup_cons.mpr ⟨hnot, h.nodup⟩, ?_, ?_⟩
  · have hij : i ≠ j := fun hij => hnot (hij ▸ hj)
    exact List.getElem?_set_ne hij
  · intro j t ht
    rcases getElem?_set_status ht with ⟨rfl, rfl⟩ | ⟨hne, ht⟩
    · simp
    · rw [h.free_iff j t ht, List.mem_cons, or_iff_right hne]
  · show (hph.slots.set i _).length < slotNone
    rw [List.length_set]
    exact h.small

end Page

/-! ## The heap chain -/

/-- The chain of heap pages, whatever the sizes of their rows: its ends are known, its pages are
held, and while the hint is off none of them has a free slot. -/
structure SlotChain (st : Pager) (free : List Nat) (chain : HeapChain) : Prop
    extends ChainAt st free chain where
  /-- only the pages of the free list are marked free -/
  unmarked : ∀ p, st.Held free p → ∀ next, st.pages p ≠ .free next
  threaded : ∀ n ∈ chain, ∃ slots, n.2.Threaded slots
  hint : st.heapMayHaveFreeSlots = false → ∀ n ∈ chain, n.2.freeSlotHead = slotNone

/-- The pager has such a chain. -/
def SlotsHinted (st : Pager) : Prop := ∃ free chain, SlotChain st free chain

/-- The pages of the heap chain have no free slot. -/
def NoFreeSlot (st : Pager) : Prop :=
  ∃ chain : HeapChain, HeapLinks st.header.firstHeapPageId chain ∧
    (∀ n ∈ chain, st.pages n.1 = .heap n.2) ∧ ∀ n ∈ chain, ∀ s ∈ n.2.slots, s.status ≠ .free

section Chain

variable {st st' : Pager} {free : List Nat} {chain : HeapChain} {pid : Nat} {hph hph' : HeapPage}

theorem SlotsHinted.noFreeSlot (h : SlotsHinted st) (hoff : st.heapMayHaveFreeSlots = false) :
    NoFreeSlot st := by
  obtain ⟨free, chain, hchain⟩ := h
  refine ⟨chain, hchain.links, hchain.pages, fun n hn => ?_⟩
  obtain ⟨slots, hslots⟩ := hchain.threaded n hn
  exact hslots.not_free (hchain.hint hoff n hn)

theorem SlotChain.sameRows (h : SlotChain st free chain) (hs : st.SameRows st')
    (hhint : st'.heapMayHaveFreeSlots = false → ∀ n ∈ chain, n.2.freeSlotHead = slotNone) :
    SlotChain st' free chain := by
  obtain ⟨t, b, rfl⟩ := hs
  exact ⟨⟨h.freeList.congr (fun _ _ => rfl) rfl rfl, h.pages, h.links, h.last, h.nodup, h.held⟩,
    h.unmarked, h.threaded, hhint⟩

/-- Events do not change the chain. -/
theorem SlotsHinted.log (h : SlotsHinted st) (e : PagerEvent) : SlotsHinted (st.log e) := by
  obtain ⟨free, chain, hchain⟩ := h
  exact ⟨free, chain, hchain.sameRows ⟨_, _, rfl⟩ hchain.hint⟩

/-- Nor does a new schema. -/
theorem SlotsHinted.setSchema (h : SlotsHinted st) (columns : List ColumnMeta) (rowSize : Nat) :
    SlotsHinted (st.setHeader { st.header with columns, rowSize }) := by
  obtain ⟨free, chain, hchain⟩ := h
  exact ⟨free, chain, ⟨hchain.freeList.congr (fun _ _ => rfl) rfl rfl, hchain.pages, hchain.links,
    hchain.last, hchain.nodup, hchain.held⟩, hchain.unmarked, hchain.threaded, hchain.hint⟩

/-- A heap page, on the chain or not, gets new slots. -/
theorem SlotsHinted.setPage (h : SlotsHinted st) (hpage : st.pages pid = .heap hph)
    (hnext : hph'.nextHeapPageId = hph.nextHeapPageId)
    (hthread : ∀ slots, hph.Threaded slots → ∃ slots', hph'.Threaded slots')
    (hpages : st'.pages = Function.update st.pages pid (.heap hph'))
    (hheader : st'.header = st.header) (hlast : st'.lastHeapPageId = st.lastHeapPageId)
    (hhint : st'.heapMayHaveFreeSlots = false → st.heapMayHaveFreeSlots = false ∧
      (hph.freeSlotHead = slotNone → hph'.freeSlotHead = slotNone)) : SlotsHinted st' := by
  obtain ⟨free, chain, hchain⟩ := h
  have hmarked : ∀ p, st'.Held free p → ∀ next, st'.pages p ≠ .free next := by
    intro p hp next
    rw [hpages]
    by_cases hpid : p = pid
    · rw [hpid, Function.update_self]
      nofun
    · rw [Function.update_of_ne hpid]
      exact hchain.unmarked p ((Pager.Held.congr (by rw [hheader])).mp hp) next
  by_cases hmem : pid ∈ chain.pids
  · -- the page of the chain is replaced in its place
    obtain ⟨n, hn, rfl⟩ := List.mem_map.mp hmem
    obtain ⟨a, b, rfl⟩ := List.append_of_mem hn
    obtain rfl : n.2 = hph := Page.heap.inj ((hchain.pages n hn).symm.trans hpage)
    refine ⟨free, a ++ (n.1, hph') :: b, hchain.toChainAt.setPage hnext hpages hheader hlast,
      hmarked, ?_, ?_⟩
    · intro m hm
      rcases HeapChain.mem_middle.mp hm with rfl | hm
      · obtain ⟨slots, hslots⟩ := hchain.threaded n hn
        exact hthread slots hslots
      · exact hchain.threaded m (HeapChain.mem_middle.mpr (.inr hm))
    · intro hoff m hm
      obtain ⟨hoff₀, hhead⟩ := hhint hoff
      rcases HeapChain.mem_middle.mp hm with rfl | hm
      · exact hhead (hchain.hint hoff₀ n hn)
      · exact hchain.hint hoff₀ m (HeapChain.mem_middle.mpr (.inr hm))
  · -- a page off the chain
    have hnotfree : pid ∉ free := by
      intro hin
      obtain ⟨next, hfree⟩ := hchain.freeList.chain.page hin
      rw [hpage] at hfree
      cases hfree
    refine ⟨free, chain, ⟨hchain.freeList.congr (fun p hp => ?_) (by rw [hheader])
      (by rw [hheader]), fun n hn => ?_, ?_, ?_, hchain.nodup, fun p hp => ?_⟩, hmarked,
      hchain.threaded, fun hoff => hchain.hint (hhint hoff).1⟩
    · have hne : p ≠ pid := fun heq => hnotfree (heq ▸ hp)
      rw [hpages, Function.update_of_ne hne]
    · have hne : n.1 ≠ pid := fun heq => hmem (heq ▸ HeapChain.mem_pids hn)
      rw [hpages, Function.update_of_ne hne]
      exact hchain.pages n hn
    · rw [hheader]
      exact hchain.links
    · rw [hlast]
      exact hchain.last
    · exact (Pager.Held.congr (by rw [hheader])).mpr (hchain.held p hp)

/-- The chain gets a new last page. -/
theorem SlotsHinted.appendHeapPage (h : SlotsHinted st)
    (hrun : appendHeapPage.run st = some (pid, st')) : SlotsHinted st' := by
  obtain ⟨free, chain, hchain⟩ := h
  obtain ⟨a, hph, rfl⟩ := hchain.exists_last
  set tail := st.lastHeapPageId with htail
  have hmem : (tail, hph) ∈ a ++ [(tail, hph)] := by simp
  obtain ⟨pid', st'', free', hrun', happ⟩ | ⟨-, hnone⟩ := run_appendHeapPage hchain.freeList
    (hchain.held tail (HeapChain.mem_pids hmem)) (hchain.pages (tail, hph) hmem)
  case inr =>
    rw [hnone] at hrun
    cases hrun
  obtain ⟨rfl, rfl⟩ := Prod.mk.inj (Option.some.inj (hrun.symm.trans hrun'))
  refine ⟨free', _, hchain.toChainAt.append happ, ?_, ?_, ?_⟩
  · intro p hp next
    rw [happ.pages, ← htail]
    by_cases hpt : p = tail
    · rw [hpt, Function.update_self]
      nofun
    · rw [Function.update_of_ne hpt]
      by_cases hpid : p = pid
      · rw [hpid, Function.update_self]
        nofun
      · rw [Function.update_of_ne hpid]
        exact hchain.unmarked p (((happ.held p).mp hp).resolve_right hpid) next
  · intro n hn
    simp only [List.append_assoc, List.mem_append, List.mem_singleton] at hn
    rcases hn with hn | rfl | rfl
    · exact hchain.threaded n (by simp [hn])
    · obtain ⟨slots, hl⟩ := hchain.threaded _ hmem
      exact ⟨slots, hl.chain, hl.nodup, hl.free_iff, hl.small⟩
    · exact ⟨[], threaded_empty 0 0 _⟩
  · intro hoff n hn
    rw [happ.hint] at hoff
    simp only [List.append_assoc, List.mem_append, List.mem_singleton] at hn
    rcases hn with hn | rfl | rfl
    · exact hchain.hint hoff n (by simp [hn])
    · exact hchain.hint hoff (tail, hph) hmem
    · rfl

end Chain

/-! ## Finding a page with and without the hint -/

/-- The two walks differ in the hint they leave. -/
theorem findFreeSlotPage_agrees (fuel pid : Nat) :
    Agrees Pager.SameRows (findFreeSlotPage fuel pid) (walkHeapChain fuel pid) := by
  induction fuel generalizing pid with
  | zero => exact agrees_failure
  | succ fuel ih =>
    rw [findFreeSlotPage, walkHeapChain]
    split
    · -- the end of the chain, where only one of them writes
      rintro st _ ⟨t, b, rfl⟩
      exact .some ⟨rfl, _, _, rfl⟩
    · apply (blind_pagerGetPageRlatch pid).bind
      intro _
      apply (blind_readHeap pid).bind
      intro hph
      apply (blind_pagerUnlatchR pid).bind
      intro _
      split
      · exact blind_pure pid
      · exact ih _

section Find

variable {st t : Pager} {rowSize : Nat}

theorem SlotsHinted.findReusablePage (h : SlotsHinted st) (hst : st.SameRows t) :
    ∃ pid st' t', findReusablePage.run st = some (pid, st') ∧
      walkReusablePage.run t = some (pid, t') ∧ st'.SameRows t' ∧ SlotsHinted st' := by
  obtain ⟨free, chain, hchain⟩ := h
  obtain ⟨pid, st', hrun, hsame, hres⟩ := findFreeSlotPage_spec hchain.pages hchain.ne_zero
    hchain.links hchain.length_lt
  obtain ⟨t', hwalk, hst'⟩ := (findFreeSlotPage_agrees _ _).of_run hst hrun
  have hwalk' : walkReusablePage.run t = some (pid, t') := by
    obtain ⟨tr, b, rfl⟩ := hst
    exact hwalk
  by_cases hhint : st.heapMayHaveFreeSlots = true
  · refine ⟨pid, st', t', ?_, hwalk', hst', free, chain, hchain.sameRows hsame fun hoff => ?_⟩
    · rw [MiniDb.findReusablePage, run_bind_get, if_pos hhint]
      exact hrun
    · rcases hres with ⟨-, -, -, -, hkeep⟩ | ⟨-, hnone⟩
      · rw [hkeep, hhint] at hoff
        cases hoff
      · exact hnone
  · -- without the hint there is nothing to find
    have hoff : st.heapMayHaveFreeSlots = false := by simpa using hhint
    have hpid : pid = 0 := by
      rcases hres with ⟨n, hn, -, hfree, -⟩ | ⟨hpid, -⟩
      · exact absurd (hchain.hint hoff n hn) hfree
      · exact hpid
    subst hpid
    refine ⟨0, st, t', ?_, hwalk', hsame.trans hst', free, chain, hchain⟩
    rw [MiniDb.findReusablePage, run_bind_get, if_neg hhint]
    rfl

theorem SlotsHinted.findHeapPage (h : SlotsHinted st) (hst : st.SameRows t) :
    ∃ pid st' t', (findHeapPage rowSize).run st = some (pid, st') ∧
      (findHeapPageNoHint rowSize).run t = some (pid, t') ∧ st'.SameRows t' ∧
      SlotsHinted st' := by
  obtain ⟨free, chain, hchain⟩ := id h
  obtain ⟨a, hph, rfl⟩ := hchain.exists_last
  have hmem : (st.lastHeapPageId, hph) ∈ a ++ [(st.lastHeapPageId, hph)] := by simp
  have hne : st.lastHeapPageId ≠ 0 := hchain.ne_zero _ (HeapChain.mem_pids hmem)
  have hread : ∀ s : Pager, s.pages = st.pages →
      (readHeap st.lastHeapPageId).run s = some (hph, s) :=
    fun s hs => run_readHeap ((congrFun hs _).trans (hchain.pages _ hmem))
  obtain ⟨tr, b, rfl⟩ := hst
  rw [MiniDb.findHeapPage, run_bind_get, findHeapPageNoHint, run_bind_get]
  dsimp only
  rw [if_pos hne, if_pos hne, run_bind_of run_pagerGetPageRlatch,
    run_bind_of run_pagerGetPageRlatch, run_bind_of (hread (st.log _ |>.log _) rfl),
    run_bind_of (hread (Pager.log _ _ |>.log _) (by rfl)),
    run_bind_of run_pagerUnlatchR, run_bind_of run_pagerUnlatchR, run_bind_get, run_bind_get]
  by_cases hroom : hph.freeSlotHead ≠ slotNone ∨
      availableSpace st.pageSize hph ≥ rowNeed rowSize
  · erw [if_pos hroom, if_pos hroom]
    exact ⟨_, _, _, rfl, rfl, ⟨_, _, rfl⟩, ((h.log _).log _).log _⟩
  · erw [if_neg hroom, if_neg hroom]
    exact (((h.log _).log _).log _).findReusablePage ⟨_, _, rfl⟩

end Find

/-! ## The calls keep the chain -/

section Calls

variable {st st' t : Pager} {row : List UInt8} {rounds pid : Nat} {ref : RowRef}

theorem SlotsHinted.retryInsert (h : SlotsHinted st)
    (hrun : (retryInsert row rounds pid).run st = some (ref, st')) : SlotsHinted st' := by
  induction rounds generalizing st pid with
  | zero => cases hrun
  | succ rounds ih =>
    rw [MiniDb.retryInsert, run_bind_of run_pagerGetPageWlatch] at hrun
    obtain ⟨hph, st₁, hread, hrun⟩ := run_bind_eq_some.mp hrun
    obtain ⟨hpage, rfl⟩ := run_readHeap_eq_some.mp hread
    rw [run_bind_get] at hrun
    dsimp only at hrun
    split at hrun
    · -- the page is full
      rw [run_bind_of run_pagerUnlatchW] at hrun
      obtain ⟨pid', st₂, happ, hrest⟩ := run_bind_eq_some.mp hrun
      exact ih ((((h.log _).log _).log _).appendHeapPage happ) hrest
    · split at hrun
      · rename_i slotId hph' hplace
        rw [run_bind_of run_writePage, run_bind_of run_pagerMarkDirty,
          run_bind_of run_pagerUnlatchW] at hrun
        obtain ⟨-, rfl⟩ := run_pure_eq_some.mp hrun
        obtain ⟨hnext, hhead⟩ := placeRow_head hplace
        exact h.setPage hpage hnext (fun slots hslots => hslots.placeRow hplace) rfl rfl rfl
          fun hoff => ⟨hoff, hhead⟩
      · cases hrun

/-- A deletion turns the hint on. -/
theorem SlotsHinted.heapDelete {rc : Int} (h : SlotsHinted st)
    (hrun : (heapDelete ref).run st = some (rc, st')) : SlotsHinted st' := by
  rw [MiniDb.heapDelete, run_bind_of run_pagerGetPageWlatch] at hrun
  obtain ⟨hph, st₁, hread, hrun⟩ := run_bind_eq_some.mp hrun
  obtain ⟨hpage, rfl⟩ := run_readHeap_eq_some.mp hread
  split at hrun
  · rename_i slot hslot
    split at hrun
    · rename_i halive
      rw [run_bind_of run_writePage, run_bind_of run_pagerMarkDirty,
        run_bind_of run_pagerUnlatchW] at hrun
      obtain ⟨u, st₂, hmod, hdone⟩ := run_bind_eq_some.mp hrun
      obtain rfl := run_modify_eq_some.mp hmod
      obtain ⟨-, rfl⟩ := run_pure_eq_some.mp hdone
      have hnext : (hph.freeSlot ref.slotId slot).nextHeapPageId = hph.nextHeapPageId := rfl
      exact h.setPage hpage hnext (fun slots hslots => ⟨_, hslots.freeSlot hslot halive⟩) rfl rfl
        rfl nofun
    · rw [run_bind_of run_pagerUnlatchW] at hrun
      obtain ⟨-, rfl⟩ := run_pure_eq_some.mp hrun
      exact ((h.log _).log _).log _
  · cases hrun

/-- Opening the file again turns the hint on where there is a free slot. -/
theorem SlotsHinted.reopen (h : SlotsHinted st) (hrun : pagerReopen.run st = some ((), st')) :
    SlotsHinted st' := by
  obtain ⟨free, chain, hchain⟩ := h
  obtain ⟨tr, hopen⟩ := hchain.toChainAt.reopen
  obtain ⟨-, rfl⟩ := Prod.mk.inj (Option.some.inj (hopen.symm.trans hrun))
  refine ⟨free, chain, hchain.sameRows ⟨_, _, rfl⟩ fun hoff n hn => ?_⟩
  have hnone : chain.any (fun n => n.2.freeSlotHead ≠ slotNone) = false := hoff
  rw [List.any_eq_false] at hnone
  simpa using hnone n hn

/-- The page found is the same, and so is all that follows. -/
theorem heapInsert_agrees (rounds : Nat) (row : List UInt8) :
    Agrees (fun st t => SlotsHinted st ∧ st.SameRows t) (heapInsert rounds row)
      (heapInsertNoHint rounds row) := by
  rintro st t ⟨h, hst⟩
  obtain ⟨pid, st', t', hfind, hwalk, hst', h'⟩ := h.findHeapPage hst
  rw [heapInsert, heapInsertNoHint, run_bind_of hfind, run_bind_of hwalk]
  have hretry : ∀ pid, Agrees (fun st t => SlotsHinted st ∧ st.SameRows t)
      (retryInsert row rounds pid) (retryInsert row rounds pid) :=
    fun pid => (blind_retryInsert row rounds pid).and fun _ _ _ hs hrun => hs.retryInsert hrun
  by_cases hpid : pid = 0
  · rw [if_pos hpid]
    have happ : Agrees (fun st t => SlotsHinted st ∧ st.SameRows t) appendHeapPage
        appendHeapPage := by
      apply blind_appendHeapPage.and
      intro s a s' hs hrun
      exact hs.appendHeapPage hrun
    exact (happ.bind hretry) st' t' ⟨h', hst'⟩
  · rw [if_neg hpid]
    exact hretry pid st' t' ⟨h', hst'⟩

end Calls

end MiniDb
