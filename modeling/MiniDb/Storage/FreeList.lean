import MiniDb.Storage.Pager

/-! # The free list and page ownership

Freed pages form a singly linked list from `header.free_page_head`. A page is *held* when it is a
real page of the file (neither the header page nor past `next_page_id`) and not on the free list.
`pagerAllocPage_spec` and `pagerFreePage_spec` say what the two calls do to the held pages: one
more, one less. -/

set_option autoImplicit false

namespace MiniDb

/-- Walking `next_free_page` from `head` visits exactly `free` and ends at 0. -/
def FreeChain (g : Nat → Page) : Nat → List Nat → Prop
  | head, [] => head = 0
  | head, p :: ps => head = p ∧ p ≠ 0 ∧ ∃ next, g p = .free next ∧ FreeChain g next ps

/-- The free list of a pager is well formed and consists of the pages `free`. -/
structure Pager.FreeList (st : Pager) (free : List Nat) : Prop where
  chain : FreeChain st.pages st.header.freePageHead free
  nodup : free.Nodup
  lt : ∀ p ∈ free, p < st.header.nextPageId
  pos : 0 < st.header.nextPageId

/-- The page is in use. -/
def Pager.Held (st : Pager) (free : List Nat) (p : Nat) : Prop :=
  p ≠ 0 ∧ p < st.header.nextPageId ∧ p ∉ free

/-- There are `n` more pages to allocate: free ones, and ids behind the file. -/
def Pager.HasRoom (st : Pager) (free : List Nat) (n : Nat) : Prop :=
  st.header.nextPageId + n < pageIdCount + free.length

instance (st : Pager) (free : List Nat) (n : Nat) : Decidable (st.HasRoom free n) :=
  inferInstanceAs (Decidable (_ < _))

section

variable {g g' : Nat → Page} {st st' : Pager} {free : List Nat} {pid p head : Nat}

theorem FreeChain.congr (h : ∀ p ∈ free, g' p = g p) :
    ∀ {head : Nat}, FreeChain g head free → FreeChain g' head free := by
  induction free with
  | nil => exact fun h => h
  | cons p ps ih =>
    rintro head ⟨h1, h2, next, h3, h4⟩
    refine ⟨h1, h2, next, (h p (by simp)).trans h3, ih ?_ h4⟩
    intro q hq
    exact h q (List.mem_cons_of_mem _ hq)

theorem FreeChain.head_eq_zero {free : List Nat} (h : FreeChain g head free) :
    head = 0 ↔ free = [] := by
  cases free with
  | nil => exact iff_of_true h rfl
  | cons p ps =>
    obtain ⟨rfl, hp, -⟩ := h
    exact iff_of_false hp (List.cons_ne_nil _ _)

theorem FreeChain.ne_zero (h : FreeChain g head free) : ∀ p ∈ free, p ≠ 0 := by
  induction free generalizing head with
  | nil => simp
  | cons q ps ih =>
    obtain ⟨-, hq, next, -, hrest⟩ := h
    intro p hp
    rcases List.mem_cons.mp hp with rfl | hp
    · exact hq
    · exact ih hrest p hp

theorem FreeChain.page (h : FreeChain g head free) (hp : p ∈ free) : ∃ next, g p = .free next := by
  induction free generalizing head with
  | nil => cases hp
  | cons q ps ih =>
    obtain ⟨-, -, next, hpage, hrest⟩ := h
    rcases List.mem_cons.mp hp with rfl | hp
    · exact ⟨next, hpage⟩
    · exact ih hrest hp

/-- The free list survives every change to pages that are not on it. -/
theorem Pager.FreeList.congr (h : st.FreeList free) (hpages : ∀ p ∈ free, st'.pages p = st.pages p)
    (hhead : st'.header.freePageHead = st.header.freePageHead)
    (hnext : st'.header.nextPageId = st.header.nextPageId) : st'.FreeList free where
  chain := by rw [hhead]; exact h.chain.congr hpages
  nodup := h.nodup
  lt := by rw [hnext]; exact h.lt
  pos := by rw [hnext]; exact h.pos

theorem Pager.Held.congr (hnext : st'.header.nextPageId = st.header.nextPageId) :
    st'.Held free p ↔ st.Held free p := by
  simp only [Pager.Held, hnext]

theorem Pager.Held.not_mem (h : st.Held free p) : p ∉ free := h.2.2

theorem Pager.Held.ne_zero (h : st.Held free p) : p ≠ 0 := h.1

end

theorem Pager.HasRoom.mono {st : Pager} {free : List Nat} {m n : Nat} (h : st.HasRoom free n)
    (hle : m ≤ n) : st.HasRoom free m := by
  unfold Pager.HasRoom at *
  omega

/-- The outcome of `pagerAllocPage`: `pid` was not held and now is, its page is zero, and nothing
else has changed. -/
structure Allocated (st : Pager) (free : List Nat) (pid : Nat) (st' : Pager) (free' : List Nat) :
    Prop where
  freeList : st'.FreeList free'
  ne_zero : pid ≠ 0
  not_held : ¬ st.Held free pid
  held : ∀ p, st'.Held free' p ↔ st.Held free p ∨ p = pid
  room : ∀ n, st.HasRoom free (n + 1) → st'.HasRoom free' n
  pages : st'.pages = Function.update st.pages pid .zero
  pageSize : st'.pageSize = st.pageSize
  lastHeapPageId : st'.lastHeapPageId = st.lastHeapPageId
  heapMayHaveFreeSlots : st'.heapMayHaveFreeSlots = st.heapMayHaveFreeSlots
  nextPageId_le : st.header.nextPageId ≤ st'.header.nextPageId
  header : st'.header = { st.header with
    freePageHead := st'.header.freePageHead, nextPageId := st'.header.nextPageId }

/-- An allocation gives a page, unless there is no id left. -/
theorem pagerAllocPage_spec {st : Pager} {free : List Nat} (h : st.FreeList free) :
    (∃ pid st' free', pagerAllocPage.run st = some (pid, st') ∧
      Allocated st free pid st' free') ∨
    (¬ st.HasRoom free 1 ∧ pagerAllocPage.run st = none) := by
  cases free with
  | nil =>
    have hhead : st.header.freePageHead = 0 := h.chain
    by_cases hids : st.header.nextPageId + 1 < pageIdCount
    case neg =>
      refine .inr ⟨hids, ?_⟩
      unfold pagerAllocPage guard
      show (if st.header.freePageHead ≠ 0 then _ else _ : PagerM Nat).run st = none
      rw [if_neg (not_not.mpr hhead), if_neg hids]
      rfl
    left
    refine ⟨st.header.nextPageId, _, [],
      by unfold pagerAllocPage guard; simp [hhead, hids]; rfl, ?_⟩
    refine ⟨⟨rfl, List.nodup_nil, by simp, Nat.succ_pos _⟩, ?_, ?_, ?_, ?_, rfl, rfl, rfl, rfl,
      Nat.le_succ _, rfl⟩
    · exact Nat.pos_iff_ne_zero.mp h.pos
    · simp [Pager.Held]
    · intro p
      have := h.pos
      simp only [Pager.Held, Pager.log_header, Pager.setPage_header, Pager.setHeader_header,
        List.not_mem_nil, not_false_eq_true, and_true]
      omega
    · intro n hroom
      simp only [Pager.HasRoom, Pager.log_header, Pager.setPage_header, Pager.setHeader_header,
        List.length_nil] at hroom ⊢
      omega
  | cons pid ps =>
    obtain ⟨hhead, hpid, next, hpage, hchain⟩ := h.chain
    obtain ⟨hnotin, hnd⟩ := List.nodup_cons.mp h.nodup
    left
    refine ⟨pid, _, ps, by unfold pagerAllocPage guard; simp [hhead, hpid, hpage]; rfl, ?_⟩
    refine ⟨⟨?_, hnd, ?_, h.pos⟩, hpid, ?_, ?_, ?_, rfl, rfl, rfl, rfl, Nat.le_refl _, rfl⟩
    · refine hchain.congr ?_
      intro q hq
      have hne : q ≠ pid := fun heq => hnotin (heq ▸ hq)
      simp [Function.update_of_ne hne]
    · intro q hq
      exact h.lt q (List.mem_cons_of_mem _ hq)
    · simp [Pager.Held]
    · intro p
      have hlt := h.lt pid (by simp)
      simp only [Pager.Held, Pager.log_header, Pager.setPage_header, Pager.setHeader_header,
        List.mem_cons, not_or]
      by_cases hp : p = pid
      · subst hp
        simp [hpid, hlt, hnotin]
      · simp [hp]
    · intro n hroom
      simp only [Pager.HasRoom, Pager.log_header, Pager.setPage_header, Pager.setHeader_header,
        List.length_cons] at hroom ⊢
      omega

/-- The outcome of `pagerFreePage`: `pid` is no longer held, and no other page has changed. -/
structure Freed (st : Pager) (free : List Nat) (pid : Nat) (st' : Pager) (free' : List Nat) :
    Prop where
  freeList : st'.FreeList free'
  held : ∀ p, st'.Held free' p ↔ st.Held free p ∧ p ≠ pid
  pages : ∀ p, p ≠ pid → st'.pages p = st.pages p
  pageSize : st'.pageSize = st.pageSize
  lastHeapPageId : st'.lastHeapPageId = st.lastHeapPageId
  heapMayHaveFreeSlots : st'.heapMayHaveFreeSlots = st.heapMayHaveFreeSlots
  header : st'.header = { st.header with freePageHead := pid }

theorem pagerFreePage_spec {st : Pager} {free : List Nat} {pid : Nat} (h : st.FreeList free)
    (hpid : st.Held free pid) :
    ∃ st', (pagerFreePage pid).run st = some ((), st') ∧ Freed st free pid st' (pid :: free) := by
  refine ⟨_, by simp [pagerFreePage]; rfl, ?_⟩
  refine ⟨⟨⟨rfl, hpid.1, st.header.freePageHead, by simp, ?_⟩, ?_, ?_, h.pos⟩, ?_, ?_, rfl, rfl, rfl,
    rfl⟩
  · refine h.chain.congr ?_
    intro q hq
    have hne : q ≠ pid := fun heq => hpid.2.2 (heq ▸ hq)
    simp [Function.update_of_ne hne]
  · exact List.nodup_cons.mpr ⟨hpid.2.2, h.nodup⟩
  · intro q hq
    rcases List.mem_cons.mp hq with rfl | hq
    · exact hpid.2.1
    · exact h.lt q hq
  · intro p
    simp only [Pager.Held, Pager.setHeader_header, List.mem_cons, not_or]
    tauto
  · intro p hp
    simp [Function.update_of_ne hp]

end MiniDb
