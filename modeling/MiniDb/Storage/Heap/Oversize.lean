import MiniDb.Storage.Heap.Operations

/-! # Rows that fit no page

`heap_insert` compares in 16 bits, and no caller looks at the size of a row first. A row that does
not fit an empty page is put nowhere: every page that the function adds is too small again, and it
adds the next one. Where the space a row takes wraps around in 16 bits, the row is written, past the
end of its page. -/

set_option autoImplicit false

namespace MiniDb

open Lib

/-- What the operating system has for pages: a power of two, and no less than 4096. -/
def IsPageSize (pageSize : Nat) : Prop := ∃ k, 12 ≤ k ∧ pageSize = 2 ^ k

/-- No row lies on the page, and none has. -/
structure HeapPage.Blank (hph : HeapPage) (pageSize : Nat) : Prop where
  freeSlotHead : hph.freeSlotHead = slotNone
  freeSpaceOffset : hph.freeSpaceOffset = 0
  slots : hph.slots = []
  length : hph.data.length = pageSize

section Oversize

variable {st : Pager} {free : List Nat} {chain : HeapChain} {hph : HeapPage} {pageSize : Nat}
  {row : List UInt8}

theorem IsPageSize.le (h : IsPageSize pageSize) : 4096 ≤ pageSize := by
  obtain ⟨k, hk, rfl⟩ := h
  exact Nat.pow_le_pow_right (n := 2) (by decide) hk

/-- From 2^16 on a page size is 0 in 16 bits. -/
theorem IsPageSize.mod (h : IsPageSize pageSize) (hbig : 65536 ≤ pageSize) :
    pageSize % 65536 = 0 := by
  obtain ⟨k, -, rfl⟩ := h
  have hk : 16 ≤ k := by
    by_contra hlt
    have hle : 2 ^ k ≤ 2 ^ 15 := Nat.pow_le_pow_right (by decide) (by omega)
    omega
  exact Nat.mod_eq_zero_of_dvd (Nat.pow_dvd_pow 2 hk)

theorem HeapPage.Blank.availableSpace_eq (h : hph.Blank pageSize) (hps : IsPageSize pageSize) :
    availableSpace pageSize hph = if pageSize < 65536 then pageSize - heapHeaderSize else 0 := by
  have hle := hps.le
  have hmod := hps.mod
  simp only [availableSpace, slotsEnd, h.slots, h.freeSpaceOffset, List.length_nil, u16,
    heapHeaderSize]
  split <;> split <;> omega

/-- A page that has room for the row by the 16-bit comparison has no room for its bytes. -/
theorem HeapPage.Blank.placeRow_eq_none (h : hph.Blank pageSize) (hps : IsPageSize pageSize)
    (hbig : ¬ RowFits pageSize row.length) (hrow : row.length < 65536)
    (hroom : rowNeed row.length ≤ availableSpace pageSize hph) :
    placeRow pageSize hph row = none := by
  have hle := hps.le
  have hmod := hps.mod
  have hbig' : pageSize < 65536 → pageSize < heapHeaderSize + slotSize + row.length := by
    intro hsmall
    by_contra hfits
    exact hbig ⟨by omega, hsmall⟩
  rw [h.availableSpace_eq hps] at hroom
  simp only [rowNeed, u16, heapHeaderSize, slotSize] at hroom hbig'
  have hwrap : 65528 ≤ row.length := by
    split at hroom <;> omega
  rw [placeRow, if_neg (not_not_intro h.freeSlotHead)]
  simp only [newSlot, h.slots, h.freeSpaceOffset, HeapPage.writeRow, List.nil_append,
    List.length_singleton, h.length]
  -- either the row ends behind the page, or it begins in the slot directory
  by_cases hdir : heapHeaderSize + 1 * slotSize ≤ u16 (pageSize - (0 : Nat) - row.length)
  · have hend : ¬ u16 (pageSize - (0 : Nat) - row.length) + row.length ≤ pageSize := by
      simp only [u16, heapHeaderSize, slotSize] at hdir ⊢
      split at hroom <;> omega
    simp only [guard, if_pos hdir, if_neg hend]
    rfl
  · simp only [guard, if_neg hdir]
    rfl

/-- A new page among blank pages is one more of them. -/
theorem blank_append {chain' : HeapChain} {pid : Nat}
    (hblank : ∀ n ∈ chain, n.2.Blank pageSize)
    (hsame : ∀ n ∈ chain', ∃ m ∈ chain, ∃ next, n.2 = { m.2 with nextHeapPageId := next }) :
    ∀ n ∈ chain' ++ [(pid, ⟨0, slotNone, 0, [], List.replicate pageSize 0⟩)],
      n.2.Blank pageSize := by
  intro n hn
  rcases List.mem_append.mp hn with hn | hn
  · obtain ⟨m, hm, next, heq⟩ := hsame n hn
    rw [heq]
    exact ⟨(hblank m hm).freeSlotHead, (hblank m hm).freeSpaceOffset, (hblank m hm).slots,
      (hblank m hm).length⟩
  · obtain rfl := List.mem_singleton.mp hn
    exact ⟨rfl, rfl, rfl, List.length_replicate⟩

/-- However often the label is passed, the row is not put anywhere. -/
theorem retryInsert_oversize (hps : IsPageSize st.pageSize)
    (hbig : ¬ RowFits st.pageSize row.length) (hrow : row.length < 65536) (rounds : Nat)
    (h : HeapInv st free row.length chain) (hblank : ∀ n ∈ chain, n.2.Blank st.pageSize)
    {n : Nat × HeapPage} (hn : n ∈ chain) : (retryInsert row rounds n.1).run st = none := by
  induction rounds generalizing st free chain n with
  | zero => rfl
  | succ rounds ih =>
    set st₁ := (st.log (.get n.1)).log (.wlatch n.1) with hst₁
    have hread : (readHeap n.1).run st₁ = some (n.2, st₁) := run_readHeap (h.pages n hn)
    rw [retryInsert]
    simp only [StateT.run_bind, run_pagerGetPageWlatch, Option.bind_eq_bind, Option.bind_some,
      ← hst₁, hread, StateT.run_get, Option.pure_def]
    by_cases hroom : availableSpace st.pageSize n.2 < rowNeed row.length
    · -- no room: the next page is as small as this one
      have hfull : n.2.freeSlotHead = slotNone ∧
          availableSpace st₁.pageSize n.2 < rowNeed row.length :=
        ⟨(hblank n hn).freeSlotHead, hroom⟩
      set st₂ := st₁.log (.unlatchW n.1) with hst₂
      have h₂ : HeapInv st₂ free row.length chain := h.sameRows ⟨st₂.trace, _, rfl⟩ h.hint
      have hhdr : heapHeaderSize ≤ st₂.pageSize := by
        have hle := hps.le
        show heapHeaderSize ≤ st.pageSize
        simp only [heapHeaderSize]
        omega
      erw [if_pos hfull]
      simp only [StateT.run_bind, run_pagerUnlatchW, Option.bind_eq_bind, Option.bind_some, ← hst₂]
      obtain ⟨pid, st₃, free₃, chain₃, happ, hinv₃, hstep, -, -, hsame⟩ | ⟨-, hnone⟩ :=
        appendHeapPage_spec h₂ hhdr
      case inr => rw [hnone, Option.bind_none]
      have hps₃ : st₃.pageSize = st.pageSize := hstep.pageSize
      simp only [happ, Option.bind_some]
      exact ih (hps₃ ▸ hps) (hps₃ ▸ hbig) hinv₃ (by rw [hps₃]; exact blank_append hblank hsame)
        (n := (pid, ⟨0, slotNone, 0, [], List.replicate st₂.pageSize 0⟩)) (by simp)
    · have hno : ¬ (n.2.freeSlotHead = slotNone ∧
          availableSpace st₁.pageSize n.2 < rowNeed row.length) := fun hfull => hroom hfull.2
      have hplace : placeRow st₁.pageSize n.2 row = none :=
        (hblank n hn).placeRow_eq_none hps hbig hrow (Nat.le_of_not_lt hroom)
      erw [if_neg hno]
      simp only [hplace]
      rfl

/-- **A row that fits no page.** Its insertion into a heap without rows has no outcome. -/
theorem heapInsert_oversize (hps : IsPageSize st.pageSize)
    (hbig : ¬ RowFits st.pageSize row.length) (hrow : row.length < 65536) (rounds : Nat)
    (h : HeapInv st free row.length chain) (hblank : ∀ n ∈ chain, n.2.Blank st.pageSize) :
    (heapInsert rounds row).run st = none := by
  obtain ⟨pid, st₁, hfind, hsame, hhint, hpage⟩ := findHeapPage_spec h
  have h₁ := h.sameRows hsame hhint
  have hps₁ : st₁.pageSize = st.pageSize := by
    obtain ⟨t, b, rfl⟩ := hsame
    rfl
  simp only [heapInsert, StateT.run_bind, hfind, Option.bind_eq_bind, Option.bind_some]
  split
  · have hhdr : heapHeaderSize ≤ st₁.pageSize := by
      have hle := hps.le
      rw [hps₁]
      simp only [heapHeaderSize]
      omega
    obtain ⟨pid', st₂, free₂, chain₂, happ, hinv₂, hstep, -, -, hsame₂⟩ | ⟨-, hnone⟩ :=
      appendHeapPage_spec h₁ hhdr
    case inr => exact run_bind_none hnone
    have hps₂ : st₂.pageSize = st.pageSize := hstep.pageSize.trans hps₁
    simp only [StateT.run_bind, happ, Option.bind_eq_bind, Option.bind_some]
    exact retryInsert_oversize (hps₂ ▸ hps) (hps₂ ▸ hbig) hrow rounds hinv₂
      (by rw [hps₂, ← hps₁]; exact blank_append (hps₁ ▸ hblank) hsame₂)
      (n := (pid', ⟨0, slotNone, 0, [], List.replicate st₁.pageSize 0⟩)) (by simp)
  · rename_i hpid
    obtain ⟨n, hn, rfl, -⟩ := hpage.resolve_right hpid
    exact retryInsert_oversize (hps₁ ▸ hps) (hps₁ ▸ hbig) hrow rounds h₁ (hps₁ ▸ hblank) hn

end Oversize

end MiniDb
