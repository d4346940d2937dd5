import Mathlib.Data.List.Nodup
import Mathlib.Tactic.Linarith
import MiniDb.Storage.Heap.Basic

/-! # The layout of a heap page

Slot `i` of a page owns the bytes from `page_size - (i + 1) * row_size` on, so the rows of
different slots never overlap, and the directory ends before the last of them begins. The free
slots are exactly those on the chain from `free_slot_head`. `placeRow` and the removal of a row
keep this layout, and change the list of the page's rows in one place. -/

set_option autoImplicit false

namespace MiniDb

open Lib

/-- Walking `next_free` from `head` visits exactly `free` and ends at `SLOT_NONE`. -/
def FreeSlots (slots : List Slot) : Nat → List Nat → Prop
  | head, [] => head = slotNone
  | head, i :: is => head = i ∧ ∃ s, slots[i]? = some s ∧ FreeSlots slots s.nextFree is

/-- The layout of a page for rows of `rowSize` bytes; `free` are its free slots. -/
structure HeapPage.Layout (hph : HeapPage) (pageSize rowSize : Nat) (free : List Nat) : Prop where
  length : hph.data.length = pageSize
  offset : ∀ i s, hph.slots[i]? = some s → s.offset = pageSize - (i + 1) * rowSize
  space : hph.freeSpaceOffset = hph.slots.length * rowSize
  fits : heapHeaderSize + hph.slots.length * slotSize + hph.slots.length * rowSize ≤ pageSize
  chain : FreeSlots hph.slots hph.freeSlotHead free
  nodup : free.Nodup
  free_iff : ∀ i s, hph.slots[i]? = some s → (s.status = .free ↔ i ∈ free)

/-- A row and its slot fit on an empty page, and offsets in a page fit in 16 bits. -/
structure RowFits (pageSize rowSize : Nat) : Prop where
  fits : heapHeaderSize + slotSize + rowSize ≤ pageSize
  small : pageSize < 65536

/-! ## The rows of a page -/

/-- The rows of the alive slots among `slots`, the first of which is slot `i`. -/
def liveRows (pid : Nat) (read : Nat → List UInt8) : Nat → List Slot → List (RowRef × List UInt8)
  | _, [] => []
  | i, s :: slots =>
    if s.status = .alive then (⟨pid, i⟩, read s.offset) :: liveRows pid read (i + 1) slots
    else liveRows pid read (i + 1) slots

/-- The rows of a page, each with its place. -/
def HeapPage.rows (hph : HeapPage) (pid rowSize : Nat) : List (RowRef × List UInt8) :=
  liveRows pid (fun off => slice hph.data off rowSize) 0 hph.slots

section LiveRows

variable {pid i rowSize : Nat} {read read' : Nat → List UInt8} {slots a b : List Slot} {s : Slot}

theorem liveRows_append :
    liveRows pid read i (a ++ b) = liveRows pid read i a ++ liveRows pid read (i + a.length) b := by
  induction a generalizing i with
  | nil => simp [liveRows]
  | cons s a ih =>
    simp only [List.cons_append, liveRows, ih, List.length_cons]
    rw [show i + 1 + a.length = i + (a.length + 1) by omega]
    split <;> rfl

theorem liveRows_congr (h : ∀ s ∈ slots, read' s.offset = read s.offset) :
    liveRows pid read' i slots = liveRows pid read i slots := by
  induction slots generalizing i with
  | nil => rfl
  | cons s slots ih =>
    simp only [liveRows, h s (by simp), ih fun t ht => h t (List.mem_cons_of_mem _ ht)]

theorem mem_liveRows {ref : RowRef} {row : List UInt8} :
    (ref, row) ∈ liveRows pid read i slots ↔
      ref.pageId = pid ∧ i ≤ ref.slotId ∧ ∃ s, slots[ref.slotId - i]? = some s ∧
        s.status = .alive ∧ row = read s.offset := by
  induction slots generalizing i with
  | nil => simp [liveRows]
  | cons s slots ih =>
    have hrest : (ref, row) ∈ liveRows pid read (i + 1) slots ↔ ref.pageId = pid ∧
        i < ref.slotId ∧ ∃ t, (s :: slots)[ref.slotId - i]? = some t ∧ t.status = .alive ∧
          row = read t.offset := by
      rw [ih]
      refine and_congr_right fun _ => and_congr_right fun hlt => ?_
      rw [show ref.slotId - i = (ref.slotId - (i + 1)) + 1 by omega, List.getElem?_cons_succ]
    have hfirst : (∃ t, (s :: slots)[ref.slotId - i]? = some t ∧ t.status = .alive ∧
        row = read t.offset) ∧ ref.slotId = i ↔ ref.slotId = i ∧ s.status = .alive ∧
          row = read s.offset := by
      constructor
      · rintro ⟨⟨t, ht, hst, hrow⟩, rfl⟩
        rw [Nat.sub_self, List.getElem?_cons_zero] at ht
        obtain rfl := Option.some.inj ht
        exact ⟨rfl, hst, hrow⟩
      · rintro ⟨rfl, hst, hrow⟩
        exact ⟨⟨s, by simp, hst, hrow⟩, rfl⟩
    have hcases : i ≤ ref.slotId ↔ ref.slotId = i ∨ i < ref.slotId := by omega
    simp only [liveRows]
    split
    · rename_i halive
      rw [List.mem_cons, hrest, hcases]
      constructor
      · rintro (heq | ⟨hp, hlt, ht⟩)
        · obtain ⟨rfl, rfl⟩ := Prod.mk.inj heq
          exact ⟨rfl, .inl rfl, (hfirst.mpr ⟨rfl, halive, rfl⟩).1⟩
        · exact ⟨hp, .inr hlt, ht⟩
      · rintro ⟨hp, heq | hlt, ht⟩
        · obtain ⟨hi, -, hrow⟩ := hfirst.mp ⟨ht, heq⟩
          refine .inl (Prod.ext ?_ hrow)
          cases ref
          simp_all
        · exact .inr ⟨hp, hlt, ht⟩
    · rename_i hdead
      rw [hrest, hcases]
      constructor
      · rintro ⟨hp, hlt, ht⟩
        exact ⟨hp, .inr hlt, ht⟩
      · rintro ⟨hp, heq | hlt, ht⟩
        · exact absurd (hfirst.mp ⟨ht, heq⟩).2.1 hdead
        · exact ⟨hp, hlt, ht⟩

/-- Every place occurs once. -/
theorem liveRows_nodup : ((liveRows pid read i slots).map Prod.fst).Nodup := by
  induction slots generalizing i with
  | nil => simp [liveRows]
  | cons s slots ih =>
    simp only [liveRows]
    split
    · rw [List.map_cons, List.nodup_cons]
      refine ⟨fun hmem => ?_, ih⟩
      obtain ⟨⟨ref, row⟩, hrow, href⟩ := List.mem_map.mp hmem
      obtain ⟨-, hle, -⟩ := mem_liveRows.mp hrow
      simp only at href
      subst href
      simp at hle
    · exact ih

end LiveRows

section Layout

variable {hph : HeapPage} {pageSize rowSize pid : Nat} {free : List Nat}

theorem HeapPage.mem_rows {ref : RowRef} {row : List UInt8} :
    (ref, row) ∈ hph.rows pid rowSize ↔ ref.pageId = pid ∧
      ∃ s, hph.slots[ref.slotId]? = some s ∧ s.status = .alive ∧
        row = slice hph.data s.offset rowSize := by
  rw [HeapPage.rows, mem_liveRows]
  simp

/-! ## Places -/

theorem HeapPage.Layout.mul_le (h : hph.Layout pageSize rowSize free) {i : Nat}
    (hi : i ≤ hph.slots.length) : i * rowSize ≤ hph.slots.length * rowSize ∧
      heapHeaderSize + hph.slots.length * slotSize + i * rowSize ≤ pageSize := by
  have hle := Nat.mul_le_mul_right rowSize hi
  have := h.fits
  exact ⟨hle, by omega⟩

/-- A row lies behind the directory and inside the page. -/
theorem HeapPage.Layout.inside (h : hph.Layout pageSize rowSize free) {i : Nat} {s : Slot}
    (hs : hph.slots[i]? = some s) :
    heapHeaderSize + hph.slots.length * slotSize ≤ s.offset ∧ s.offset + rowSize ≤ pageSize := by
  have hi := (List.getElem?_eq_some_iff.mp hs).1
  have hmul := (h.mul_le (i := i + 1) hi).2
  rw [h.offset i s hs]
  have : (i + 1) * rowSize = i * rowSize + rowSize := Nat.succ_mul i rowSize
  omega

/-- The rows of two slots do not overlap. -/
theorem HeapPage.Layout.disjoint (h : hph.Layout pageSize rowSize free) {i j : Nat} {s t : Slot}
    (hs : hph.slots[i]? = some s) (ht : hph.slots[j]? = some t) (hne : i ≠ j) :
    s.offset + rowSize ≤ t.offset ∨ t.offset + rowSize ≤ s.offset := by
  have hi := (List.getElem?_eq_some_iff.mp hs).1
  have hj := (List.getElem?_eq_some_iff.mp ht).1
  have hbi := (h.mul_le (i := i + 1) hi).2
  have hbj := (h.mul_le (i := j + 1) hj).2
  have hmi : (i + 1) * rowSize = i * rowSize + rowSize := Nat.succ_mul i rowSize
  have hmj : (j + 1) * rowSize = j * rowSize + rowSize := Nat.succ_mul j rowSize
  rw [h.offset i s hs, h.offset j t ht]
  rcases Nat.lt_or_gt_of_ne hne with hlt | hlt
  · have := Nat.mul_le_mul_right rowSize (Nat.succ_le_of_lt hlt)
    rw [Nat.succ_mul] at this
    omega
  · have := Nat.mul_le_mul_right rowSize (Nat.succ_le_of_lt hlt)
    rw [Nat.succ_mul] at this
    omega

theorem u16_eq {n : Nat} (h : n < 65536) : u16 n = n := by
  unfold u16
  omega

theorem u16_sub {n m : Nat} (h : n < 65536) (hm : m ≤ n) : u16 (n - m) = n - m := by
  unfold u16
  omega

theorem rowNeed_eq (h : RowFits pageSize rowSize) : rowNeed rowSize = slotSize + rowSize := by
  have := h.fits
  have := h.small
  exact u16_eq (n := slotSize + rowSize) (by simp only [slotSize, heapHeaderSize] at *; omega)

/-- `available_space` computes the gap between directory and rows. -/
theorem HeapPage.Layout.availableSpace_eq (h : hph.Layout pageSize rowSize free)
    (hps : pageSize < 65536) : availableSpace pageSize hph =
      pageSize - (heapHeaderSize + hph.slots.length * slotSize + hph.slots.length * rowSize) := by
  have hfits := h.fits
  have hend : slotsEnd hph.slots.length = heapHeaderSize + hph.slots.length * slotSize :=
    u16_eq (n := heapHeaderSize + hph.slots.length * slotSize) (by omega)
  have hback : u16 (pageSize - hph.freeSpaceOffset) = pageSize - hph.slots.length * rowSize := by
    rw [h.space]
    exact u16_sub hps (by omega)
  simp only [availableSpace, hend, hback]
  split <;> omega

/-- Slot ids are below `SLOT_NONE`. -/
theorem HeapPage.Layout.lt_slotNone (h : hph.Layout pageSize rowSize free)
    (hps : pageSize < 65536) : hph.slots.length < slotNone := by
  have := h.fits
  simp only [slotSize, slotNone] at *
  omega

theorem FreeSlots.lt {slots : List Slot} {head : Nat} (h : FreeSlots slots head free) :
    ∀ i ∈ free, i < slots.length := by
  induction free generalizing head with
  | nil => simp
  | cons j free ih =>
    obtain ⟨-, s, hs, hrest⟩ := h
    intro i hi
    rcases List.mem_cons.mp hi with rfl | hi
    · exact (List.getElem?_eq_some_iff.mp hs).1
    · exact ih hrest i hi

theorem HeapPage.Layout.freeSlotHead_iff (h : hph.Layout pageSize rowSize free)
    (hps : pageSize < 65536) : hph.freeSlotHead = slotNone ↔ free = [] := by
  have hchain := h.chain
  have hlt := h.chain.lt
  have hnone := h.lt_slotNone hps
  cases free with
  | nil => simpa [FreeSlots] using hchain
  | cons i free =>
    have := hlt i (by simp)
    simp only [hchain.1, reduceCtorEq, iff_false]
    omega

/-- The walk does not see changes of slots that are not on the chain. -/
theorem FreeSlots.congr {slots slots' : List Slot} {head : Nat} (h : FreeSlots slots head free)
    (heq : ∀ i ∈ free, slots'[i]? = slots[i]?) : FreeSlots slots' head free := by
  induction free generalizing head with
  | nil => exact h
  | cons i free ih =>
    obtain ⟨hhead, s, hs, hrest⟩ := h
    refine ⟨hhead, s, (heq i (by simp)).trans hs, ih hrest ?_⟩
    intro j hj
    exact heq j (List.mem_cons_of_mem _ hj)

/-! ## Writing and reading rows -/

theorem HeapPage.Layout.readRow (h : hph.Layout pageSize rowSize free) {i : Nat} {s : Slot}
    (hs : hph.slots[i]? = some s) :
    hph.readRow s.offset rowSize = some (slice hph.data s.offset rowSize) := by
  have := (h.inside hs).2
  simp [HeapPage.readRow, guard, h.length, this]

/-- A scan copies the rows of the page. -/
theorem HeapPage.Layout.snapshot (h : hph.Layout pageSize rowSize free) :
    snapshotFrom pid rowSize hph 0 hph.slots = some (hph.rows pid rowSize) := by
  have hmem : ∀ s ∈ hph.slots, hph.readRow s.offset rowSize =
      some (slice hph.data s.offset rowSize) := by
    intro s hs
    obtain ⟨i, hi⟩ := List.mem_iff_getElem?.mp hs
    exact h.readRow hi
  have hfrom : ∀ (slots : List Slot) (i : Nat), (∀ s ∈ slots, hph.readRow s.offset rowSize =
      some (slice hph.data s.offset rowSize)) → snapshotFrom pid rowSize hph i slots =
        some (liveRows pid (fun off => slice hph.data off rowSize) i slots) := by
    intro slots
    induction slots with
    | nil => exact fun _ _ => rfl
    | cons s slots ih =>
      intro i hread
      have hrest := ih (i + 1) fun t ht => hread t (List.mem_cons_of_mem _ ht)
      simp only [snapshotFrom, liveRows, hrest, hread s (by simp)]
      split <;> simp
  exact hfrom _ 0 hmem

/-- The page with a row written over slot `i`, or the slot's place when it is new. -/
theorem HeapPage.writeRow_eq {offset : Nat} {row : List UInt8}
    (hdir : heapHeaderSize + hph.slots.length * slotSize ≤ offset)
    (hend : offset + row.length ≤ hph.data.length) :
    hph.writeRow offset row = some { hph with data := splice hph.data offset row } := by
  simp [HeapPage.writeRow, guard, hdir, hend]

/-- The slots of a page around slot `i`. -/
theorem exists_slot_split {slots : List Slot} {i : Nat} {s : Slot} (hs : slots[i]? = some s) :
    ∃ a b, slots = a ++ s :: b ∧ a.length = i := by
  obtain ⟨hi, rfl⟩ := List.getElem?_eq_some_iff.mp hs
  refine ⟨slots.take i, slots.drop (i + 1), ?_, by rw [List.length_take]; omega⟩
  rw [← List.drop_eq_getElem_cons hi, List.take_append_drop]

theorem set_append_length {a b : List Slot} {s t : Slot} {i : Nat} (hi : a.length = i) :
    (a ++ s :: b).set i t = a ++ t :: b := by
  subst hi
  simp

/-- Slots other than `i` after slot `i` has changed. -/
theorem getElem?_set_status {slots : List Slot} {i j : Nat} {s t : Slot}
    (ht : (slots.set i s)[j]? = some t) : (j = i ∧ t = s) ∨ (j ≠ i ∧ slots[j]? = some t) := by
  rw [List.getElem?_set] at ht
  split at ht
  · rename_i heq
    split at ht
    · exact .inl ⟨heq.symm, (Option.some.inj ht).symm⟩
    · cases ht
  · rename_i hne
    exact .inr ⟨Ne.symm hne, ht⟩

/-- The other rows of the page do not see a write into slot `i`. -/
theorem HeapPage.Layout.slice_other (h : hph.Layout pageSize rowSize free) {i j : Nat} {s t : Slot}
    (hs : hph.slots[i]? = some s) (ht : hph.slots[j]? = some t) (hne : j ≠ i) {row : List UInt8}
    (hrow : row.length = rowSize) :
    slice (splice hph.data s.offset row) t.offset rowSize = slice hph.data t.offset rowSize := by
  subst hrow
  refine slice_splice_of_disjoint ?_ (h.disjoint ht hs hne)
  rw [h.length]
  exact (h.inside hs).2

/-- The rows of the page around slot `i`, when slot `i` holds `row` and the others are as in
`hph`. -/
theorem HeapPage.Layout.rows_write (h : hph.Layout pageSize rowSize free) {a b : List Slot}
    {s t : Slot} (heq : hph.slots = a ++ s :: b) {row : List UInt8} (hrow : row.length = rowSize)
    {page : HeapPage} (hslots : page.slots = a ++ t :: b) (halive : t.status = .alive)
    (hoff : t.offset = s.offset) (hdata : page.data = splice hph.data s.offset row) :
    page.rows pid rowSize =
      liveRows pid (fun off => slice hph.data off rowSize) 0 a ++ (⟨pid, a.length⟩, row) ::
        liveRows pid (fun off => slice hph.data off rowSize) (a.length + 1) b := by
  have hs : hph.slots[a.length]? = some s := by simp [heq]
  have hself : slice (splice hph.data s.offset row) s.offset rowSize = row := by
    subst hrow
    refine slice_splice_self ?_
    rw [h.length]
    exact (h.inside hs).2
  have ha : ∀ t ∈ a, slice (splice hph.data s.offset row) t.offset rowSize =
      slice hph.data t.offset rowSize := by
    intro t ht
    obtain ⟨j, hj⟩ := List.mem_iff_getElem?.mp ht
    have hlt := (List.getElem?_eq_some_iff.mp hj).1
    refine h.slice_other hs (j := j) ?_ (by omega) hrow
    rw [heq, List.getElem?_append_left hlt, hj]
  have hb : ∀ t ∈ b, slice (splice hph.data s.offset row) t.offset rowSize =
      slice hph.data t.offset rowSize := by
    intro t ht
    obtain ⟨j, hj⟩ := List.mem_iff_getElem?.mp ht
    refine h.slice_other hs (j := a.length + 1 + j) ?_ (by omega) hrow
    rw [heq, List.getElem?_append_right (by omega),
      show a.length + 1 + j - a.length = j + 1 by omega, List.getElem?_cons_succ, hj]
  rw [HeapPage.rows, hslots, hdata, liveRows_append, Nat.zero_add]
  congr 1
  · exact liveRows_congr ha
  · simp only [liveRows, halive, if_true, hoff, hself]
    exact congrArg (List.cons _) (liveRows_congr hb)

/-! ## Placing a row -/

/-- The page after a row has been put into slot `i`. -/
structure Placed (pid rowSize : Nat) (row : List UInt8) (hph hph' : HeapPage) (i : Nat) : Prop where
  next : hph'.nextHeapPageId = hph.nextHeapPageId
  slots : hph.slots.length ≤ hph'.slots.length
  rows : ∃ l r, hph.rows pid rowSize = l ++ r ∧ hph'.rows pid rowSize = l ++ (⟨pid, i⟩, row) :: r

/-- The page after a row has been put into the free slot `i`. -/
def HeapPage.reuse (hph : HeapPage) (i : Nat) (s : Slot) (row : List UInt8) : HeapPage :=
  { hph with
    freeSlotHead := s.nextFree
    slots := hph.slots.set i { s with status := .alive, nextFree := slotNone }
    data := splice hph.data s.offset row }

/-- The page after a row has been put into a new slot. -/
def HeapPage.extend (hph : HeapPage) (s : Slot) (row : List UInt8) (space : Nat) : HeapPage :=
  { hph with
    freeSpaceOffset := space
    slots := hph.slots ++ [s]
    data := splice hph.data s.offset row }

theorem reuseSlot_spec {i : Nat} (h : hph.Layout pageSize rowSize (i :: free)) {row : List UInt8}
    (hrow : row.length = rowSize) (pid : Nat) :
    ∃ hph', reuseSlot hph row = some (i, hph') ∧ hph'.Layout pageSize rowSize free ∧
      Placed pid rowSize row hph hph' i := by
  obtain ⟨hhead, s, hs, hchain⟩ := h.chain
  obtain ⟨hdir, hend⟩ := h.inside hs
  have hstatus := (h.free_iff i s hs).mpr (by simp)
  obtain ⟨hnot, hnd⟩ := List.nodup_cons.mp h.nodup
  have hwrite := hph.writeRow_eq hdir (show _ + row.length ≤ _ by rw [h.length, hrow]; exact hend)
  obtain ⟨a, b, heq, hlen⟩ := exists_slot_split hs
  have hset : hph.slots.set i { s with status := .alive, nextFree := slotNone } =
      a ++ { s with status := .alive, nextFree := slotNone } :: b := by
    rw [heq]
    exact set_append_length hlen
  refine ⟨hph.reuse i s row, by simp [reuseSlot, hhead, hs, hwrite, HeapPage.reuse], ?_, rfl,
    by simp [HeapPage.reuse], ?_⟩
  · constructor
    · simp only [HeapPage.reuse]
      rw [length_splice (by rw [h.length, hrow]; exact hend), h.length]
    · intro j t ht
      rcases getElem?_set_status ht with ⟨rfl, rfl⟩ | ⟨-, ht⟩
      · exact h.offset _ s hs
      · exact h.offset j t ht
    · simpa [HeapPage.reuse] using h.space
    · simpa [HeapPage.reuse] using h.fits
    · refine hchain.congr fun j hj => ?_
      have hij : i ≠ j := fun hij => hnot (hij ▸ hj)
      exact List.getElem?_set_ne hij
    · exact hnd
    · intro j t ht
      rcases getElem?_set_status ht with ⟨rfl, rfl⟩ | ⟨hne, ht⟩
      · simp [hnot]
      · rw [h.free_iff j t ht, List.mem_cons, or_iff_right hne]
  · refine ⟨liveRows pid (fun off => slice hph.data off rowSize) 0 a,
      liveRows pid (fun off => slice hph.data off rowSize) (a.length + 1) b, ?_, ?_⟩
    · rw [HeapPage.rows, heq, liveRows_append, Nat.zero_add]
      simp [liveRows, hstatus]
    · subst hlen
      exact h.rows_write heq hrow hset rfl rfl rfl

/-- A row written over the row of an alive slot. -/
theorem overwrite_spec {i : Nat} {s : Slot} (h : hph.Layout pageSize rowSize free)
    (hs : hph.slots[i]? = some s) (halive : s.status = .alive) {row : List UInt8}
    (hrow : row.length = rowSize) (pid : Nat) :
    ∃ hph', hph.writeRow s.offset row = some hph' ∧ hph'.Layout pageSize rowSize free ∧
      hph'.nextHeapPageId = hph.nextHeapPageId ∧ hph'.slots = hph.slots ∧
      hph'.freeSlotHead = hph.freeSlotHead ∧
      ∃ l r, hph.rows pid rowSize = l ++ (⟨pid, i⟩, slice hph.data s.offset rowSize) :: r ∧
        hph'.rows pid rowSize = l ++ (⟨pid, i⟩, row) :: r := by
  obtain ⟨hdir, hend⟩ := h.inside hs
  obtain ⟨a, b, heq, rfl⟩ := exists_slot_split hs
  refine ⟨_, hph.writeRow_eq hdir (by rw [h.length, hrow]; exact hend), ?_, rfl, rfl, rfl,
    liveRows pid (fun off => slice hph.data off rowSize) 0 a,
    liveRows pid (fun off => slice hph.data off rowSize) (a.length + 1) b, ?_, ?_⟩
  · refine ⟨?_, h.offset, h.space, h.fits, h.chain, h.nodup, h.free_iff⟩
    rw [length_splice (by rw [h.length, hrow]; exact hend), h.length]
  · rw [HeapPage.rows, heq, liveRows_append, Nat.zero_add]
    simp [liveRows, halive]
  · exact h.rows_write heq hrow heq halive rfl rfl

theorem newSlot_spec (h : hph.Layout pageSize rowSize []) (hps : pageSize < 65536)
    {row : List UInt8} (hrow : row.length = rowSize)
    (hspace : rowNeed rowSize ≤ availableSpace pageSize hph) (hfit : RowFits pageSize rowSize)
    (pid : Nat) :
    ∃ hph', newSlot pageSize hph row = some (hph.slots.length, hph') ∧
      hph'.Layout pageSize rowSize [] ∧ Placed pid rowSize row hph hph' hph.slots.length := by
  rw [rowNeed_eq hfit, h.availableSpace_eq hps] at hspace
  have hfits := h.fits
  have hmul : (hph.slots.length + 1) * rowSize = hph.slots.length * rowSize + rowSize :=
    Nat.succ_mul _ _
  have hmul8 : (hph.slots.length + 1) * slotSize = hph.slots.length * slotSize + slotSize :=
    Nat.succ_mul _ _
  have hpos : 0 < slotSize := by decide
  have hoff : u16 (pageSize - hph.freeSpaceOffset - row.length) =
      pageSize - (hph.slots.length + 1) * rowSize := by
    have := u16_sub (n := pageSize) (m := hph.slots.length * rowSize + rowSize) hps (by omega)
    rw [h.space, hrow, hmul, ← this]
    congr 1
    push_cast
    omega
  have hspaceOff : u16 (hph.freeSpaceOffset + row.length) = (hph.slots.length + 1) * rowSize := by
    rw [h.space, hrow, hmul]
    exact u16_eq (n := hph.slots.length * rowSize + rowSize) (by omega)
  set s : Slot := ⟨pageSize - (hph.slots.length + 1) * rowSize, .alive, slotNone⟩ with hs
  have hdir : heapHeaderSize + (hph.slots ++ [s]).length * slotSize ≤ s.offset := by
    simp only [List.length_append, List.length_singleton, hs]
    omega
  have hend : s.offset + row.length ≤ hph.data.length := by
    rw [h.length, hrow]
    simp only [hs]
    omega
  have hwrite : ({ hph with slots := hph.slots ++ [s] } : HeapPage).writeRow
      (pageSize - (hph.slots.length + 1) * rowSize) row = _ := HeapPage.writeRow_eq hdir hend
  have hget : ∀ {j : Nat} {t : Slot}, (hph.slots ++ [s])[j]? = some t →
      (j = hph.slots.length ∧ t = s) ∨ hph.slots[j]? = some t := by
    intro j t ht
    by_cases hj : j < hph.slots.length
    · rw [List.getElem?_append_left hj] at ht
      exact .inr ht
    · rw [List.getElem?_append_right (by omega)] at ht
      obtain ⟨hlt, htt⟩ := List.getElem?_eq_some_iff.mp ht
      simp only [List.length_singleton, Nat.lt_one_iff] at hlt
      refine .inl ⟨by omega, ?_⟩
      simpa [hlt] using htt.symm
  refine ⟨hph.extend s row ((hph.slots.length + 1) * rowSize), ?_, ?_, ?_⟩
  · rw [newSlot]
    simp only [hoff, ← hs, hwrite, HeapPage.extend, Option.bind_eq_bind, Option.bind_some, hspaceOff,
      Option.pure_def]
    rfl
  · constructor
    · rw [← h.length]
      exact length_splice hend
    · intro j t ht
      rcases hget ht with ⟨rfl, rfl⟩ | ht
      · rfl
      · exact h.offset j t ht
    · simp [HeapPage.extend]
    · simp only [HeapPage.extend, List.length_append, List.length_singleton]
      omega
    · exact h.chain
    · exact List.nodup_nil
    · intro j t ht
      rcases hget ht with ⟨rfl, rfl⟩ | ht
      · simp [hs]
      · exact h.free_iff j t ht
  · refine ⟨rfl, by simp [HeapPage.extend], hph.rows pid rowSize, [], by simp, ?_⟩
    have hself : slice (splice hph.data s.offset row) s.offset rowSize = row := by
      subst hrow
      exact slice_splice_self hend
    have hother : ∀ t ∈ hph.slots, slice (splice hph.data s.offset row) t.offset rowSize =
        slice hph.data t.offset rowSize := by
      intro t ht
      obtain ⟨j, hj⟩ := List.mem_iff_getElem?.mp ht
      have hlt := (List.getElem?_eq_some_iff.mp hj).1
      refine slice_splice_of_disjoint hend (.inr ?_)
      have hle := Nat.mul_le_mul_right rowSize (Nat.succ_le_of_lt hlt)
      rw [h.offset j t hj, hrow]
      simp only [hs]
      rw [Nat.succ_mul] at hle
      have : (j + 1) * rowSize = j * rowSize + rowSize := Nat.succ_mul _ _
      omega
    rw [HeapPage.rows, HeapPage.extend, liveRows_append, Nat.zero_add]
    congr 1
    · exact liveRows_congr hother
    · rw [liveRows, if_pos rfl, hself]
      rfl

/-- A row is placed on a page that has a free slot or room for a new one. -/
theorem placeRow_spec (h : hph.Layout pageSize rowSize free) (hfit : RowFits pageSize rowSize)
    {row : List UInt8} (hrow : row.length = rowSize)
    (hroom : hph.freeSlotHead = slotNone → rowNeed rowSize ≤ availableSpace pageSize hph)
    (pid : Nat) :
    ∃ i hph' free', placeRow pageSize hph row = some (i, hph') ∧
      hph'.Layout pageSize rowSize free' ∧ Placed pid rowSize row hph hph' i ∧
      (free = [] → free' = []) := by
  have hnone := h.freeSlotHead_iff hfit.small
  unfold placeRow
  cases free with
  | nil =>
    have hhead : hph.freeSlotHead = slotNone := hnone.mpr rfl
    obtain ⟨hph', hrun, hlay, hplaced⟩ :=
      newSlot_spec h hfit.small hrow (hroom hhead) hfit pid
    exact ⟨_, hph', [], by rw [if_neg (not_not.mpr hhead)]; exact hrun, hlay, hplaced, fun _ => rfl⟩
  | cons i free =>
    have hhead : hph.freeSlotHead ≠ slotNone := fun heq => by simpa using hnone.mp heq
    obtain ⟨hph', hrun, hlay, hplaced⟩ := reuseSlot_spec h hrow pid
    exact ⟨i, hph', free, by rw [if_pos hhead]; exact hrun, hlay, hplaced, by simp⟩

/-! ## Removing a row -/

/-- The page after the row of slot `i` has been deleted. -/
def HeapPage.freeSlot (hph : HeapPage) (i : Nat) (s : Slot) : HeapPage :=
  { hph with
    freeSlotHead := i
    slots := hph.slots.set i { s with status := .free, nextFree := hph.freeSlotHead } }

theorem freeSlot_spec (h : hph.Layout pageSize rowSize free) {i : Nat} {s : Slot}
    (hs : hph.slots[i]? = some s) (halive : s.status = .alive) (pid : Nat) :
    (hph.freeSlot i s).Layout pageSize rowSize (i :: free) ∧
      ∃ l r, hph.rows pid rowSize =
          l ++ (⟨pid, i⟩, slice hph.data s.offset rowSize) :: r ∧
        (hph.freeSlot i s).rows pid rowSize = l ++ r := by
  have hlt := (List.getElem?_eq_some_iff.mp hs).1
  have hnot : i ∉ free := by
    rw [← h.free_iff i s hs, halive]
    simp
  obtain ⟨a, b, heq, hlen⟩ := exists_slot_split hs
  constructor
  · constructor
    · exact h.length
    · intro j t ht
      rcases getElem?_set_status ht with ⟨rfl, rfl⟩ | ⟨-, ht⟩
      · exact h.offset _ s hs
      · exact h.offset j t ht
    · simpa [HeapPage.freeSlot] using h.space
    · simpa [HeapPage.freeSlot] using h.fits
    · refine ⟨rfl, _, List.getElem?_set_self hlt, h.chain.congr fun j hj => ?_⟩
      have hij : i ≠ j := fun hij => hnot (hij ▸ hj)
      exact List.getElem?_set_ne hij
    · exact List.nodup_cons.mpr ⟨hnot, h.nodup⟩
    · intro j t ht
      rcases getElem?_set_status ht with ⟨rfl, rfl⟩ | ⟨hne, ht⟩
      · simp
      · rw [h.free_iff j t ht, List.mem_cons, or_iff_right hne]
  · refine ⟨liveRows pid (fun off => slice hph.data off rowSize) 0 a,
      liveRows pid (fun off => slice hph.data off rowSize) (a.length + 1) b, ?_, ?_⟩
    · rw [HeapPage.rows, heq, liveRows_append, Nat.zero_add]
      simp [liveRows, halive, hlen]
    · have hset : (hph.freeSlot i s).slots =
          a ++ { s with status := .free, nextFree := hph.freeSlotHead } :: b := by
        rw [HeapPage.freeSlot, heq]
        exact set_append_length hlen
      rw [HeapPage.rows, hset, liveRows_append, Nat.zero_add]
      simp [liveRows, HeapPage.freeSlot]

/-- An empty page. -/
theorem layout_empty (next : Nat) (hps : heapHeaderSize ≤ pageSize) (rowSize : Nat) :
    HeapPage.Layout ⟨next, slotNone, 0, [], List.replicate pageSize 0⟩ pageSize rowSize [] where
  length := by simp
  offset := by simp
  space := by simp
  fits := by simpa using hps
  chain := rfl
  nodup := List.nodup_nil
  free_iff := by simp

end Layout

end MiniDb
