import Mathlib.Data.Finset.Card
import MiniDb.Db.Statements

/-! # Index and heap, id by id

While several statements are at work, a row may be in the heap and not yet in the index, or in the
index and no longer in the heap. A `Placement` says for each id where the index points and what the
heap has; `RowStore` says that a file has these rows. The operations of the index and of the heap
change one of the two at one id. -/

set_option autoImplicit false

namespace MiniDb

open Lib

/-- Where the index points for an id, and the row of that id in the heap. -/
@[ext] structure Placement where
  tree : Nat → Option RowRef
  heap : Nat → Option (RowRef × List UInt8)

/-- The index points to the row of the id, or there is neither. -/
def Placement.Linked (m : Placement) (id : Nat) : Prop := m.tree id = (m.heap id).map Prod.fst

/-- The id is in the index or in the heap. -/
def Placement.Has (m : Placement) (id : Nat) : Prop := m.tree id ≠ none ∨ m.heap id ≠ none

def Placement.setTree (m : Placement) (id : Nat) (o : Option RowRef) : Placement :=
  { m with tree := Function.update m.tree id o }

def Placement.setHeap (m : Placement) (id : Nat) (o : Option (RowRef × List UInt8)) : Placement :=
  { m with heap := Function.update m.heap id o }

/-- **A file with these rows**, with the entries of the index and the pages of the heap. -/
structure RowStore (st : Pager) (m : Placement) (entries : List (Nat × RowRef)) (chain : HeapChain) :
    Prop where
  pageSize : IsPageSize st.pageSize
  stored : Stored st st.header.rowSize entries chain
  tree : ∀ id ref, m.tree id = some ref ↔ (id, ref) ∈ entries
  heap : ∀ ref row, (ref, row) ∈ heapRows chain st.header.rowSize ↔ ∃ id, m.heap id = some (ref, row)
  /-- a place has the row of one id -/
  places : ∀ id id' ref row row', m.heap id = some (ref, row) → m.heap id' = some (ref, row') →
    id = id'
  ids : ∀ id, m.Has id → 1 ≤ id ∧ id < st.header.nextId
  nextId_pos : 1 ≤ st.header.nextId
  nextId_lt : st.header.nextId < 2 ^ 64
  rowSize : st.header.rowSize < 65536
  room : RowFits st.pageSize st.header.rowSize ∨ ∃ pid, chain = blankChain pid st.pageSize
  noTable : st.header.columns = [] → ∃ pid, chain = blankChain pid st.pageSize
  idFirst : st.header.columns ≠ [] → st.header.columns.head? = some idColumn
  schema : VarcharUsable st.header.columns → SoundSchema st.header
  /-- where there is a row, there is a table whose rows fit and can be written -/
  used : ∀ id, m.Has id → RowFits st.pageSize st.header.rowSize ∧ st.header.columns ≠ [] ∧
    ∀ c ∈ st.header.columns, c.type = .varchar → 1 ≤ c.size
  contents : SoundSchema st.header → ∀ id ref row, m.heap id = some (ref, row) →
    IsRowOf st.header.columns id row

section Placement

variable {m : Placement} {id id' : Nat} {o : Option RowRef} {p : Option (RowRef × List UInt8)}

@[simp] theorem Placement.setTree_tree_self : (m.setTree id o).tree id = o := Function.update_self ..

@[simp] theorem Placement.setTree_heap : (m.setTree id o).heap = m.heap := rfl

@[simp] theorem Placement.setHeap_heap_self : (m.setHeap id p).heap id = p := Function.update_self ..

@[simp] theorem Placement.setHeap_tree : (m.setHeap id p).tree = m.tree := rfl

theorem Placement.setTree_tree_of_ne (h : id' ≠ id) : (m.setTree id o).tree id' = m.tree id' :=
  Function.update_of_ne h _ _

theorem Placement.setHeap_heap_of_ne (h : id' ≠ id) : (m.setHeap id p).heap id' = m.heap id' :=
  Function.update_of_ne h _ _

theorem Placement.Has.of_setTree (h : (m.setTree id o).Has id') (hhas : o ≠ none → m.Has id) :
    m.Has id' := by
  by_cases hid : id' = id
  · subst hid
    rcases h with h | h
    · rw [Placement.setTree_tree_self] at h
      exact hhas h
    · exact .inr h
  · rcases h with h | h
    · rw [Placement.setTree_tree_of_ne hid] at h
      exact .inl h
    · exact .inr h

end Placement

section Store

variable {st st' : Pager} {m m' : Placement} {entries entries' : List (Nat × RowRef)}
  {chain chain' : HeapChain} {id : Nat} {ref : RowRef} {row old : List UInt8}

/-! ## Steps that leave the rows alone -/

/-- The pages as they are, and ids given out or rows counted. -/
theorem RowStore.samePages (h : RowStore st m entries chain) (hs : st.SamePages st')
    (hcols : st'.header.columns = st.header.columns) (hsize : st'.header.rowSize = st.header.rowSize)
    (hle : st.header.nextId ≤ st'.header.nextId) (hlt : st'.header.nextId < 2 ^ 64) :
    RowStore st' m entries chain where
  pageSize := hs.pageSize ▸ h.pageSize
  stored := by
    rw [hsize]
    exact h.stored.samePages hs
  tree := h.tree
  heap := by
    rw [hsize]
    exact h.heap
  places := h.places
  ids id hid := ⟨(h.ids id hid).1, lt_of_lt_of_le (h.ids id hid).2 hle⟩
  nextId_pos := le_trans h.nextId_pos hle
  nextId_lt := hlt
  rowSize := hsize ▸ h.rowSize
  room := by
    rw [hs.pageSize, hsize]
    exact h.room
  noTable := by
    rw [hcols, hs.pageSize]
    exact h.noTable
  idFirst := by
    rw [hcols]
    exact h.idFirst
  schema := by
    rw [hcols]
    intro hv
    exact SameSchema.sound ⟨hcols, hsize⟩ (h.schema hv)
  used := by
    rw [hs.pageSize, hcols, hsize]
    exact h.used
  contents hsound := by
    rw [hcols]
    exact h.contents (SameSchema.sound ⟨hcols.symm, hsize.symm⟩ hsound)

theorem RowStore.sameData (h : RowStore st m entries chain) (hs : st.SameData st') :
    RowStore st' m entries chain := by
  have hpages := hs.samePages
  obtain ⟨t, rfl⟩ := hs
  exact h.samePages hpages rfl rfl (le_refl _) h.nextId_lt

/-- Another number of rows in the header. -/
theorem RowStore.setRowCount (h : RowStore st m entries chain) (n : Nat) :
    RowStore (st.setHeader { st.header with rowCount := n }) m entries chain :=
  h.samePages ⟨rfl, rfl, rfl, rfl, rfl, rfl, rfl, rfl⟩ rfl rfl (le_refl _) h.nextId_lt

/-- An id is given out. -/
theorem RowStore.takeNextId (h : RowStore st m entries chain)
    (hrun : takeNextId.run st = some (id, st')) :
    id = st.header.nextId ∧ st'.header.nextId = st.header.nextId + 1 ∧
      SameSchema st'.header st.header ∧ st'.header.rowCount = st.header.rowCount ∧
      RowStore st' m entries chain := by
  obtain ⟨rfl, hlt, rfl⟩ := takeNextId_cases hrun
  exact ⟨rfl, rfl, ⟨rfl, rfl⟩, rfl,
    h.samePages ⟨rfl, rfl, rfl, rfl, rfl, rfl, rfl, rfl⟩ rfl rfl (Nat.le_succ _) hlt⟩

/-! ## Lookups -/

theorem RowStore.search {res : Option RowRef} (h : RowStore st m entries chain)
    (hrun : (bptreeSearch id).run st = some (res, st')) : st.SameData st' ∧ res = m.tree id := by
  obtain ⟨hsame, hres⟩ := h.stored.search hrun
  refine ⟨hsame, Option.ext fun ref => ?_⟩
  rw [h.tree]
  exact hres ref

theorem RowStore.mem_heapRows (h : RowStore st m entries chain) (hrow : m.heap id = some (ref, row)) :
    (ref, row) ∈ heapRows chain st.header.rowSize :=
  (h.heap ref row).mpr ⟨id, hrow⟩

/-- The row of an id is found at its place. -/
theorem RowStore.fetch {res : Option (List UInt8)} (h : RowStore st m entries chain)
    (hrow : m.heap id = some (ref, row))
    (hrun : (heapFetch ref st.header.rowSize).run st = some (res, st')) :
    st.SameData st' ∧ res = some row := by
  have hmem := h.mem_heapRows hrow
  obtain ⟨hph, s, hslot, -⟩ := exists_isSlot hmem
  obtain ⟨hsame, hres⟩ := h.stored.fetchRow hslot.isPlace hrun
  exact ⟨hsame, (hres row).mpr hmem⟩

/-! ## Changes -/

/-- A change of the rows of a table that is in use. -/
theorem RowStore.change (h : RowStore st m entries chain) (hs : st.SameTable st')
    (hfit : RowFits st.pageSize st.header.rowSize) (hcols : st.header.columns ≠ [])
    (hsizes : ∀ c ∈ st.header.columns, c.type = .varchar → 1 ≤ c.size)
    (hstored : Stored st' st.header.rowSize entries' chain')
    (htree : ∀ id ref, m'.tree id = some ref ↔ (id, ref) ∈ entries')
    (hheap : ∀ ref row, (ref, row) ∈ heapRows chain' st.header.rowSize ↔
      ∃ id, m'.heap id = some (ref, row))
    (hplaces : ∀ id id' ref row row', m'.heap id = some (ref, row) →
      m'.heap id' = some (ref, row') → id = id')
    (hids : ∀ id, m'.Has id → 1 ≤ id ∧ id < st.header.nextId)
    (hcontents : SoundSchema st.header → ∀ id ref row, m'.heap id = some (ref, row) →
      IsRowOf st.header.columns id row) : RowStore st' m' entries' chain' where
  pageSize := hs.pageSize ▸ h.pageSize
  stored := by
    rw [hs.rowSize]
    exact hstored
  tree := htree
  heap := by
    rw [hs.rowSize]
    exact hheap
  places := hplaces
  ids := by
    rw [hs.nextId]
    exact hids
  nextId_pos := hs.nextId ▸ h.nextId_pos
  nextId_lt := hs.nextId ▸ h.nextId_lt
  rowSize := hs.rowSize ▸ h.rowSize
  room := by
    rw [hs.pageSize, hs.rowSize]
    exact .inl hfit
  noTable := fun hnil => absurd (hs.columns.symm.trans hnil) hcols
  idFirst := by
    rw [hs.columns]
    exact h.idFirst
  schema := by
    rw [hs.columns]
    intro hv
    exact SameSchema.sound ⟨hs.columns, hs.rowSize⟩ (h.schema hv)
  used := by
    rw [hs.pageSize, hs.columns, hs.rowSize]
    exact fun _ _ => ⟨hfit, hcols, hsizes⟩
  contents hsound := by
    rw [hs.columns]
    exact hcontents (SameSchema.sound ⟨hs.columns.symm, hs.rowSize.symm⟩ hsound)

/-- A change of the heap under the same index, at one id. -/
theorem RowStore.changeHeap {p : Option (RowRef × List UInt8)} (h : RowStore st m entries chain)
    (hs : st.SameTable st') (hfit : RowFits st.pageSize st.header.rowSize)
    (hcols : st.header.columns ≠ [])
    (hsizes : ∀ c ∈ st.header.columns, c.type = .varchar → 1 ≤ c.size)
    (hid : 1 ≤ id ∧ id < st.header.nextId)
    (hstored : Stored st' st.header.rowSize entries chain')
    (hheap : ∀ ref row, (ref, row) ∈ heapRows chain' st.header.rowSize ↔
      ∃ id', (m.setHeap id p).heap id' = some (ref, row))
    (hplace : ∀ id' ref row row', id' ≠ id → m.heap id' = some (ref, row) → p ≠ some (ref, row'))
    (hof : ∀ ref row, p = some (ref, row) → SoundSchema st.header →
      IsRowOf st.header.columns id row) : RowStore st' (m.setHeap id p) entries chain' := by
  refine h.change hs hfit hcols hsizes hstored h.tree hheap ?_ ?_ ?_
  · intro i j ref row row' hi hj
    by_cases hieq : i = id
    · by_cases hjeq : j = id
      · exact hieq.trans hjeq.symm
      · rw [Placement.setHeap_heap_of_ne hjeq] at hj
        rw [hieq, Placement.setHeap_heap_self] at hi
        exact absurd hi (hplace j ref row' row hjeq hj)
    · rw [Placement.setHeap_heap_of_ne hieq] at hi
      by_cases hjeq : j = id
      · rw [hjeq, Placement.setHeap_heap_self] at hj
        exact absurd hj (hplace i ref row row' hieq hi)
      · rw [Placement.setHeap_heap_of_ne hjeq] at hj
        exact h.places i j ref row row' hi hj
  · intro i hi
    by_cases hieq : i = id
    · exact hieq ▸ hid
    · apply h.ids i
      rcases hi with hi | hi
      · exact .inl hi
      · rw [Placement.setHeap_heap_of_ne hieq] at hi
        exact .inr hi
  · intro hsound i ref row hi
    by_cases hieq : i = id
    · rw [hieq, Placement.setHeap_heap_self] at hi
      exact hieq ▸ hof ref row hi hsound
    · rw [Placement.setHeap_heap_of_ne hieq] at hi
      exact h.contents hsound i ref row hi

/-- A row that has been stored fits its pages. -/
theorem RowStore.rowFits_of_insert (h : RowStore st m entries chain) {rounds : Nat}
    (hrow : row.length = st.header.rowSize)
    (hrun : (heapInsert rounds row).run st = some (ref, st')) :
    RowFits st.pageSize st.header.rowSize := by
  by_contra hbig
  obtain ⟨pid, hchain⟩ := h.room.resolve_left hbig
  obtain ⟨free, leaves, rows, hat, -⟩ := h.stored
  have hheap : HeapInv st free row.length chain := hrow ▸ hat.heap
  have hnone := heapInsert_oversize h.pageSize (hrow ▸ hbig) (hrow ▸ h.rowSize) rounds hheap (by
    rw [hchain]
    intro n hn
    obtain rfl := List.mem_singleton.mp hn
    exact ⟨rfl, rfl, rfl, List.length_replicate⟩)
  rw [hnone] at hrun
  cases hrun

/-- `heap_insert` of a row for an id that has none. -/
theorem RowStore.insertRow {rounds : Nat} (h : RowStore st m entries chain)
    (hnone : m.heap id = none) (hid : 1 ≤ id ∧ id < st.header.nextId)
    (hcols : st.header.columns ≠ []) (hrow : row.length = st.header.rowSize)
    (hsizes : ∀ c ∈ st.header.columns, c.type = .varchar → 1 ≤ c.size)
    (hof : SoundSchema st.header → IsRowOf st.header.columns id row)
    (hrun : (heapInsert rounds row).run st = some (ref, st')) :
    st.SameTable st' ∧ ∃ chain', RowStore st' (m.setHeap id (some (ref, row))) entries chain' := by
  have hfit := h.rowFits_of_insert hrow hrun
  obtain ⟨hsame, chain', l, r, hstored, hrows, hrows', -⟩ := h.stored.insertRow hfit hrow hrun
  have hnd : (ref :: (heapRows chain st.header.rowSize).map Prod.fst).Nodup := by
    have hnd' := hstored.refs_nodup
    rw [hrows', List.map_append, List.map_cons, List.nodup_middle, ← List.map_append, ← hrows]
      at hnd'
    exact hnd'
  refine ⟨hsame, chain', h.changeHeap hsame hfit hcols hsizes hid hstored ?_ ?_ ?_⟩
  · intro ref' row'
    have hmem : (ref', row') ∈ heapRows chain' st.header.rowSize ↔
        (ref', row') = (ref, row) ∨ (ref', row') ∈ heapRows chain st.header.rowSize := by
      rw [hrows', hrows]
      simp only [List.mem_append, List.mem_cons]
      tauto
    rw [hmem, h.heap]
    constructor
    · rintro (heq | ⟨i, hi⟩)
      · exact ⟨id, by rw [Placement.setHeap_heap_self, heq]⟩
      · refine ⟨i, ?_⟩
        rw [Placement.setHeap_heap_of_ne, hi]
        rintro rfl
        rw [hnone] at hi
        cases hi
    · rintro ⟨i, hi⟩
      by_cases hieq : i = id
      · rw [hieq, Placement.setHeap_heap_self] at hi
        exact .inl (Option.some.inj hi).symm
      · rw [Placement.setHeap_heap_of_ne hieq] at hi
        exact .inr ⟨i, hi⟩
  · rintro i ref' row₁ row₂ - hi heq
    obtain ⟨rfl, -⟩ := Prod.mk.inj (Option.some.inj heq)
    exact (List.nodup_cons.mp hnd).1 (List.mem_map_of_mem (f := Prod.fst) (h.mem_heapRows hi))
  · intro ref' row' heq
    obtain ⟨-, rfl⟩ := Prod.mk.inj (Option.some.inj heq)
    exact hof

/-- `heap_delete` of the row of an id. -/
theorem RowStore.deleteRow {rc : Int} (h : RowStore st m entries chain)
    (hrow : m.heap id = some (ref, row)) (hrun : (heapDelete ref).run st = some (rc, st')) :
    rc = 0 ∧ st.SameTable st' ∧ ∃ chain', RowStore st' (m.setHeap id none) entries chain' := by
  have hhas : m.Has id := .inr (by simp [hrow])
  obtain ⟨hfit, hcols, hsizes⟩ := h.used id hhas
  obtain ⟨rfl, hsame, chain', l, r, hstored, hrows, hrows', -⟩ :=
    h.stored.deleteRow (h.mem_heapRows hrow) hrun
  have hfilter : heapRows chain' st.header.rowSize =
      (heapRows chain st.header.rowSize).filter (fun e => decide (e.1 ≠ ref)) := by
    rw [hrows', hrows, filter_middle (hrows ▸ h.stored.refs_nodup)]
  refine ⟨rfl, hsame, chain', h.changeHeap hsame hfit hcols hsizes (h.ids id hhas) hstored ?_
    (fun _ _ _ _ _ _ => nofun) (fun _ _ => nofun)⟩
  intro ref' row'
  rw [hfilter, List.mem_filter, h.heap, decide_eq_true_eq]
  constructor
  · rintro ⟨⟨i, hi⟩, hne⟩
    refine ⟨i, ?_⟩
    rw [Placement.setHeap_heap_of_ne, hi]
    rintro rfl
    rw [hrow] at hi
    exact hne (Prod.mk.inj (Option.some.inj hi)).1.symm
  · rintro ⟨i, hi⟩
    by_cases hieq : i = id
    · rw [hieq, Placement.setHeap_heap_self] at hi
      cases hi
    · rw [Placement.setHeap_heap_of_ne hieq] at hi
      refine ⟨⟨i, hi⟩, ?_⟩
      rintro rfl
      exact hieq (h.places i id _ _ _ hi hrow)

/-- Other bytes for the row of an id. -/
theorem RowStore.overwrite (h : RowStore st m entries chain) (hold : m.heap id = some (ref, old))
    (hrow : row.length = st.header.rowSize)
    (hof : SoundSchema st.header → IsRowOf st.header.columns id row)
    (hrun : (overwriteRow ref row).run st = some ((), st')) :
    st.SameTable st' ∧ ∃ chain', RowStore st' (m.setHeap id (some (ref, row))) entries chain' := by
  have hhas : m.Has id := .inr (by simp [hold])
  obtain ⟨hfit, hcols, hsizes⟩ := h.used id hhas
  obtain ⟨hsame, chain', l, r, hstored, hrows, hrows', -⟩ :=
    h.stored.overwriteRow (h.mem_heapRows hold) hrow hrun
  have hmap : heapRows chain' st.header.rowSize =
      (heapRows chain st.header.rowSize).map (fun e => if e.1 = ref then (ref, row) else e) := by
    rw [hrows', hrows, map_middle (hrows ▸ h.stored.refs_nodup)]
  refine ⟨hsame, chain', h.changeHeap hsame hfit hcols hsizes (h.ids id hhas) hstored ?_ ?_ ?_⟩
  · intro ref' row'
    rw [hmap, List.mem_map]
    constructor
    · rintro ⟨⟨ref₁, row₁⟩, hmem, heq⟩
      obtain ⟨i, hi⟩ := (h.heap ref₁ row₁).mp hmem
      by_cases href : ref₁ = ref
      · rw [if_pos href] at heq
        exact ⟨id, by rw [Placement.setHeap_heap_self, heq]⟩
      · rw [if_neg href] at heq
        refine ⟨i, ?_⟩
        rw [Placement.setHeap_heap_of_ne, hi, heq]
        rintro rfl
        rw [hold] at hi
        exact href (Prod.mk.inj (Option.some.inj hi)).1.symm
    · rintro ⟨i, hi⟩
      by_cases hieq : i = id
      · rw [hieq, Placement.setHeap_heap_self] at hi
        exact ⟨(ref, old), h.mem_heapRows hold, by rw [if_pos rfl, Option.some.inj hi]⟩
      · rw [Placement.setHeap_heap_of_ne hieq] at hi
        refine ⟨(ref', row'), h.mem_heapRows hi, if_neg ?_⟩
        rintro rfl
        exact hieq (h.places i id _ _ _ hi hold)
  · intro i ref' row₁ row₂ hne hi heq
    obtain ⟨rfl, -⟩ := Prod.mk.inj (Option.some.inj heq)
    exact hne (h.places i id _ _ _ hi hold)
  · intro ref' row' heq
    obtain ⟨-, rfl⟩ := Prod.mk.inj (Option.some.inj heq)
    exact hof

/-- `bptree_insert` of the row of an id that is not in the index. -/
theorem RowStore.insertKey {rc : Int} (h : RowStore st m entries chain) (hnone : m.tree id = none)
    (hrow : m.heap id = some (ref, row)) (hrun : (bptreeInsert id ref).run st = some (rc, st')) :
    rc = 0 ∧ st.SameTable st' ∧ ∃ entries', entries'.length = entries.length + 1 ∧
      RowStore st' (m.setTree id (some ref)) entries' chain := by
  have hhas : m.Has id := .inr (by simp [hrow])
  obtain ⟨hfit, hcols, hsizes⟩ := h.used id hhas
  have hnew : ∀ e ∈ entries, e.1 ≠ id := by
    rintro ⟨_, ref'⟩ he rfl
    rw [(h.tree _ ref').mpr he] at hnone
    cases hnone
  obtain ⟨rfl, hsame, l, r, hentries, hstored⟩ :=
    h.stored.insertKey (lt_trans (h.ids id hhas).2 h.nextId_lt) hnew hrun
  refine ⟨rfl, hsame, _, ?_, h.change hsame hfit hcols hsizes hstored ?_ h.heap h.places ?_
    h.contents⟩
  · rw [hentries]
    simp only [List.length_append, List.length_cons]
    omega
  · intro i ref'
    have hmem : (i, ref') ∈ l ++ (id, ref) :: r ↔ (i, ref') = (id, ref) ∨ (i, ref') ∈ entries := by
      rw [hentries]
      simp only [List.mem_append, List.mem_cons]
      tauto
    rw [hmem]
    by_cases hieq : i = id
    · subst hieq
      rw [Placement.setTree_tree_self]
      constructor
      · intro heq
        exact .inl (by rw [Option.some.inj heq])
      · rintro (heq | hin)
        · exact congrArg some (Prod.mk.inj heq).2.symm
        · exact absurd rfl (hnew _ hin)
    · rw [Placement.setTree_tree_of_ne hieq, h.tree]
      constructor
      · exact .inr
      · rintro (heq | hin)
        · exact absurd (Prod.mk.inj heq).1 hieq
        · exact hin
  · exact fun i hi => h.ids i (hi.of_setTree fun _ => hhas)

/-- `bptree_delete` of an id of the index. -/
theorem RowStore.deleteKey {rc : Int} (h : RowStore st m entries chain)
    (hkey : m.tree id = some ref) (hrun : (bptreeDelete id).run st = some (rc, st')) :
    rc = 0 ∧ st.SameTable st' ∧ ∃ entries', entries.length = entries'.length + 1 ∧
      RowStore st' (m.setTree id none) entries' chain := by
  have hhas : m.Has id := .inl (by simp [hkey])
  obtain ⟨hfit, hcols, hsizes⟩ := h.used id hhas
  obtain ⟨rfl, hsame, l, r, hentries, hstored⟩ := h.stored.deleteKey ((h.tree id ref).mp hkey) hrun
  have hne : ∀ e ∈ l ++ r, e.1 ≠ id := by
    have hsorted := h.stored.sorted
    rw [hentries] at hsorted
    obtain ⟨-, hr, hl⟩ := List.pairwise_append.mp hsorted
    intro e he
    rcases List.mem_append.mp he with he | he
    · exact ne_of_lt (hl e he _ List.mem_cons_self)
    · exact ne_of_gt ((List.pairwise_cons.mp hr).1 e he)
  refine ⟨rfl, hsame, _, ?_, h.change hsame hfit hcols hsizes hstored ?_ h.heap h.places ?_
    h.contents⟩
  · rw [hentries]
    simp only [List.length_append, List.length_cons]
    omega
  · intro i ref'
    by_cases hieq : i = id
    · subst hieq
      rw [Placement.setTree_tree_self]
      exact iff_of_false nofun fun hin => hne _ hin rfl
    · rw [Placement.setTree_tree_of_ne hieq, h.tree, hentries]
      simp only [List.mem_append, List.mem_cons, Prod.mk.injEq, hieq, false_and, false_or]
  · exact fun i hi => h.ids i (hi.of_setTree fun _ => hhas)

/-- As many ids as there are threads at work on rows of the index, each on its own. -/
theorem RowStore.card_le {τ : Type} (h : RowStore st m entries chain) (F : Finset τ) (f : τ → Nat)
    (hinj : ∀ t ∈ F, ∀ u ∈ F, f t = f u → t = u) (hkey : ∀ t ∈ F, m.tree (f t) ≠ none) :
    F.card ≤ entries.length := by
  have hmaps : ∀ t ∈ F, f t ∈ (entries.map Prod.fst).toFinset := by
    intro t ht
    obtain ⟨ref, href⟩ := Option.ne_none_iff_exists'.mp (hkey t ht)
    rw [List.mem_toFinset]
    exact List.mem_map_of_mem (f := Prod.fst) ((h.tree _ ref).mp href)
  have hcard := Finset.card_le_card_of_injOn f hmaps hinj
  refine hcard.trans ((List.toFinset_card_le _).trans ?_)
  rw [List.length_map]

end Store

/-! ## Databases on which nothing is at work -/

section Database

variable {st : Pager} {m : Placement} {entries : List (Nat × RowRef)} {chain : HeapChain}

/-- The rows of a database. -/
theorem DbInv.exists_rowStore (h : DbInv st entries chain) :
    ∃ m, RowStore st m entries chain ∧ ∀ id, m.Linked id := by
  have htree : ∀ id, ∃ o : Option RowRef, ∀ ref, o = some ref ↔ (id, ref) ∈ entries := by
    intro id
    by_cases hex : ∃ ref, (id, ref) ∈ entries
    · obtain ⟨ref, href⟩ := hex
      refine ⟨some ref, fun ref' => ⟨?_, fun hmem => ?_⟩⟩
      · rintro ⟨⟩
        exact href
      · have hkeys : (entries.map Prod.fst).Nodup :=
          List.pairwise_map.mpr (h.stored.sorted.imp fun hlt => ne_of_lt hlt)
        have hpair := List.inj_on_of_nodup_map hkeys href hmem rfl
        exact congrArg some (Prod.mk.inj hpair).2
    · exact ⟨none, fun ref => iff_of_false nofun fun hmem => hex ⟨ref, hmem⟩⟩
  choose tree htree using htree
  have hheap : ∀ id, ∃ o : Option (RowRef × List UInt8), ∀ ref row, o = some (ref, row) ↔
      (id, ref) ∈ entries ∧ (ref, row) ∈ heapRows chain st.header.rowSize := by
    intro id
    cases hid : tree id with
    | none =>
      refine ⟨none, fun ref row => iff_of_false nofun fun hmem => ?_⟩
      rw [(htree id ref).mpr hmem.1] at hid
      cases hid
    | some ref =>
      have hmem := (htree id ref).mp hid
      obtain ⟨row, hrow⟩ := h.exists_row hmem
      refine ⟨some (ref, row), fun ref' row' => ⟨?_, fun hmem' => ?_⟩⟩
      · rintro ⟨⟩
        exact ⟨hmem, hrow⟩
      · have href := (htree id ref').mpr hmem'.1
        rw [hid] at href
        obtain rfl := Option.some.inj href
        have hpair := List.inj_on_of_nodup_map h.stored.refs_nodup hrow hmem'.2 rfl
        rw [hpair]
  choose heap hheap using hheap
  have hhas : ∀ id, (⟨tree, heap⟩ : Placement).Has id → ∃ ref, (id, ref) ∈ entries := by
    rintro id (hid | hid)
    · obtain ⟨ref, href⟩ := Option.ne_none_iff_exists'.mp hid
      exact ⟨ref, (htree id ref).mp href⟩
    · obtain ⟨⟨ref, row⟩, hrow⟩ := Option.ne_none_iff_exists'.mp hid
      exact ⟨ref, ((hheap id ref row).mp hrow).1⟩
  refine ⟨⟨tree, heap⟩, ?_, ?_⟩
  · exact {
      pageSize := h.pageSize
      stored := h.stored
      tree := htree
      heap := by
        intro ref row
        constructor
        · intro hmem
          have href : ref ∈ entries.map Prod.snd :=
            h.refs.mem_iff.mpr (List.mem_map_of_mem (f := Prod.fst) hmem)
          obtain ⟨⟨id, _⟩, hentry, rfl⟩ := List.mem_map.mp href
          exact ⟨id, (hheap id _ row).mpr ⟨hentry, hmem⟩⟩
        · rintro ⟨id, hid⟩
          exact ((hheap id ref row).mp hid).2
      places := fun id id' ref row row' hid hid' =>
        h.key_unique ((hheap id ref row).mp hid).1 ((hheap id' ref row').mp hid').1
      ids := fun id hid => by
        obtain ⟨ref, hmem⟩ := hhas id hid
        exact h.keys _ hmem
      nextId_pos := h.nextId_pos
      nextId_lt := h.nextId_lt
      rowSize := h.rowSize
      room := h.room
      noTable := h.noTable
      idFirst := h.idFirst
      schema := h.schema
      used := fun id hid => by
        obtain ⟨ref, hmem⟩ := hhas id hid
        exact ⟨(h.of_mem hmem).1, (h.of_mem hmem).2, h.sizes (List.ne_nil_of_mem hmem)⟩
      contents := fun hs id ref row hid => by
        obtain ⟨hentry, hrow⟩ := (hheap id ref row).mp hid
        exact h.contents hs id ref row hentry hrow }
  · intro id
    show tree id = (heap id).map Prod.fst
    refine Option.ext fun ref => ?_
    rw [htree, Option.map_eq_some_iff]
    constructor
    · intro hmem
      obtain ⟨row, hrow⟩ := h.exists_row hmem
      exact ⟨(ref, row), (hheap id ref row).mpr ⟨hmem, hrow⟩, rfl⟩
    · rintro ⟨⟨_, row⟩, hid, rfl⟩
      exact ((hheap id _ row).mp hid).1

/-- Where index and heap agree on every id and the count is right, there is a database. -/
theorem RowStore.dbInv (h : RowStore st m entries chain) (hlinked : ∀ id, m.Linked id)
    (hcount : st.header.rowCount = entries.length) : DbInv st entries chain := by
  have hrow : ∀ id ref, (id, ref) ∈ entries → ∃ row, m.heap id = some (ref, row) := by
    intro id ref hmem
    have htree := (h.tree id ref).mpr hmem
    rw [hlinked id] at htree
    obtain ⟨⟨_, row⟩, hheap, rfl⟩ := Option.map_eq_some_iff.mp htree
    exact ⟨row, hheap⟩
  have hhas : ∀ e ∈ entries, m.Has e.1 := by
    rintro ⟨id, ref⟩ he
    exact .inl (by rw [(h.tree id ref).mpr he]; exact Option.some_ne_none _)
  have hnodup : (entries.map Prod.snd).Nodup := by
    refine List.Nodup.map_on ?_ (List.Pairwise.imp ?_ h.stored.sorted)
    · rintro ⟨id, ref⟩ he ⟨id', _⟩ he' rfl
      obtain ⟨row, hid⟩ := hrow id ref he
      obtain ⟨row', hid'⟩ := hrow id' ref he'
      rw [h.places id id' ref row row' hid hid']
    · rintro x y hlt rfl
      exact lt_irrefl _ hlt
  exact {
    pageSize := h.pageSize
    stored := h.stored
    refs := by
      rw [List.perm_ext_iff_of_nodup hnodup h.stored.refs_nodup]
      intro ref
      constructor
      · intro hmem
        obtain ⟨⟨id, _⟩, he, rfl⟩ := List.mem_map.mp hmem
        obtain ⟨row, hid⟩ := hrow id _ he
        exact List.mem_map_of_mem (f := Prod.fst) (h.mem_heapRows hid)
      · intro hmem
        obtain ⟨⟨place, row⟩, he, rfl⟩ := List.mem_map.mp hmem
        obtain ⟨id, hid⟩ := (h.heap place row).mp he
        have htree : m.tree id = some place := by
          rw [hlinked id, hid]
          rfl
        exact List.mem_map_of_mem (f := Prod.snd) ((h.tree id place).mp htree)
    keys := fun e he => h.ids e.1 (hhas e he)
    nextId_pos := h.nextId_pos
    nextId_lt := h.nextId_lt
    rowCount := hcount
    rowSize := h.rowSize
    room := h.room
    noTable := h.noTable
    idFirst := h.idFirst
    schema := h.schema
    sizes := fun hne => by
      obtain ⟨e, he⟩ := List.exists_mem_of_ne_nil _ hne
      exact (h.used e.1 (hhas e he)).2.2
    contents := fun hs id ref row hentry hmem => by
      obtain ⟨row', hid⟩ := hrow id ref hentry
      have hpair := List.inj_on_of_nodup_map h.stored.refs_nodup (h.mem_heapRows hid) hmem rfl
      rw [(Prod.mk.inj hpair).2] at hid
      exact h.contents hs id ref row hid }

end Database

end MiniDb
