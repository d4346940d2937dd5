import MiniDb.Db.Pages
import MiniDb.Sql.CreateSchema
import MiniDb.Storage.Heap.Oversize

/-! # The invariant of a database

The heap, the index and the counters of a database that no statement is working on. The references
of the index are the places of the rows, each once; its keys are ids that have been given out; the
row count is their number. Where the schema is sound, the row behind a key is the encoding of
values with that key in front. -/

set_option autoImplicit false

namespace MiniDb

open Lib

/-- A heap of one page, as it is made. -/
def blankChain (pid pageSize : Nat) : HeapChain :=
  [(pid, ⟨0, slotNone, 0, [], List.replicate pageSize 0⟩)]

/-- The bytes of a row with this id. -/
def IsRowOf (columns : List ColumnMeta) (id : Nat) (row : List UInt8) : Prop :=
  ∃ values, WellTyped columns (.bigint (toI64 id) :: values) ∧
    row = encodeRow columns (.bigint (toI64 id) :: values)

/-- **The database invariant**, with the entries of the index and the pages of the heap. -/
structure DbInv (st : Pager) (entries : List (Nat × RowRef)) (chain : HeapChain) : Prop where
  pageSize : IsPageSize st.pageSize
  stored : Stored st st.header.rowSize entries chain
  refs : (entries.map Prod.snd).Perm ((heapRows chain st.header.rowSize).map Prod.fst)
  keys : ∀ e ∈ entries, 1 ≤ e.1 ∧ e.1 < st.header.nextId
  nextId_pos : 1 ≤ st.header.nextId
  nextId_lt : st.header.nextId < 2 ^ 64
  rowCount : st.header.rowCount = entries.length
  rowSize : st.header.rowSize < 65536
  /-- rows that do not fit a page have never been stored -/
  room : RowFits st.pageSize st.header.rowSize ∨ ∃ pid, chain = blankChain pid st.pageSize
  noTable : st.header.columns = [] → ∃ pid, chain = blankChain pid st.pageSize
  idFirst : st.header.columns ≠ [] → st.header.columns.head? = some idColumn
  schema : VarcharUsable st.header.columns → SoundSchema st.header
  /-- a row with a VARCHAR column of size 0 has never been written -/
  sizes : entries ≠ [] → ∀ c ∈ st.header.columns, c.type = .varchar → 1 ≤ c.size
  contents : SoundSchema st.header → ∀ id ref row, (id, ref) ∈ entries →
    (ref, row) ∈ heapRows chain st.header.rowSize → IsRowOf st.header.columns id row

/-- Only ids have been given out, and pages latched. -/
def Pager.OnlyIds (st st' : Pager) : Prop :=
  ∃ n t, st.header.nextId ≤ n ∧ n < 2 ^ 64 ∧
    st' = { st with header := { st.header with nextId := n }, trace := t }

/-- How a statement may end. -/
structure DbStep (st : Pager) (res : ExecResult) (st' : Pager) : Prop where
  inv : ∃ entries chain, DbInv st' entries chain
  pageSize : st'.pageSize = st.pageSize
  failed : res.status = -1 → st.OnlyIds st'

section

variable {st st' st₁ st₂ : Pager} {entries l r : List (Nat × RowRef)} {chain : HeapChain}
  {rowSize pid id : Nat} {ref : RowRef} {row : List UInt8} {hl hr : List (RowRef × List UInt8)}

@[simp] theorem heapRows_blankChain {pageSize : Nat} :
    heapRows (blankChain pid pageSize) rowSize = [] := by
  simp [blankChain, HeapPage.rows, liveRows]

/-! ## References and places -/

/-- One reference more on both sides. -/
theorem refs_middle :
    ((l ++ (id, ref) :: r).map Prod.snd).Perm ((hl ++ (ref, row) :: hr).map Prod.fst) ↔
      ((l ++ r).map Prod.snd).Perm ((hl ++ hr).map Prod.fst) := by
  simp only [List.map_append, List.map_cons]
  rw [List.perm_middle.congr_left, List.perm_middle.congr_right, List.perm_cons]

/-- The rows without one of them. -/
theorem filter_middle (h : ((hl ++ (ref, row) :: hr).map Prod.fst).Nodup) :
    (hl ++ (ref, row) :: hr).filter (fun e => decide (e.1 ≠ ref)) = hl ++ hr := by
  rw [List.map_append, List.map_cons, List.nodup_middle, List.nodup_cons, ← List.map_append] at h
  have hne : ∀ e ∈ hl ++ hr, decide (e.1 ≠ ref) = true := by
    intro e he
    apply decide_eq_true
    rintro rfl
    have hmem : e.1 ∈ (hl ++ hr).map Prod.fst := List.mem_map_of_mem he
    exact h.1 hmem
  rw [List.filter_append, List.filter_cons_of_neg (by simp), ← List.filter_append]
  exact List.filter_eq_self.mpr hne

/-- The rows with other bytes in one of them. -/
theorem map_middle {row' : List UInt8} (h : ((hl ++ (ref, row) :: hr).map Prod.fst).Nodup) :
    (hl ++ (ref, row) :: hr).map (fun e => if e.1 = ref then (ref, row') else e) =
      hl ++ (ref, row') :: hr := by
  rw [List.map_append, List.map_cons, List.nodup_middle, List.nodup_cons, ← List.map_append] at h
  have hne : ∀ e ∈ hl ++ hr, (if e.1 = ref then (ref, row') else e) = e := by
    intro e he
    apply if_neg
    rintro rfl
    have hmem : e.1 ∈ (hl ++ hr).map Prod.fst := List.mem_map_of_mem he
    exact h.1 hmem
  rw [List.map_append, List.map_cons, if_pos rfl,
    List.map_congr_left fun e he => hne e (List.mem_append_left _ he),
    List.map_congr_left fun e he => hne e (List.mem_append_right _ he), List.map_id', List.map_id']

theorem DbInv.nodup (h : DbInv st entries chain) : (entries.map Prod.snd).Nodup :=
  h.refs.nodup_iff.mpr h.stored.refs_nodup

/-- There is a row behind every entry. -/
theorem DbInv.exists_row (h : DbInv st entries chain) (hmem : (id, ref) ∈ entries) :
    ∃ row, (ref, row) ∈ heapRows chain st.header.rowSize := by
  have href : ref ∈ (heapRows chain st.header.rowSize).map Prod.fst :=
    h.refs.mem_iff.mp (List.mem_map_of_mem hmem)
  obtain ⟨⟨ref', row⟩, hrow, rfl⟩ := List.mem_map.mp href
  exact ⟨row, hrow⟩

theorem DbInv.isPlace (h : DbInv st entries chain) (hmem : (id, ref) ∈ entries) :
    chain.IsPlace ref := by
  obtain ⟨row, hrow⟩ := h.exists_row hmem
  obtain ⟨hph, s, hslot, -⟩ := exists_isSlot hrow
  exact hslot.isPlace

theorem DbInv.entries_nil (h : DbInv st entries chain) (hchain : chain = blankChain pid st.pageSize) :
    entries = [] := by
  have hrefs := h.refs
  rw [hchain, heapRows_blankChain, List.map_nil] at hrefs
  exact List.map_eq_nil_iff.mp hrefs.eq_nil

/-- Where there is an entry, there is a table, and its rows fit. -/
theorem DbInv.of_mem (h : DbInv st entries chain) (hmem : (id, ref) ∈ entries) :
    RowFits st.pageSize st.header.rowSize ∧ st.header.columns ≠ [] := by
  have hne : ∀ pid, chain ≠ blankChain pid st.pageSize := by
    intro pid hchain
    rw [h.entries_nil hchain] at hmem
    cases hmem
  constructor
  · rcases h.room with hfit | ⟨pid, hchain⟩
    · exact hfit
    · exact absurd hchain (hne pid)
  · intro hcols
    obtain ⟨pid, hchain⟩ := h.noTable hcols
    exact hne pid hchain

/-- A new entry is behind the others' references. -/
theorem DbInv.key_unique (h : DbInv st entries chain) {id' : Nat} (hmem : (id, ref) ∈ entries)
    (hmem' : (id', ref) ∈ entries) : id = id' := by
  have hinj := List.inj_on_of_nodup_map h.nodup hmem hmem' rfl
  exact (Prod.mk.inj hinj).1

/-! ## Steps that leave the rows alone -/

theorem Pager.SameData.onlyIds (hs : st.SameData st') (hlt : st.header.nextId < 2 ^ 64) :
    st.OnlyIds st' := by
  obtain ⟨t, rfl⟩ := hs
  exact ⟨st.header.nextId, t, le_refl _, hlt, rfl⟩

theorem DbInv.onlyIds (h : DbInv st entries chain) (hs : st.OnlyIds st') :
    DbInv st' entries chain := by
  obtain ⟨n, t, hle, hlt, rfl⟩ := hs
  exact {
    pageSize := h.pageSize
    stored := h.stored.samePages ⟨rfl, rfl, rfl, rfl, rfl, rfl, rfl, rfl⟩
    refs := h.refs
    keys := fun e he => ⟨(h.keys e he).1, lt_of_lt_of_le (h.keys e he).2 hle⟩
    nextId_pos := le_trans h.nextId_pos hle
    nextId_lt := hlt
    rowCount := h.rowCount
    rowSize := h.rowSize
    room := h.room
    noTable := h.noTable
    idFirst := h.idFirst
    schema := fun hv => ⟨(h.schema hv).sound, (h.schema hv).contiguous, (h.schema hv).rowSize⟩
    sizes := h.sizes
    contents := fun hs => h.contents ⟨hs.sound, hs.contiguous, hs.rowSize⟩ }

theorem DbInv.sameData (h : DbInv st entries chain) (hs : st.SameData st') :
    DbInv st' entries chain :=
  h.onlyIds (hs.onlyIds h.nextId_lt)

/-- A statement that only gives out ids. -/
theorem DbInv.stepOnlyIds (h : DbInv st entries chain) (hs : st.OnlyIds st') {res : ExecResult} :
    DbStep st res st' := by
  refine ⟨⟨entries, chain, h.onlyIds hs⟩, ?_, fun _ => hs⟩
  obtain ⟨n, t, -, -, rfl⟩ := hs
  rfl

/-! ## A row more, a row less, a row changed -/

/-- The state after changes to the index and the heap of one table. -/
theorem DbInv.change {entries' : List (Nat × RowRef)} {chain' : HeapChain}
    (h : DbInv st entries chain) (htable : RowFits st.pageSize st.header.rowSize)
    (hcols : st.header.columns ≠ [])
    (hsizes : ∀ c ∈ st.header.columns, c.type = .varchar → 1 ≤ c.size)
    (hsame : st.SameTable st₁) {count : Nat}
    (hst : st' = st₁.setHeader { st₁.header with rowCount := count })
    (hstored : Stored st₁ st.header.rowSize entries' chain')
    (hrefs : (entries'.map Prod.snd).Perm ((heapRows chain' st.header.rowSize).map Prod.fst))
    (hkeys : ∀ e ∈ entries', 1 ≤ e.1 ∧ e.1 < st.header.nextId) (hcount : count = entries'.length)
    (hcontents : SoundSchema st.header → ∀ id ref row, (id, ref) ∈ entries' →
      (ref, row) ∈ heapRows chain' st.header.rowSize → IsRowOf st.header.columns id row) :
    DbInv st' entries' chain' := by
  subst hst
  have hsize : st₁.header.rowSize = st.header.rowSize := hsame.rowSize
  have hcolumns : st₁.header.columns = st.header.columns := hsame.columns
  have hps : st₁.pageSize = st.pageSize := hsame.pageSize
  have hnext : st₁.header.nextId = st.header.nextId := hsame.nextId
  constructor
  case pageSize => exact hps ▸ h.pageSize
  case stored =>
    show Stored _ st₁.header.rowSize entries' chain'
    rw [hsize]
    exact hstored.samePages ⟨rfl, rfl, rfl, rfl, rfl, rfl, rfl, rfl⟩
  case refs =>
    show (entries'.map Prod.snd).Perm ((heapRows chain' st₁.header.rowSize).map Prod.fst)
    rw [hsize]
    exact hrefs
  case keys =>
    show ∀ e ∈ entries', 1 ≤ e.1 ∧ e.1 < st₁.header.nextId
    rw [hnext]
    exact hkeys
  case nextId_pos => exact hnext ▸ h.nextId_pos
  case nextId_lt => exact hnext ▸ h.nextId_lt
  case rowCount => exact hcount
  case rowSize => exact hsize ▸ h.rowSize
  case room =>
    show RowFits st₁.pageSize st₁.header.rowSize ∨ _
    rw [hps, hsize]
    exact .inl htable
  case noTable => exact fun hnil => absurd (hcolumns.symm.trans hnil) hcols
  case idFirst =>
    show st₁.header.columns ≠ [] → st₁.header.columns.head? = some idColumn
    rw [hcolumns]
    exact h.idFirst
  case schema =>
    show VarcharUsable st₁.header.columns → _
    rw [hcolumns]
    intro hv
    have hs := h.schema hv
    exact ⟨fun c hc => hs.sound c (hcolumns ▸ hc), by simpa [hcolumns] using hs.contiguous,
      by simpa [hcolumns, hsize] using hs.rowSize⟩
  case sizes =>
    intro _
    show ∀ c ∈ st₁.header.columns, c.type = .varchar → 1 ≤ c.size
    rw [hcolumns]
    exact hsizes
  case contents =>
    intro hs
    show ∀ id ref row, (id, ref) ∈ entries' →
      (ref, row) ∈ heapRows chain' st₁.header.rowSize → IsRowOf st₁.header.columns id row
    rw [hsize, hcolumns]
    exact hcontents ⟨fun c hc => hs.sound c (hcolumns ▸ hc), by simpa [hcolumns] using hs.contiguous,
      by simpa [hcolumns, hsize] using hs.rowSize⟩

/-- A row that is stored fits its pages. -/
theorem DbInv.rowFits_of_insert (h : DbInv st entries chain) {rounds : Nat}
    (hrow : row.length = st.header.rowSize)
    (hrun : (heapInsert rounds row).run st = some (ref, st₁)) :
    RowFits st.pageSize st.header.rowSize := by
  by_contra hbig
  obtain ⟨pid, hchain⟩ := h.room.resolve_left hbig
  obtain ⟨free, leaves, rows, hat, -⟩ := h.stored
  have hheap : HeapInv st free row.length chain := hrow ▸ hat.heap
  have hnone := heapInsert_oversize h.pageSize (hrow ▸ hbig) (hrow ▸ h.rowSize) rounds hheap (by
    rw [hchain]
    intro n hn
    obtain rfl := List.mem_singleton.mp hn
    exact ⟨rfl, rfl, rfl, List.length_replicate⟩)
  rw [hnone] at hrun
  cases hrun

/-- **A row more.** `heap_insert`, `bptree_insert` and `row_count++` for an id that is not in the
index. -/
theorem DbInv.insert {rounds : Nat} {rc : Int} (h : DbInv st entries chain)
    (hcols : st.header.columns ≠ []) (hid : 1 ≤ id ∧ id < st.header.nextId)
    (hnew : ∀ e ∈ entries, e.1 ≠ id) (hrow : row.length = st.header.rowSize)
    (hsizes : ∀ c ∈ st.header.columns, c.type = .varchar → 1 ≤ c.size)
    (hof : SoundSchema st.header → IsRowOf st.header.columns id row)
    (hheap : (heapInsert rounds row).run st = some (ref, st₁))
    (htree : (bptreeInsert id ref).run st₁ = some (rc, st₂)) :
    rc = 0 ∧ st.SameTable st₂ ∧ ∃ l r chain', entries = l ++ r ∧
      (ref, row) ∈ heapRows chain' st.header.rowSize ∧
      (∀ p, chain.IsPlace p → chain'.IsPlace p) ∧
      DbInv (st₂.setHeader { st₂.header with rowCount := st₂.header.rowCount + 1 })
        (l ++ (id, ref) :: r) chain' := by
  have hfit := h.rowFits_of_insert hrow hheap
  obtain ⟨hsame₁, chain', hl, hr, hstored₁, hrows, hrows', hplaces⟩ :=
    h.stored.insertRow hfit hrow hheap
  obtain ⟨rfl, hsame₂, l, r, hentries, hstored₂⟩ :=
    hstored₁.insertKey (lt_trans hid.2 h.nextId_lt) hnew htree
  have hsame := hsame₁.trans hsame₂
  have hrefs : ((l ++ (id, ref) :: r).map Prod.snd).Perm
      ((heapRows chain' st.header.rowSize).map Prod.fst) := by
    rw [hrows', refs_middle, ← hentries, ← hrows]
    exact h.refs
  have hmem : (ref, row) ∈ heapRows chain' st.header.rowSize := by
    rw [hrows']
    exact List.mem_append_right hl List.mem_cons_self
  refine ⟨rfl, hsame, l, r, chain', hentries, hmem, hplaces,
    h.change hfit hcols hsizes hsame rfl hstored₂ hrefs ?_ ?_ ?_⟩
  · intro e he
    rcases List.mem_append.mp he with he | he
    · exact h.keys e (by simp [hentries, he])
    · rcases List.mem_cons.mp he with rfl | he
      · exact hid
      · exact h.keys e (by simp [hentries, he])
  · rw [hsame.rowCount, h.rowCount, hentries]
    simp only [List.length_append, List.length_cons]
    omega
  · intro hs id' ref' row' hentry hrow'
    -- the new reference is behind the new key only, and its row is the new row
    have hnd : ((l ++ (id, ref) :: r).map Prod.snd).Nodup :=
      hrefs.nodup_iff.mpr hstored₂.refs_nodup
    have hnd' : ((hl ++ (ref, row) :: hr).map Prod.fst).Nodup := hrows' ▸ hstored₂.refs_nodup
    rw [hrows'] at hrow'
    by_cases href : ref' = ref
    · subst href
      have hkey := List.inj_on_of_nodup_map hnd hentry (List.mem_append_right l List.mem_cons_self)
        rfl
      have hval := List.inj_on_of_nodup_map hnd' hrow'
        (List.mem_append_right hl List.mem_cons_self) rfl
      obtain ⟨rfl, -⟩ := Prod.mk.inj hkey
      obtain ⟨-, rfl⟩ := Prod.mk.inj hval
      exact hof hs
    · refine h.contents hs id' ref' row' ?_ ?_
      · rw [hentries]
        simpa [href] using hentry
      · rw [hrows]
        simpa [href] using hrow'

/-- **A row less.** `heap_delete`, `bptree_delete` and `row_count--` for an id of the index. -/
theorem DbInv.erase {rc rc' : Int} (h : DbInv st entries chain) (hmem : (id, ref) ∈ entries)
    (hheap : (heapDelete ref).run st = some (rc, st₁))
    (htree : (bptreeDelete id).run st₁ = some (rc', st₂)) :
    rc = 0 ∧ rc' = 0 ∧ st.SameTable st₂ ∧ ∃ l r chain', entries = l ++ (id, ref) :: r ∧
      heapRows chain' st.header.rowSize =
        (heapRows chain st.header.rowSize).filter (fun e => decide (e.1 ≠ ref)) ∧
      chain'.length = chain.length ∧ (∀ p, chain.IsPlace p → chain'.IsPlace p) ∧
      DbInv (st₂.setHeader { st₂.header with rowCount := st₂.header.rowCount - 1 })
        (l ++ r) chain' := by
  obtain ⟨hfit, hcols⟩ := h.of_mem hmem
  obtain ⟨row, hrow⟩ := h.exists_row hmem
  obtain ⟨rfl, hsame₁, chain', hl, hr, hstored₁, hrows, hrows', hlen, hplaces⟩ :=
    h.stored.deleteRow hrow hheap
  obtain ⟨rfl, hsame₂, l, r, hentries, hstored₂⟩ := hstored₁.deleteKey hmem htree
  have hsame := hsame₁.trans hsame₂
  have hfilter : heapRows chain' st.header.rowSize =
      (heapRows chain st.header.rowSize).filter (fun e => decide (e.1 ≠ ref)) := by
    rw [hrows', hrows, filter_middle (hrows ▸ h.stored.refs_nodup)]
  refine ⟨rfl, rfl, hsame, l, r, chain', hentries, hfilter, hlen, hplaces,
    h.change hfit hcols (h.sizes (List.ne_nil_of_mem hmem)) hsame rfl hstored₂ ?_ ?_ ?_ ?_⟩
  · have hrefs := h.refs
    rw [hentries, hrows, refs_middle] at hrefs
    rw [hrows']
    exact hrefs
  · intro e he
    refine h.keys e ?_
    rw [hentries]
    exact List.mem_append.mpr ((List.mem_append.mp he).imp_right (List.mem_cons_of_mem _))
  · rw [hsame.rowCount, h.rowCount, hentries]
    simp only [List.length_append, List.length_cons]
    omega
  · intro hs id' ref' row' hentry hrow'
    refine h.contents hs id' ref' row' ?_ ?_
    · rw [hentries]
      exact List.mem_append.mpr ((List.mem_append.mp hentry).imp_right (List.mem_cons_of_mem _))
    · rw [hrows]
      rw [hrows'] at hrow'
      exact List.mem_append.mpr ((List.mem_append.mp hrow').imp_right (List.mem_cons_of_mem _))

/-- **A row changed.** Other bytes for an id of the index. -/
theorem DbInv.overwrite (h : DbInv st entries chain) (hmem : (id, ref) ∈ entries)
    (hrow : row.length = st.header.rowSize)
    (hof : SoundSchema st.header → IsRowOf st.header.columns id row)
    (hrun : (overwriteRow ref row).run st = some ((), st')) :
    st.SameTable st' ∧ ∃ chain', heapRows chain' st.header.rowSize =
        (heapRows chain st.header.rowSize).map (fun e => if e.1 = ref then (ref, row) else e) ∧
      (∀ p, chain.IsPlace p → chain'.IsPlace p) ∧ DbInv st' entries chain' := by
  obtain ⟨hfit, hcols⟩ := h.of_mem hmem
  obtain ⟨old, hold⟩ := h.exists_row hmem
  obtain ⟨hsame, chain', hl, hr, hstored, hrows, hrows', hplaces⟩ :=
    h.stored.overwriteRow hold hrow hrun
  have hst : st' = st'.setHeader { st'.header with rowCount := st'.header.rowCount } := rfl
  have hmap : heapRows chain' st.header.rowSize =
      (heapRows chain st.header.rowSize).map (fun e => if e.1 = ref then (ref, row) else e) := by
    rw [hrows', hrows, map_middle (hrows ▸ h.stored.refs_nodup)]
  refine ⟨hsame, chain', hmap, hplaces,
    h.change hfit hcols (h.sizes (List.ne_nil_of_mem hmem)) hsame hst hstored
    ?_ h.keys (hsame.rowCount.trans h.rowCount) ?_⟩
  · have hrefs := h.refs
    rw [hrows] at hrefs
    rw [hrows']
    simpa using hrefs
  · intro hs id' ref' row' hentry hrow'
    have hnd' : ((hl ++ (ref, row) :: hr).map Prod.fst).Nodup := hrows' ▸ hstored.refs_nodup
    rw [hrows'] at hrow'
    by_cases href : ref' = ref
    · subst href
      obtain rfl := h.key_unique hmem hentry
      have hval := List.inj_on_of_nodup_map hnd' hrow'
        (List.mem_append_right hl List.mem_cons_self) rfl
      obtain ⟨-, rfl⟩ := Prod.mk.inj hval
      exact hof hs
    · refine h.contents hs id' ref' row' hentry ?_
      rw [hrows]
      simpa [href] using hrow'

end

end MiniDb
