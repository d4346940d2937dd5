import MiniDb.Db.Matching

/-! # What DELETE and UPDATE do to the rows

Both statements find a row through its id. The index leads from the id to the row and to no other
one, so what happens to a row is said by its key. -/

set_option autoImplicit false

namespace MiniDb

open Lib

/-- The id of a row, as the index has it. -/
def rowKey (hdr : DbHeader) (row : List UInt8) : Nat := toU64 (rowId (rowValues hdr row))

/-- The bytes that an UPDATE writes over a row. -/
def updatedRow (hdr : DbHeader) (stmt : Statement) (colIdx : Nat) (row : List UInt8) :
    List UInt8 :=
  ((applyUpdateToRow hdr (rowValues hdr row) stmt colIdx).bind (rowSerialize hdr)).getD row

/-! ## Stored values -/

section Stored

variable {c : ColumnMeta} {cols : List ColumnMeta} {values : List RowValue} {v : RowValue}
  {i : Nat}

theorem storedText_storedText (size : Nat) (s : CString) :
    storedText size (storedText size s) = storedText size s := by
  have hlen : (storedText size s).length ≤ size - 1 := by
    calc ((s.take (size - 1)).takeWhile (· != 0)).length
        ≤ (s.take (size - 1)).length := (List.takeWhile_sublist _).length_le
      _ ≤ size - 1 := List.length_take_le _ _
  show ((storedText size s).take (size - 1)).takeWhile (· != 0) = storedText size s
  rw [List.take_of_length_le hlen, List.takeWhile_eq_self_iff]
  intro b hb
  exact List.mem_takeWhile_imp (p := (· != 0)) hb

/-- A value that has been read back is stored as it is. -/
theorem storedValue_storedValue (c : ColumnMeta) (v : RowValue) :
    storedValue c (storedValue c v) = storedValue c v := by
  cases v with
  | int a => exact congrArg RowValue.int Int.bmod_bmod
  | bigint a => exact congrArg RowValue.bigint Int.bmod_bmod
  | varchar s => exact congrArg RowValue.varchar (storedText_storedText c.size s)

theorem storedRow_storedRow (cols : List ColumnMeta) (values : List RowValue) :
    storedRow cols (storedRow cols values) = storedRow cols values := by
  induction cols generalizing values with
  | nil => rfl
  | cons c cols ih =>
    cases values with
    | nil => rfl
    | cons v values => exact congrArg₂ List.cons (storedValue_storedValue c v) (ih values)

/-- One value set, one value stored. -/
theorem storedRow_set (hc : cols[i]? = some c) :
    storedRow cols (values.set i v) = (storedRow cols values).set i (storedValue c v) := by
  induction cols generalizing values i with
  | nil => cases hc
  | cons d cols ih =>
    cases values with
    | nil => rfl
    | cons w values =>
      cases i with
      | zero =>
        obtain rfl := Option.some.inj hc
        rfl
      | succ i => exact congrArg (storedValue d w :: ·) (ih hc)

end Stored

/-! ## Keys -/

section Keys

variable {st : Pager} {entries : List (Nat × RowRef)} {chain : HeapChain} {hdr : DbHeader}
  {ref ref' : RowRef} {row row' : List UInt8} {stmt : Statement} {id colIdx : Nat}

theorem SameSchema.rowValues {hdr' : DbHeader} (h : SameSchema hdr hdr') (row : List UInt8) :
    rowValues hdr row = rowValues hdr' row := by
  rw [MiniDb.rowValues, MiniDb.rowValues, rowDeserialize, rowDeserialize, h.columns]

/-- The key that a row has is the one that the index has for it. -/
theorem DbInv.rowKey_eq (h : DbInv st entries chain) (hhdr : SameSchema hdr st.header)
    (hle : ∀ c ∈ hdr.columns, c.type = .varchar → c.size ≤ 255) (hmem : (id, ref) ∈ entries)
    (hrow : (ref, row) ∈ heapRows chain st.header.rowSize) : rowKey hdr row = id := by
  rw [rowKey, hhdr.rowValues, h.rowId_eq (hhdr.columns ▸ hle) hmem hrow]
  exact toU64_toI64 (lt_trans (h.keys _ hmem).2 h.nextId_lt)

theorem DbInv.mem_entries (h : DbInv st entries chain) (hhdr : SameSchema hdr st.header)
    (hle : ∀ c ∈ hdr.columns, c.type = .varchar → c.size ≤ 255)
    (hrow : (ref, row) ∈ heapRows chain st.header.rowSize) : (rowKey hdr row, ref) ∈ entries := by
  obtain ⟨id, hmem⟩ := h.exists_entry hrow
  rw [h.rowKey_eq hhdr hle hmem hrow]
  exact hmem

/-- No two rows have one key. -/
theorem DbInv.rowKey_inj (h : DbInv st entries chain) (hhdr : SameSchema hdr st.header)
    (hle : ∀ c ∈ hdr.columns, c.type = .varchar → c.size ≤ 255)
    (hrow : (ref, row) ∈ heapRows chain st.header.rowSize)
    (hrow' : (ref', row') ∈ heapRows chain st.header.rowSize)
    (hkey : rowKey hdr row = rowKey hdr row') : ref = ref' ∧ row = row' := by
  have hmem := h.mem_entries hhdr hle hrow
  have hmem' := h.mem_entries hhdr hle hrow'
  have hkeys : (entries.map Prod.fst).Nodup :=
    List.pairwise_map.mpr (h.stored.sorted.imp fun hlt => ne_of_lt hlt)
  rw [hkey] at hmem
  obtain ⟨-, rfl⟩ := Prod.mk.inj (List.inj_on_of_nodup_map hkeys hmem hmem' rfl)
  exact ⟨rfl, (Prod.mk.inj (List.inj_on_of_nodup_map h.stored.refs_nodup hrow hrow' rfl)).2⟩

/-- The values behind a row, and what they are when the row is written and read again. -/
theorem DbInv.rowValues_stored (h : DbInv st entries chain) (hhdr : SameSchema hdr st.header)
    (hle : ∀ c ∈ hdr.columns, c.type = .varchar → c.size ≤ 255)
    (hrow : (ref, row) ∈ heapRows chain st.header.rowSize) :
    SoundSchema hdr ∧ rowDeserialize hdr row = some (rowValues hdr row) ∧
      WellTyped hdr.columns (rowValues hdr row) ∧
      storedRow hdr.columns (rowValues hdr row) = rowValues hdr row := by
  obtain ⟨id, hmem⟩ := h.exists_entry hrow
  have hs := h.sound_of_row hmem (hhdr.columns ▸ hle)
  obtain ⟨vs, hwt, rfl⟩ := h.contents hs id ref row hmem hrow
  rw [← hhdr.columns] at hwt ⊢
  have hread := (hhdr.sound hs).rowDeserialize hwt
  rw [rowValues_eq hread]
  exact ⟨hhdr.sound hs, hread, storedRow_wellTyped hwt, storedRow_storedRow _ _⟩

/-- The row that an UPDATE writes: the named column has the new value as it is stored, all others
are as they were. -/
theorem DbInv.rowDeserialize_updatedRow (h : DbInv st entries chain) (stmt : Statement)
    (hhdr : SameSchema hdr st.header) (hle : ∀ c ∈ hdr.columns, c.type = .varchar → c.size ≤ 255)
    (hrow : (ref, row) ∈ heapRows chain st.header.rowSize) {col : ColumnMeta}
    (hcol : hdr.columns[colIdx]? = some col) :
    (∃ values, applyUpdateToRow hdr (rowValues hdr row) stmt colIdx = some values ∧
      rowSerialize hdr values = some (updatedRow hdr stmt colIdx row)) ∧
    rowDeserialize hdr (updatedRow hdr stmt colIdx row) = some ((rowValues hdr row).set colIdx
      (storedValue col (col.type.ofText stmt.updateValue))) := by
  obtain ⟨hs, -, hwt, hstored⟩ := h.rowValues_stored hhdr hle hrow
  have happly : applyUpdateToRow hdr (rowValues hdr row) stmt colIdx =
      some ((rowValues hdr row).set colIdx (col.type.ofText stmt.updateValue)) := by
    rw [applyUpdateToRow, hcol]
    rfl
  have hwt' := wellTyped_set hwt hcol (hasType_ofText stmt.updateValue _)
  have hserial := hs.rowSerialize hwt'
  have hrow' : updatedRow hdr stmt colIdx row =
      encodeRow hdr.columns ((rowValues hdr row).set colIdx (col.type.ofText stmt.updateValue)) := by
    rw [updatedRow, happly, Option.bind_some, hserial]
    rfl
  rw [hrow']
  refine ⟨⟨_, happly, hserial⟩, ?_⟩
  rw [hs.rowDeserialize hwt', storedRow_set hcol, hstored]

theorem rowId_set_succ (values : RowValues) (i : Nat) (v : RowValue) :
    rowId (values.set (i + 1) v) = rowId values := by
  cases values with
  | nil => rfl
  | cons w values => cases w <;> rfl

/-- A column that may be updated is one of the table. -/
theorem validateUpdateTarget_column (h : validateUpdateTarget hdr stmt = .ok colIdx) :
    ∃ col, hdr.columns[colIdx]? = some col := by
  rw [validateUpdateTarget] at h
  split at h
  · cases h
  · rename_i idx hfind
    split at h
    · cases h
    · obtain rfl := Except.ok.inj h
      have hlt : idx < hdr.columns.length := (List.findIdx?_eq_some_iff_getElem.mp hfind).1
      exact ⟨_, List.getElem?_eq_getElem hlt⟩

/-- The key of a row is not updated. -/
theorem DbInv.rowKey_updatedRow (h : DbInv st entries chain)
    (hhdr : SameSchema hdr st.header) (hle : ∀ c ∈ hdr.columns, c.type = .varchar → c.size ≤ 255)
    (hrow : (ref, row) ∈ heapRows chain st.header.rowSize)
    (hcol : validateUpdateTarget hdr stmt = .ok colIdx) :
    rowKey hdr (updatedRow hdr stmt colIdx row) = rowKey hdr row := by
  obtain ⟨col, hget⟩ := validateUpdateTarget_column hcol
  obtain ⟨id, hmem⟩ := h.exists_entry hrow
  have hhead : hdr.columns.head? = some idColumn := by
    rw [hhdr.columns]
    exact h.idFirst (h.of_mem hmem).2
  obtain ⟨i, rfl⟩ := Nat.exists_eq_add_one_of_ne_zero
    (Nat.pos_iff_ne_zero.mp (validateUpdateTarget_pos hhead hcol))
  have hread := (h.rowDeserialize_updatedRow stmt hhdr hle hrow hget).2
  rw [rowKey, rowValues_eq hread, rowId_set_succ, rowKey]

end Keys

/-! ## One row -/

section Row

variable {st st' : Pager} {entries : List (Nat × RowRef)} {chain : HeapChain} {hdr : DbHeader}
  {ref : RowRef} {row : List UInt8} {stmt : Statement} {colIdx : Nat}

/-- `heap_fetch` on the place of a row. -/
theorem DbInv.run_heapFetch (h : DbInv st entries chain)
    (hrow : (ref, row) ∈ heapRows chain st.header.rowSize) :
    ∃ st', st.SameData st' ∧ (heapFetch ref st.header.rowSize).run st = some (some row, st') := by
  obtain ⟨id, hmem⟩ := h.exists_entry hrow
  obtain ⟨found, st', hfetch⟩ := h.stored.exists_fetchRow (h.isPlace hmem)
  obtain ⟨hsame, hfound⟩ := h.stored.fetchRow (h.isPlace hmem) hfetch
  obtain rfl := (hfound row).mpr hrow
  exact ⟨st', hsame, hfetch⟩

/-- `fetch_matching_row_by_id` on the id of a row. -/
theorem DbInv.run_fetchMatching (h : DbInv st entries chain) (stmt : Statement)
    (hhdr : SameSchema hdr st.header)
    (hle : ∀ c ∈ hdr.columns, c.type = .varchar → c.size ≤ 255)
    (hrow : (ref, row) ∈ heapRows chain st.header.rowSize) :
    ∃ st', st.SameData st' ∧ (fetchMatchingRowById hdr (rowKey hdr row) stmt).run st =
      some (if rowMatches hdr stmt row then some (ref, rowValues hdr row) else none, st') := by
  have hmem := h.mem_entries hhdr hle hrow
  obtain ⟨res, st₁, hsearch⟩ := h.stored.exists_search (rowKey hdr row)
  obtain ⟨hsame₁, hres⟩ := h.stored.search hsearch
  obtain rfl := (hres ref).mpr hmem
  have hsize₁ : st₁.header.rowSize = st.header.rowSize := hsame₁.sameTable.rowSize
  rw [← hsize₁] at hrow
  obtain ⟨st₂, hsame₂, hfetch⟩ := (h.sameData hsame₁).run_heapFetch hrow
  rw [hsize₁] at hrow
  rw [hsize₁, ← hhdr.rowSize] at hfetch
  have hread := (h.rowValues_stored hhdr hle hrow).2.1
  refine ⟨st₂.log (.unlatchR ref.pageId), (hsame₁.trans hsame₂).trans .log, ?_⟩
  rw [fetchMatchingRowById, run_bind_of hsearch]
  dsimp only
  rw [run_bind_of hfetch]
  dsimp only
  rw [hread]
  rfl

/-- The row of an id deleted, with its entry and its count. -/
theorem DbInv.run_erase (h : DbInv st entries chain) (hhdr : SameSchema hdr st.header)
    (hle : ∀ c ∈ hdr.columns, c.type = .varchar → c.size ≤ 255)
    (hrow : (ref, row) ∈ heapRows chain st.header.rowSize) :
    ∃ st₁ st₂ st₃, (heapDelete ref).run st = some (0, st₁) ∧
      (bptreeDelete (rowKey hdr row)).run st₁ = some (0, st₂) ∧
      decrementRowCount.run st₂ = some ((), st₃) ∧ SameSchema hdr st₃.header ∧
      ∃ entries' chain', DbInv st₃ entries' chain' ∧ HeapKept st chain st₃ chain' ∧
        heapRows chain' st.header.rowSize = (heapRows chain st.header.rowSize).filter
          (fun e => decide (rowKey hdr e.2 ≠ rowKey hdr row)) := by
  have hmem := h.mem_entries hhdr hle hrow
  obtain ⟨rc, st₁, hheap⟩ := h.stored.exists_deleteRow (h.isPlace hmem)
  obtain ⟨rfl, -, chain₁, -, -, hstored₁, -⟩ := h.stored.deleteRow hrow hheap
  obtain ⟨rc, st₂, htree⟩ := hstored₁.exists_deleteKey hmem
  obtain ⟨rfl, -⟩ := hstored₁.deleteKey hmem htree
  have hdecr : decrementRowCount.run st₂ = some ((), st₂.setHeader { st₂.header with
      rowCount := if st₂.header.rowCount = 0 then 2 ^ 64 - 1 else st₂.header.rowCount - 1 }) := rfl
  obtain ⟨l, r, chain', hkept, -, hrows, hlen, hinv⟩ := h.eraseRow hmem hheap htree hdecr
  refine ⟨st₁, st₂, _, hheap, htree, hdecr, hhdr.kept hkept, l ++ r, chain', hinv,
    ⟨hkept.nextPageId_le, hlen⟩, ?_⟩
  rw [hrows]
  apply List.filter_congr
  intro e he
  -- the place and the key name the same row
  rw [decide_eq_decide, not_iff_not]
  constructor
  · intro href
    exact congrArg (rowKey hdr) (Prod.mk.inj (List.inj_on_of_nodup_map h.stored.refs_nodup he hrow
      href)).2
  · intro hkey
    exact (h.rowKey_inj hhdr hle he hrow hkey).1

/-- A row changed and written back. -/
theorem DbInv.run_updateRow (h : DbInv st entries chain) (hhdr : SameSchema hdr st.header)
    (hle : ∀ c ∈ hdr.columns, c.type = .varchar → c.size ≤ 255)
    (hrow : (ref, row) ∈ heapRows chain st.header.rowSize)
    (hcol : validateUpdateTarget hdr stmt = .ok colIdx) :
    ∃ st', (MiniDb.updateRow hdr stmt colIdx ref (rowValues hdr row)).run st = some ((), st') ∧
      SameSchema hdr st'.header ∧ ∃ chain', DbInv st' entries chain' ∧
        heapRows chain' st.header.rowSize = (heapRows chain st.header.rowSize).map fun e =>
          if rowKey hdr e.2 = rowKey hdr row then (e.1, updatedRow hdr stmt colIdx e.2) else e := by
  have hmem := h.mem_entries hhdr hle hrow
  obtain ⟨col, hget⟩ := validateUpdateTarget_column hcol
  obtain ⟨⟨values, happly, hserial⟩, -⟩ :=
    h.rowDeserialize_updatedRow stmt hhdr hle hrow hget
  obtain ⟨st', hwrite⟩ := h.stored.exists_overwriteRow hrow
    ((length_rowSerialize hserial).trans hhdr.rowSize)
  have hrun : (MiniDb.updateRow hdr stmt colIdx ref (rowValues hdr row)).run st =
      some ((), st') := by
    rw [MiniDb.updateRow, happly]
    show (do overwriteRow ref (← orUndefined (rowSerialize hdr values)) : PagerM Unit).run st = _
    rw [hserial]
    exact hwrite
  have hread := (h.rowValues_stored hhdr hle hrow).2.1
  obtain ⟨chain', values', row', happly', hserial', hrows, hinv, hkept⟩ :=
    h.updateRow hhdr hcol hmem hrow hread hrun
  obtain rfl := Option.some.inj (happly.symm.trans happly')
  obtain rfl := Option.some.inj (hserial.symm.trans hserial')
  refine ⟨st', hrun, hhdr.kept hkept, chain', hinv, ?_⟩
  rw [hrows]
  apply List.map_congr_left
  intro e he
  by_cases href : e.1 = ref
  · obtain ⟨-, rfl⟩ := Prod.mk.inj (List.inj_on_of_nodup_map h.stored.refs_nodup he hrow href)
    rw [if_pos href, if_pos rfl, href]
  · rw [if_neg href, if_neg fun hkey => href (h.rowKey_inj hhdr hle he hrow hkey).1]

end Row

end MiniDb
