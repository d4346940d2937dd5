import MiniDb.Db.Invariant
import MiniDb.Sql.Executor.Reads

/-! # One statement

Each function of the executor takes a database to a database (`DbStep`), and one that fails has at
most given out an id. -/

set_option autoImplicit false

namespace MiniDb

open Lib

/-! ## The values of a row -/

section Values

variable {cols : List ColumnMeta} {hdr : DbHeader} {stmt : Statement} {id colIdx : Nat}
  {values vs : List RowValue}

theorem hasType_ofText (sv : CString) (t : ColumnType) : (t.ofText sv).HasType t := by
  cases t <;> trivial

theorem hasType_zero (t : ColumnType) : t.zero.HasType t := by
  cases t <;> trivial

theorem wellTyped_assignValues (cols : List ColumnMeta) (svs : List CString) :
    WellTyped cols (assignValues cols svs) := by
  induction cols generalizing svs with
  | nil => exact .nil
  | cons col cols ih =>
    cases svs with
    | nil => exact .cons (hasType_zero col.type) (ih [])
    | cons sv svs => exact .cons (hasType_ofText sv col.type) (ih svs)

/-- The values of a new row are led by its id. -/
theorem insertRowValues_wellTyped (hhead : hdr.columns.head? = some idColumn) :
    WellTyped hdr.columns (insertRowValues hdr id stmt) := by
  obtain ⟨cols, hcols⟩ := List.head?_eq_some_iff.mp hhead
  rw [insertRowValues, hcols]
  exact .cons trivial (wellTyped_assignValues cols _)

theorem toI64_bmod (n : Nat) : (toI64 n).bmod (2 ^ 64) = toI64 n := by
  show ((n : Int).bmod (2 ^ 64)).bmod (2 ^ 64) = (n : Int).bmod (2 ^ 64)
  exact Int.bmod_bmod

/-- An id is read back as it is stored. -/
theorem storedRow_id {c : ColumnMeta} :
    storedRow (c :: cols) (.bigint (toI64 id) :: vs) = .bigint (toI64 id) :: storedRow cols vs := by
  rw [storedRow, List.zipWith_cons_cons, storedValue, toI64_bmod]
  rfl

/-- A column that may be updated is not the first. -/
theorem validateUpdateTarget_pos (hhead : hdr.columns.head? = some idColumn)
    (h : validateUpdateTarget hdr stmt = .ok colIdx) : 0 < colIdx := by
  obtain ⟨cols, hcols⟩ := List.head?_eq_some_iff.mp hhead
  rw [validateUpdateTarget] at h
  split at h
  · cases h
  · split at h
    · cases h
    · rename_i idx _ hsys
      obtain rfl := Except.ok.inj h
      by_contra hzero
      obtain rfl : idx = 0 := by omega
      apply hsys
      rw [hcols]
      rfl

theorem wellTyped_set {cols : List ColumnMeta} {values : List RowValue}
    (h : WellTyped cols values) {i : Nat} {c : ColumnMeta} (hc : cols[i]? = some c) {v : RowValue}
    (hv : v.HasType c.type) : WellTyped cols (values.set i v) := by
  induction h generalizing i with
  | nil => simp at hc
  | @cons d w cols values hdw hrest ih =>
    cases i with
    | zero =>
      obtain rfl : d = c := by simpa using hc
      exact .cons hv hrest
    | succ i => exact .cons hdw (ih (by simpa using hc))

end Values

section Statements

variable {st st' : Pager} {entries : List (Nat × RowRef)} {chain : HeapChain} {env : ExecEnv}
  {stmt : Statement} {res : ExecResult} {hdr : DbHeader} {id colIdx : Nat} {ref : RowRef}
  {values : RowValues} {row : List UInt8}

/-! ## Paths that only read -/

theorem ReadOnly.step {m : PagerM ExecResult} (hm : ReadOnly m) (h : DbInv st entries chain)
    (hrun : m.run st = some (res, st')) : DbStep st res st' :=
  h.stepOnlyIds ((hm st res st' hrun).onlyIds h.nextId_lt)

/-! ## The schema of a statement -/

/-- The header that the statement has read says of rows what the header says now. -/
structure SameSchema (hdr hdr' : DbHeader) : Prop where
  columns : hdr.columns = hdr'.columns
  rowSize : hdr.rowSize = hdr'.rowSize

theorem SameSchema.sound {hdr' : DbHeader} (h : SameSchema hdr hdr') (hs : SoundSchema hdr') :
    SoundSchema hdr := by
  refine ⟨?_, ?_, ?_⟩
  · rw [h.columns]
    exact hs.sound
  · rw [h.columns]
    exact hs.contiguous
  · rw [h.columns, h.rowSize]
    exact hs.rowSize

theorem SameSchema.sameTable (h : SameSchema hdr st.header) (hs : st.SameTable st') :
    SameSchema hdr st'.header :=
  ⟨h.columns.trans hs.columns.symm, h.rowSize.trans hs.rowSize.symm⟩

/-- The table stays while its rows change: its schema, and the places of its heap. No id of a page is
given back. -/
structure TableKept (st : Pager) (chain : HeapChain) (st' : Pager) (chain' : HeapChain) : Prop where
  pageSize : st'.pageSize = st.pageSize
  nextPageId_le : st.header.nextPageId ≤ st'.header.nextPageId
  schema : SameSchema st'.header st.header
  places : ∀ p, chain.IsPlace p → chain'.IsPlace p

theorem Pager.SameData.tableKept (hs : st.SameData st') : TableKept st chain st' chain :=
  ⟨hs.sameTable.pageSize, hs.sameTable.nextPageId_le,
    ⟨hs.sameTable.columns, hs.sameTable.rowSize⟩, fun _ hp => hp⟩

theorem TableKept.trans {st'' : Pager} {chain' chain'' : HeapChain}
    (h : TableKept st chain st' chain') (h' : TableKept st' chain' st'' chain'') :
    TableKept st chain st'' chain'' where
  pageSize := h'.pageSize.trans h.pageSize
  nextPageId_le := h.nextPageId_le.trans h'.nextPageId_le
  schema := ⟨h'.schema.columns.trans h.schema.columns, h'.schema.rowSize.trans h.schema.rowSize⟩
  places p hp := h'.places p (h.places p hp)

/-- The heap gets no page while its rows change. -/
structure HeapKept (st : Pager) (chain : HeapChain) (st' : Pager) (chain' : HeapChain) : Prop where
  nextPageId_le : st.header.nextPageId ≤ st'.header.nextPageId
  length : chain'.length = chain.length

theorem Pager.SameData.heapKept (hs : st.SameData st') : HeapKept st chain st' chain :=
  ⟨hs.sameTable.nextPageId_le, rfl⟩

theorem HeapKept.trans {st'' : Pager} {chain' chain'' : HeapChain}
    (h : HeapKept st chain st' chain') (h' : HeapKept st' chain' st'' chain'') :
    HeapKept st chain st'' chain'' where
  nextPageId_le := h.nextPageId_le.trans h'.nextPageId_le
  length := h'.length.trans h.length

/-- The header that a statement has read is still good. -/
theorem SameSchema.kept {chain' : HeapChain} (h : SameSchema hdr st.header)
    (hk : TableKept st chain st' chain') : SameSchema hdr st'.header :=
  ⟨h.columns.trans hk.schema.columns.symm, h.rowSize.trans hk.schema.rowSize.symm⟩

/-- How a statement on rows may end: the table stays, and the index has no new entry but the one of
an insertion. -/
structure RowsStep (st : Pager) (entries : List (Nat × RowRef)) (chain : HeapChain)
    (res : ExecResult) (st' : Pager) : Prop where
  inv : ∃ entries' chain', DbInv st' entries' chain' ∧ TableKept st chain st' chain' ∧
    ∀ e ∈ entries', e ∈ entries ∨ res.message = .inserted e.1
  failed : res.status = -1 → st.OnlyIds st'

theorem RowsStep.dbStep (h : RowsStep st entries chain res st') : DbStep st res st' := by
  obtain ⟨entries', chain', hinv, hkept, -⟩ := h.inv
  exact ⟨⟨entries', chain', hinv⟩, hkept.pageSize, h.failed⟩

/-- A statement that only gives out ids leaves the rows alone. -/
theorem DbInv.rowsStepOnlyIds (h : DbInv st entries chain) (hs : st.OnlyIds st') :
    RowsStep st entries chain res st' := by
  refine ⟨⟨entries, chain, h.onlyIds hs, ?_, fun e he => .inl he⟩, fun _ => hs⟩
  obtain ⟨n, t, -, -, rfl⟩ := hs
  exact ⟨rfl, le_refl _, ⟨rfl, rfl⟩, fun _ hp => hp⟩

theorem DbInv.rowsStepSameData (h : DbInv st entries chain) (hs : st.SameData st') :
    RowsStep st entries chain res st' :=
  h.rowsStepOnlyIds (hs.onlyIds h.nextId_lt)

/-! ## INSERT -/

theorem takeNextId_cases (hrun : takeNextId.run st = some (id, st')) :
    id = st.header.nextId ∧ st.header.nextId + 1 < 2 ^ 64 ∧
      st' = st.setHeader { st.header with nextId := st.header.nextId + 1 } := by
  rw [takeNextId, run_bind_get] at hrun
  by_cases hlt : st.header.nextId + 1 < 2 ^ 64
  · obtain ⟨u, st₂, hguard, hmore⟩ := run_bind_eq_some.mp hrun
    rw [guard, if_pos hlt] at hguard
    obtain ⟨-, rfl⟩ := run_pure_eq_some.mp hguard
    obtain ⟨u', st₃, hmod, hpure⟩ := run_bind_eq_some.mp hmore
    obtain rfl := run_modify_eq_some.mp hmod
    obtain ⟨rfl, rfl⟩ := run_pure_eq_some.mp hpure
    exact ⟨rfl, hlt, rfl⟩
  · obtain ⟨u, st₂, hguard, -⟩ := run_bind_eq_some.mp hrun
    rw [guard, if_neg hlt] at hguard
    cases hguard

theorem orUndefined_eq_some {α : Type} {o : Option α} {a : α}
    (hrun : (orUndefined o).run st = some (a, st')) : o = some a ∧ st' = st := by
  cases o with
  | none => cases hrun
  | some b =>
    obtain ⟨rfl, rfl⟩ := run_pure_eq_some.mp hrun
    exact ⟨rfl, rfl⟩

/-- What becomes of an insertion: it fails and has at most given out an id, or its row is in the heap
and has its entry. -/
theorem execInsert_cases (h : DbInv st entries chain)
    (hrun : (execInsert env stmt).run st = some (res, st')) :
    (∃ message, message ≠ .duplicateKey ∧ res = .failed message ∧ st.OnlyIds st') ∨
    ∃ ref row l r chain', res = .done (.inserted st.header.nextId) ∧
      rowSerialize st.header (insertRowValues st.header st.header.nextId stmt) = some row ∧
      TableKept st chain st' chain' ∧ entries = l ++ r ∧
      DbInv st' (l ++ (st.header.nextId, ref) :: r) chain' ∧
      (ref, row) ∈ heapRows chain' st'.header.rowSize := by
  rw [execInsert, run_bind_get] at hrun
  by_cases hcols : st.header.columns = []
  · left
    rw [if_pos hcols] at hrun
    obtain ⟨rfl, rfl⟩ := run_pure_eq_some.mp hrun
    exact ⟨.noTable, nofun, rfl, Pager.SameData.refl.onlyIds h.nextId_lt⟩
  rw [if_neg hcols] at hrun
  obtain ⟨myId, st₁, hid, hlock⟩ := run_bind_eq_some.mp hrun
  obtain ⟨rfl, hlt, hst₁⟩ := takeNextId_cases hid
  have hids : st.OnlyIds st₁ := ⟨st.header.nextId + 1, st.trace, Nat.le_succ _, hlt, hst₁⟩
  have h₁ := h.onlyIds hids
  split at hlock
  · left
    obtain ⟨rfl, rfl⟩ := run_pure_eq_some.mp hlock
    exact ⟨.insertLockTimeout st.header.nextId, nofun, rfl, hids⟩
  right
  obtain ⟨row, st₂, hserial, hinsert⟩ := run_bind_eq_some.mp hlock
  obtain ⟨hrow, rfl⟩ := orUndefined_eq_some hserial
  obtain ⟨ref, st₃, hheap, hindex⟩ := run_bind_eq_some.mp hinsert
  obtain ⟨rc, st₄, htree, hcount⟩ := run_bind_eq_some.mp hindex
  have hof : SoundSchema st₂.header → IsRowOf st₂.header.columns st.header.nextId row := by
    rw [hst₁]
    intro hs
    have hwt : WellTyped st.header.columns (insertRowValues st.header st.header.nextId stmt) :=
      insertRowValues_wellTyped (h.idFirst hcols)
    have hs₀ : SoundSchema st.header := ⟨hs.sound, hs.contiguous, hs.rowSize⟩
    rw [hs₀.rowSerialize hwt] at hrow
    exact ⟨_, hwt, (Option.some.inj hrow).symm⟩
  have hsizes : ∀ c ∈ st₂.header.columns, c.type = .varchar → 1 ≤ c.size := by
    rw [hst₁]
    exact varchar_pos_of_serialize hrow
  have hid : 1 ≤ st.header.nextId ∧ st.header.nextId < st₂.header.nextId := by
    rw [hst₁]
    exact ⟨h.nextId_pos, Nat.lt_succ_self _⟩
  obtain ⟨rfl, hsame, l, r, chain', hentries, hmem, hplaces, hinv⟩ :=
    h₁.insert (by rw [hst₁]; exact hcols) hid (fun e he => ne_of_lt (h.keys e he).2)
      (by rw [length_rowSerialize hrow, hst₁]; rfl) hsizes hof hheap htree
  rw [if_neg (by simp)] at hcount
  obtain ⟨u, st₅, hincr, hdone⟩ := run_bind_eq_some.mp hcount
  obtain rfl := run_modify_eq_some.mp hincr
  obtain ⟨rfl, rfl⟩ := run_pure_eq_some.mp hdone
  have hps : st₂.pageSize = st.pageSize := by
    rw [hst₁]
    rfl
  have hids₂ : st₂.header.nextPageId = st.header.nextPageId := by
    rw [hst₁]
    rfl
  have hschema : SameSchema st₂.header st.header := by
    rw [hst₁]
    exact ⟨rfl, rfl⟩
  refine ⟨ref, row, l, r, chain', rfl, hrow, ⟨hsame.pageSize.trans hps,
    hids₂ ▸ hsame.nextPageId_le,
    ⟨hsame.columns.trans hschema.columns, hsame.rowSize.trans hschema.rowSize⟩, hplaces⟩,
    hentries, hinv, ?_⟩
  show (ref, row) ∈ heapRows chain' st₄.header.rowSize
  rw [hsame.rowSize]
  exact hmem

theorem execInsert_rows (h : DbInv st entries chain)
    (hrun : (execInsert env stmt).run st = some (res, st')) :
    RowsStep st entries chain res st' ∧ res.message ≠ .duplicateKey := by
  rcases execInsert_cases h hrun with ⟨message, hne, rfl, hids⟩ |
    ⟨ref, row, l, r, chain', rfl, -, hkept, hentries, hinv, -⟩
  · exact ⟨h.rowsStepOnlyIds hids, hne⟩
  · refine ⟨⟨⟨_, chain', hinv, hkept, fun e he => ?_⟩, nofun⟩, nofun⟩
    rcases List.mem_append.mp he with hl | hr
    · exact .inl (hentries ▸ List.mem_append_left r hl)
    · rcases List.mem_cons.mp hr with rfl | hr
      · exact .inr rfl
      · exact .inl (hentries ▸ List.mem_append_right l hr)

theorem execInsert_step (h : DbInv st entries chain)
    (hrun : (execInsert env stmt).run st = some (res, st')) :
    DbStep st res st' ∧ res.message ≠ .duplicateKey :=
  (execInsert_rows h hrun).imp_left RowsStep.dbStep

/-! ## Lookups -/

/-- `bptree_search` and `heap_fetch` behind it. -/
theorem DbInv.lookup {found : Option (List UInt8)} {st₁ : Pager} (h : DbInv st entries chain)
    (hsearch : (bptreeSearch id).run st = some (some ref, st₁))
    (hfetch : (heapFetch ref st.header.rowSize).run st₁ = some (found, st')) :
    st.SameData st' ∧ (id, ref) ∈ entries ∧
      ∃ row, found = some row ∧ (ref, row) ∈ heapRows chain st.header.rowSize := by
  obtain ⟨hsame₁, hres⟩ := h.stored.search hsearch
  have hmem := (hres ref).mp rfl
  obtain ⟨hsame₂, hrow⟩ := (h.stored.sameData hsame₁).fetchRow (h.isPlace hmem) hfetch
  obtain ⟨row, hin⟩ := h.exists_row hmem
  exact ⟨hsame₁.trans hsame₂, hmem, row, (hrow row).mpr hin, hin⟩

/-- `fetch_matching_row_by_id` finds nothing, or the row of the id. -/
theorem DbInv.fetchMatching {found : Option (RowRef × RowValues)} (h : DbInv st entries chain)
    (hsize : hdr.rowSize = st.header.rowSize)
    (hrun : (fetchMatchingRowById hdr id stmt).run st = some (found, st')) :
    st.SameData st' ∧ ∀ ref values, found = some (ref, values) → (id, ref) ∈ entries ∧
      matchPredicate hdr values stmt = true ∧ ∃ row,
        (ref, row) ∈ heapRows chain st.header.rowSize ∧ rowDeserialize hdr row = some values := by
  refine ⟨readOnly_fetchMatchingRowById id st found st' hrun, fun ref values hfound => ?_⟩
  subst hfound
  obtain ⟨found, st₁, hsearch, hfetch⟩ := run_bind_eq_some.mp hrun
  cases found with
  | none => cases (run_pure_eq_some.mp hfetch).1
  | some ref' =>
    obtain ⟨found, st₂, hrow, hrest⟩ := run_bind_eq_some.mp hfetch
    rw [hsize] at hrow
    obtain ⟨-, hmem, row, rfl, hin⟩ := h.lookup hsearch hrow
    obtain ⟨values', st₃, hread, hunlatch⟩ := run_bind_eq_some.mp hrest
    obtain ⟨hvalues, rfl⟩ := orUndefined_eq_some hread
    obtain ⟨u, st₄, -, hdone⟩ := run_bind_eq_some.mp hunlatch
    obtain ⟨hres, -⟩ := run_pure_eq_some.mp hdone
    split at hres
    · rename_i hmatch
      obtain ⟨rfl, rfl⟩ := Prod.mk.inj (Option.some.inj hres)
      exact ⟨hmem, hmatch, row, hin, hvalues⟩
    · cases hres

/-! ## DELETE -/

theorem mem_of_mem_erased {α : Type} {l r : List α} {a e : α} (h : e ∈ l ++ r) :
    e ∈ l ++ a :: r :=
  List.mem_append.mpr ((List.mem_append.mp h).imp_right (List.mem_cons_of_mem a))

/-- `row_count--` after a row has been taken out. -/
theorem DbInv.eraseRow {st₁ st₂ : Pager} {rc rc' : Int} {u : Unit} (h : DbInv st entries chain)
    (hmem : (id, ref) ∈ entries) (hheap : (heapDelete ref).run st = some (rc, st₁))
    (htree : (bptreeDelete id).run st₁ = some (rc', st₂))
    (hcount : decrementRowCount.run st₂ = some (u, st')) :
    ∃ l r chain', TableKept st chain st' chain' ∧ entries = l ++ (id, ref) :: r ∧
      heapRows chain' st.header.rowSize =
        (heapRows chain st.header.rowSize).filter (fun e => decide (e.1 ≠ ref)) ∧
      chain'.length = chain.length ∧ DbInv st' (l ++ r) chain' := by
  obtain ⟨-, -, hsame, l, r, chain', hentries, hrows, hlen, hplaces, hinv⟩ :=
    h.erase hmem hheap htree
  obtain rfl := run_modify_eq_some.mp hcount
  have hpos : ¬ st₂.header.rowCount = 0 := by
    rw [hsame.rowCount, h.rowCount, hentries]
    simp
  rw [if_neg hpos]
  exact ⟨l, r, chain', ⟨hsame.pageSize, hsame.nextPageId_le, ⟨hsame.columns, hsame.rowSize⟩,
    hplaces⟩, hentries, hrows, hlen, hinv⟩

theorem execIndexDelete_rows (h : DbInv st entries chain)
    (hrun : (execIndexDelete stmt).run st = some (res, st')) :
    RowsStep st entries chain res st' := by
  obtain ⟨found, st₁, hsearch, hrest⟩ := run_bind_eq_some.mp hrun
  obtain ⟨hsame, hres⟩ := h.stored.search hsearch
  cases found with
  | none =>
    obtain ⟨rfl, rfl⟩ := run_pure_eq_some.mp hrest
    exact h.rowsStepSameData hsame
  | some ref =>
    obtain ⟨rc, st₂, hheap, hindex⟩ := run_bind_eq_some.mp hrest
    obtain ⟨rc', st₃, htree, hcount⟩ := run_bind_eq_some.mp hindex
    obtain ⟨u, st₄, hdecr, hdone⟩ := run_bind_eq_some.mp hcount
    obtain ⟨rfl, rfl⟩ := run_pure_eq_some.mp hdone
    obtain ⟨l, r, chain', hkept, hentries, -, -, hinv⟩ :=
      (h.sameData hsame).eraseRow ((hres ref).mp rfl) hheap htree hdecr
    refine ⟨⟨l ++ r, chain', hinv, hsame.tableKept.trans hkept, fun e he => .inl ?_⟩, nofun⟩
    rw [hentries]
    exact mem_of_mem_erased he

theorem execIndexDelete_step (h : DbInv st entries chain)
    (hrun : (execIndexDelete stmt).run st = some (res, st')) : DbStep st res st' :=
  (execIndexDelete_rows h hrun).dbStep

/-- `heap_delete(ref) == 0 && bptree_delete(id) == 0`, for an id of the index. -/
theorem DbInv.deleteRow {gone : Bool} {st₂ : Pager} (h : DbInv st entries chain)
    (hmem : (id, ref) ∈ entries) (hrun : (deleteRow ref id).run st = some (gone, st₂)) :
    gone = true ∧ ∃ st₁ rc rc', (heapDelete ref).run st = some (rc, st₁) ∧
      (bptreeDelete id).run st₁ = some (rc', st₂) := by
  obtain ⟨rc, st₁, hheap, hrest⟩ := run_bind_eq_some.mp hrun
  by_cases hrc : rc = 0
  · rw [if_pos hrc] at hrest
    obtain ⟨rc', st₃, htree, hdone⟩ := run_bind_eq_some.mp hrest
    obtain ⟨rfl, rfl⟩ := run_pure_eq_some.mp hdone
    obtain ⟨-, rfl, -⟩ := h.erase hmem hheap htree
    exact ⟨rfl, st₁, rc, 0, hheap, htree⟩
  · -- the row of an entry is there to be deleted
    obtain ⟨row, hrow⟩ := h.exists_row hmem
    exact absurd (h.stored.deleteRow hrow hheap).1 hrc

theorem deleteLocked_rows {ids : List Nat} {n : Nat} (h : DbInv st entries chain)
    (hsize : hdr.rowSize = st.header.rowSize)
    (hrun : (deleteLocked hdr stmt ids).run st = some (n, st')) :
    ∃ entries' chain', DbInv st' entries' chain' ∧ TableKept st chain st' chain' ∧
      ∀ e ∈ entries', e ∈ entries := by
  induction ids generalizing st entries chain n with
  | nil =>
    obtain ⟨-, rfl⟩ := run_pure_eq_some.mp hrun
    exact ⟨entries, chain, h, Pager.SameData.refl.tableKept, fun _ he => he⟩
  | cons id ids ih =>
    obtain ⟨found, st₁, hfetch, hrest⟩ := run_bind_eq_some.mp hrun
    obtain ⟨hsame, hfound⟩ := h.fetchMatching hsize hfetch
    have h₁ := h.sameData hsame
    have hsize₁ : hdr.rowSize = st₁.header.rowSize := hsize.trans hsame.sameTable.rowSize.symm
    cases found with
    | none =>
      obtain ⟨entries', chain', hinv, hkept, hsub⟩ := ih h₁ hsize₁ hrest
      exact ⟨entries', chain', hinv, hsame.tableKept.trans hkept, hsub⟩
    | some p =>
      have hmem := (hfound p.1 p.2 rfl).1
      obtain ⟨gone, st₂, hdelete, hcount⟩ := run_bind_eq_some.mp hrest
      obtain ⟨rfl, st₃, rc, rc', hheap, htree⟩ := h₁.deleteRow hmem hdelete
      obtain ⟨u, st₄, hdecr, hmore⟩ := run_bind_eq_some.mp hcount
      obtain ⟨k, st₅, hlater, hdone⟩ := run_bind_eq_some.mp hmore
      obtain ⟨-, rfl⟩ := run_pure_eq_some.mp hdone
      obtain ⟨l, r, chain₁, hkept₁, hentries, -, -, hinv₁⟩ := h₁.eraseRow hmem hheap htree hdecr
      obtain ⟨entries', chain', hinv, hkept, hsub⟩ :=
        ih hinv₁ (hsize₁.trans hkept₁.schema.rowSize.symm) hlater
      refine ⟨entries', chain', hinv, (hsame.tableKept.trans hkept₁).trans hkept, fun e he => ?_⟩
      rw [hentries]
      exact mem_of_mem_erased (hsub e he)

theorem execDeleteScan_rows (h : DbInv st entries chain)
    (hrun : (execDeleteScan env stmt).run st = some (res, st')) :
    RowsStep st entries chain res st' := by
  obtain ⟨dc, st₁, hscan, hrest⟩ := run_bind_eq_some.mp hrun
  have hsame := readOnly_scanMatching _ _ st dc st₁ hscan
  split at hrest
  · obtain ⟨rfl, rfl⟩ := run_pure_eq_some.mp hrest
    exact h.rowsStepSameData hsame
  split at hrest
  · obtain ⟨rfl, rfl⟩ := run_pure_eq_some.mp hrest
    exact h.rowsStepSameData hsame
  · rw [run_bind_get] at hrest
    obtain ⟨n, st₂, hdelete, hdone⟩ := run_bind_eq_some.mp hrest
    obtain ⟨rfl, rfl⟩ := run_pure_eq_some.mp hdone
    obtain ⟨entries', chain', hinv, hkept, hsub⟩ := deleteLocked_rows (h.sameData hsame) rfl hdelete
    exact ⟨⟨entries', chain', hinv, hsame.tableKept.trans hkept, fun e he => .inl (hsub e he)⟩,
      nofun⟩

theorem execDeleteScan_step (h : DbInv st entries chain)
    (hrun : (execDeleteScan env stmt).run st = some (res, st')) : DbStep st res st' :=
  (execDeleteScan_rows h hrun).dbStep

/-! ## UPDATE -/

/-- The values that an UPDATE writes for an id are values of that id. -/
theorem isRowOf_update {row' : List UInt8} {values' : RowValues} (hs : SoundSchema hdr)
    (hhead : hdr.columns.head? = some idColumn) (hcol : validateUpdateTarget hdr stmt = .ok colIdx)
    (hof : IsRowOf hdr.columns id row) (hread : rowDeserialize hdr row = some values)
    (happly : applyUpdateToRow hdr values stmt colIdx = some values')
    (hserial : rowSerialize hdr values' = some row') : IsRowOf hdr.columns id row' := by
  obtain ⟨vs, hwt, rfl⟩ := hof
  rw [hs.rowDeserialize hwt] at hread
  obtain rfl := Option.some.inj hread
  obtain ⟨col, hcolIdx, happly⟩ := Option.bind_eq_some_iff.mp happly
  obtain rfl := Option.some.inj happly
  obtain ⟨cols, hcols⟩ := List.head?_eq_some_iff.mp hhead
  obtain ⟨i, rfl⟩ := Nat.exists_eq_add_one_of_ne_zero
    (Nat.pos_iff_ne_zero.mp (validateUpdateTarget_pos hhead hcol))
  have hwt' := wellTyped_set (storedRow_wellTyped hwt) hcolIdx (hasType_ofText stmt.updateValue _)
  rw [hs.rowSerialize hwt'] at hserial
  -- the id stands in the first column, which is not the one that is set
  have hid : (storedRow hdr.columns (.bigint (toI64 id) :: vs)).set (i + 1)
      (col.type.ofText stmt.updateValue) =
      .bigint (toI64 id) :: (storedRow cols vs).set i (col.type.ofText stmt.updateValue) := by
    rw [hcols, storedRow_id, List.set_cons_succ]
  rw [hid] at hwt' hserial
  exact ⟨_, hwt', (Option.some.inj hserial).symm⟩

theorem DbInv.updateRow {u : Unit} (h : DbInv st entries chain) (hhdr : SameSchema hdr st.header)
    (hcol : validateUpdateTarget hdr stmt = .ok colIdx) (hmem : (id, ref) ∈ entries)
    (hrow : (ref, row) ∈ heapRows chain st.header.rowSize)
    (hread : rowDeserialize hdr row = some values)
    (hrun : (updateRow hdr stmt colIdx ref values).run st = some (u, st')) :
    ∃ chain' values' row', applyUpdateToRow hdr values stmt colIdx = some values' ∧
      rowSerialize hdr values' = some row' ∧ heapRows chain' st.header.rowSize =
        (heapRows chain st.header.rowSize).map (fun e => if e.1 = ref then (ref, row') else e) ∧
      DbInv st' entries chain' ∧ TableKept st chain st' chain' := by
  obtain ⟨values', st₁, hvalues, hrest⟩ := run_bind_eq_some.mp hrun
  obtain ⟨happly, rfl⟩ := orUndefined_eq_some hvalues
  obtain ⟨row', st₂, hbytes, hwrite⟩ := run_bind_eq_some.mp hrest
  obtain ⟨hserial, rfl⟩ := orUndefined_eq_some hbytes
  have hhead : hdr.columns.head? = some idColumn := by
    rw [hhdr.columns]
    exact h.idFirst (h.of_mem hmem).2
  have hof : SoundSchema st₂.header → IsRowOf st₂.header.columns id row' := by
    intro hs
    have hold := h.contents hs id ref row hmem hrow
    rw [← hhdr.columns] at hold ⊢
    exact isRowOf_update (hhdr.sound hs) hhead hcol hold hread happly hserial
  obtain ⟨hsame, chain', hrows, hplaces, hinv⟩ := h.overwrite hmem
    ((length_rowSerialize hserial).trans hhdr.rowSize) hof hwrite
  exact ⟨chain', values', row', happly, hserial, hrows, hinv,
    ⟨hsame.pageSize, hsame.nextPageId_le, ⟨hsame.columns, hsame.rowSize⟩, hplaces⟩⟩

theorem execIndexUpdate_rows (h : DbInv st entries chain)
    (hrun : (execIndexUpdate stmt).run st = some (res, st')) :
    RowsStep st entries chain res st' := by
  rw [execIndexUpdate, run_bind_get] at hrun
  dsimp only at hrun
  split at hrun
  · obtain ⟨rfl, rfl⟩ := run_pure_eq_some.mp hrun
    exact h.rowsStepSameData .refl
  rename_i colIdx hcol
  obtain ⟨found, st₁, hsearch, hrest⟩ := run_bind_eq_some.mp hrun
  cases found with
  | none =>
    obtain ⟨rfl, rfl⟩ := run_pure_eq_some.mp hrest
    exact h.rowsStepSameData (h.stored.search hsearch).1
  | some ref =>
    obtain ⟨found, st₂, hfetch, hvalues⟩ := run_bind_eq_some.mp hrest
    obtain ⟨hsame, hmem, row, rfl, hrow⟩ := h.lookup hsearch hfetch
    obtain ⟨values, st₃, hcols, hunlatch⟩ := run_bind_eq_some.mp hvalues
    obtain ⟨hread, rfl⟩ := orUndefined_eq_some hcols
    obtain ⟨u, st₄, hlog, hwrite⟩ := run_bind_eq_some.mp hunlatch
    have hsame₄ := hsame.trans (readOnly_pagerUnlatchR ref.pageId st₃ u st₄ hlog)
    obtain ⟨u', st₅, hupdate, hdone⟩ := run_bind_eq_some.mp hwrite
    obtain ⟨rfl, rfl⟩ := run_pure_eq_some.mp hdone
    have htable := hsame₄.sameTable
    obtain ⟨chain', -, -, -, -, -, hinv, hkept⟩ := (h.sameData hsame₄).updateRow
      (SameSchema.sameTable ⟨rfl, rfl⟩ htable) hcol hmem (htable.rowSize ▸ hrow) hread hupdate
    exact ⟨⟨entries, chain', hinv, hsame₄.tableKept.trans hkept, fun _ he => .inl he⟩, nofun⟩

theorem execIndexUpdate_step (h : DbInv st entries chain)
    (hrun : (execIndexUpdate stmt).run st = some (res, st')) : DbStep st res st' :=
  (execIndexUpdate_rows h hrun).dbStep

theorem updateLocked_rows {ids : List Nat} {n : Nat} (h : DbInv st entries chain)
    (hhdr : SameSchema hdr st.header) (hcol : validateUpdateTarget hdr stmt = .ok colIdx)
    (hrun : (updateLocked hdr stmt colIdx ids).run st = some (n, st')) :
    ∃ chain', DbInv st' entries chain' ∧ TableKept st chain st' chain' := by
  induction ids generalizing st chain n with
  | nil =>
    obtain ⟨-, rfl⟩ := run_pure_eq_some.mp hrun
    exact ⟨chain, h, Pager.SameData.refl.tableKept⟩
  | cons id ids ih =>
    obtain ⟨found, st₁, hfetch, hrest⟩ := run_bind_eq_some.mp hrun
    obtain ⟨hsame, hfound⟩ := h.fetchMatching hhdr.rowSize hfetch
    have h₁ := h.sameData hsame
    have hhdr₁ := hhdr.sameTable hsame.sameTable
    cases found with
    | none =>
      obtain ⟨chain', hinv, hkept⟩ := ih h₁ hhdr₁ hrest
      exact ⟨chain', hinv, hsame.tableKept.trans hkept⟩
    | some p =>
      obtain ⟨ref, values⟩ := p
      obtain ⟨hmem, -, row, hrow, hread⟩ := hfound ref values rfl
      obtain ⟨u, st₂, hupdate, hmore⟩ := run_bind_eq_some.mp hrest
      obtain ⟨k, st₃, hlater, hdone⟩ := run_bind_eq_some.mp hmore
      obtain ⟨-, rfl⟩ := run_pure_eq_some.mp hdone
      obtain ⟨chain₁, -, -, -, -, -, hinv₁, hkept₁⟩ := h₁.updateRow hhdr₁ hcol hmem
        (hsame.sameTable.rowSize ▸ hrow) hread hupdate
      obtain ⟨chain', hinv, hkept⟩ := ih hinv₁ (hhdr₁.kept hkept₁) hlater
      exact ⟨chain', hinv, (hsame.tableKept.trans hkept₁).trans hkept⟩

theorem execUpdateScan_rows (h : DbInv st entries chain)
    (hrun : (execUpdateScan env stmt).run st = some (res, st')) :
    RowsStep st entries chain res st' := by
  rw [execUpdateScan, run_bind_get] at hrun
  dsimp only at hrun
  split at hrun
  · obtain ⟨rfl, rfl⟩ := run_pure_eq_some.mp hrun
    exact h.rowsStepSameData .refl
  rename_i colIdx hcol
  obtain ⟨uc, st₁, hscan, hrest⟩ := run_bind_eq_some.mp hrun
  have hsame := readOnly_scanMatching _ _ st uc st₁ hscan
  split at hrest
  · obtain ⟨rfl, rfl⟩ := run_pure_eq_some.mp hrest
    exact h.rowsStepSameData hsame
  split at hrest
  · obtain ⟨rfl, rfl⟩ := run_pure_eq_some.mp hrest
    exact h.rowsStepSameData hsame
  · obtain ⟨n, st₂, hupdate, hdone⟩ := run_bind_eq_some.mp hrest
    obtain ⟨rfl, rfl⟩ := run_pure_eq_some.mp hdone
    obtain ⟨chain', hinv, hkept⟩ := updateLocked_rows (h.sameData hsame)
      (SameSchema.sameTable ⟨rfl, rfl⟩ hsame.sameTable) hcol hupdate
    exact ⟨⟨entries, chain', hinv, hsame.tableKept.trans hkept, fun _ he => .inl he⟩, nofun⟩

theorem execUpdateScan_step (h : DbInv st entries chain)
    (hrun : (execUpdateScan env stmt).run st = some (res, st')) : DbStep st res st' :=
  (execUpdateScan_rows h hrun).dbStep

/-! ## CREATE TABLE -/

/-- A blank heap page is laid out for rows of every size. -/
theorem Stored.blank {rowSize pid : Nat} (h : Stored st rowSize entries (blankChain pid st.pageSize))
    (hps : heapHeaderSize ≤ st.pageSize) (rowSize' : Nat) :
    Stored st rowSize' entries (blankChain pid st.pageSize) := by
  obtain ⟨free, leaves, rows, hat, hentries⟩ := h
  refine ⟨free, leaves, rows, ⟨hat.tree, ?_, hat.disjoint, hat.owned⟩, hentries⟩
  have hheap := hat.heap
  refine ⟨hheap.freeList, hheap.pages, hheap.links, hheap.last, hheap.nodup, hheap.held, ?_,
    hheap.hint⟩
  intro n hn
  obtain rfl := List.mem_singleton.mp hn
  exact ⟨[], layout_empty 0 hps rowSize'⟩

theorem installed_head (stmt : Statement) (hdr : DbHeader) :
    (stmt.installed hdr).columns.head? = some idColumn := rfl

theorem layoutFrom_lt {off : Nat} (h : off < 65536) (cols : List ColumnMeta) :
    (layoutFrom off cols).2 < 65536 := by
  induction cols generalizing off with
  | nil => exact h
  | cons c cols ih =>
    refine ih ?_
    rw [u16]
    omega

theorem execCreateTable_step (h : DbInv st entries chain)
    (hfixed : ∀ cd ∈ stmt.userDefs, cd.type ≠ .varchar → cd.Sound)
    (hrun : (execCreateTable stmt).run st = some (res, st')) : DbStep st res st' := by
  rcases execCreateTable_cases hrun with ⟨-, -, rfl⟩ | ⟨hstatus, hcols, hlen, rfl⟩
  · exact h.stepOnlyIds (Pager.SameData.refl.onlyIds h.nextId_lt)
  obtain ⟨pid, rfl⟩ := h.noTable hcols
  obtain rfl := h.entries_nil rfl
  have hps : heapHeaderSize ≤ st.pageSize := by
    have hle := h.pageSize.le
    simp only [heapHeaderSize]
    omega
  refine ⟨⟨[], blankChain pid st.pageSize, ?_⟩, rfl, fun hfail => ?_⟩
  · exact {
      pageSize := h.pageSize
      stored := (h.stored.blank hps _).samePages ⟨rfl, rfl, rfl, rfl, rfl, rfl, rfl, rfl⟩
      refs := by simp
      keys := fun _ he => absurd he List.not_mem_nil
      nextId_pos := h.nextId_pos
      nextId_lt := h.nextId_lt
      rowCount := h.rowCount
      rowSize := layoutFrom_lt (by decide) _
      room := .inr ⟨pid, rfl⟩
      noTable := fun _ => ⟨pid, rfl⟩
      idFirst := fun _ => installed_head stmt st.header
      schema := fun hv => installed_sound hlen (hv.sound hfixed)
      sizes := fun hne => absurd rfl hne
      contents := fun _ _ _ _ he => absurd he List.not_mem_nil }
  · rw [hstatus] at hfail
    cases hfail

end Statements

end MiniDb
