import MiniDb.Db.OrderedScan
import MiniDb.Db.ScanDml
import MiniDb.Sql.IdRange

/-! # Selecting a range of ids

SELECT on a range of ids collects references from the index and then reads the rows behind them. -/

set_option autoImplicit false

namespace MiniDb

open Lib

/-- The row behind a reference, if there is one. -/
def rowBehind (rows : List (RowRef × List UInt8)) (ref : RowRef) : Option (List UInt8) :=
  (rows.find? fun e => e.1 = ref).map Prod.snd

section Fetch

variable {st : Pager} {entries : List (Nat × RowRef)} {chain : HeapChain} {hdr : DbHeader}
  {rows : List (RowRef × List UInt8)} {row : List UInt8} {ref : RowRef} {rowSize : Nat}

theorem eq_of_find? {e : RowRef × List UInt8} (h : (rows.find? fun e => e.1 = ref) = some e) :
    e.1 = ref := by
  have hp := List.find?_some h
  exact of_decide_eq_true hp

theorem rowBehind_eq_some (hnodup : (rows.map Prod.fst).Nodup) :
    rowBehind rows ref = some row ↔ (ref, row) ∈ rows := by
  constructor
  · intro h
    obtain ⟨⟨ref', row'⟩, hfind, rfl⟩ := Option.map_eq_some_iff.mp h
    obtain rfl : ref' = ref := eq_of_find? hfind
    exact List.mem_of_find?_eq_some hfind
  · intro hmem
    cases hfind : rows.find? fun e => e.1 = ref with
    | none =>
      rw [List.find?_eq_none] at hfind
      exact absurd (decide_eq_true rfl) (hfind _ hmem)
    | some e =>
      have heq : e = (ref, row) := List.inj_on_of_nodup_map hnodup
        (List.mem_of_find?_eq_some hfind) hmem (eq_of_find? hfind)
      rw [rowBehind, hfind, heq]
      rfl

theorem run_latchRowPage (cur : Option Nat) (pid : Nat) :
    ∃ st', (latchRowPage cur pid).run st = some ((), st') ∧ st.SameData st' := by
  cases cur with
  | none => exact ⟨_, rfl, Pager.SameData.log.trans Pager.SameData.log⟩
  | some curPid =>
    rw [latchRowPage]
    split
    · exact ⟨_, rfl, (Pager.SameData.log.trans Pager.SameData.log).trans Pager.SameData.log⟩
    · exact ⟨st, rfl, Pager.SameData.refl⟩

/-- The references that the first phase still has to collect, after `len` of them. -/
def rangeRefs (limit len : Nat) (es : List (Nat × RowRef)) : List RowRef :=
  if limit = 0 then es.map Prod.snd else (es.map Prod.snd).take (limit - len)

theorem rangeRefs_cons {limit len : Nat} (hroom : limit = 0 ∨ len < limit) (e : Nat × RowRef)
    (es : List (Nat × RowRef)) :
    rangeRefs limit len (e :: es) = e.2 :: rangeRefs limit (len + 1) es := by
  by_cases hzero : limit = 0
  · rw [rangeRefs, rangeRefs, if_pos hzero, if_pos hzero, List.map_cons]
  · have hsucc : limit - len = limit - (len + 1) + 1 := by omega
    rw [rangeRefs, rangeRefs, if_neg hzero, if_neg hzero, hsucc, List.map_cons,
      List.take_succ_cons]

theorem rangeRefs_done {limit len : Nat} (hdone : limit ≠ 0 ∧ limit ≤ len)
    (es : List (Nat × RowRef)) : rangeRefs limit len es = [] := by
  rw [rangeRefs, if_neg hdone.1, Nat.sub_eq_zero_of_le hdone.2, List.take_zero]

theorem rangeCollectCb_pushed {env : ExecEnv} {e : Nat × RowRef} {c c' : Collector RowRef}
    (hpush : c.push env 256 e.2 = some (true, c')) (limit : Nat) :
    (rangeCollectCb env limit).onEntry e (some c) =
      (!(decide (limit ≠ 0) && decide (c'.items.length ≥ limit)), some c') := by
  rw [RangeCallback.onEntry, rangeCollectCb, Option.bind_some, hpush]

/-- The first phase collects the references of the range, under LIMIT the first of them; or an array
could not be grown, or there are too many of them for one. -/
theorem visit_rangeCollect (env : ExecEnv) (limit : Nat) (es : List (Nat × RowRef))
    (c : Collector RowRef) (hc : c.allocFailed = false) (hsized : c.Sized)
    (hroom : limit = 0 ∨ c.items.length < limit) :
    (∃ c', (visit (rangeCollectCb env limit).onEntry es (some c)).2 = some c' ∧
      (c'.allocFailed = false → c'.items = c.items ++ rangeRefs limit c.items.length es ∧
        c.items.length + (rangeRefs limit c.items.length es).length ≤ collectable) ∧
      (env.Grants → c'.allocFailed = false)) ∨
    (visit (rangeCollectCb env limit).onEntry es (some c)).2 = none ∧
      collectable < c.items.length + (rangeRefs limit c.items.length es).length := by
  induction es generalizing c with
  | nil =>
    have hnil : rangeRefs limit c.items.length [] = [] := by
      rw [rangeRefs]
      split <;> simp
    rw [hnil, List.append_nil]
    exact .inl ⟨c, rfl, fun _ => ⟨rfl, hsized.length_le⟩, fun _ => hc⟩
  | cons e es ih =>
    have hinit : 256 ∣ collectable := by decide
    rw [rangeRefs_cons hroom, List.length_cons]
    rcases hsized.push_cases hinit env e.2 with
      ⟨-, ⟨c₁, hpush, hitems, hflag, hsized₁⟩ | ⟨c₁, hpush, hflag, n, hfail⟩⟩ | ⟨hfull, hpush⟩
    · have hlen : c₁.items.length = c.items.length + 1 := by
        rw [hitems, List.length_append, List.length_singleton]
      rw [visit, rangeCollectCb_pushed hpush, ← hlen]
      by_cases hstop : limit ≠ 0 ∧ c₁.items.length ≥ limit
      · -- the limit is reached with this reference
        have hfalse : (!(decide (limit ≠ 0) && decide (c₁.items.length ≥ limit))) = false := by
          simp [hstop]
        rw [hfalse, rangeRefs_done hstop]
        exact .inl ⟨c₁, rfl, fun _ => ⟨hitems, hlen ▸ hsized₁.length_le⟩, fun _ => hflag.trans hc⟩
      · have htrue : (!(decide (limit ≠ 0) && decide (c₁.items.length ≥ limit))) = true := by
          simpa [Classical.or_iff_not_imp_left] using hstop
        rw [htrue]
        rcases ih c₁ (hflag.trans hc) hsized₁ (by omega) with
          ⟨c', hrun, hres, hgrants⟩ | ⟨hnone, hmany⟩
        · refine .inl ⟨c', hrun, fun hok => ?_, hgrants⟩
          obtain ⟨hall, hfits⟩ := hres hok
          refine ⟨?_, by omega⟩
          rw [hall, hitems, List.append_assoc]
          rfl
        · exact .inr ⟨hnone, by omega⟩
    · have hcb : (rangeCollectCb env limit).onEntry e (some c) = (false, some c₁) := by
        rw [RangeCallback.onEntry, rangeCollectCb, Option.bind_some, hpush]
      refine .inl ⟨c₁, by rw [visit, hcb], fun hok => ?_, fun hg => ?_⟩
      · rw [hflag] at hok
        cases hok
      · rw [hg.alloc n] at hfail
        cases hfail
    · have hcb : (rangeCollectCb env limit).onEntry e (some c) = (false, none) := by
        rw [RangeCallback.onEntry, rangeCollectCb, Option.bind_some, hpush]
      exact .inr ⟨by rw [visit, hcb], by omega⟩

/-- One round of the second phase: the row that is behind the reference now is read, a place that has
none is skipped. -/
theorem Stored.fetchRange_cons (h : Stored st rowSize entries chain) (hsize : hdr.rowSize = rowSize)
    (hplace : chain.IsPlace ref) (cur : Option Nat) (refs : List RowRef) :
    ∃ st₁, st.SameData st₁ ∧ (fetchRange hdr cur (ref :: refs)).run st =
      (match rowBehind (heapRows chain rowSize) ref with
        | some row => do
          let values ← orUndefined (rowDeserialize hdr row)
          return values :: (← fetchRange hdr (some ref.pageId) refs)
        | none => fetchRange hdr (some ref.pageId) refs).run st₁ := by
  have hnodup := h.refs_nodup
  have hrun : ∃ st', (latchRowPage cur ref.pageId).run st = some ((), st') ∧ st.SameData st' :=
    run_latchRowPage cur ref.pageId
  obtain ⟨st₁, hlatch, hsame₁⟩ := hrun
  obtain ⟨free, leaves, rows, hat, -⟩ := h.sameData hsame₁
  obtain ⟨hph, s, hslot⟩ := hplace.exists_isSlot
  obtain ⟨slots, hlay⟩ := hat.heap.layout _ hslot.page
  have hpage : (readHeap ref.pageId).run st₁ = some (hph, st₁) :=
    run_readHeap (hat.heap.pages _ hslot.page)
  refine ⟨st₁, hsame₁, ?_⟩
  rw [fetchRange, run_bind_of hlatch, run_bind_of hpage, hslot.slot]
  show (if s.status = .alive then _ else _ : PagerM (List RowValues)).run st₁ = _
  cases hstatus : s.status with
  | alive =>
    have hbehind := (rowBehind_eq_some hnodup).mpr (hslot.mem_heapRows hstatus)
    rw [if_pos rfl, hsize, hlay.readRow hslot.slot, hbehind]
    rfl
  | free =>
    -- no row is at a slot that is not alive
    have hnone : rowBehind (heapRows chain rowSize) ref = none := by
      rw [Option.eq_none_iff_forall_ne_some]
      intro row hrow
      obtain ⟨hph', s', hslot', halive', -⟩ :=
        exists_isSlot ((rowBehind_eq_some hnodup).mp hrow)
      obtain ⟨rfl, rfl⟩ := hslot.unique hat.heap hslot'
      rw [hstatus] at halive'
      cases halive'
    rw [if_neg (by simp), hnone]

/-- The second phase reads the rows that are behind the references now, and skips a place that has
none. -/
theorem Stored.run_fetchRange (h : Stored st rowSize entries chain) (hsize : hdr.rowSize = rowSize)
    (hread : Readable hdr (heapRows chain rowSize)) (cur : Option Nat) (refs : List RowRef)
    (hplaces : ∀ ref ∈ refs, chain.IsPlace ref) :
    ∃ st', st.SameData st' ∧ (fetchRange hdr cur refs).run st =
      some (refs.filterMap fun ref =>
        (rowBehind (heapRows chain rowSize) ref).map (rowValues hdr), st') := by
  induction refs generalizing st cur with
  | nil =>
    cases cur with
    | none => exact ⟨st, Pager.SameData.refl, rfl⟩
    | some pid => exact ⟨_, Pager.SameData.log, rfl⟩
  | cons ref refs ih =>
    obtain ⟨st₁, hsame₁, hround⟩ :=
      h.fetchRange_cons hsize (hplaces ref List.mem_cons_self) cur refs
    obtain ⟨st₂, hsame₂, hrest⟩ := ih (h.sameData hsame₁) (some ref.pageId)
      fun ref hmem => hplaces ref (List.mem_cons_of_mem _ hmem)
    refine ⟨st₂, hsame₁.trans hsame₂, ?_⟩
    rw [hround, List.filterMap_cons]
    cases hbehind : rowBehind (heapRows chain rowSize) ref with
    | none => exact hrest
    | some row =>
      obtain ⟨values, hvalues⟩ := hread _ ((rowBehind_eq_some h.refs_nodup).mp hbehind)
      dsimp only
      rw [hvalues]
      show (fetchRange hdr (some ref.pageId) refs >>= fun vs => pure (values :: vs)).run st₁ = _
      rw [run_bind_of hrest, Option.map_some, rowValues_eq hvalues]
      rfl

/-- Whatever the second phase has read was a row behind one of the references. -/
theorem Stored.fetchRange_rows (h : Stored st rowSize entries chain) (hsize : hdr.rowSize = rowSize)
    {cur : Option Nat} {refs : List RowRef} {st' : Pager} {vs : List RowValues}
    (hplaces : ∀ ref ∈ refs, chain.IsPlace ref)
    (hrun : (fetchRange hdr cur refs).run st = some (vs, st')) {v : RowValues} (hv : v ∈ vs) :
    ∃ ref ∈ refs, ∃ row, (ref, row) ∈ heapRows chain rowSize ∧
      rowDeserialize hdr row = some v := by
  induction refs generalizing st cur vs with
  | nil =>
    cases cur with
    | none =>
      obtain ⟨rfl, -⟩ := run_pure_eq_some.mp hrun
      cases hv
    | some pid =>
      obtain ⟨u, st₁, -, hdone⟩ := run_bind_eq_some.mp hrun
      obtain ⟨rfl, -⟩ := run_pure_eq_some.mp hdone
      cases hv
  | cons ref refs ih =>
    obtain ⟨st₁, hsame₁, hround⟩ :=
      h.fetchRange_cons hsize (hplaces ref List.mem_cons_self) cur refs
    have hrest : ∀ {cur : Option Nat} {vs : List RowValues},
        (fetchRange hdr cur refs).run st₁ = some (vs, st') → v ∈ vs →
        ∃ ref' ∈ ref :: refs, ∃ row, (ref', row) ∈ heapRows chain rowSize ∧
          rowDeserialize hdr row = some v := by
      intro cur vs hrun hv
      obtain ⟨ref', hmem, hrow⟩ := ih (h.sameData hsame₁)
        (fun ref hmem => hplaces ref (List.mem_cons_of_mem _ hmem)) hrun hv
      exact ⟨ref', List.mem_cons_of_mem _ hmem, hrow⟩
    rw [hround] at hrun
    cases hbehind : rowBehind (heapRows chain rowSize) ref with
    | none =>
      rw [hbehind] at hrun
      exact hrest hrun hv
    | some row =>
      rw [hbehind] at hrun
      obtain ⟨values, st₂, hread, hmore⟩ := run_bind_eq_some.mp hrun
      obtain ⟨hvalues, rfl⟩ := orUndefined_eq_some hread
      obtain ⟨vs', st₃, hlater, hdone⟩ := run_bind_eq_some.mp hmore
      obtain ⟨rfl, rfl⟩ := run_pure_eq_some.mp hdone
      rcases List.mem_cons.mp hv with rfl | hv
      · exact ⟨ref, List.mem_cons_self, row, (rowBehind_eq_some h.refs_nodup).mp hbehind, hvalues⟩
      · exact hrest hlater hv

end Fetch

/-! ## The statement -/

section Select

variable {st : Pager} {entries : List (Nat × RowRef)} {chain : HeapChain} {stmt : Statement}
  {env : ExecEnv} {c : IdCondition} {ref : RowRef} {k : Nat}

/-- The values behind a reference. -/
def valuesBehind (hdr : DbHeader) (rows : List (RowRef × List UInt8)) (ref : RowRef) : RowValues :=
  rowValues hdr ((rowBehind rows ref).getD [])

theorem DbInv.rowBehind_entry (h : DbInv st entries chain) (hmem : (k, ref) ∈ entries) :
    ∃ row, rowBehind (heapRows chain st.header.rowSize) ref = some row ∧
      (ref, row) ∈ heapRows chain st.header.rowSize := by
  obtain ⟨row, hrow⟩ := h.exists_row hmem
  exact ⟨row, (rowBehind_eq_some h.stored.refs_nodup).mpr hrow, hrow⟩

/-- The rows of the heap, in the order of the index. -/
theorem DbInv.perm_heapRows (h : DbInv st entries chain) :
    (entries.map fun e => (e.2, (rowBehind (heapRows chain st.header.rowSize) e.2).getD [])).Perm
      (heapRows chain st.header.rowSize) := by
  have hmap := h.refs.map fun ref =>
    (ref, (rowBehind (heapRows chain st.header.rowSize) ref).getD [])
  rw [List.map_map, List.map_map] at hmap
  have hrows : (heapRows chain st.header.rowSize).map
      ((fun ref => (ref, (rowBehind (heapRows chain st.header.rowSize) ref).getD [])) ∘ Prod.fst) =
        heapRows chain st.header.rowSize := by
    refine (List.map_congr_left fun e he => ?_).trans (List.map_id _)
    have hbehind := (rowBehind_eq_some h.stored.refs_nodup).mpr (show (e.1, e.2) ∈ _ from he)
    show (e.1, (rowBehind (heapRows chain st.header.rowSize) e.1).getD []) = e
    rw [hbehind]
    rfl
  rw [hrows] at hmap
  exact hmap

/-- What SELECT prints of the range, whatever the predicate says; if it is not too much to collect. -/
theorem DbInv.run_execIndexRangeScan (h : DbInv st entries chain)
    (hread : Readable st.header (heapRows chain st.header.rowSize)) (hgrants : env.Grants)
    (stmt : Statement) :
    let out := stmt.limited ((entries.filter (stmt.keyRange.Contains ·.1)).map fun e =>
      valuesBehind st.header (heapRows chain st.header.rowSize) e.2)
    (out.length ≤ collectable ∧ ∃ st', st.SameData st' ∧ (execIndexRangeScan env stmt).run st =
      some (.printed (.selected out.length .indexRange) (rowsOutput st.header out), st')) ∨
    collectable < out.length ∧ (execIndexRangeScan env stmt).run st = none := by
  intro out
  rw [execIndexRangeScan, run_bind_get]
  by_cases hzero : stmt.hasLimit ∧ stmt.limitCount = 0
  · have hout : out = [] := by
      show stmt.limited _ = []
      rw [Statement.limited, if_pos hzero.1, hzero.2, List.take_zero]
    rw [if_pos hzero, hout]
    exact .inl ⟨Nat.zero_le _, st, Pager.SameData.refl, rfl⟩
  · obtain ⟨limit, hlimit⟩ : ∃ n, n = if stmt.hasLimit then stmt.limitCount else 0 := ⟨_, rfl⟩
    obtain ⟨es, hes⟩ : ∃ es, es = entries.filter (stmt.keyRange.Contains ·.1) := ⟨_, rfl⟩
    obtain ⟨st₁, hscan, hsame₁⟩ := h.stored.run_rangeScan stmt.keyRange (rangeCollectCb env limit)
      (some (Collector.empty RowRef))
    rw [← hes] at hscan
    -- all entries of the range, or the first of them
    have hrefs : rangeRefs limit 0 es =
        (if stmt.hasLimit then es.take stmt.limitCount else es).map Prod.snd := by
      rw [rangeRefs, hlimit]
      by_cases hl : stmt.hasLimit = true
      · have hpos : stmt.limitCount ≠ 0 := fun h0 => hzero ⟨hl, h0⟩
        simp [hl, hpos, List.map_take]
      · simp [hl]
    obtain ⟨kept, hkept⟩ : ∃ kept, kept = if stmt.hasLimit then es.take stmt.limitCount else es :=
      ⟨_, rfl⟩
    have hsub : ∀ e ∈ kept, e ∈ entries := by
      intro e he
      have hin : e ∈ es := by
        rw [hkept] at he
        split at he
        · exact List.mem_of_mem_take he
        · exact he
      rw [hes] at hin
      exact (List.mem_filter.mp hin).1
    have hout : out = kept.map fun e =>
        valuesBehind st.header (heapRows chain st.header.rowSize) e.2 := by
      show stmt.limited _ = _
      rw [Statement.limited, hkept, hes]
      split
      · rw [List.map_take]
      · rfl
    have hlen : (rangeRefs limit 0 es).length = out.length := by
      rw [hrefs, ← hkept, hout, List.length_map, List.length_map]
    obtain ⟨rc, hvisit, hres, hok⟩ | ⟨hvisit, hmany⟩ := visit_rangeCollect env limit es
      (Collector.empty RowRef) rfl Collector.sized_empty (Nat.eq_zero_or_pos limit)
    case inr =>
      refine .inr ⟨by simpa [Collector.empty, hlen] using hmany, ?_⟩
      rw [if_neg hzero]
      dsimp only
      rw [← hlimit, run_bind_of hscan, hvisit]
      rfl
    have hflag := hok hgrants
    obtain ⟨hitems, hfits⟩ := hres hflag
    refine .inl ⟨by simpa [Collector.empty, hlen] using hfits, ?_⟩
    have hplaces : ∀ ref ∈ kept.map Prod.snd, chain.IsPlace ref := by
      intro ref href
      obtain ⟨e, he, rfl⟩ := List.mem_map.mp href
      exact h.isPlace (hsub e he)
    obtain ⟨st₂, hsame₂, hfetch⟩ := (h.stored.sameData hsame₁).run_fetchRange rfl hread none
      (kept.map Prod.snd) hplaces
    have hvalues : ((kept.map Prod.snd).filterMap fun ref =>
        (rowBehind (heapRows chain st.header.rowSize) ref).map (rowValues st.header)) = out := by
      rw [hout, List.filterMap_map, ← List.filterMap_eq_map]
      apply List.filterMap_congr
      intro e he
      obtain ⟨row, hrow, -⟩ := h.rowBehind_entry (hsub e he)
      show (rowBehind _ e.2).map _ = _
      rw [hrow, Option.map_some, Function.comp, valuesBehind, hrow]
      rfl
    refine ⟨st₂, hsame₁.trans hsame₂, ?_⟩
    rw [if_neg hzero]
    dsimp only
    have hcollected : rc.items = kept.map Prod.snd := by
      rw [hitems, hkept, ← hrefs]
      rfl
    rw [← hlimit, run_bind_of hscan, hvisit]
    show (if rc.allocFailed = true then _ else _ : PagerM ExecResult).run st₁ = _
    rw [hflag, hcollected]
    show (fetchRange st.header none (kept.map Prod.snd) >>= fun rows =>
      pure (.printed (.selected rows.length .indexRange) (rowsOutput st.header rows)) :
        PagerM ExecResult).run st₁ = _
    rw [run_bind_of hfetch, hvalues]
    rfl

end Select

end MiniDb
