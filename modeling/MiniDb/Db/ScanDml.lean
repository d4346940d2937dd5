import MiniDb.Db.Effects
import MiniDb.Db.Growth
import MiniDb.Sql.Executor.Collect

/-! # DELETE and UPDATE by scan

The rows that match are collected by id, the ids sorted and locked, and each row found again through
the index. What is found again are the rows that matched: the others of the statement have changed
in the meantime, but not these. -/

set_option autoImplicit false

namespace MiniDb

open Lib

/-- Memory is there when it is asked for, and every wait for a lock ends with the lock. -/
structure ExecEnv.Grants (env : ExecEnv) : Prop where
  alloc : ∀ n, env.alloc n = true
  lockAcquire : ∀ id mode, env.lockAcquire id mode = true

section Loops

variable {st st' : Pager} {entries : List (Nat × RowRef)} {chain : HeapChain} {hdr : DbHeader}
  {stmt : Statement} {env : ExecEnv} {colIdx : Nat}

/-! ## Collecting -/

/-- All ids are collected, or an array could not be grown; with too many of them it cannot. -/
theorem visitMatches_idPush (env : ExecEnv) (vs : List RowValues) (c : Collector Nat)
    (hc : c.allocFailed = false) (hsized : c.Sized) :
    (∃ c', visitMatches (idPush env) vs c = some c' ∧
      (c'.allocFailed = false → c'.items = c.items ++ vs.map (fun v => toU64 (rowId v)) ∧
        c.items.length + vs.length ≤ collectable) ∧
      (env.Grants → c'.allocFailed = false)) ∨
    visitMatches (idPush env) vs c = none ∧ collectable < c.items.length + vs.length := by
  induction vs generalizing c with
  | nil =>
    exact .inl ⟨c, rfl, fun _ => ⟨(List.append_nil _).symm, hsized.length_le⟩, fun _ => hc⟩
  | cons v vs ih =>
    rw [List.length_cons]
    have hinit : 64 ∣ collectable := by decide
    rcases hsized.push_cases hinit env (toU64 (rowId v)) with
      ⟨-, ⟨c₁, hpush, hitems, hflag, hsized₁⟩ | ⟨c₁, hpush, hflag, n, hfail⟩⟩ | ⟨hfull, hpush⟩
    · have hcb : idPush env v c = (true, some c₁) := by rw [idPush, hpush]
      have hlen : c₁.items.length = c.items.length + 1 := by
        rw [hitems, List.length_append, List.length_singleton]
      rw [visitMatches, hcb]
      rcases ih c₁ (hflag.trans hc) hsized₁ with ⟨c', hrun, hres, hgrants⟩ | ⟨hnone, hmany⟩
      · refine .inl ⟨c', hrun, fun hok => ?_, hgrants⟩
        obtain ⟨hall, hroom⟩ := hres hok
        refine ⟨?_, by omega⟩
        rw [hall, hitems, List.append_assoc]
        rfl
      · exact .inr ⟨hnone, by omega⟩
    · have hcb : idPush env v c = (false, some c₁) := by rw [idPush, hpush]
      refine .inl ⟨c₁, by rw [visitMatches, hcb], fun hok => ?_, fun hg => ?_⟩
      · rw [hflag] at hok
        cases hok
      · rw [hg.alloc n] at hfail
        cases hfail
    · have hcb : idPush env v c = (false, none) := by rw [idPush, hpush]
      exact .inr ⟨by rw [visitMatches, hcb], by omega⟩

/-- The keys of the rows that match. -/
def matchingKeys (hdr : DbHeader) (stmt : Statement) (rows : List (RowRef × List UInt8)) :
    List Nat :=
  (matchingRows hdr stmt rows).map fun e => rowKey hdr e.2

theorem DbInv.nodup_matchingKeys (h : DbInv st entries chain)
    (hle : ∀ c ∈ st.header.columns, c.type = .varchar → c.size ≤ 255) :
    (matchingKeys st.header stmt (heapRows chain st.header.rowSize)).Nodup := by
  have hrows : (heapRows chain st.header.rowSize).Nodup :=
    List.Nodup.of_map _ h.stored.refs_nodup
  apply List.Nodup.map_on _ (hrows.filter _)
  intro e he e' he' hkey
  have hin := (List.mem_filter.mp he).1
  have hin' := (List.mem_filter.mp he').1
  exact Prod.ext_iff.mpr (h.rowKey_inj ⟨rfl, rfl⟩ hle hin hin' hkey)

/-- The first pass of both statements. -/
theorem DbInv.run_collectIds (h : DbInv st entries chain)
    (hle : ∀ c ∈ st.header.columns, c.type = .varchar → c.size ≤ 255) (env : ExecEnv)
    (stmt : Statement) :
    (∃ c st', st.SameData st' ∧
      (scanMatching env stmt (idPush env) (Collector.empty Nat)).run st = some (c, st') ∧
      (c.allocFailed = false →
        c.items = matchingKeys st.header stmt (heapRows chain st.header.rowSize) ∧
        (matchingRows st.header stmt (heapRows chain st.header.rowSize)).length ≤ collectable) ∧
      (env.Grants → c.allocFailed = false)) ∨
    (scanMatching env stmt (idPush env) (Collector.empty Nat)).run st = none ∧
      collectable < (matchingRows st.header stmt (heapRows chain st.header.rowSize)).length := by
  obtain ⟨st', hsame, hrun⟩ :=
    run_scanMatching h.stored (h.readable hle) env stmt (idPush env) (Collector.empty Nat)
  have hlen : (Collector.empty Nat).items.length +
      ((matchingRows st.header stmt (heapRows chain st.header.rowSize)).map
        fun e => rowValues st.header e.2).length =
      (matchingRows st.header stmt (heapRows chain st.header.rowSize)).length := by
    rw [List.length_map]
    exact Nat.zero_add _
  rcases visitMatches_idPush env ((matchingRows st.header stmt
      (heapRows chain st.header.rowSize)).map fun e => rowValues st.header e.2)
      (Collector.empty Nat) rfl Collector.sized_empty with
    ⟨c, hvisit, hitems, hgrants⟩ | ⟨hvisit, hmany⟩
  · rw [hvisit] at hrun
    refine .inl ⟨c, st', hsame, hrun, fun hok => ?_, hgrants⟩
    obtain ⟨hall, hroom⟩ := hitems hok
    refine ⟨?_, hlen ▸ hroom⟩
    rw [hall, List.map_map]
    rfl
  · rw [hvisit] at hrun
    exact .inr ⟨hrun, hlen ▸ hmany⟩

/-! ## The second pass -/

/-- Every id is the key of a row that matches. -/
def MatchedKeys (hdr : DbHeader) (stmt : Statement) (rows : List (RowRef × List UInt8))
    (ids : List Nat) : Prop :=
  ∀ id ∈ ids, ∃ e ∈ rows, rowKey hdr e.2 = id ∧ rowMatches hdr stmt e.2 = true

/-- The pass over the ids of a DELETE takes out the rows with these keys. -/
theorem DbInv.run_deleteLocked {ids : List Nat} (h : DbInv st entries chain)
    (hhdr : SameSchema hdr st.header) (hle : ∀ c ∈ hdr.columns, c.type = .varchar → c.size ≤ 255)
    (hnodup : ids.Nodup)
    (hmatch : MatchedKeys hdr stmt (heapRows chain st.header.rowSize) ids) :
    ∃ st' entries' chain', (deleteLocked hdr stmt ids).run st = some (ids.length, st') ∧
      SameSchema hdr st'.header ∧ DbInv st' entries' chain' ∧ HeapKept st chain st' chain' ∧
      heapRows chain' st'.header.rowSize =
        (heapRows chain st.header.rowSize).filter fun e => decide (rowKey hdr e.2 ∉ ids) := by
  induction ids generalizing st entries chain with
  | nil =>
    refine ⟨st, entries, chain, rfl, hhdr, h, Pager.SameData.refl.heapKept, ?_⟩
    exact (List.filter_eq_self.mpr fun e _ => decide_eq_true List.not_mem_nil).symm
  | cons id ids ih =>
    obtain ⟨hid, hids⟩ := List.nodup_cons.mp hnodup
    obtain ⟨⟨ref, row⟩, hrow, rfl, hm⟩ := hmatch id List.mem_cons_self
    obtain ⟨st₀, hsame, hfetch⟩ := h.run_fetchMatching stmt hhdr hle hrow
    rw [if_pos hm] at hfetch
    have hhdr₀ := hhdr.sameTable hsame.sameTable
    have hsize₀ : st₀.header.rowSize = st.header.rowSize := hsame.sameTable.rowSize
    have hrow₀ : (ref, row) ∈ heapRows chain st₀.header.rowSize := by rwa [hsize₀]
    obtain ⟨st₁, st₂, st₃, hheap, htree, hdecr, hhdr₃, entries₃, chain₃, h₃, hkept₃, hrows₃⟩ :=
      (h.sameData hsame).run_erase hhdr₀ hle hrow₀
    have hsize₃ : st₃.header.rowSize = st₀.header.rowSize := hhdr₃.rowSize.symm.trans hhdr₀.rowSize
    rw [← hsize₃] at hrows₃
    have hdelete : (MiniDb.deleteRow ref (rowKey hdr row)).run st₀ = some (true, st₂) := by
      rw [MiniDb.deleteRow, run_bind_of hheap, if_pos rfl, run_bind_of htree]
      rfl
    -- the rows of the other ids are still there
    have hmatch₃ : MatchedKeys hdr stmt (heapRows chain₃ st₃.header.rowSize) ids := by
      intro id' hid'
      obtain ⟨e, he, hkey, hme⟩ := hmatch id' (List.mem_cons_of_mem _ hid')
      have hne : rowKey hdr e.2 ≠ rowKey hdr row := by
        rw [hkey]
        rintro rfl
        exact hid hid'
      refine ⟨e, ?_, hkey, hme⟩
      rw [hrows₃, hsize₃, hsize₀]
      exact List.mem_filter.mpr ⟨he, decide_eq_true hne⟩
    obtain ⟨st', entries', chain', hrest, hhdr', hinv, hkept, hrows'⟩ := ih h₃ hhdr₃ hids hmatch₃
    refine ⟨st', entries', chain', ?_, hhdr', hinv, (hsame.heapKept.trans hkept₃).trans hkept, ?_⟩
    · rw [deleteLocked, run_bind_of hfetch]
      dsimp only
      rw [run_bind_of hdelete, if_pos rfl, run_bind_of hdecr, run_bind_of hrest]
      rfl
    · rw [hrows', hrows₃, hsize₃, hsize₀, List.filter_filter]
      apply List.filter_congr
      intro e _
      rw [← Bool.decide_and, decide_eq_decide, List.mem_cons, not_or, and_comm]

/-- The pass over the ids of an UPDATE writes the rows with these keys. -/
theorem DbInv.run_updateLocked {ids : List Nat} (h : DbInv st entries chain)
    (hhdr : SameSchema hdr st.header) (hle : ∀ c ∈ hdr.columns, c.type = .varchar → c.size ≤ 255)
    (hcol : validateUpdateTarget hdr stmt = .ok colIdx) (hnodup : ids.Nodup)
    (hmatch : MatchedKeys hdr stmt (heapRows chain st.header.rowSize) ids) :
    ∃ st' chain', (updateLocked hdr stmt colIdx ids).run st = some (ids.length, st') ∧
      SameSchema hdr st'.header ∧ DbInv st' entries chain' ∧
      heapRows chain' st'.header.rowSize = (heapRows chain st.header.rowSize).map fun e =>
        if rowKey hdr e.2 ∈ ids then (e.1, updatedRow hdr stmt colIdx e.2) else e := by
  induction ids generalizing st chain with
  | nil =>
    refine ⟨st, chain, rfl, hhdr, h, ?_⟩
    rw [List.map_congr_left fun e _ => if_neg List.not_mem_nil, List.map_id']
  | cons id ids ih =>
    obtain ⟨hid, hids⟩ := List.nodup_cons.mp hnodup
    obtain ⟨⟨ref, row⟩, hrow, rfl, hm⟩ := hmatch id List.mem_cons_self
    obtain ⟨st₀, hsame, hfetch⟩ := h.run_fetchMatching stmt hhdr hle hrow
    rw [if_pos hm] at hfetch
    have hhdr₀ := hhdr.sameTable hsame.sameTable
    have hsize₀ : st₀.header.rowSize = st.header.rowSize := hsame.sameTable.rowSize
    have hrow₀ : (ref, row) ∈ heapRows chain st₀.header.rowSize := by rwa [hsize₀]
    obtain ⟨st₃, hupdate, hhdr₃, chain₃, h₃, hrows₃⟩ :=
      (h.sameData hsame).run_updateRow hhdr₀ hle hrow₀ hcol
    have hsize₃ : st₃.header.rowSize = st₀.header.rowSize := hhdr₃.rowSize.symm.trans hhdr₀.rowSize
    rw [← hsize₃] at hrows₃
    -- the rows of the other ids are as they were
    have hmatch₃ : MatchedKeys hdr stmt (heapRows chain₃ st₃.header.rowSize) ids := by
      intro id' hid'
      obtain ⟨e, he, hkey, hme⟩ := hmatch id' (List.mem_cons_of_mem _ hid')
      have hne : rowKey hdr e.2 ≠ rowKey hdr row := by
        rw [hkey]
        rintro rfl
        exact hid hid'
      refine ⟨e, ?_, hkey, hme⟩
      rw [hrows₃, hsize₃, hsize₀]
      exact List.mem_map.mpr ⟨e, he, if_neg hne⟩
    obtain ⟨st', chain', hrest, hhdr', hinv, hrows'⟩ := ih h₃ hhdr₃ hids hmatch₃
    refine ⟨st', chain', ?_, hhdr', hinv, ?_⟩
    · rw [updateLocked, run_bind_of hfetch]
      dsimp only
      rw [run_bind_of hupdate, run_bind_of hrest]
      rfl
    · rw [hrows', hrows₃, hsize₃, hsize₀, List.map_map]
      apply List.map_congr_left
      intro e he
      rw [Function.comp_apply]
      by_cases hkey : rowKey hdr e.2 = rowKey hdr row
      · have hold : rowKey hdr (updatedRow hdr stmt colIdx e.2) ∉ ids := by
          rw [h.rowKey_updatedRow hhdr hle he hcol, hkey]
          exact hid
        rw [if_pos hkey, if_pos (List.mem_cons.mpr (.inl hkey))]
        exact if_neg hold
      · rw [if_neg hkey]
        by_cases hin : rowKey hdr e.2 ∈ ids
        · rw [if_pos hin, if_pos (List.mem_cons_of_mem _ hin)]
        · rw [if_neg hin, if_neg]
          intro hcons
          rcases List.mem_cons.mp hcons with heq | hmem
          · exact hkey heq
          · exact hin hmem

/-! ## The statements -/

theorem lockCollectedIds_cases (env : ExecEnv) (ids : List Nat) (mode : LockMode) :
    (∃ failed, lockCollectedIds env ids mode = .error failed ∧ ¬ env.Grants) ∨
      lockCollectedIds env ids mode = .ok (sortIds ids) := by
  rw [lockCollectedIds]
  cases hfind : (sortIds ids).find? fun id => !env.lockAcquire id mode with
  | none => exact .inr rfl
  | some failed =>
    refine .inl ⟨failed, rfl, fun hg => ?_⟩
    have hdenied := List.find?_some hfind
    rw [hg.lockAcquire] at hdenied
    cases hdenied

/-- The ids that are locked are those of the rows that match. -/
theorem DbInv.mem_sortIds_iff (h : DbInv st entries chain)
    (hle : ∀ c ∈ st.header.columns, c.type = .varchar → c.size ≤ 255) {e : RowRef × List UInt8}
    (he : e ∈ heapRows chain st.header.rowSize) :
    rowKey st.header e.2 ∈
        sortIds (matchingKeys st.header stmt (heapRows chain st.header.rowSize)) ↔
      rowMatches st.header stmt e.2 = true := by
  rw [mem_sortIds, matchingKeys, List.mem_map]
  constructor
  · rintro ⟨e', he', hkey⟩
    obtain ⟨hin, hm⟩ := List.mem_filter.mp he'
    rw [← (h.rowKey_inj ⟨rfl, rfl⟩ hle hin he hkey).2]
    exact hm
  · intro hm
    exact ⟨e, List.mem_filter.mpr ⟨he, hm⟩, rfl⟩

theorem matchedKeys_sortIds (rows : List (RowRef × List UInt8)) :
    MatchedKeys hdr stmt rows (sortIds (matchingKeys hdr stmt rows)) := by
  intro id hid
  obtain ⟨e, he, hkey⟩ := List.mem_map.mp (mem_sortIds.mp hid)
  obtain ⟨hin, hm⟩ := List.mem_filter.mp he
  exact ⟨e, hin, hkey, hm⟩

theorem DbInv.length_sortIds (h : DbInv st entries chain)
    (hle : ∀ c ∈ st.header.columns, c.type = .varchar → c.size ≤ 255) :
    (sortIds (matchingKeys st.header stmt (heapRows chain st.header.rowSize))).length =
      (matchingRows st.header stmt (heapRows chain st.header.rowSize)).length := by
  rw [(perm_sortIds (h.nodup_matchingKeys hle)).length_eq, matchingKeys, List.length_map]

/-- **DELETE by scan** fails and leaves the rows as they are, or takes out those that match; with more
of them than can be collected it may have no outcome. -/
theorem DbInv.run_deleteScan (h : DbInv st entries chain)
    (hle : ∀ c ∈ st.header.columns, c.type = .varchar → c.size ≤ 255) (env : ExecEnv)
    (stmt : Statement) :
    (∃ res st', (execDeleteScan env stmt).run st = some (res, st') ∧
      (env.Grants → res.status = 0) ∧
      (res.status = -1 ∧ st.SameData st' ∨
        res = .done (.deletedScan
          (matchingRows st.header stmt (heapRows chain st.header.rowSize)).length) ∧
        (matchingRows st.header stmt (heapRows chain st.header.rowSize)).length ≤ collectable ∧
        ∃ entries' chain', DbInv st' entries' chain' ∧ HeapKept st chain st' chain' ∧
          heapRows chain' st'.header.rowSize = (heapRows chain st.header.rowSize).filter
            fun e => !rowMatches st.header stmt e.2)) ∨
    (execDeleteScan env stmt).run st = none ∧
      collectable < (matchingRows st.header stmt (heapRows chain st.header.rowSize)).length := by
  obtain ⟨c, st₁, hsame, hscan, hitems, hgrants⟩ | ⟨hnone, hmany⟩ := h.run_collectIds hle env stmt
  case inr => exact .inr ⟨run_bind_none hnone, hmany⟩
  left
  cases hfail : c.allocFailed with
  | true =>
    refine ⟨.failed .deleteAllocFailed, st₁, ?_, fun hg => ?_, .inl ⟨rfl, hsame⟩⟩
    · rw [execDeleteScan, run_bind_of hscan, if_pos hfail]
      rfl
    · rw [hgrants hg] at hfail
      cases hfail
  | false =>
    have hgo : ¬ c.allocFailed = true := by simp [hfail]
    obtain ⟨hids, hroom⟩ := hitems hfail
    rcases lockCollectedIds_cases env c.items .x with ⟨failed, hlock, hnot⟩ | hlock
    · refine ⟨.failed (.scanLockTimeout failed), st₁, ?_, fun hg => absurd hg hnot,
        .inl ⟨rfl, hsame⟩⟩
      rw [execDeleteScan, run_bind_of hscan, if_neg hgo, hlock]
      rfl
    · rw [hids] at hlock
      obtain ⟨t, rfl⟩ := hsame
      have hhdr : SameSchema st.header st.header := ⟨rfl, rfl⟩
      obtain ⟨st', entries', chain', hrun, -, hinv, hkept, hrows⟩ :=
        (h.sameData ⟨t, rfl⟩).run_deleteLocked hhdr hle (nodup_sortIds _)
          (matchedKeys_sortIds (heapRows chain st.header.rowSize))
      refine ⟨.done (.deletedScan
        (matchingRows st.header stmt (heapRows chain st.header.rowSize)).length), st', ?_,
        fun _ => rfl, .inr ⟨rfl, hroom, entries', chain', hinv, ⟨hkept.nextPageId_le, hkept.length⟩,
          ?_⟩⟩
      · rw [execDeleteScan, run_bind_of hscan, if_neg hgo, hids, hlock]
        dsimp only
        rw [run_bind_get, run_bind_of hrun, h.length_sortIds hle]
        rfl
      · rw [hrows]
        apply List.filter_congr
        intro e he
        rw [Bool.eq_iff_iff, decide_eq_true_iff, h.mem_sortIds_iff hle he, Bool.not_eq_true',
          Bool.not_eq_true]

/-- **UPDATE by scan** fails and leaves the rows as they are, or writes those that match; with more of
them than can be collected it may have no outcome. -/
theorem DbInv.run_updateScan (h : DbInv st entries chain)
    (hle : ∀ c ∈ st.header.columns, c.type = .varchar → c.size ≤ 255) (env : ExecEnv)
    (stmt : Statement) :
    (∃ res st', (execUpdateScan env stmt).run st = some (res, st') ∧
      (res.status = -1 ∧ st.SameData st' ∧
          ((∃ message, validateUpdateTarget st.header stmt = .error message) ∨ ¬ env.Grants) ∨
        res = .done (.updatedScan
          (matchingRows st.header stmt (heapRows chain st.header.rowSize)).length) ∧
        (matchingRows st.header stmt (heapRows chain st.header.rowSize)).length ≤ collectable ∧
        ∃ colIdx chain', validateUpdateTarget st.header stmt = .ok colIdx ∧
          DbInv st' entries chain' ∧ heapRows chain' st'.header.rowSize =
            (heapRows chain st.header.rowSize).map fun e =>
              if rowMatches st.header stmt e.2 then (e.1, updatedRow st.header stmt colIdx e.2)
              else e)) ∨
    (execUpdateScan env stmt).run st = none ∧
      (¬ ∃ message, validateUpdateTarget st.header stmt = .error message) ∧
      collectable < (matchingRows st.header stmt (heapRows chain st.header.rowSize)).length := by
  cases hcol : validateUpdateTarget st.header stmt with
  | error message =>
    refine .inl ⟨.failed message, st, ?_, .inl ⟨rfl, .refl, .inl ⟨message, rfl⟩⟩⟩
    rw [execUpdateScan, run_bind_get]
    dsimp only
    rw [hcol]
    rfl
  | ok colIdx =>
    obtain ⟨c, st₁, hsame, hscan, hitems, hgrants⟩ | ⟨hnone, hmany⟩ :=
      h.run_collectIds hle env stmt
    case inr =>
      refine .inr ⟨?_, by simp, hmany⟩
      rw [execUpdateScan, run_bind_get]
      dsimp only
      rw [hcol]
      exact run_bind_none hnone
    left
    cases hfail : c.allocFailed with
    | true =>
      refine ⟨.failed .updateAllocFailed, st₁, ?_, .inl ⟨rfl, hsame, .inr fun hg => ?_⟩⟩
      · rw [execUpdateScan, run_bind_get]
        dsimp only
        rw [hcol]
        dsimp only
        rw [run_bind_of hscan, if_pos hfail]
        rfl
      · rw [hgrants hg] at hfail
        cases hfail
    | false =>
      have hgo : ¬ c.allocFailed = true := by simp [hfail]
      obtain ⟨hids, hroom⟩ := hitems hfail
      rcases lockCollectedIds_cases env c.items .x with ⟨failed, hlock, hnot⟩ | hlock
      · refine ⟨.failed (.scanLockTimeout failed), st₁, ?_, .inl ⟨rfl, hsame, .inr hnot⟩⟩
        rw [execUpdateScan, run_bind_get]
        dsimp only
        rw [hcol]
        dsimp only
        rw [run_bind_of hscan, if_neg hgo, hlock]
        rfl
      · rw [hids] at hlock
        obtain ⟨t, rfl⟩ := hsame
        have hhdr : SameSchema st.header st.header := ⟨rfl, rfl⟩
        obtain ⟨st', chain', hrun, -, hinv, hrows⟩ :=
          (h.sameData ⟨t, rfl⟩).run_updateLocked hhdr hle hcol (nodup_sortIds _)
            (matchedKeys_sortIds (heapRows chain st.header.rowSize))
        refine ⟨.done (.updatedScan
          (matchingRows st.header stmt (heapRows chain st.header.rowSize)).length), st', ?_,
          .inr ⟨rfl, hroom, colIdx, chain', rfl, hinv, ?_⟩⟩
        · rw [execUpdateScan, run_bind_get]
          dsimp only
          rw [hcol]
          dsimp only
          rw [run_bind_of hscan, if_neg hgo, hids, hlock]
          dsimp only
          rw [run_bind_of hrun, h.length_sortIds hle]
          rfl
        · rw [hrows]
          apply List.map_congr_left
          intro e he
          have hiff : _ ↔ rowMatches st.header stmt e.2 = true := h.mem_sortIds_iff hle he
          by_cases hm : rowMatches st.header stmt e.2 = true
          · rw [if_pos (hiff.mpr hm), if_pos hm]
          · rw [if_neg (mt hiff.mp hm), if_neg hm]

end Loops

/-! ## The ids of many rows -/

section IntRows

variable {n : Nat} {st : Pager} {free : List Nat} {leaves : List LeafNode} {rows : List Row}
  {chain : HeapChain} {stmt : Statement}

theorem IntRows.varcharUsable (h : IntRows n st free leaves rows chain) :
    VarcharUsable st.header.columns := by
  rw [h.schema.columns]
  unfold VarcharUsable
  decide

/-- The keys of the index are all the ids that have been given out. -/
theorem IntRows.perm_keys (h : IntRows n st free leaves rows chain) :
    ((treeEntries leaves).map Prod.fst).Perm (List.range' 1 n) := by
  have hnodup := h.stored.tree.order.keys_nodup
  refine (List.subperm_of_subset hnodup fun k hk => ?_).perm_of_length_le ?_
  · obtain ⟨e, he, rfl⟩ := List.mem_map.mp hk
    obtain ⟨hpos, hlt⟩ := h.inv.keys e he
    rw [h.nextId] at hlt
    exact List.mem_range'_1.mpr ⟨hpos, by omega⟩
  · rw [List.length_map, h.entries, List.length_range']

/-- So are the keys of the rows. -/
theorem IntRows.perm_rowKeys (h : IntRows n st free leaves rows chain) :
    ((heapRows chain st.header.rowSize).map fun e => rowKey st.header e.2).Perm
      (List.range' 1 n) := by
  have hle : ∀ c ∈ st.header.columns, c.type = .varchar → c.size ≤ 255 :=
    fun c hc ht => (h.varcharUsable c hc ht).2
  refine (List.Perm.trans ?_ h.perm_keys)
  have hrows : (heapRows chain st.header.rowSize).Nodup :=
    List.Nodup.of_map _ h.inv.stored.refs_nodup
  have hnodup : ((heapRows chain st.header.rowSize).map fun e => rowKey st.header e.2).Nodup := by
    refine hrows.map_on fun e he e' he' hkey => ?_
    exact Prod.ext_iff.mpr (h.inv.rowKey_inj ⟨rfl, rfl⟩ hle he he' hkey)
  rw [List.perm_ext_iff_of_nodup hnodup h.stored.tree.order.keys_nodup]
  intro k
  rw [List.mem_map, List.mem_map]
  constructor
  · rintro ⟨e, he, rfl⟩
    exact ⟨_, h.inv.mem_entries ⟨rfl, rfl⟩ hle he, rfl⟩
  · rintro ⟨e, he, rfl⟩
    obtain ⟨row, hrow⟩ := h.inv.exists_row he
    exact ⟨_, hrow, h.inv.rowKey_eq ⟨rfl, rfl⟩ hle he hrow⟩

/-- How many rows a range selects is a matter of the ids. -/
theorem IntRows.length_matchingRows (h : IntRows n st free leaves rows chain)
    (hkind : stmt.predicateKind = .idRange) :
    (matchingRows st.header stmt (heapRows chain st.header.rowSize)).length =
      ((List.range' 1 n).filter fun id => matchIdRange (toI64 id) stmt).length := by
  have hle : ∀ c ∈ st.header.columns, c.type = .varchar → c.size ≤ 255 :=
    fun c hc ht => (h.varcharUsable c hc ht).2
  rw [← (h.perm_rowKeys.filter _).length_eq, List.filter_map, List.length_map, matchingRows]
  congr 1
  apply List.filter_congr
  intro e he
  have hmem := h.inv.mem_entries ⟨rfl, rfl⟩ hle he
  rw [Function.comp_apply, rowMatches, matchPredicate, hkind, h.inv.rowId_eq hle hmem he]

end IntRows

/-! ## What the statements are for -/

/-- The rows of the table: what the pages of the heap hold in their alive slots, which is what a scan
lists. -/
structure HasRows (st : Pager) (rows : List (RowRef × List UInt8)) : Prop where
  held : ∃ chain : HeapChain, HeapLinks st.header.firstHeapPageId chain ∧
    (∀ n ∈ chain, st.pages n.1 = .heap n.2) ∧ heapRows chain st.header.rowSize = rows
  listed : ∃ st', allRows.run st = some (rows, st')

/-- The rows that match can all be collected. -/
def CollectsMatching (st : Pager) (stmt : Statement) : Prop :=
  ∀ rows, HasRows st rows → (matchingRows st.header stmt rows).length ≤ collectable

/-- `exec_delete_scan` takes out the rows that match and no other, and reports how many; or it fails
and takes out none. -/
def DeletesMatching (st : Pager) (env : ExecEnv) (stmt : Statement) : Prop :=
  ∃ rows res st', HasRows st rows ∧ (execDeleteScan env stmt).run st = some (res, st') ∧
    (env.Grants → res.status = 0) ∧
    (res.status = -1 ∧ HasRows st' rows ∨
      res = .done (.deletedScan (matchingRows st.header stmt rows).length) ∧
      HasRows st' (rows.filter fun e => !rowMatches st.header stmt e.2))

/-- A row before and after an UPDATE: at its place, with the new value in the column if it matched,
and byte for byte as it was if not. -/
def UpdatedRow (hdr : DbHeader) (stmt : Statement) (colIdx : Nat) (col : ColumnMeta)
    (e e' : RowRef × List UInt8) : Prop :=
  e'.1 = e.1 ∧
    if rowMatches hdr stmt e.2 then
      rowDeserialize hdr e'.2 = some ((rowValues hdr e.2).set colIdx
        (storedValue col (col.type.ofText stmt.updateValue)))
    else e'.2 = e.2

/-- `exec_update_scan` sets the column of the rows that match, and reports how many; or it fails and
sets none, because of the column or of its surroundings. -/
def UpdatesMatching (st : Pager) (env : ExecEnv) (stmt : Statement) : Prop :=
  ∃ rows res st', HasRows st rows ∧ (execUpdateScan env stmt).run st = some (res, st') ∧
    (res.status = -1 ∧ HasRows st' rows ∧
        ((∃ message, validateUpdateTarget st.header stmt = .error message) ∨ ¬ env.Grants) ∨
      ∃ colIdx col rows', validateUpdateTarget st.header stmt = .ok colIdx ∧
        st.header.columns[colIdx]? = some col ∧
        res = .done (.updatedScan (matchingRows st.header stmt rows).length) ∧ HasRows st' rows' ∧
        List.Forall₂ (UpdatedRow st.header stmt colIdx col) rows rows')

section ScanDml

variable {st : Pager} {entries : List (Nat × RowRef)} {chain : HeapChain} {pageSize : Nat}
  {env : ExecEnv} {stmt : Statement}

theorem DbInv.hasRows (h : DbInv st entries chain) :
    HasRows st (heapRows chain st.header.rowSize) := by
  obtain ⟨free, leaves, rows, hat, -⟩ := h.stored
  exact ⟨⟨chain, hat.heap.links, hat.heap.pages, rfl⟩, run_allRows h.stored⟩

theorem HasRows.unique {rows rows' : List (RowRef × List UInt8)} (h : HasRows st rows)
    (h' : HasRows st rows') : rows = rows' := by
  obtain ⟨st₁, hrun⟩ := h.listed
  obtain ⟨st₂, hrun'⟩ := h'.listed
  exact (eq_of_run hrun hrun').1

theorem DbInv.collectsMatching_iff (h : DbInv st entries chain) :
    CollectsMatching st stmt ↔
      (matchingRows st.header stmt (heapRows chain st.header.rowSize)).length ≤ collectable := by
  constructor
  · exact fun hall => hall _ h.hasRows
  · intro hroom rows hrows
    rw [hrows.unique h.hasRows]
    exact hroom

theorem DbInv.deletesMatching (h : DbInv st entries chain)
    (hle : ∀ c ∈ st.header.columns, c.type = .varchar → c.size ≤ 255)
    (hroom : CollectsMatching st stmt) (env : ExecEnv) : DeletesMatching st env stmt := by
  obtain ⟨res, st', hrun, hgrants, hres⟩ | ⟨-, hmany⟩ := h.run_deleteScan hle env stmt
  case inr => exact absurd (h.collectsMatching_iff.mp hroom) (Nat.not_le.mpr hmany)
  refine ⟨_, res, st', h.hasRows, hrun, hgrants, ?_⟩
  rcases hres with ⟨hstatus, hsame⟩ | ⟨hdone, -, entries', chain', hinv, -, hrows⟩
  · have hsize : st'.header.rowSize = st.header.rowSize := hsame.sameTable.rowSize
    exact .inl ⟨hstatus, hsize ▸ (h.sameData hsame).hasRows⟩
  · exact .inr ⟨hdone, hrows ▸ hinv.hasRows⟩

theorem DbInv.updatesMatching (h : DbInv st entries chain)
    (hle : ∀ c ∈ st.header.columns, c.type = .varchar → c.size ≤ 255)
    (hroom : (∃ message, validateUpdateTarget st.header stmt = .error message) ∨
      CollectsMatching st stmt) (env : ExecEnv) : UpdatesMatching st env stmt := by
  obtain ⟨res, st', hrun, hres⟩ | ⟨-, hok, hmany⟩ := h.run_updateScan hle env stmt
  case inr =>
    rcases hroom with hbad | hroom
    · exact absurd hbad hok
    · exact absurd (h.collectsMatching_iff.mp hroom) (Nat.not_le.mpr hmany)
  refine ⟨_, res, st', h.hasRows, hrun, ?_⟩
  rcases hres with ⟨hstatus, hsame, hwhy⟩ | ⟨hdone, -, colIdx, chain', hcol, hinv, hrows⟩
  · have hsize : st'.header.rowSize = st.header.rowSize := hsame.sameTable.rowSize
    exact .inl ⟨hstatus, hsize ▸ (h.sameData hsame).hasRows, hwhy⟩
  · obtain ⟨col, hget⟩ := validateUpdateTarget_column hcol
    refine .inr ⟨colIdx, col, _, hcol, hget, hdone, hinv.hasRows, ?_⟩
    rw [hrows, List.forall₂_map_right_iff, List.forall₂_same]
    intro e he
    by_cases hm : rowMatches st.header stmt e.2 = true
    · rw [if_pos hm]
      refine ⟨rfl, ?_⟩
      rw [if_pos hm]
      exact (h.rowDeserialize_updatedRow stmt ⟨rfl, rfl⟩ hle he hget).2
    · rw [if_neg hm]
      refine ⟨rfl, ?_⟩
      rw [if_neg hm]

/-- With more rows than can be collected neither statement has an outcome, if nothing else stops
it. -/
theorem DbInv.collects_of_changes (h : DbInv st entries chain)
    (hle : ∀ c ∈ st.header.columns, c.type = .varchar → c.size ≤ 255) (hgrants : env.Grants) :
    (DeletesMatching st env stmt → CollectsMatching st stmt) ∧
    (UpdatesMatching st env stmt →
      (∃ message, validateUpdateTarget st.header stmt = .error message) ∨
        CollectsMatching st stmt) := by
  rw [h.collectsMatching_iff]
  constructor
  · rintro ⟨rows, res, st', -, hrun, -⟩
    obtain ⟨res', st'', hrun', hstatus, hres⟩ | ⟨hnone, -⟩ := h.run_deleteScan hle env stmt
    · rcases hres with ⟨hfailed, -⟩ | ⟨-, hroom, -⟩
      · rw [hstatus hgrants] at hfailed
        cases hfailed
      · exact hroom
    · rw [hnone] at hrun
      cases hrun
  · rintro ⟨rows, res, st', -, hrun, -⟩
    obtain ⟨res', st'', hrun', hres⟩ | ⟨hnone, -⟩ := h.run_updateScan hle env stmt
    · rcases hres with ⟨-, -, hbad | hnot⟩ | ⟨-, hroom, -⟩
      · exact .inl hbad
      · exact absurd hgrants hnot
      · exact .inr hroom
    · rw [hnone] at hrun
      cases hrun

/-- **Scans change exactly the rows that match**, in every database that texts lead to and whose
VARCHAR columns have sizes between 1 and 255, as long as the ids of these rows fit an array whose
capacity has 32 bits; an UPDATE whose column cannot be set collects none. -/
theorem scanDml_exact_iff (hps : IsPageSize pageSize) (h : DbReach pageSize st)
    (hv : VarcharUsable st.header.columns) (stmt : Statement) :
    ((∀ env, DeletesMatching st env stmt) ↔ CollectsMatching st stmt) ∧
    ((∀ env, UpdatesMatching st env stmt) ↔
      (∃ message, validateUpdateTarget st.header stmt = .error message) ∨
        CollectsMatching st stmt) := by
  obtain ⟨entries, chain, hinv, -⟩ := h.inv hps
  have hle : ∀ c ∈ st.header.columns, c.type = .varchar → c.size ≤ 255 :=
    fun c hc ht => (hv c hc ht).2
  have hgrants : grantingEnv.Grants := ⟨fun _ => rfl, fun _ _ => rfl⟩
  have hchanges := @DbInv.collects_of_changes _ _ _ _ stmt hinv hle hgrants
  exact ⟨⟨fun hall => hchanges.1 (hall grantingEnv), hinv.deletesMatching hle⟩,
    fun hall => hchanges.2 (hall grantingEnv), hinv.updatesMatching hle⟩

/-- An UPDATE that makes its own condition false, of one row of two. -/
theorem scanDml_exact_iff_twoRowTable :
    let stmt : Statement :=
      { type := .update, tableName := cstr "t", updateField := cstr "a", updateValue := cstr "8"
        predicateKind := .fieldEq, predField := cstr "a", predValue := cstr "7" }
    DeletesMatching twoRowTable grantingEnv stmt ∧ UpdatesMatching twoRowTable grantingEnv stmt := by
  intro stmt
  have hv : VarcharUsable twoRowTable.header.columns := by
    unfold VarcharUsable
    decide +kernel
  have hrows : ((allRows.run twoRowTable).map fun x =>
      (matchingRows twoRowTable.header stmt x.1).length) = some 1 := by
    decide +kernel
  have hroom : CollectsMatching twoRowTable stmt := by
    rintro rows ⟨-, st', hrun⟩
    rw [hrun] at hrows
    rw [show (matchingRows twoRowTable.header stmt rows).length = 1 from Option.some.inj hrows]
    decide
  obtain ⟨hdelete, hupdate⟩ := scanDml_exact_iff ⟨12, le_refl _, rfl⟩ dbReach_twoRowTable hv stmt
  exact ⟨hdelete.mpr hroom grantingEnv, hupdate.mpr (.inr hroom) grantingEnv⟩

/-- In a table of `2 ^ 31 + 1` rows a DELETE of all of them does not delete the rows that match: the
array for their ids cannot be had. -/
theorem not_scanDml_exact :
    ∃ st stmt, DbReach 4096 st ∧ VarcharUsable st.header.columns ∧
      parse (cstr "DELETE FROM t WHERE id >= 1") = .ok stmt ∧
      ¬ DeletesMatching st grantingEnv stmt := by
  obtain ⟨st, free, leaves, rows, chain, h⟩ := exists_intRows (le_refl 2147483649)
  set stmt : Statement :=
    { type := .delete, tableName := cstr "t", predicateKind := .idRange, predField := cstr "id"
      predOp := .ge, predValue := cstr "1", rangeLo := 1, hasLo := true, loInclusive := true }
    with hstmt
  have hparse : parse (cstr "DELETE FROM t WHERE id >= 1") = .ok stmt := by
    decide +kernel
  refine ⟨st, stmt, h.reach, h.varcharUsable, hparse, fun hdeletes => ?_⟩
  have hle : ∀ c ∈ st.header.columns, c.type = .varchar → c.size ≤ 255 :=
    fun c hc ht => (h.varcharUsable c hc ht).2
  have hgrants : grantingEnv.Grants := ⟨fun _ => rfl, fun _ _ => rfl⟩
  have hroom := h.inv.collectsMatching_iff.mp
    ((h.inv.collects_of_changes hle hgrants).1 hdeletes)
  rw [h.length_matchingRows rfl, List.filter_eq_self.mpr, List.length_range'] at hroom
  · exact absurd hroom (by decide)
  · intro id hid
    have hbounds := List.mem_range'_1.mp hid
    have hval : toI64 id = id := by
      show (id : Int).bmod (2 ^ 64) = id
      simp only [Int.bmod_def]
      omega
    have hone : toI64 1 = 1 := by decide
    simp only [matchIdRange, hstmt, hval, hone]
    simp
    omega

end ScanDml

end MiniDb
