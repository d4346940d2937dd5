import Mathlib.Data.Nat.SuccPred
import MiniDb.Db.RangeSelect

/-! # A range of ids, by index and by scan

A SELECT on a range of ids goes through the index, every other statement with the same condition
through a scan. They select the same rows as long as no id of the table lies where the unsigned
order of the index and the signed order of the predicate disagree. -/

set_option autoImplicit false

namespace MiniDb

open Lib

/-- SELECT prints the rows that match by ascending id, under LIMIT the first of them. -/
def SelectsInOrder (st : Pager) (stmt : Statement) (rows : List (RowRef × List UInt8)) : Prop :=
  stmt.type = .select → stmt.selectCount = false → stmt.hasOrderBy = false →
    ∀ env : ExecEnv, env.Grants → ∃ out st', out.Perm (matchingValues st.header stmt rows) ∧
      out.Pairwise (fun v w => rowId v < rowId w) ∧
      (execute env stmt).run st = some (.printed (.selected (stmt.limited out).length .indexRange)
        (rowsOutput st.header (stmt.limited out)), st')

/-- SELECT COUNT(*) counts them. -/
def CountsMatching (st : Pager) (stmt : Statement) (rows : List (RowRef × List UInt8)) : Prop :=
  stmt.type = .select → stmt.selectCount = true → ∀ env : ExecEnv, ∃ st',
    (execute env stmt).run st = some (.printed
      (.counted (matchingRows st.header stmt rows).length)
      (.count (matchingRows st.header stmt rows).length), st')

/-- SELECT with ORDER BY prints them in some order. -/
def OrdersMatching (st : Pager) (stmt : Statement) (rows : List (RowRef × List UInt8)) : Prop :=
  stmt.type = .select → stmt.selectCount = false → stmt.hasOrderBy = true →
    stmt.hasLimit = false → ∀ (env : ExecEnv) (colIdx : Nat), env.Grants →
    findColumnIndex st.header.columns stmt.orderByField = some colIdx →
    (matchingRows st.header stmt rows).length ≤ sortableRows →
    ∃ out st', out.Perm (matchingValues st.header stmt rows) ∧ (execute env stmt).run st =
      some (.printed (.selected out.length .tableScan) (rowsOutput st.header out), st')

/-- DELETE takes them out, UPDATE changes them. -/
def ChangesMatching (st : Pager) (stmt : Statement) : Prop :=
  ∀ env : ExecEnv,
    (stmt.type = .delete → execute env stmt = execDeleteScan env stmt ∧
      DeletesMatching st env stmt) ∧
    (stmt.type = .update → execute env stmt = execUpdateScan env stmt ∧
      UpdatesMatching st env stmt)

/-- Every statement with the condition selects the rows that `match_predicate` selects. -/
def RangeAgrees (st : Pager) (c : IdCondition) : Prop :=
  ∃ rows, HasRows st rows ∧ ∀ stmt, c.Recorded stmt →
    SelectsInOrder st stmt rows ∧ CountsMatching st stmt rows ∧ OrdersMatching st stmt rows ∧
    ChangesMatching st stmt

/-- There is no row, or rows can be read, the condition splits at none of their ids, and those that
match can all be collected. -/
def RangeSound (st : Pager) (c : IdCondition) : Prop :=
  ∀ rows, HasRows st rows → rows ≠ [] →
    (∀ col ∈ st.header.columns, col.type = .varchar → col.size ≤ 255) ∧
    (∀ e ∈ rows, ¬ c.Splits (rowKey st.header e.2)) ∧
    ∀ stmt, c.Recorded stmt → (matchingRows st.header stmt rows).length ≤ collectable

section Agrees

variable {st : Pager} {entries : List (Nat × RowRef)} {chain : HeapChain} {stmt : Statement}
  {env : ExecEnv} {c : IdCondition} {e : Nat × RowRef} {pageSize : Nat}

/-! ## The condition in a statement -/

theorem IdCondition.Recorded.kind (h : c.Recorded stmt) (hrange : c.IsRange) :
    stmt.predicateKind = .idRange := by
  cases c with
  | between a b => exact h.1
  | compare op a =>
    cases op with
    | eq => exact absurd rfl hrange.1
    | ne => exact absurd rfl hrange.2
    | lt => exact h.1
    | gt => exact h.1
    | le => exact h.1
    | ge => exact h.1

theorem rowMatches_range (hkind : stmt.predicateKind = .idRange) (hdr : DbHeader)
    (row : List UInt8) :
    rowMatches hdr stmt row = matchIdRange (rowId (rowValues hdr row)) stmt := by
  rw [rowMatches, matchPredicate, hkind]

/-- The path of each statement. -/
theorem execute_range (hkind : stmt.predicateKind = .idRange) (env : ExecEnv) :
    (stmt.type = .select → stmt.selectCount = false → stmt.hasOrderBy = false →
      execute env stmt = execIndexRangeScan env stmt) ∧
    (stmt.type = .select → stmt.selectCount = true ∨ stmt.hasOrderBy = true →
      execute env stmt = execTableScan env stmt) ∧
    (stmt.type = .delete → execute env stmt = execDeleteScan env stmt) ∧
    (stmt.type = .update → execute env stmt = execUpdateScan env stmt) := by
  refine ⟨fun htype hcount horder => ?_, fun htype hscan => ?_, fun htype => ?_, fun htype => ?_⟩
  · simp [execute, plannerCreatePlan, planByType, htype, hkind, hcount, horder]
  · rcases hscan with hscan | hscan <;>
      simp [execute, plannerCreatePlan, planByType, htype, hkind, hscan]
  · simp [execute, plannerCreatePlan, planByType, htype, hkind]
  · simp [execute, plannerCreatePlan, planByType, htype, hkind]

/-! ## The index -/

/-- Behind every entry there is its id. -/
def IdsBehind (st : Pager) (entries : List (Nat × RowRef)) (chain : HeapChain) : Prop :=
  ∀ e ∈ entries,
    rowId (valuesBehind st.header (heapRows chain st.header.rowSize) e.2) = toI64 e.1

theorem DbInv.idsBehind (h : DbInv st entries chain)
    (hle : ∀ col ∈ st.header.columns, col.type = .varchar → col.size ≤ 255) :
    IdsBehind st entries chain := by
  intro e he
  obtain ⟨row, hbehind, hrow⟩ := h.rowBehind_entry he
  rw [valuesBehind, hbehind, Option.getD_some]
  exact h.rowId_eq hle he hrow

theorem DbInv.key_lt (h : DbInv st entries chain) (he : e ∈ entries) : e.1 < 2 ^ 64 :=
  lt_trans (h.keys e he).2 h.nextId_lt

/-- The entries that the index selects and the rows that the predicate selects. -/
theorem DbInv.perm_matchingValues (h : DbInv st entries chain)
    (hids : IdsBehind st entries chain) (hkind : stmt.predicateKind = .idRange) :
    ((entries.filter fun e => matchIdRange (toI64 e.1) stmt).map fun e =>
        valuesBehind st.header (heapRows chain st.header.rowSize) e.2).Perm
      (matchingValues st.header stmt (heapRows chain st.header.rowSize)) := by
  have hperm := (h.perm_heapRows.filter fun e => rowMatches st.header stmt e.2).map
    fun e => rowValues st.header e.2
  rw [List.filter_map, List.map_map] at hperm
  have hfilter : (entries.filter ((fun e : RowRef × List UInt8 => rowMatches st.header stmt e.2) ∘
      fun e => (e.2, (rowBehind (heapRows chain st.header.rowSize) e.2).getD []))) =
        entries.filter fun e => matchIdRange (toI64 e.1) stmt := by
    apply List.filter_congr
    intro e he
    rw [← hids e he]
    exact rowMatches_range hkind _ _
  rw [hfilter] at hperm
  exact hperm

theorem DbInv.filter_contains (h : DbInv st entries chain) (hfits : c.Fits) (hrange : c.IsRange)
    (hrec : c.Recorded stmt) (hsound : ∀ e ∈ entries, ¬ c.Splits e.1) :
    (entries.filter (stmt.keyRange.Contains ·.1)) =
      entries.filter fun e => matchIdRange (toI64 e.1) stmt := by
  apply List.filter_congr
  intro e he
  rw [Bool.eq_iff_iff, decide_eq_true_iff]
  exact (contains_iff_matchIdRange_iff hfits hrange hrec (h.key_lt he)).mpr (hsound e he)

theorem DbInv.selectsInOrder (h : DbInv st entries chain)
    (hread : Readable st.header (heapRows chain st.header.rowSize))
    (hids : IdsBehind st entries chain) (hfits : c.Fits) (hrange : c.IsRange) (hrec : c.Recorded stmt)
    (hsound : ∀ e ∈ entries, ¬ c.Splits e.1)
    (hroom : (matchingRows st.header stmt (heapRows chain st.header.rowSize)).length ≤
      collectable) :
    SelectsInOrder st stmt (heapRows chain st.header.rowSize) := by
  intro htype hcount horder env hgrants
  have hkind := hrec.kind hrange
  have hprints := h.run_execIndexRangeScan hread hgrants stmt
  dsimp only at hprints
  rw [h.filter_contains hfits hrange hrec hsound] at hprints
  obtain ⟨-, st', -, hrun⟩ | ⟨hmany, -⟩ := hprints
  case inr =>
    have hlen := (h.perm_matchingValues hids hkind).length_eq
    rw [matchingValues, @List.length_map _ _ (matchingRows _ _ _)] at hlen
    have hle := stmt.length_limited_le ((entries.filter fun e => matchIdRange (toI64 e.1) stmt).map
      fun e => valuesBehind st.header (heapRows chain st.header.rowSize) e.2)
    omega
  refine ⟨_, st', h.perm_matchingValues hids hkind, ?_, ?_⟩
  · rw [List.pairwise_map]
    have hsorted := h.stored.sorted.filter fun e => matchIdRange (toI64 e.1) stmt
    apply hsorted.imp_of_mem
    intro e e' he he' hlt
    obtain ⟨hin, hm⟩ := List.mem_filter.mp he
    obtain ⟨hin', hm'⟩ := List.mem_filter.mp he'
    have hk := h.key_lt hin
    have hk' := h.key_lt hin'
    rw [hids e hin, hids e' hin']
    exact toI64_lt hk' hlt (not_otherSign_of_match hfits hrec hk (hsound e hin) hm)
      (not_otherSign_of_match hfits hrec hk' (hsound e' hin') hm')
  · rw [(execute_range hkind env).1 htype hcount horder]
    exact hrun

/-! ## The scans -/

theorem DbInv.countsMatching (h : DbInv st entries chain)
    (hread : Readable st.header (heapRows chain st.header.rowSize))
    (hkind : stmt.predicateKind = .idRange) :
    CountsMatching st stmt (heapRows chain st.header.rowSize) := by
  intro htype hcount env
  obtain ⟨st', -, hscan⟩ := run_scanMatching h.stored hread env stmt
    (fun _ n => (true, some (n + 1))) 0
  have hlen : (matchingValues st.header stmt (heapRows chain st.header.rowSize)).foldl
      (fun n _ => n + 1) 0 =
        (matchingRows st.header stmt (heapRows chain st.header.rowSize)).length := by
    rw [List.foldl_const, matchingValues, List.length_map]
    exact (Nat.succ_iterate 0 _).trans (Nat.zero_add _)
  have hvisit := visitMatches_all (f := fun (n : Nat) (_ : RowValues) => n + 1)
    (matchingValues st.header stmt (heapRows chain st.header.rowSize)) 0
  rw [hlen] at hvisit
  have hscan' := hscan.trans (congrArg (Option.map fun ctx => (ctx, st')) hvisit)
  refine ⟨st', ?_⟩
  rw [(execute_range hkind env).2.1 htype (.inl hcount), execTableScan, run_bind_get]
  dsimp only
  rw [if_pos hcount, if_neg (by simp [hkind]), run_bind_of hscan']
  rfl

theorem DbInv.ordersMatching (h : DbInv st entries chain)
    (hread : Readable st.header (heapRows chain st.header.rowSize))
    (hkind : stmt.predicateKind = .idRange) :
    OrdersMatching st stmt (heapRows chain st.header.rowSize) := by
  intro htype hcount horder hlimit env colIdx hgrants hcol hsize
  obtain ⟨out, st', hperm, hrun⟩ :=
    run_execTableScan_ordered h.stored hread hcount horder hlimit hcol hgrants.alloc hsize
  refine ⟨out, st', hperm, ?_⟩
  rw [(execute_range hkind env).2.1 htype (.inr horder)]
  exact hrun

theorem DbInv.changesMatching (h : DbInv st entries chain)
    (hle : ∀ col ∈ st.header.columns, col.type = .varchar → col.size ≤ 255)
    (hkind : stmt.predicateKind = .idRange) (hroom : CollectsMatching st stmt) :
    ChangesMatching st stmt := by
  intro env
  constructor
  · intro htype
    exact ⟨(execute_range hkind env).2.2.1 htype, h.deletesMatching hle hroom env⟩
  · intro htype
    exact ⟨(execute_range hkind env).2.2.2 htype, h.updatesMatching hle (.inr hroom) env⟩

/-! ## An empty table -/

theorem DbInv.changesMatching_nil (h : DbInv st entries chain)
    (hnil : heapRows chain st.header.rowSize = []) (hkind : stmt.predicateKind = .idRange) :
    ChangesMatching st stmt := by
  intro env
  have hread : Readable st.header (heapRows chain st.header.rowSize) := by
    rw [hnil]
    exact fun _ he => absurd he List.not_mem_nil
  have hrows : HasRows st [] := hnil ▸ h.hasRows
  obtain ⟨st', hsame, hscan⟩ := run_scanMatching h.stored hread env stmt (idPush env)
    (Collector.empty Nat)
  have hscan' : (scanMatching env stmt (idPush env) (Collector.empty Nat)).run st =
      some (Collector.empty Nat, st') := by
    rw [hscan, hnil]
    rfl
  have hrows' : HasRows st' [] := by
    have hall := (h.sameData hsame).hasRows
    rw [show st'.header.rowSize = st.header.rowSize from hsame.sameTable.rowSize, hnil] at hall
    exact hall
  have hlock : lockCollectedIds env (Collector.empty Nat).items .x = .ok [] := by
    simp [lockCollectedIds, Collector.empty, sortIds, dropRepeats]
  constructor
  · intro htype
    refine ⟨(execute_range hkind env).2.2.1 htype, [], .done (.deletedScan 0), st', hrows, ?_,
      fun _ => rfl, .inr ⟨rfl, hrows'⟩⟩
    rw [execDeleteScan, run_bind_of hscan', if_neg (by simp [Collector.empty]), hlock]
    rfl
  · intro htype
    refine ⟨(execute_range hkind env).2.2.2 htype, ?_⟩
    cases hcol : validateUpdateTarget st.header stmt with
    | error message =>
      refine ⟨[], .failed message, st, hrows, ?_, .inl ⟨rfl, hrows, .inl ⟨message, hcol⟩⟩⟩
      rw [execUpdateScan, run_bind_get]
      dsimp only
      rw [hcol]
      rfl
    | ok colIdx =>
      obtain ⟨col, hget⟩ := validateUpdateTarget_column hcol
      refine ⟨[], .done (.updatedScan 0), st', hrows, ?_,
        .inr ⟨colIdx, col, [], hcol, hget, rfl, hrows', .nil⟩⟩
      rw [execUpdateScan, run_bind_get]
      dsimp only
      rw [hcol]
      dsimp only
      rw [run_bind_of hscan', if_neg (by simp [Collector.empty]), hlock]
      rfl

/-! ## Where they disagree -/

/-- A scan over a row that cannot be read has no outcome. -/
theorem run_scanMatching_unreadable {γ : Type} (h : Stored st st.header.rowSize entries chain)
    (hne : heapRows chain st.header.rowSize ≠ [])
    (hbad : ∀ e ∈ heapRows chain st.header.rowSize, rowDeserialize st.header e.2 = none)
    (env : ExecEnv) (stmt : Statement) (push : RowValues → γ → Bool × Option γ) (ctx : γ) :
    (scanMatching env stmt push ctx).run st = none := by
  obtain ⟨st', hrun, -⟩ := h.run_scan env.pageCopy (onMatch st.header stmt push) (some ctx)
  obtain ⟨e, rows, hrows⟩ := List.exists_cons_of_ne_nil hne
  have hfirst : (visit (onMatch st.header stmt push).onRow (heapRows chain st.header.rowSize)
      (some ctx)).2 = none := by
    rw [hrows, visit]
    have hcb : (onMatch st.header stmt push).onRow e (some ctx) = (false, none) := by
      simp only [ScanCallback.onRow, onMatch, hbad e (hrows ▸ List.mem_cons_self)]
    rw [hcb]
  rw [scanMatching, run_bind_get, run_bind_of hrun, hfirst]
  rfl

theorem rowsOutput_inj {hdr : DbHeader} {rows rows' : List RowValues}
    (h : rowsOutput hdr rows = rowsOutput hdr rows') : rows = rows' := by
  unfold rowsOutput at h
  split at h <;> split at h
  · simp_all
  · cases h
  · cases h
  · exact (ExecOutput.rows.inj h).2

/-- The condition in a statement of another kind. -/
theorem IdCondition.Recorded.asSelect (h : c.Recorded stmt) (count : Bool) :
    c.Recorded { stmt with
      type := .select, selectCount := count, hasOrderBy := false, hasLimit := false } := by
  cases c with
  | between a b => exact h
  | compare op a => cases op <;> exact h

/-- Where a count can be taken, rows can be read. -/
theorem DbInv.varchar_le_of_counts (h : DbInv st entries chain) (hrange : c.IsRange)
    (hrec : c.Recorded stmt) (hne : heapRows chain st.header.rowSize ≠ [])
    (hcounts : ∀ stmt, c.Recorded stmt →
      CountsMatching st stmt (heapRows chain st.header.rowSize)) :
    ∀ col ∈ st.header.columns, col.type = .varchar → col.size ≤ 255 := by
  by_contra hle
  have hbad : ∀ e ∈ heapRows chain st.header.rowSize, rowDeserialize st.header e.2 = none := by
    intro e _
    rw [Option.eq_none_iff_forall_ne_some]
    exact fun values hvalues => hle (varchar_le_of_deserialize hvalues)
  have hcount := hrec.asSelect true
  obtain ⟨st', hrun⟩ := hcounts _ hcount rfl rfl grantingEnv
  rw [(execute_range (hcount.kind hrange) grantingEnv).2.1 rfl (.inl rfl), execTableScan,
    run_bind_get] at hrun
  dsimp only at hrun
  rw [if_pos rfl, if_neg (by simp [hrec.kind hrange])] at hrun
  obtain ⟨n, st₁, hscan, -⟩ := run_bind_eq_some.mp hrun
  rw [run_scanMatching_unreadable h.stored hne hbad] at hscan
  cases hscan

/-- Where SELECT prints the rows that match, the condition splits nowhere, and they are not too
many. -/
theorem DbInv.sound_of_selects (h : DbInv st entries chain)
    (hle : ∀ col ∈ st.header.columns, col.type = .varchar → col.size ≤ 255) (hfits : c.Fits)
    (hrange : c.IsRange) (hrec : c.Recorded stmt)
    (hselects : ∀ stmt, c.Recorded stmt →
      SelectsInOrder st stmt (heapRows chain st.header.rowSize)) :
    (∀ e ∈ entries, ¬ c.Splits e.1) ∧
      (matchingRows st.header stmt (heapRows chain st.header.rowSize)).length ≤ collectable := by
  have hgrants : grantingEnv.Grants := ⟨fun _ => rfl, fun _ _ => rfl⟩
  have hselect := hrec.asSelect false
  obtain ⟨out, st', hperm, -, hrun⟩ := hselects _ hselect rfl rfl rfl grantingEnv hgrants
  rw [(execute_range (hselect.kind hrange) grantingEnv).1 rfl rfl rfl] at hrun
  obtain ⟨hroom, st'', -, hrun'⟩ | ⟨-, hnone⟩ := h.run_execIndexRangeScan (h.readable hle) hgrants
    { stmt with type := .select, selectCount := false, hasOrderBy := false, hasLimit := false }
  case inr =>
    rw [hnone] at hrun
    cases hrun
  rw [hrun'] at hrun
  -- what is printed is both the range in the index and the rows that match
  have hout : (entries.filter (stmt.keyRange.Contains ·.1)).map (fun e =>
      valuesBehind st.header (heapRows chain st.header.rowSize) e.2) = out :=
    rowsOutput_inj (ExecResult.mk.inj (Prod.mk.inj (Option.some.inj hrun)).1).2.2
  have hlen : (matchingRows st.header stmt (heapRows chain st.header.rowSize)).length ≤
      collectable := by
    have hprinted : out.length ≤ collectable := by
      rw [← hout]
      exact hroom
    have hperm' : out.length =
        (matchingValues st.header stmt (heapRows chain st.header.rowSize)).length := hperm.length_eq
    rwa [hperm', matchingValues, List.length_map] at hprinted
  refine ⟨?_, hlen⟩
  have hids :=
    (hperm.trans (h.perm_matchingValues (h.idsBehind hle) (hselect.kind hrange)).symm).map rowId
  rw [← hout] at hids
  have hkeys : ∀ p : Nat × RowRef → Bool, ((entries.filter p).map fun e =>
      valuesBehind st.header (heapRows chain st.header.rowSize) e.2).map rowId =
        (entries.filter p).map fun e => toI64 e.1 := by
    intro p
    rw [List.map_map]
    exact List.map_congr_left fun e he => h.idsBehind hle e (List.mem_filter.mp he).1
  rw [hkeys, hkeys] at hids
  intro e he
  rw [← contains_iff_matchIdRange_iff hfits hrange hrec (h.key_lt he)]
  have hmem : ∀ p : Nat × RowRef → Bool, (p e = true ↔ toI64 e.1 ∈
      (entries.filter p).map fun e => toI64 e.1) := by
    intro p
    constructor
    · intro hp
      exact List.mem_map_of_mem (List.mem_filter.mpr ⟨he, hp⟩)
    · intro hin
      obtain ⟨e', he', hid⟩ := List.mem_map.mp hin
      obtain ⟨hin', hp⟩ := List.mem_filter.mp he'
      have hkey := toI64_inj (h.key_lt hin') (h.key_lt he) hid
      have hnodup : (entries.map Prod.fst).Nodup :=
        List.pairwise_map.mpr (h.stored.sorted.imp fun hlt => ne_of_lt hlt)
      rwa [List.inj_on_of_nodup_map hnodup hin' he hkey] at hp
  have hcontains := hmem (stmt.keyRange.Contains ·.1)
  have hmatch := hmem fun e => matchIdRange (toI64 e.1) stmt
  rw [decide_eq_true_iff] at hcontains
  rw [hcontains, hmatch]
  exact hids.mem_iff

/-! ## Main result -/

/-- **A range of ids is the same by index and by scan** exactly when the table is empty, or its rows
can be read, the condition splits at none of their ids, and an array with a capacity of 32 bits takes
those that match. -/
theorem range_agrees_iff {text : CString} (hps : IsPageSize pageSize) (h : DbReach pageSize st)
    (hparse : parse text = .ok stmt) (hwhere : stmt.type.HasWhere)
    (hc : commandCondition (commandText text) = some c) (hrange : c.IsRange) :
    RangeAgrees st c ↔ RangeSound st c := by
  obtain ⟨entries, chain, hinv, -⟩ := h.inv hps
  have hfits := commandCondition_fits hc
  have hrec := parse_recorded hparse hwhere hc
  have hrows := hinv.hasRows
  constructor
  · rintro ⟨rows, hhas, hagrees⟩ rows' hhas' hne
    obtain rfl := hhas.unique hrows
    obtain rfl := hhas'.unique hrows
    have hle := hinv.varchar_le_of_counts hrange hrec hne fun stmt hrec => (hagrees stmt hrec).2.1
    have hselects : ∀ stmt, c.Recorded stmt →
        SelectsInOrder st stmt (heapRows chain st.header.rowSize) :=
      fun stmt hrec => (hagrees stmt hrec).1
    refine ⟨hle, fun e he => ?_, fun stmt hrec => ?_⟩
    · exact (hinv.sound_of_selects hle hfits hrange hrec hselects).1 _
        (hinv.mem_entries ⟨rfl, rfl⟩ hle he)
    · exact (hinv.sound_of_selects hle hfits hrange hrec hselects).2
  · intro hsound
    refine ⟨_, hrows, fun stmt hrec => ?_⟩
    have hkind := hrec.kind hrange
    by_cases hnil : heapRows chain st.header.rowSize = []
    · have hread : Readable st.header (heapRows chain st.header.rowSize) := by
        rw [hnil]
        nofun
      have hentries : entries = [] := by
        have hrefs := hinv.refs
        rw [hnil] at hrefs
        exact List.map_eq_nil_iff.mp hrefs.eq_nil
      have hids : IdsBehind st entries chain := by
        rw [hentries]
        nofun
      have hsplit : ∀ e ∈ entries, ¬ c.Splits e.1 := by
        rw [hentries]
        nofun
      have hroom : (matchingRows st.header stmt (heapRows chain st.header.rowSize)).length ≤
          collectable := by
        rw [hnil]
        exact Nat.zero_le _
      exact ⟨hinv.selectsInOrder hread hids hfits hrange hrec hsplit hroom,
        hinv.countsMatching hread hkind, hinv.ordersMatching hread hkind,
        hinv.changesMatching_nil hnil hkind⟩
    · obtain ⟨hle, hsplit, hrooms⟩ := hsound _ hrows hnil
      have hroom := hrooms stmt hrec
      have hread := hinv.readable hle
      have hsplit' : ∀ e ∈ entries, ¬ c.Splits e.1 := by
        intro e he
        obtain ⟨row, -, hrow⟩ := hinv.rowBehind_entry he
        have hkey : rowKey st.header row = e.1 := hinv.rowKey_eq ⟨rfl, rfl⟩ hle he hrow
        have hrowsplit := hsplit (e.2, row) hrow
        rwa [hkey] at hrowsplit
      exact ⟨hinv.selectsInOrder hread (hinv.idsBehind hle) hfits hrange hrec hsplit' hroom,
        hinv.countsMatching hread hkind, hinv.ordersMatching hread hkind,
        hinv.changesMatching hle hkind (hinv.collectsMatching_iff.mpr hroom)⟩

/-- One row of two is in the range. -/
theorem range_agrees_iff_twoRowTable :
    RangeAgrees twoRowTable (.between 2 5) ↔ RangeSound twoRowTable (.between 2 5) := by
  have hparse : parse (cstr "SELECT * FROM t WHERE id BETWEEN 2 AND 5") = .ok
      (Statement.between { type := .select, tableName := cstr "t", selectAll := true } 2 5) := by
    decide +kernel
  have hc : commandCondition (commandText (cstr "SELECT * FROM t WHERE id BETWEEN 2 AND 5")) =
      some (.between 2 5) := by
    decide +kernel
  exact range_agrees_iff ⟨12, le_refl _, rfl⟩ dbReach_twoRowTable hparse (.inl rfl) hc trivial

/-- From -5 on: the index looks for keys from `2 ^ 64 - 5` on and finds none, the scan finds the
row with id 1. -/
theorem not_range_agrees :
    ∃ stmt count : Statement, parse (cstr "SELECT * FROM t WHERE id >= -5") = .ok stmt ∧
      parse (cstr "SELECT COUNT(*) FROM t WHERE id >= -5") = .ok count ∧
      DbReach 4096 oneRowTable ∧
      ((execute grantingEnv stmt).run oneRowTable).map Prod.fst =
        some (.printed (.selected 0 .indexRange) .none) ∧
      ((execute grantingEnv count).run oneRowTable).map Prod.fst =
        some (.printed (.counted 1) (.count 1)) := by
  have hparse : parse (cstr "SELECT * FROM t WHERE id >= -5") = .ok
      { type := .select, tableName := cstr "t", selectAll := true, predicateKind := .idRange
        predField := cstr "id", predValue := cstr "-5", predOp := .ge, hasLo := true
        loInclusive := true, rangeLo := toU64 (-5) } := by
    decide +kernel
  have hcount : parse (cstr "SELECT COUNT(*) FROM t WHERE id >= -5") = .ok
      { type := .select, tableName := cstr "t", selectCount := true
        predicateKind := .idRange, predField := cstr "id", predValue := cstr "-5", predOp := .ge
        hasLo := true, loInclusive := true, rangeLo := toU64 (-5) } := by
    decide +kernel
  exact ⟨_, _, hparse, hcount, dbReach_oneRowTable, by decide +kernel, by decide +kernel⟩

end Agrees

end MiniDb
