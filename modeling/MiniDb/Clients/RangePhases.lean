import MiniDb.Db.LockCoverage
import MiniDb.Db.RangeAgrees

/-! # A SELECT on a range of ids among other statements

`exec_index_range_scan` collects references from the index and reads the rows behind them later. It
holds no row lock, and no latch between the two phases: other statements can run there. What they
may do to the table is said by the states of the two phases. -/

set_option autoImplicit false

namespace MiniDb

open Lib

/-! ## The phases -/

/-- The first phase of `exec_index_range_scan`: the references, or the end of the statement. -/
def collectRange (env : ExecEnv) (stmt : Statement) : PagerM (Except ExecResult (List RowRef)) := do
  if stmt.hasLimit ∧ stmt.limitCount = 0 then return .error (.done (.selected 0 .indexRange))
  let limit := if stmt.hasLimit then stmt.limitCount else 0
  let rc ← orUndefined
    (← bptreeRangeScan stmt.keyRange (rangeCollectCb env limit) (some (Collector.empty RowRef)))
  if rc.allocFailed then return .error (.failed .rangeAllocFailed)
  return .ok rc.items

/-- The second phase, from behind the references. -/
def printRange (hdr : DbHeader) (refs : List RowRef) : PagerM ExecResult := do
  let rows ← fetchRange hdr none refs
  return .printed (.selected rows.length .indexRange) (rowsOutput hdr rows)

/-- A SELECT of rows on a range of ids, in any form that `parse_where` files as one. -/
structure Statement.SelectsRange (stmt : Statement) : Prop where
  type : stmt.type = .select
  count : stmt.selectCount = false
  order : stmt.hasOrderBy = false
  kind : stmt.predicateKind = .idRange

/-- INSERT, DELETE or UPDATE. -/
def StatementType.ChangesRows (type : StatementType) : Prop :=
  type = .insert ∨ type = .delete ∨ type = .update

/-- A client at a SELECT on a range. -/
inductive RangeClient where
  /-- no SELECT yet -/
  | idle
  /-- between the phases, with the header of the table and the references -/
  | collected (stmt : Statement) (hdr : DbHeader) (refs : List RowRef)
  /-- the SELECT has returned -/
  | returned (stmt : Statement) (res : ExecResult)

/-- Where the first phase leaves the client. -/
def RangeClient.behind (stmt : Statement) (hdr : DbHeader) :
    Except ExecResult (List RowRef) → RangeClient
  | .error res => .returned stmt res
  | .ok refs => .collected stmt hdr refs

/-- The database, and the clients that select from it. -/
structure RangeSys where
  pager : Pager
  clients : Nat → RangeClient

/-- Before the first SELECT. -/
def RangeSys.init (st : Pager) : RangeSys := ⟨st, fun _ => .idle⟩

/-- What is done in one piece: a statement that changes rows, or a phase of a SELECT. -/
inductive RangeAction where
  | change (env : ExecEnv) (sql : CString) (res : ExecResult)
  | collect (i : Nat) (env : ExecEnv) (sql : CString)
  | fetch (i : Nat)

/-- One piece. A client that is between its phases starts no other SELECT. -/
inductive RangeSys.Step (s : RangeSys) : RangeAction → RangeSys → Prop
  | change {env : ExecEnv} {sql : CString} {stmt : Statement} {res : ExecResult} {st' : Pager}
      (hparse : parse sql = .ok stmt) (htype : stmt.type.ChangesRows)
      (hrun : (dbExecute env sql).run s.pager = some (res, st')) :
      Step s (.change env sql res) { s with pager := st' }
  | collect {i : Nat} {env : ExecEnv} {sql : CString} {stmt : Statement}
      {found : Except ExecResult (List RowRef)} {st' : Pager}
      (hparse : parse sql = .ok stmt) (hrange : stmt.SelectsRange)
      (hclient : ∀ stmt hdr refs, s.clients i ≠ .collected stmt hdr refs)
      (hrun : (collectRange env stmt).run s.pager = some (found, st')) :
      Step s (.collect i env sql)
        ⟨st', Function.update s.clients i (.behind stmt s.pager.header found)⟩
  | fetch {i : Nat} {stmt : Statement} {hdr : DbHeader} {refs : List RowRef} {res : ExecResult}
      {st' : Pager} (hclient : s.clients i = .collected stmt hdr refs)
      (hrun : (printRange hdr refs).run s.pager = some (res, st')) :
      Step s (.fetch i) ⟨st', Function.update s.clients i (.returned stmt res)⟩

/-- The index has this reference for the id. -/
def Pager.RefOf (st : Pager) (id : Nat) (ref : RowRef) : Prop :=
  ∃ st', (bptreeSearch id).run st = some (some ref, st')

/-- Fewer ids of the range are in front of this one than the LIMIT lets through. -/
def Pager.WithinLimit (st : Pager) (stmt : Statement) (id : Nat) : Prop :=
  stmt.hasLimit = true → ∀ ids : List Nat, ids.Nodup →
    (∀ k ∈ ids, k < id ∧ stmt.keyRange.Contains k ∧ ∃ ref, st.RefOf k ref) →
    ids.length < stmt.limitCount

/-- An INSERT does not put a row whose id is outside a range at a place that has been collected for
it; and a SELECT finds no id in its range, as far as its LIMIT goes, whose sign a bound does not
have. -/
def RangeAction.Careful (s s' : RangeSys) : RangeAction → Prop
  | .change _ _ res => ∀ id ref, res.message = .inserted id → s'.pager.RefOf id ref →
      ∀ i stmt hdr refs, s.clients i = .collected stmt hdr refs → ref ∈ refs →
        matchIdRange (toI64 id) stmt = true
  | .collect _ _ sql => ∀ stmt id ref, parse sql = .ok stmt → s.pager.RefOf id ref →
      stmt.keyRange.Contains id → s.pager.WithinLimit stmt id → ¬ stmt.MixesSigns id
  | .fetch _ => True

/-- Every interleaving. -/
def RangeSys.Reach (s s' : RangeSys) : Prop :=
  Relation.ReflTransGen (fun s s' => ∃ a, Step s a s') s s'

/-- Every interleaving of careful pieces. -/
def RangeSys.CarefulReach (s s' : RangeSys) : Prop :=
  Relation.ReflTransGen (fun s s' => ∃ a, Step s a s' ∧ RangeAction.Careful s s' a) s s'

/-- Every row of the output has an id that satisfies the predicate. -/
def ExecResult.InRange (res : ExecResult) (stmt : Statement) : Prop :=
  ∀ columns rows, res.output = .rows columns rows → ∀ v ∈ rows, matchIdRange (rowId v) stmt = true

section Phases

variable {st st' : Pager} {entries : List (Nat × RowRef)} {chain : HeapChain} {env : ExecEnv}
  {stmt : Statement} {res : ExecResult} {sql : CString} {hdr : DbHeader} {refs : List RowRef}
  {id : Nat} {ref : RowRef} {pageSize : Nat} {s s' : RangeSys}

/-- The statement is its two phases. -/
theorem execIndexRangeScan_eq (env : ExecEnv) (stmt : Statement) :
    execIndexRangeScan env stmt = (do
      let hdr := (← get).header
      match ← collectRange env stmt with
      | .error res => return res
      | .ok refs => printRange hdr refs) := by
  unfold execIndexRangeScan collectRange
  apply bind_congr
  intro st
  dsimp only
  split
  · rw [pure_bind]
  · rw [bind_assoc]
    apply bind_congr
    intro found
    rw [bind_assoc]
    apply bind_congr
    intro rc
    split
    · rw [pure_bind]
    · rw [pure_bind]
      rfl

/-- `db_execute` takes no lock for it. -/
theorem dbExecute_selectsRange (hparse : parse sql = .ok stmt) (h : stmt.SelectsRange) :
    dbExecute env sql = execIndexRangeScan env stmt := by
  rw [dbExecute_of_parse hparse, dbRun, determineLock_range h.kind]
  exact (execute_range h.kind env).1 h.type h.count h.order

/-! ## Statements that change rows -/

theorem execute_rows (h : DbInv st entries chain) (htype : stmt.type.ChangesRows)
    (hrun : (execute env stmt).run st = some (res, st')) : RowsStep st entries chain res st' := by
  rcases htype with htype | htype | htype
  · have hpath : execute env stmt = execInsert env stmt := by
      simp [execute, plannerCreatePlan, planByType, htype]
    rw [hpath] at hrun
    exact (execInsert_rows h hrun).1
  · by_cases hkind : stmt.predicateKind = .idEq
    · have hpath : execute env stmt = execIndexDelete stmt := by
        simp [execute, plannerCreatePlan, planByType, htype, hkind]
      rw [hpath] at hrun
      exact execIndexDelete_rows h hrun
    · have hpath : execute env stmt = execDeleteScan env stmt := by
        simp [execute, plannerCreatePlan, planByType, htype, hkind]
      rw [hpath] at hrun
      exact execDeleteScan_rows h hrun
  · by_cases hkind : stmt.predicateKind = .idEq
    · have hpath : execute env stmt = execIndexUpdate stmt := by
        simp [execute, plannerCreatePlan, planByType, htype, hkind]
      rw [hpath] at hrun
      exact execIndexUpdate_rows h hrun
    · have hpath : execute env stmt = execUpdateScan env stmt := by
        simp [execute, plannerCreatePlan, planByType, htype, hkind]
      rw [hpath] at hrun
      exact execUpdateScan_rows h hrun

theorem dbExecute_rows (h : DbInv st entries chain) (hparse : parse sql = .ok stmt)
    (htype : stmt.type.ChangesRows) (hrun : (dbExecute env sql).run st = some (res, st')) :
    RowsStep st entries chain res st' := by
  rw [dbExecute_of_parse hparse, dbRun] at hrun
  split at hrun
  · exact execute_rows h htype hrun
  · split at hrun
    · exact execute_rows h htype hrun
    · obtain ⟨rfl, rfl⟩ := run_pure_eq_some.mp hrun
      exact h.rowsStepSameData .refl

/-! ## The two phases -/

theorem DbInv.refOf_iff (h : DbInv st entries chain) : st.RefOf id ref ↔ (id, ref) ∈ entries := by
  constructor
  · rintro ⟨st', hrun⟩
    exact ((h.stored.search hrun).2 ref).mp rfl
  · intro hmem
    obtain ⟨found, st', hrun⟩ := h.stored.exists_search id
    obtain rfl : found = some ref := ((h.stored.search hrun).2 ref).mpr hmem
    exact ⟨st', hrun⟩

/-- In front of the entry at `i` there are `i` keys. -/
theorem length_le_of_keys_lt {l : List (Nat × RowRef)} (hsorted : l.Pairwise fun a b => a.1 < b.1)
    {i : Nat} (hi : i < l.length) {ids : List Nat} (hnodup : ids.Nodup)
    (hids : ∀ k ∈ ids, k < l[i].1 ∧ ∃ ref, (k, ref) ∈ l) : ids.length ≤ i := by
  have hsub : ids ⊆ (l.take i).map Prod.fst := by
    intro k hk
    obtain ⟨hlt, ref, hmem⟩ := hids k hk
    obtain ⟨j, hj, hget⟩ := List.mem_iff_getElem.mp hmem
    have hji : j < i := by
      by_contra hge
      rcases Nat.lt_or_eq_of_le (not_lt.mp hge) with hbehind | rfl
      · have hkeys := List.pairwise_iff_getElem.mp hsorted i j hi hj hbehind
        rw [hget] at hkeys
        omega
      · rw [hget] at hlt
        omega
    exact List.mem_map.mpr ⟨(k, ref),
      List.mem_take_iff_getElem.mpr ⟨j, by omega, hget⟩, rfl⟩
  have hle := (List.subperm_of_subset hnodup hsub).length_le
  rw [List.length_map, List.length_take] at hle
  omega

/-- The references that are collected belong to the first entries of the range. -/
theorem DbInv.withinLimit (h : DbInv st entries chain)
    (hpos : ¬ (stmt.hasLimit = true ∧ stmt.limitCount = 0))
    (href : ref ∈ rangeRefs (if stmt.hasLimit then stmt.limitCount else 0) 0
      (entries.filter (stmt.keyRange.Contains ·.1))) :
    ∃ k, (k, ref) ∈ entries ∧ stmt.keyRange.Contains k ∧ st.WithinLimit stmt k := by
  obtain ⟨l, hl⟩ : ∃ l, l = entries.filter (stmt.keyRange.Contains ·.1) := ⟨_, rfl⟩
  have hmem : ∀ e, e ∈ l ↔ e ∈ entries ∧ stmt.keyRange.Contains e.1 := by
    intro e
    rw [hl, List.mem_filter, decide_eq_true_iff]
  rw [← hl, rangeRefs] at href
  by_cases hlimit : stmt.hasLimit = true
  · have hne : stmt.limitCount ≠ 0 := fun h0 => hpos ⟨hlimit, h0⟩
    rw [if_pos hlimit, if_neg hne, Nat.sub_zero, ← List.map_take] at href
    obtain ⟨⟨k, ref'⟩, hkept, rfl⟩ := List.mem_map.mp href
    obtain ⟨i, hi, hget⟩ := List.mem_take_iff_getElem.mp hkept
    have hilt : i < l.length := by omega
    have hin : l[i] ∈ l := List.getElem_mem hilt
    rw [hget] at hin
    obtain ⟨hentry, hcontains⟩ := (hmem _).mp hin
    refine ⟨k, hentry, hcontains, fun _ ids hnodup hids => ?_⟩
    have hsorted : l.Pairwise fun a b => a.1 < b.1 := hl ▸ h.stored.sorted.filter _
    have hle := length_le_of_keys_lt hsorted hilt hnodup fun k' hk' => by
      obtain ⟨hlt, hcontains', ref', hof⟩ := hids k' hk'
      rw [hget]
      exact ⟨hlt, ref', (hmem _).mpr ⟨h.refOf_iff.mp hof, hcontains'⟩⟩
    omega
  · rw [if_neg hlimit, if_pos rfl] at href
    obtain ⟨⟨k, ref'⟩, hin, rfl⟩ := List.mem_map.mp href
    obtain ⟨hentry, hcontains⟩ := (hmem _).mp hin
    exact ⟨k, hentry, hcontains, fun h' => absurd h' hlimit⟩

/-- The first phase collects references of entries in the range, as far as the LIMIT goes. -/
theorem DbInv.collectRange_refs {found : Except ExecResult (List RowRef)}
    (h : DbInv st entries chain) (hrun : (collectRange env stmt).run st = some (found, st')) :
    st.SameData st' ∧ match found with
      | .error res => res.output = .none
      | .ok refs => ∀ ref ∈ refs, ∃ k, (k, ref) ∈ entries ∧ stmt.keyRange.Contains k ∧
          st.WithinLimit stmt k := by
  rw [collectRange] at hrun
  split at hrun
  · obtain ⟨rfl, rfl⟩ := run_pure_eq_some.mp hrun
    exact ⟨.refl, rfl⟩
  rename_i hpos
  obtain ⟨collected, st₁, hscan, hmore⟩ := run_bind_eq_some.mp hrun
  obtain ⟨hsame, hfound⟩ := h.stored.rangeScan hscan
  obtain ⟨rc, st₂, hdefined, hrest⟩ := run_bind_eq_some.mp hmore
  obtain ⟨hrc, rfl⟩ := orUndefined_eq_some hdefined
  rw [hfound] at hrc
  split at hrest
  · obtain ⟨rfl, rfl⟩ := run_pure_eq_some.mp hrest
    exact ⟨hsame, rfl⟩
  · rename_i hok
    obtain ⟨rfl, rfl⟩ := run_pure_eq_some.mp hrest
    refine ⟨hsame, fun ref href => h.withinLimit hpos ?_⟩
    rcases visit_rangeCollect env (if stmt.hasLimit then stmt.limitCount else 0)
        (entries.filter (stmt.keyRange.Contains ·.1)) (Collector.empty RowRef) rfl
        Collector.sized_empty (Nat.eq_zero_or_pos _) with ⟨c', hvisit, hres, -⟩ | ⟨hvisit, -⟩
    · obtain rfl : c' = rc := Option.some.inj (hvisit.symm.trans hrc)
      rw [(hres (Bool.not_eq_true _ ▸ hok)).1] at href
      exact href
    · rw [hvisit] at hrc
      cases hrc

/-- The second phase prints rows behind the references, whatever their ids are now. -/
theorem DbInv.printRange_inRange (h : DbInv st entries chain) (hhdr : SameSchema hdr st.header)
    (hplaces : ∀ ref ∈ refs, chain.IsPlace ref)
    (hmatch : ∀ e ∈ entries, e.2 ∈ refs → matchIdRange (toI64 e.1) stmt = true)
    (hrun : (printRange hdr refs).run st = some (res, st')) :
    st.SameData st' ∧ res.InRange stmt := by
  obtain ⟨vs, st₁, hfetch, hdone⟩ := run_bind_eq_some.mp hrun
  obtain ⟨rfl, rfl⟩ := run_pure_eq_some.mp hdone
  refine ⟨readOnly_fetchRange none refs st vs st' hfetch, fun columns rows hout v hv => ?_⟩
  have hvs : v ∈ vs := by
    have hrows : rowsOutput hdr vs = .rows columns rows := hout
    unfold rowsOutput at hrows
    split at hrows
    · cases hrows
    · cases hrows
      exact hv
  obtain ⟨ref, href, row, hrow, hread⟩ := h.stored.fetchRange_rows hhdr.rowSize hplaces hfetch hvs
  rw [rowDeserialize, hhdr.columns] at hread
  have hentry : ref ∈ entries.map Prod.snd := h.refs.mem_iff.mpr (List.mem_map_of_mem hrow)
  obtain ⟨⟨k, ref'⟩, hmem, rfl⟩ := List.mem_map.mp hentry
  have hid := h.rowId_eq (varchar_le_of_deserialize hread) hmem hrow
  rw [rowValues_eq hread] at hid
  rw [hid]
  exact hmatch (k, ref') hmem href

/-! ## Runs -/

/-- What holds of a client between two pieces. -/
def RangeClient.Sound (st : Pager) (entries : List (Nat × RowRef)) (chain : HeapChain) :
    RangeClient → Prop
  | .idle => True
  | .collected stmt hdr refs => SameSchema hdr st.header ∧ (∀ ref ∈ refs, chain.IsPlace ref) ∧
      ∀ e ∈ entries, e.2 ∈ refs → matchIdRange (toI64 e.1) stmt = true
  | .returned stmt res => res.InRange stmt

/-- **The invariant of the phases.** -/
def RangeSys.Inv (s : RangeSys) : Prop :=
  ∃ entries chain, DbInv s.pager entries chain ∧
    ∀ i, (s.clients i).Sound s.pager entries chain

theorem RangeClient.Sound.sameData {c : RangeClient} (h : c.Sound st entries chain)
    (hs : st.SameData st') : c.Sound st' entries chain := by
  cases c with
  | idle => trivial
  | collected stmt hdr refs => exact ⟨h.1.sameTable hs.sameTable, h.2⟩
  | returned stmt res => exact h

/-- A client goes on, and the data stays. -/
theorem RangeSys.Inv.update {c : RangeClient} {i : Nat} (hinv : DbInv st entries chain)
    {clients : Nat → RangeClient} (hclients : ∀ i, (clients i).Sound st entries chain)
    (hs : st.SameData st') (hc : c.Sound st entries chain) :
    RangeSys.Inv ⟨st', Function.update clients i c⟩ := by
  refine ⟨entries, chain, hinv.sameData hs, fun j => ?_⟩
  by_cases hj : j = i
  · subst hj
    show (Function.update clients j c j).Sound st' entries chain
    rw [Function.update_self]
    exact hc.sameData hs
  · show (Function.update clients i c j).Sound st' entries chain
    rw [Function.update_of_ne hj]
    exact (hclients j).sameData hs

theorem RangeSys.Inv.step (h : s.Inv) {a : RangeAction} (hstep : RangeSys.Step s a s')
    (hcare : a.Careful s s') : s'.Inv := by
  obtain ⟨entries, chain, hinv, hclients⟩ := h
  cases hstep with
  | @change env sql stmt res st' hparse htype hrun =>
    obtain ⟨entries', chain', hinv', hkept, hnew⟩ := (dbExecute_rows hinv hparse htype hrun).inv
    refine ⟨entries', chain', hinv', fun i => ?_⟩
    have hold := hclients i
    show (s.clients i).Sound st' entries' chain'
    cases hc : s.clients i with
    | idle => trivial
    | returned stmt res =>
      rw [hc] at hold
      exact hold
    | collected stmt hdr refs =>
      rw [hc] at hold
      obtain ⟨hhdr, hplaces, hmatch⟩ := hold
      refine ⟨hhdr.kept hkept, fun ref href => hkept.places ref (hplaces ref href), ?_⟩
      intro e he href
      rcases hnew e he with hmem | hinserted
      · exact hmatch e hmem href
      · exact hcare e.1 e.2 hinserted (hinv'.refOf_iff.mpr he) i stmt hdr refs hc href
  | @collect i env sql stmt found st' hparse hrange hclient hrun =>
    obtain ⟨hsame, hfound⟩ := hinv.collectRange_refs hrun
    apply RangeSys.Inv.update hinv hclients hsame
    cases found with
    | error res =>
      intro columns rows hout
      have hnone : res.output = .none := hfound
      rw [hnone] at hout
      cases hout
    | ok refs =>
      refine ⟨⟨rfl, rfl⟩, fun ref href => ?_, fun e he href => ?_⟩
      · obtain ⟨k, hmem, -, -⟩ := hfound ref href
        exact hinv.isPlace hmem
      · -- the reference of the entry is in the range, so its id is
        obtain ⟨k, hmem, hcontains, hwithin⟩ := hfound e.2 href
        obtain rfl := hinv.key_unique hmem he
        have hwhere : stmt.type.HasWhere := .inl hrange.type
        exact (matchIdRange_iff_of_contains (parse_boundsFit hparse hwhere) (hinv.key_lt he)
          hcontains).mpr (hcare stmt _ e.2 hparse (hinv.refOf_iff.mpr he) hcontains hwithin)
  | @fetch i stmt hdr refs res st' hclient hrun =>
    have hc := hclients i
    rw [hclient] at hc
    obtain ⟨hhdr, hplaces, hmatch⟩ := hc
    obtain ⟨hsame, hres⟩ := hinv.printRange_inRange hhdr hplaces hmatch hrun
    exact RangeSys.Inv.update hinv hclients hsame hres

theorem RangeSys.Inv.run (h : s.Inv) (hrun : s.CarefulReach s') : s'.Inv := by
  induction hrun with
  | refl => exact h
  | tail _ hstep ih =>
    obtain ⟨a, hstep, hcare⟩ := hstep
    exact ih.step hstep hcare

/-- **A range SELECT prints no row outside its range**, whatever runs between its phases, as long as
no INSERT puts a row outside the range where one of the range was, and no bound has another sign
than an id that the index takes in and the LIMIT lets through. -/
theorem rangeSelect_inRange (hps : IsPageSize pageSize) (h : DbReach pageSize st)
    (hrun : RangeSys.CarefulReach (RangeSys.init st) s) {i : Nat}
    (hclient : s.clients i = .returned stmt res) : res.InRange stmt := by
  obtain ⟨entries, chain, hinv, -⟩ := h.inv hps
  have hstart : (RangeSys.init st).Inv := ⟨entries, chain, hinv, fun _ => trivial⟩
  obtain ⟨entries', chain', -, hclients⟩ := hstart.run hrun
  have hc := hclients i
  rw [hclient] at hc
  exact hc

end Phases

/-! ## Two runs -/

/-- The system with one client. -/
def RangeSys.single (st : Pager) (c : RangeClient) : RangeSys :=
  ⟨st, Function.update (fun _ => .idle) 0 c⟩

section Single

variable {st st' : Pager} {env : ExecEnv} {stmt : Statement} {res : ExecResult} {sql : CString}
  {hdr : DbHeader} {refs : List RowRef} {c : RangeClient}

theorem RangeSys.single_self (st : Pager) (c : RangeClient) : (RangeSys.single st c).clients 0 = c :=
  rfl

/-- Nobody else selects. -/
theorem RangeSys.single_collected {i : Nat}
    (h : (RangeSys.single st c).clients i = .collected stmt hdr refs) :
    c = .collected stmt hdr refs := by
  by_cases hi : i = 0
  · subst hi
    exact h
  · change Function.update (fun _ => RangeClient.idle) 0 c i = _ at h
    rw [Function.update_of_ne hi] at h
    cases h

theorem RangeSys.single_collect {found : Except ExecResult (List RowRef)}
    (hparse : parse sql = .ok stmt) (hrange : stmt.SelectsRange)
    (hrun : (collectRange env stmt).run st = some (found, st')) :
    (RangeSys.init st).Step (.collect 0 env sql) (.single st' (.behind stmt st.header found)) := by
  apply RangeSys.Step.collect hparse hrange _ hrun
  intro stmt hdr refs hclient
  cases hclient

theorem RangeSys.single_change (hparse : parse sql = .ok stmt) (htype : stmt.type.ChangesRows)
    (hrun : (dbExecute env sql).run st = some (res, st')) :
    (RangeSys.single st c).Step (.change env sql res) (.single st' c) :=
  .change hparse htype hrun

theorem RangeSys.single_fetch (hrun : (printRange hdr refs).run st = some (res, st')) :
    (RangeSys.single st (.collected stmt hdr refs)).Step (.fetch 0)
      (.single st' (.returned stmt res)) := by
  have hstep := RangeSys.Step.fetch (RangeSys.single_self st (.collected stmt hdr refs)) hrun
  rw [RangeSys.single, Function.update_idem] at hstep
  exact hstep

end Single

/-- `SELECT * FROM t WHERE id BETWEEN 1 AND 1`. -/
def selectFirst : Statement :=
  Statement.between { type := .select, tableName := cstr "t", selectAll := true } 1 1

/-- `DELETE FROM t WHERE id = 1`. -/
def deleteFirst : Statement :=
  { type := .delete, tableName := cstr "t", predField := cstr "id", predOp := .eq
    predValue := cstr "1", predicateKind := .idEq, predId := 1 }

/-- `INSERT INTO t VALUES (9)`. -/
def insertNine : Statement := { type := .insert, tableName := cstr "t", insertValues := [cstr "9"] }

theorem parse_selectFirst :
    parse (cstr "SELECT * FROM t WHERE id BETWEEN 1 AND 1") = .ok selectFirst := by
  decide +kernel

theorem parse_deleteFirst : parse (cstr "DELETE FROM t WHERE id = 1") = .ok deleteFirst := by
  decide +kernel

theorem parse_insertNine : parse (cstr "INSERT INTO t VALUES (9)") = .ok insertNine := by
  decide +kernel

theorem selectFirst_selectsRange : selectFirst.SelectsRange := ⟨rfl, rfl, rfl, rfl⟩

/-- The table with one row, behind the first phase of the SELECT. -/
def collectedTable : Pager :=
  (((collectRange grantingEnv selectFirst).run oneRowTable).map Prod.snd).getD oneRowTable

/-- The table with a second row, inserted between the phases. -/
def insertedTable : Pager :=
  (((dbRun grantingEnv insertNine).run collectedTable).map Prod.snd).getD collectedTable

/-- The table without its row, deleted between the phases. -/
def deletedTable : Pager :=
  (((dbRun grantingEnv deleteFirst).run collectedTable).map Prod.snd).getD collectedTable

/-- The table with another row in the slot of the deleted one. -/
def reusedTable : Pager :=
  (((dbRun grantingEnv insertNine).run deletedTable).map Prod.snd).getD deletedTable

/-- The first phase finds the row in the first slot. -/
theorem step_collectedTable :
    (RangeSys.init oneRowTable).Step
      (.collect 0 grantingEnv (cstr "SELECT * FROM t WHERE id BETWEEN 1 AND 1"))
      (.single collectedTable (.collected selectFirst oneRowTable.header [⟨1, 0⟩])) := by
  have hres : ((collectRange grantingEnv selectFirst).run oneRowTable).map Prod.fst =
      some (.ok [⟨1, 0⟩]) := by
    decide +kernel
  have hrun : (collectRange grantingEnv selectFirst).run oneRowTable =
      some (.ok [⟨1, 0⟩], collectedTable) := run_of_result hres
  exact RangeSys.single_collect parse_selectFirst selectFirst_selectsRange hrun

/-- A row inserted between the phases does not disturb the SELECT. -/
theorem rangeSelect_inRange_insert :
    ∃ s res, (RangeSys.init oneRowTable).CarefulReach s ∧
      s.clients 0 = .returned selectFirst res ∧ res.InRange selectFirst := by
  have hinsert : ((dbRun grantingEnv insertNine).run collectedTable).map Prod.fst =
      some (.done (.inserted 2)) := by
    decide +kernel
  have hprint : ((printRange oneRowTable.header [⟨1, 0⟩]).run insertedTable).map Prod.fst =
      some (.printed (.selected 1 .indexRange) (.rows oneRowTable.header.columns
        [[.bigint 1, .int 7]])) := by
    decide +kernel
  have hplace : ((bptreeSearch 2).run insertedTable).map Prod.fst = some (some ⟨1, 1⟩) := by
    decide +kernel
  have hchange : (dbExecute grantingEnv (cstr "INSERT INTO t VALUES (9)")).run collectedTable =
      some (.done (.inserted 2), insertedTable) := by
    rw [dbExecute_of_parse parse_insertNine]
    exact run_of_result hinsert
  have hcollect := step_collectedTable
  generalize insertedTable = st₂ at hprint hplace hchange
  generalize collectedTable = st₁ at hcollect hchange
  obtain ⟨⟨res, st₃⟩, hfetch, -⟩ := Option.map_eq_some_iff.mp hprint
  have hrun : (RangeSys.init oneRowTable).CarefulReach
      (.single st₃ (.returned selectFirst res)) := by
    refine ((Relation.ReflTransGen.single ⟨_, hcollect, ?_⟩).tail
      ⟨_, RangeSys.single_change parse_insertNine (.inl rfl) hchange, ?_⟩).tail
        ⟨_, RangeSys.single_fetch hfetch, trivial⟩
    · -- the one id in the range is positive, as the bounds are
      intro stmt id ref hparse _ hcontains _
      obtain rfl : selectFirst = stmt := Except.ok.inj (parse_selectFirst.symm.trans hparse)
      obtain rfl : id = 1 := le_antisymm (hcontains.2 rfl) (hcontains.1 rfl)
      decide
    · -- the new row is in the second slot
      intro id ref hid hof i stmt hdr refs hclient href
      obtain rfl : 2 = id := ExecMessage.inserted.inj hid
      obtain ⟨st', hsearch⟩ := hof
      have hfound := congrArg (Option.map Prod.fst) hsearch
      obtain rfl : (⟨1, 1⟩ : RowRef) = ref :=
        Option.some.inj (Option.some.inj (hplace.symm.trans hfound))
      cases RangeSys.single_collected hclient
      exact absurd href (by decide)
  have hclient := RangeSys.single_self st₃ (.returned selectFirst res)
  exact ⟨_, res, hrun, hclient,
    rangeSelect_inRange ⟨12, le_refl _, rfl⟩ dbReach_oneRowTable hrun hclient⟩

/-- The row with id 1 is deleted between the phases, and its slot goes to the row with id 2. -/
theorem not_rangeSelect_inRange :
    ∃ s res, DbReach 4096 oneRowTable ∧ (RangeSys.init oneRowTable).Reach s ∧
      s.clients 0 = .returned selectFirst res ∧ ¬ res.InRange selectFirst := by
  have hdelete : ((dbRun grantingEnv deleteFirst).run collectedTable).map Prod.fst =
      some (.done (.deleted 1)) := by
    decide +kernel
  have hinsert : ((dbRun grantingEnv insertNine).run deletedTable).map Prod.fst =
      some (.done (.inserted 2)) := by
    decide +kernel
  have hprint : ((printRange oneRowTable.header [⟨1, 0⟩]).run reusedTable).map Prod.fst =
      some (.printed (.selected 1 .indexRange) (.rows oneRowTable.header.columns
        [[.bigint 2, .int 9]])) := by
    decide +kernel
  have hgone : (dbExecute grantingEnv (cstr "DELETE FROM t WHERE id = 1")).run collectedTable =
      some (.done (.deleted 1), deletedTable) := by
    rw [dbExecute_of_parse parse_deleteFirst]
    exact run_of_result hdelete
  have hreused : (dbExecute grantingEnv (cstr "INSERT INTO t VALUES (9)")).run deletedTable =
      some (.done (.inserted 2), reusedTable) := by
    rw [dbExecute_of_parse parse_insertNine]
    exact run_of_result hinsert
  have hcollect := step_collectedTable
  generalize reusedTable = st₃ at hprint hreused
  generalize deletedTable = st₂ at hgone hreused
  generalize collectedTable = st₁ at hcollect hgone
  obtain ⟨⟨res, st₄⟩, hfetch, hres⟩ := Option.map_eq_some_iff.mp hprint
  have hrun : (RangeSys.init oneRowTable).Reach (.single st₄ (.returned selectFirst res)) :=
    (((Relation.ReflTransGen.single ⟨_, hcollect⟩).tail
      ⟨_, RangeSys.single_change parse_deleteFirst (.inr (.inl rfl)) hgone⟩).tail
        ⟨_, RangeSys.single_change parse_insertNine (.inl rfl) hreused⟩).tail
          ⟨_, RangeSys.single_fetch hfetch⟩
  refine ⟨_, res, dbReach_oneRowTable, hrun, rfl, fun h => ?_⟩
  obtain rfl : res = _ := hres
  exact absurd (h _ _ rfl _ List.mem_cons_self) (by decide)

end MiniDb
