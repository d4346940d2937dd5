import MiniDb.Clients.Consistency
import MiniDb.Clients.Schedule
import MiniDb.Db.InStep

/-! # Concurrent statements, one after the other

Any number of threads run INSERT, DELETE, UPDATE and SELECT on one file, in pieces that do not
overlap. Whenever no call is running, heap, index and counters are in step; and the rows are those
that the changes of all calls make, executed one after the other in the order in which they were
written down. -/

set_option autoImplicit false

namespace MiniDb

open Lib

section Serial

variable {τ : Type} [DecidableEq τ] {st : Pager} {t : τ}

/-- A run over the memory is a run over the lists. -/
theorem DbSys.DmlReach.exists_refines {s : DbSys τ (memLocks τ).State}
    (h : DbSys.DmlReach (memLocks τ) (DbSys.init (memLocks τ) st) s) :
    ∃ l, DbSys.DmlReach (listLocks τ) (DbSys.init (listLocks τ) st) (s.withLocks l) ∧
      LockMem.Refines s.locks l := by
  induction h with
  | refl => exact ⟨lockTableInit τ, .refl, LockMem.refines_init⟩
  | tail _ hstep ih =>
    obtain ⟨l, hreach, href⟩ := ih
    obtain ⟨t, hstep, hplain⟩ := hstep
    have hlocks := (DbSys.Reach.clientLocks (DbSys.DmlReach.reach hreach)).table
    obtain ⟨l', hstep', href'⟩ := hstep.refines href hlocks
    exact ⟨l', hreach.tail ⟨t, hstep', hplain⟩, href'⟩

/-! ## The log is a legal sequence of changes -/

/-- The change finds what it needs: an INSERT an id without a row, an UPDATE or a DELETE the row. -/
def RowChange.Legal (hdr : DbHeader) (rows : RowBytes) : RowChange → Prop
  | .inserted id _ => rows id = none
  | .assigned id stmt colIdx => ∃ row row', rows id = some row ∧
      assignRow hdr stmt colIdx row = some row'
  | .deleted id => rows id ≠ none

/-- Every change does, one after the other. -/
def LegalChanges (hdr : DbHeader) : RowBytes → List RowChange → Prop
  | _, [] => True
  | rows, c :: changes => c.Legal hdr rows ∧ LegalChanges hdr (c.apply hdr rows) changes

theorem legalChanges_append {hdr : DbHeader} {rows : RowBytes} {changes changes' : List RowChange} :
    LegalChanges hdr rows (changes ++ changes') ↔
      LegalChanges hdr rows changes ∧ LegalChanges hdr (replay hdr rows changes) changes' := by
  induction changes generalizing rows with
  | nil => exact (true_and _).symm.to_iff
  | cons c changes ih =>
    show _ ∧ LegalChanges hdr _ (changes ++ changes') ↔ (_ ∧ _) ∧ _
    rw [ih, and_assoc]
    rfl

theorem assignRow_congr {hdr hdr' : DbHeader} {stmt : Statement} {colIdx : Nat}
    (h : SameSchema hdr hdr') (row : List UInt8) :
    assignRow hdr stmt colIdx row = assignRow hdr' stmt colIdx row := by
  rw [assignRow, assignRow, rowDeserialize_congr h]
  congr 1
  funext values
  rw [applyUpdateToRow_congr h]
  congr 1
  funext values
  exact rowSerialize_congr h values

theorem RowChange.Legal.congr {hdr hdr' : DbHeader} {rows : RowBytes} {c : RowChange}
    (h : SameSchema hdr hdr') (hc : c.Legal hdr rows) : c.Legal hdr' rows := by
  cases c with
  | inserted id row => exact hc
  | assigned id stmt colIdx =>
    obtain ⟨row, row', hrow, hassign⟩ := hc
    exact ⟨row, row', hrow, (assignRow_congr h row).symm.trans hassign⟩
  | deleted id => exact hc

/-- A row that has been read and is written back was there. -/
theorem Placement.Read.legal {m : Placement} {hdr : DbHeader} {id colIdx : Nat} {ref : RowRef}
    {values : RowValues} {stmt : Statement} {st' : Pager} (h : m.Read hdr id ref values)
    (hrun : (updateRow hdr stmt colIdx ref values).run st = some ((), st')) :
    (RowChange.assigned id stmt colIdx).Legal hdr m.bytes := by
  obtain ⟨htree, row, hrow, hvalues⟩ := h
  obtain ⟨values', st₁, hvals, hrest⟩ := run_bind_eq_some.mp hrun
  obtain ⟨happly, rfl⟩ := orUndefined_eq_some hvals
  obtain ⟨row', st₂, hbytes, hwrite⟩ := run_bind_eq_some.mp hrest
  obtain ⟨hserial, rfl⟩ := orUndefined_eq_some hbytes
  refine ⟨row, row', ?_, ?_⟩
  · rw [Placement.bytes, hrow]
    rfl
  · rw [assignRow, hvalues]
    show (applyUpdateToRow hdr values stmt colIdx).bind (rowSerialize hdr) = some row'
    rw [happly]
    exact hserial

/-- **The change of a piece of code is legal.** -/
theorem ActStep.legal {env : ExecEnv} {c c' : Client} {st' : Pager} {m : Placement} {e : RowChange}
    (h : ActStep env st c c' st') (hknows : c.Knows st.header m)
    (he : c.change st.header = some e) : e.Legal st.header m.bytes := by
  cases h with
  | @insertHeap stmt id row ref st' row_eq run =>
    obtain ⟨row, -, rfl⟩ := Option.map_eq_some_iff.mp he
    show m.bytes id = none
    rw [Placement.bytes, hknows.2.2.2]
    rfl
  | deleteHeap run | scanDeleteHeap run =>
    obtain rfl := Option.some.inj he
    obtain ⟨-, row, hrow⟩ := hknows
    show m.bytes _ ≠ none
    rw [Placement.bytes, hrow]
    exact Option.some_ne_none row
  | updateWrite run | scanWrite run =>
    obtain rfl := Option.some.inj he
    exact hknows.2.legal run
  | _ => cases he

/-- Only undivided pieces of code change rows. -/
theorem Client.change_of_instr (env : ExecEnv) {c : Client} {hdr : DbHeader}
    (h : ∀ m, c.instr env ≠ .act m) : c.change hdr = none := by
  cases c with
  | insertHeap | deleteHeap | scanDeleteHeap | updateWrite | scanWrite => exact absurd rfl (h _)
  | _ => rfl

/-- What a step adds to the changes in the log is legal there. -/
theorem Consistent.legal_step {I : LockImpl τ} {hdr₀ : DbHeader} {rows₀ : RowBytes}
    {s s' : DbSys τ I.State} {m : Placement} {entries : List (Nat × RowRef)} {chain : HeapChain}
    (h : Consistent hdr₀ rows₀ s m entries chain) (hstep : DbSys.Step I t s s') :
    ∃ changes, logChanges s'.log = logChanges s.log ++ changes ∧
      LegalChanges hdr₀ m.bytes changes := by
  have hnone : ∀ {c : Client}, (s.clients t).change s.pager.header = none →
      logChanges s'.log = logChanges (s.goto t c).log →
      ∃ changes, logChanges s'.log = logChanges s.log ++ changes ∧
        LegalChanges hdr₀ m.bytes changes := by
    intro c hchange hlog
    refine ⟨[], ?_, trivial⟩
    rw [hlog, logChanges_goto, hchange]
    rfl
  cases hstep with
  | start sql c quiet starts => exact hnone (quiet.change_eq _) rfl
  | lock env instr a self asks enabled exec done =>
    refine hnone (Client.change_of_instr env fun m hm => ?_) rfl
    rw [hm] at instr
    cases instr
  | wait env instr a self asks enabled exec => exact ⟨[], (List.append_nil _).symm, trivial⟩
  | enter env instr free =>
    refine hnone (Client.change_of_instr env fun m hm => ?_) rfl
    rw [hm] at instr
    cases instr
  | act env instr run =>
    refine ⟨_, logChanges_goto s t _, ?_⟩
    cases hchange : (s.clients t).change s.pager.header with
    | none => exact trivial
    | some e =>
      have hlegal := (actStep_of_run instr run).legal (h.clients t) hchange
      exact ⟨hlegal.congr h.schema, trivial⟩
  | release env instr enabled exec =>
    refine hnone (Client.change_of_instr env fun m hm => ?_) rfl
    rw [hm] at instr
    cases instr

/-- In every run. -/
theorem DbSys.DmlReach.legal {s : DbSys τ (listLocks τ).State} {m : Placement}
    {entries : List (Nat × RowRef)} {chain : HeapChain} (h : RowStore st m entries chain)
    (hlinked : ∀ id, m.Linked id) (hcount : st.header.rowCount = entries.length)
    (hrun : DbSys.DmlReach (listLocks τ) (DbSys.init (listLocks τ) st) s) :
    LegalChanges st.header m.bytes (logChanges s.log) := by
  induction hrun with
  | refl => exact trivial
  | tail hreach hstep ih =>
    obtain ⟨t, hstep, -⟩ := hstep
    obtain ⟨m', entries', chain', hcons⟩ := DbSys.DmlReach.consistent h hlinked hcount hreach
    obtain ⟨changes, hlog, hlegal⟩ := hcons.legal_step hstep
    rw [hlog, legalChanges_append, ← hcons.replayed]
    exact ⟨ih, hlegal⟩

/-! ## Where no call is running -/

/-- What a point lookup reads: the index leads from the id to a place, the heap has the row there. -/
def Pager.ReadsRow (st : Pager) (id : Nat) (row : List UInt8) : Prop :=
  ∃ ref st₁ st₂, (bptreeSearch id).run st = some (some ref, st₁) ∧
    (heapFetch ref st₁.header.rowSize).run st₁ = some (some row, st₂)

theorem RowStore.readsRow_iff {m : Placement} {entries : List (Nat × RowRef)} {chain : HeapChain}
    (h : RowStore st m entries chain) {id : Nat} (hlinked : m.Linked id) (row : List UInt8) :
    st.ReadsRow id row ↔ m.bytes id = some row := by
  constructor
  · rintro ⟨ref, st₁, st₂, hsearch, hfetch⟩
    obtain ⟨hsame, htree⟩ := h.search hsearch
    rw [Placement.Linked, ← htree] at hlinked
    obtain ⟨⟨_, row'⟩, hrow, rfl⟩ := Option.map_eq_some_iff.mp hlinked.symm
    obtain ⟨-, hres⟩ := (h.sameData hsame).fetch hrow hfetch
    rw [Placement.bytes, hrow, Option.map_some, ← hres]
  · intro hbytes
    obtain ⟨⟨ref, _⟩, hrow, rfl⟩ := Option.map_eq_some_iff.mp hbytes
    obtain ⟨res, st₁, hsearch⟩ := h.stored.exists_search id
    obtain ⟨hsame, htree⟩ := h.search hsearch
    have hres : res = some ref := by
      rw [htree, hlinked, hrow]
      rfl
    subst hres
    have h₁ := h.sameData hsame
    obtain ⟨hph, sl, hslot, -⟩ := exists_isSlot (h₁.mem_heapRows hrow)
    obtain ⟨res, st₂, hfetch⟩ := h₁.stored.exists_fetchRow hslot.isPlace
    obtain ⟨-, rfl⟩ := h₁.fetch hrow hfetch
    exact ⟨ref, st₁, st₂, hsearch, hfetch⟩

/-- What is known where no call is running. -/
theorem DbSys.DmlReach.quiet {s : DbSys τ (memLocks τ).State} {pageSize : Nat}
    (hps : IsPageSize pageSize) (hdb : DbReach pageSize st)
    (hrun : DbSys.DmlReach (memLocks τ) (DbSys.init (memLocks τ) st) s)
    (hquiet : ∀ t, (s.clients t).Quiet) :
    ∃ m₀ entries₀ chain₀ m entries chain, RowStore st m₀ entries₀ chain₀ ∧ (∀ id, m₀.Linked id) ∧
      Consistent st.header m₀.bytes s m entries chain ∧
      LegalChanges st.header m₀.bytes (logChanges s.log) ∧ (∀ id, m.Linked id) ∧
      DbInv s.pager entries chain := by
  obtain ⟨entries₀, chain₀, hinv, -⟩ := hdb.inv hps
  obtain ⟨m₀, hstore, hlinked⟩ := hinv.exists_rowStore
  obtain ⟨l, hreach, -⟩ := DbSys.DmlReach.exists_refines hrun
  have hlegal := DbSys.DmlReach.legal hstore hlinked hinv.rowCount hreach
  obtain ⟨m, entries, chain, hcons⟩ :=
    DbSys.DmlReach.consistent hstore hlinked hinv.rowCount hreach
  have hlists : Consistent st.header m₀.bytes s m entries chain :=
    ⟨hcons.store, hcons.schema, hcons.started, hcons.count, hcons.clients, hcons.targets,
      hcons.linked, hcons.replayed, hcons.inserted, hcons.fresh⟩
  obtain ⟨hlinked', hcount⟩ := hlists.quiet hquiet
  exact ⟨m₀, entries₀, chain₀, m, entries, chain, hstore, hlinked, hlists, hlegal, hlinked',
    hlists.store.dbInv hlinked' hcount⟩

/-- **Concurrent statements keep the database consistent.** Over any database, in every state that
threads reach by INSERT, DELETE, UPDATE and SELECT in any order of pieces that do not overlap, and
in which no call is running: there is one index entry for each row, the row count is the number of
rows, and every id that an INSERT has given to a row is new and was given once. -/
theorem clients_inStep {s : DbSys τ (memLocks τ).State} {pageSize : Nat}
    (hps : IsPageSize pageSize) (hdb : DbReach pageSize st)
    (hrun : DbSys.DmlReach (memLocks τ) (DbSys.init (memLocks τ) st) s)
    (hquiet : ∀ t, (s.clients t).Quiet) :
    (∃ entries chain, DbInv s.pager entries chain) ∧
      (VarcharUsable st.header.columns → ∃ entries rows, InStep s.pager entries rows) ∧
      (insertedIds s.log).Nodup ∧
      ∀ id ∈ insertedIds s.log, st.header.nextId ≤ id ∧ id < s.pager.header.nextId := by
  obtain ⟨m₀, -, -, m, entries, chain, -, -, hcons, -, -, hinv⟩ :=
    DbSys.DmlReach.quiet hps hdb hrun hquiet
  refine ⟨⟨entries, chain, hinv⟩, fun hv => ?_, hcons.inserted⟩
  rw [← hcons.schema.columns] at hv
  exact ⟨entries, _, hinv.inStep hv⟩

/-- **No update is lost.** Over any database, in every state that threads reach by INSERT, DELETE,
UPDATE and SELECT in any order of pieces that do not overlap, and in which no call is running: the
changes in the log are legal one after the other, beginning with the rows that lookups read at the
start, and what a lookup reads at the end is what they make of these. -/
theorem clients_replay {s : DbSys τ (memLocks τ).State} {pageSize : Nat}
    (hps : IsPageSize pageSize) (hdb : DbReach pageSize st)
    (hrun : DbSys.DmlReach (memLocks τ) (DbSys.init (memLocks τ) st) s)
    (hquiet : ∀ t, (s.clients t).Quiet) :
    ∃ rows₀ : RowBytes, (∀ id row, st.ReadsRow id row ↔ rows₀ id = some row) ∧
      LegalChanges st.header rows₀ (logChanges s.log) ∧
      ∀ id row, s.pager.ReadsRow id row ↔
        replay st.header rows₀ (logChanges s.log) id = some row := by
  obtain ⟨m₀, _, _, m, _, _, hstore, hlinked₀, hcons, hlegal, hlinked, -⟩ :=
    DbSys.DmlReach.quiet hps hdb hrun hquiet
  refine ⟨m₀.bytes, fun id row => hstore.readsRow_iff (hlinked₀ id) row, hlegal, fun id row => ?_⟩
  rw [← hcons.replayed]
  exact hcons.store.readsRow_iff (hlinked id) row

end Serial

/-! ## Schedules without DDL -/

section Schedule

variable {τ : Type} [DecidableEq τ] [Fintype τ] {env : ExecEnv} {s s' : DbSys τ (LockMem τ)}
  {sql : CString}

/-- The turn is not the beginning of a CREATE TABLE or DROP TABLE. -/
def Turn.Plain : Turn τ → Prop
  | .call _ sql => ∀ stmt, parse sql = .ok stmt → isDdl stmt.type = false
  | .tick _ _ => True

omit [DecidableEq τ] [Fintype τ] in
theorem plain_start {c : Client} (h : Client.start sql = some c)
    (hplain : ∀ stmt, parse sql = .ok stmt → isDdl stmt.type = false) : c.Plain := by
  rw [Client.start] at h
  split at h
  · rename_i stmt hparse
    split at h
    · obtain rfl := Option.some.inj h
      exact hplain stmt hparse
    · obtain rfl := Option.some.inj h
      exact hplain stmt hparse
  · obtain rfl := Option.some.inj h
    trivial
  · cases h

/-- **A schedule without DDL leads to a state that threads reach which execute no DDL.** -/
theorem DbSys.schedule_dmlReach {turns : List (Turn τ)} (hplain : ∀ t, (s.clients t).Plain)
    (hturns : ∀ turn ∈ turns, turn.Plain) (h : s.schedule env turns = some s') :
    DbSys.DmlReach (memLocks τ) s s' := by
  induction turns generalizing s with
  | nil =>
    obtain rfl := Option.some.inj h
    exact .refl
  | cons turn turns ih =>
    obtain ⟨s₁, hturn, hrest⟩ := Option.bind_eq_some_iff.mp h
    have hstep : ∃ t, DbSys.Step (memLocks τ) t s s₁ ∧ (s₁.clients t).Plain := by
      cases turn with
      | call t sql =>
        obtain ⟨hstep, c, hstarts, hc⟩ := DbSys.call_step hturn
        exact ⟨t, hstep, hc ▸ plain_start hstarts (hturns _ List.mem_cons_self)⟩
      | tick t addr =>
        have hstep := DbSys.tick_step hturn
        refine ⟨t, hstep, hstep.plain (hplain t) fun hquiet => ?_⟩
        -- a thread that is in no call has nothing to execute
        exfalso
        change s.tick env t addr = some s₁ at hturn
        cases hc : s.clients t with
        | idle | returned res =>
          rw [DbSys.tick, hc] at hturn
          cases hturn
        | _ =>
          rw [hc] at hquiet
          exact hquiet
    obtain ⟨t, hstep, hc⟩ := hstep
    refine .head ⟨t, hstep, hc⟩ (ih ?_ (fun turn hmem => hturns turn (List.mem_cons_of_mem _ hmem))
      hrest)
    intro u
    by_cases hu : u = t
    · exact hu ▸ hc
    · rw [hstep.clients_of_ne hu]
      exact hplain u

theorem DbSys.dmlReach_behind {st : Pager} {turns : List (Turn τ)}
    (hturns : ∀ turn ∈ turns, turn.Plain)
    (h : (DbSys.schedule env (DbSys.init (memLocks τ) st) turns).isSome = true) :
    DbSys.DmlReach (memLocks τ) (DbSys.init (memLocks τ) st) (DbSys.behind env st turns) := by
  obtain ⟨s, hs⟩ := Option.isSome_iff_exists.mp h
  have hplain : ∀ t, ((DbSys.init (memLocks τ) st).clients t).Plain := fun _ => trivial
  rw [DbSys.behind, hs, Option.getD_some]
  exact DbSys.schedule_dmlReach hplain hturns hs

omit [DecidableEq τ] [Fintype τ] in
theorem Turn.plain_call {t : τ} {sql : CString} {stmt : Statement} (h : parse sql = .ok stmt)
    (hplain : isDdl stmt.type = false) : (Turn.call t sql).Plain := by
  intro stmt' h'
  rw [h] at h'
  cases h'
  exact hplain

end Schedule

/-! Two threads insert a row each; the one that has taken its id later comes to the heap first. -/

instance : DecidablePred Client.Quiet := fun c =>
  match c with
  | .idle | .returned _ => isTrue trivial
  | .locking .. | .entering .. | .executing .. | .insertLocking .. | .insertHeap ..
  | .insertTree .. | .insertCount .. | .deleteHeap .. | .deleteTree .. | .deleteCount ..
  | .updateFetch .. | .updateWrite .. | .collecting .. | .scanLocking .. | .scanSearch ..
  | .scanFetch .. | .scanDeleteHeap .. | .scanDeleteTree .. | .scanDeleteCount .. | .scanWrite ..
  | .unlocking .. | .releasing .. => isFalse id

/-- The turns of two INSERTs. -/
def twoInserts : List (Turn Bool) :=
  [.call false (cstr "INSERT INTO t VALUES (7)"), .call true (cstr "INSERT INTO t VALUES (9)"),
    .tick false 1, .tick true 1, .tick false 1, .tick true 1, .tick false 1, .tick true 2,
    .tick true 3, .tick false 3, .tick false 3, .tick true 3, .tick true 3, .tick false 3,
    .tick false 3, .tick true 3, .tick false 3, .tick true 3]

/-- The system behind them, over a new table. -/
def insertedByTwo : DbSys Bool (LockMem Bool) := DbSys.behind grantingEnv intTable twoInserts

theorem plain_twoInserts : ∀ turn ∈ twoInserts, turn.Plain := by
  have hseven : parse (cstr "INSERT INTO t VALUES (7)") =
      .ok { type := .insert, tableName := cstr "t", insertValues := [cstr "7"] } := by
    decide +kernel
  have hnine : parse (cstr "INSERT INTO t VALUES (9)") =
      .ok { type := .insert, tableName := cstr "t", insertValues := [cstr "9"] } := by
    decide +kernel
  simp only [twoInserts, List.forall_mem_cons, List.not_mem_nil, false_implies, implies_true,
    and_true]
  refine ⟨Turn.plain_call hseven rfl, Turn.plain_call hnine rfl, ?_⟩
  simp only [Turn.Plain, and_self]

theorem reach_insertedByTwo :
    DbSys.DmlReach (memLocks Bool) (DbSys.init (memLocks Bool) intTable) insertedByTwo :=
  DbSys.dmlReach_behind plain_twoInserts (by decide +kernel)

theorem quiet_insertedByTwo : ∀ t, (insertedByTwo.clients t).Quiet := by
  decide +kernel

theorem clients_inStep_insertedByTwo :
    (∃ entries chain, DbInv insertedByTwo.pager entries chain) ∧
      (VarcharUsable intTable.header.columns →
        ∃ entries rows, InStep insertedByTwo.pager entries rows) ∧
      (insertedIds insertedByTwo.log).Nodup ∧
      ∀ id ∈ insertedIds insertedByTwo.log,
        intTable.header.nextId ≤ id ∧ id < insertedByTwo.pager.header.nextId :=
  clients_inStep ⟨12, le_refl _, rfl⟩ dbReach_intTable reach_insertedByTwo quiet_insertedByTwo

theorem clients_replay_insertedByTwo :
    ∃ rows₀ : RowBytes, (∀ id row, intTable.ReadsRow id row ↔ rows₀ id = some row) ∧
      LegalChanges intTable.header rows₀ (logChanges insertedByTwo.log) ∧
      ∀ id row, insertedByTwo.pager.ReadsRow id row ↔
        replay intTable.header rows₀ (logChanges insertedByTwo.log) id = some row :=
  clients_replay ⟨12, le_refl _, rfl⟩ dbReach_intTable reach_insertedByTwo quiet_insertedByTwo

end MiniDb
