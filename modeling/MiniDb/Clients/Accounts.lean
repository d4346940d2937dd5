import MiniDb.Clients.Serial

/-! # What calls report is what they have done

The pieces of the calls do not overlap. The log is read thread by thread: the calls that have
returned, each with its changes and its result. A call that reports a row inserted, deleted or
updated has made this one change; a scan that reports so many rows has changed as many, in ascending
order of their ids; a call that fails or that reads has changed nothing. -/

set_option autoImplicit false

namespace MiniDb

open Lib

/-! ## The calls of a thread -/

/-- The calls that have returned, and the changes of the one that is running. -/
structure CallLog where
  ended : List (List RowChange × ExecResult)
  running : List RowChange

/-- Behind a further event. -/
def CallLog.add (l : CallLog) : ClientEvent → CallLog
  | .change c => { l with running := l.running ++ [c] }
  | .ret res => { ended := l.ended ++ [(l.running, res)], running := [] }

/-- The calls of a thread in a log. -/
def callsOf {τ : Type} [DecidableEq τ] (t : τ) (log : List (τ × ClientEvent)) : CallLog :=
  log.foldl (fun l e => if e.1 = t then l.add e.2 else l) { ended := [], running := [] }

/-- **The result accounts for the changes.** -/
def ExecResult.Accounts (res : ExecResult) (changes : List RowChange) : Prop :=
  match res.message with
  | .inserted id => ∃ row, changes = [.inserted id row]
  | .deleted id => changes = [.deleted id]
  | .updated id => ∃ stmt colIdx, changes = [.assigned id stmt colIdx]
  | .deletedScan count =>
    ∃ ids : List Nat, ids.Pairwise (· < ·) ∧ ids.length = count ∧ changes = ids.map .deleted
  | .updatedScan count =>
    ∃ (ids : List Nat) (stmt : Statement) (colIdx : Nat), ids.Pairwise (· < ·) ∧
      ids.length = count ∧ changes = ids.map (.assigned · stmt colIdx)
  | _ => changes = []

/-! ## Inside a call -/

/-- The change of a scan at a row. -/
def ScanJob.rowChange (id : Nat) : ScanJob → RowChange
  | .delete _ => .deleted id
  | .update stmt colIdx => .assigned id stmt colIdx

/-- A scan that has changed `count` rows and still has these ids to go through. -/
def ScanJob.Wrote (job : ScanJob) (ids : List Nat) (count : Nat) (changes : List RowChange) : Prop :=
  ∃ past : List Nat, (past ++ ids).Pairwise (· < ·) ∧ past.length = count ∧
    changes = past.map (job.rowChange ·)

/-- What the running call has changed so far. -/
def Client.Wrote : Client → List RowChange → Prop
  | .insertTree id _, changes | .insertCount id, changes => ∃ row, changes = [.inserted id row]
  | .deleteTree id _, changes | .deleteCount id, changes => changes = [.deleted id]
  | .scanLocking _ ids _ _, changes => ids.Pairwise (· < ·) ∧ changes = []
  | .scanSearch job id ids count, changes | .scanFetch job id _ ids count, changes =>
    job.Wrote (id :: ids) count changes
  | .scanDeleteHeap stmt id _ ids count, changes =>
    (ScanJob.delete stmt).Wrote (id :: ids) count changes
  | .scanWrite stmt colIdx id _ _ ids count, changes =>
    (ScanJob.update stmt colIdx).Wrote (id :: ids) count changes
  | .scanDeleteTree stmt _ _ ids count, changes | .scanDeleteCount stmt _ ids count, changes =>
    (ScanJob.delete stmt).Wrote ids (count + 1) changes
  | .unlocking _ res, changes | .releasing res, changes | .returned res, changes =>
    res.Accounts changes
  | _, changes => changes = []

section Client

variable {env : ExecEnv} {c c' : Client} {st st' : Pager} {m : Placement}
  {entries : List (Nat × RowRef)} {chain : HeapChain} {stmt : Statement} {job : ScanJob}
  {id count : Nat} {ids rest : List Nat} {changes : List RowChange}

theorem ScanJob.Wrote.skip (h : job.Wrote (id :: ids) count changes) : job.Wrote ids count changes := by
  obtain ⟨past, hsorted, hlen, rfl⟩ := h
  exact ⟨past, hsorted.sublist ((List.sublist_cons_self id ids).append_left past), hlen, rfl⟩

theorem ScanJob.Wrote.write (h : job.Wrote (id :: ids) count changes) :
    job.Wrote ids (count + 1) (changes ++ [job.rowChange id]) := by
  obtain ⟨past, hsorted, rfl, rfl⟩ := h
  refine ⟨past ++ [id], ?_, List.length_append, ?_⟩
  · rw [List.append_assoc]
    exact hsorted
  · rw [List.map_append]
    rfl

/-- The second pass goes on, or it is over and reports its count. -/
theorem ScanJob.Wrote.next (h : job.Wrote ids count changes) :
    (Client.nextRow job count ids).Wrote changes := by
  cases ids with
  | cons id ids => exact h
  | nil =>
    obtain ⟨past, hsorted, hlen, hchanges⟩ := h
    rw [List.append_nil] at hsorted
    cases job with
    | delete stmt => exact ⟨past, hsorted, hlen, hchanges⟩
    | update stmt colIdx => exact ⟨past, stmt, colIdx, hsorted, hlen, hchanges⟩

theorem wrote_lockNext (h : ids.Pairwise (· < ·)) : (Client.lockNext job ids rest).Wrote [] := by
  cases rest with
  | cons id rest => exact ⟨h, rfl⟩
  | nil =>
    have hstart : job.Wrote ids 0 [] := ⟨[], h, rfl, rfl⟩
    cases ids with
    | cons id ids => exact hstart
    | nil => exact hstart.next

theorem wrote_endCollecting (ids : Collector Nat) : (endCollecting job ids).Wrote [] := by
  unfold endCollecting
  split
  · cases job <;> rfl
  · exact wrote_lockNext (pairwise_sortIds _)

/-! ## Statements that only read -/

theorem accounts_execIndexLookup : Returns (·.Accounts []) (execIndexLookup stmt) := by
  refine returns_bind fun st => returns_bind fun ref => ?_
  split
  · refine returns_bind fun row => ?_
    split
    · exact returns_bind fun values => returns_bind fun _ => returns_pure rfl
    · exact returns_pure rfl
  · exact returns_pure rfl

theorem accounts_execIndexRangeScan : Returns (·.Accounts []) (execIndexRangeScan env stmt) := by
  refine returns_bind fun st => returns_ite (fun _ => returns_pure rfl) fun _ => ?_
  refine returns_bind fun found => returns_bind fun rc => ?_
  refine returns_ite (fun _ => returns_pure rfl) fun _ => ?_
  exact returns_bind fun rows => returns_pure rfl

theorem accounts_printOrdered (hdr : DbHeader) (cmp : RowValues → RowValues → Option Int)
    (rows : List RowValues) : Returns (·.Accounts []) (printOrdered hdr cmp stmt rows) := by
  unfold printOrdered
  dsimp only
  exact returns_ite (fun _ => returns_bind fun _ => returns_pure rfl) fun _ =>
    returns_bind fun _ => returns_pure rfl

theorem accounts_execOrderedScan : Returns (·.Accounts []) (execOrderedScan env stmt) := by
  refine returns_bind fun st => ?_
  dsimp only
  split
  · exact returns_pure rfl
  · refine returns_ite (fun _ => ?_) fun _ => ?_
    · refine returns_ite (fun _ => returns_pure rfl) fun _ => ?_
      exact returns_bind fun rows => accounts_printOrdered _ _ _
    · refine returns_ite (fun _ => returns_pure rfl) fun _ => returns_bind fun rc => ?_
      exact returns_ite (fun _ => returns_pure rfl) fun _ => accounts_printOrdered _ _ _

theorem accounts_execTableScan : Returns (·.Accounts []) (execTableScan env stmt) := by
  refine returns_bind fun st => returns_ite (fun _ => ?_) fun _ => ?_
  · refine returns_ite (fun _ => returns_pure rfl) fun _ => ?_
    exact returns_bind fun count => returns_pure rfl
  · refine returns_ite (fun _ => returns_pure rfl) fun _ => ?_
    refine returns_ite (fun _ => accounts_execOrderedScan) fun _ => ?_
    exact returns_bind fun rows => returns_pure rfl

/-- A statement that is executed in one piece changes nothing and says so. -/
theorem accounts_execute_whole (hplain : isDdl stmt.type = false) (hwhole : stmt.Whole) :
    Returns (·.Accounts []) (execute env stmt) := by
  obtain h | h | h | h := execute_whole env hplain hwhole <;> rw [h]
  · exact returns_pure rfl
  · exact accounts_execIndexLookup
  · exact accounts_execIndexRangeScan
  · exact accounts_execTableScan

theorem accounts_validateUpdateTarget {hdr : DbHeader} {message : ExecMessage}
    (h : validateUpdateTarget hdr stmt = .error message) :
    (ExecResult.failed message).Accounts [] := by
  unfold validateUpdateTarget at h
  split at h
  · cases h
    rfl
  · split at h
    · cases h
      rfl
    · cases h

/-! ## Steps -/

/-- A piece of code adds its change to those of the call. -/
theorem ActStep.wrote (h : ActStep env st c c' st') (hplain : c.Plain)
    (hstore : RowStore st m entries chain) (hknows : c.Knows st.header m) (hw : c.Wrote changes) :
    c'.Wrote (changes ++ (c.change st.header).toList) := by
  have hsame : ∀ {c : Client}, c.Wrote changes → c.Wrote (changes ++ []) := by
    intro c h
    rwa [List.append_nil]
  cases h with
  | whole path run =>
    obtain rfl : changes = [] := hw
    exact accounts_execute_whole hplain path _ _ _ run
  | updateInvalid target =>
    obtain rfl : changes = [] := hw
    exact accounts_validateUpdateTarget target
  | insertNoTable | insertId | deleteMiss | deleteFound | updateMiss | updateFound | scanDelete
  | scanUpdate | updateUnreadable | updateFetch =>
    obtain rfl : changes = [] := hw
    rfl
  | @insertHeap stmt id row ref st' row_eq run =>
    obtain rfl : changes = [] := hw
    refine ⟨row, ?_⟩
    show [] ++ ((rowSerialize _ _).map (RowChange.inserted id)).toList = _
    rw [row_eq]
    rfl
  | insertDup dup run =>
    -- a new id is not in the index
    obtain ⟨hnone, row, hrow⟩ := hknows
    exact absurd (hstore.insertKey hnone hrow run).1 dup
  | insertTree run => exact hsame hw
  | insertCount run => exact hsame hw
  | deleteHeap run =>
    obtain rfl : changes = [] := hw
    rfl
  | deleteTree run => exact hsame hw
  | deleteCount run => exact hsame hw
  | @updateWrite stmt colIdx ref values st' run =>
    obtain rfl : changes = [] := hw
    exact ⟨stmt, colIdx, rfl⟩
  | collected =>
    obtain rfl : changes = [] := hw
    exact wrote_endCollecting _
  | @collecting job pid ids ids' more next st' page run =>
    obtain rfl : changes = [] := hw
    cases more with
    | false => exact wrote_endCollecting _
    | true => rfl
  | scanMiss run => exact hsame hw.skip.next
  | scanFound run => exact hsame hw
  | scanUnreadable run => exact hsame hw.skip.next
  | @scanFetch job id ref ids count row values st' run values_eq =>
    apply hsame
    split
    · cases job <;> exact hw
    · exact hw.skip.next
  | @scanDeleteHeap stmt id ref ids count rc st' run =>
    -- the row is there, so it is deleted
    obtain ⟨htree, row, hrow⟩ := hknows
    obtain ⟨rfl, -⟩ := hstore.deleteRow hrow run
    exact hw.write
  | @scanDeleteTree stmt id ref ids count rc st' run =>
    obtain ⟨rfl, -⟩ := hstore.deleteKey hknows.1 run
    exact hsame hw
  | scanDeleteCount run => exact hsame hw.next
  | scanWrite run => exact hw.write.next
  | unlocking => exact hsame hw

end Client

section Calls

variable {τ L : Type} [DecidableEq τ] {s s' : DbSys τ L} {t u : τ} {c : Client}

/-- **Every call accounts for its changes**, those that have returned and those that are running. -/
structure CallsAccount (s : DbSys τ L) : Prop where
  ended : ∀ t, ∀ call ∈ (callsOf t s.log).ended, call.2.Accounts call.1
  running : ∀ t, ¬ (s.clients t).Quiet → (s.clients t).Wrote (callsOf t s.log).running
  quiet : ∀ t, (s.clients t).Quiet → (callsOf t s.log).running = []

theorem callsOf_append (log log' : List (τ × ClientEvent)) : callsOf t (log ++ log') =
    log'.foldl (fun l e => if e.1 = t then l.add e.2 else l) (callsOf t log) :=
  List.foldl_append

/-- The other threads' calls stay as they are. -/
theorem callsOf_goto_of_ne (hu : u ≠ t) : callsOf u (s.goto t c).log = callsOf u s.log := by
  show callsOf u (s.log ++ _ ++ _) = _
  rw [callsOf_append, callsOf_append]
  cases (s.clients t).change s.pager.header <;> cases c.report <;> simp [hu.symm]

theorem callsOf_goto_self : callsOf t (s.goto t c).log =
    let l := callsOf t s.log
    let changes := l.running ++ ((s.clients t).change s.pager.header).toList
    match c.report with
    | none => { l with running := changes }
    | some res => { ended := l.ended ++ [(changes, res)], running := [] } := by
  show callsOf t (s.log ++ _ ++ _) = _
  rw [callsOf_append, callsOf_append]
  cases (s.clients t).change s.pager.header <;> cases c.report <;> simp [CallLog.add]

theorem Client.Quiet.report_cases (h : c.Quiet) :
    c = .idle ∨ ∃ res, c = .returned res := by
  cases c with
  | idle => exact .inl rfl
  | returned res => exact .inr ⟨res, rfl⟩
  | _ => exact h.elim

/-- A thread goes on. -/
theorem CallsAccount.goto (h : CallsAccount s) (hclients : s'.clients = Function.update s.clients t c)
    (hlog : s'.log = (s.goto t c).log) (hidle : c ≠ .idle)
    (hwrote : c.Wrote ((callsOf t s.log).running ++
      ((s.clients t).change s.pager.header).toList)) : CallsAccount s' := by
  have hself : s'.clients t = c := by rw [hclients, Function.update_self]
  have hother : ∀ u, u ≠ t → s'.clients u = s.clients u ∧ callsOf u s'.log = callsOf u s.log :=
    fun u hu => ⟨by rw [hclients, Function.update_of_ne hu], by rw [hlog, callsOf_goto_of_ne hu]⟩
  have hcalls := congrArg (callsOf t) hlog
  rw [callsOf_goto_self] at hcalls
  dsimp only at hcalls
  by_cases hquiet : c.Quiet
  · obtain ⟨res, rfl⟩ := hquiet.report_cases.resolve_left hidle
    refine ⟨fun u => ?_, fun u => ?_, fun u => ?_⟩ <;> by_cases hu : u = t
    · rw [hu, hcalls]
      intro call hcall
      rcases List.mem_append.mp hcall with hold | hnew
      · exact h.ended t call hold
      · rw [List.mem_singleton.mp hnew]
        exact hwrote
    · rw [(hother u hu).2]
      exact h.ended u
    · rw [hu, hself]
      exact fun hrunning => absurd hquiet hrunning
    · rw [(hother u hu).1, (hother u hu).2]
      exact h.running u
    · rw [hu, hcalls]
      exact fun _ => rfl
    · rw [(hother u hu).1, (hother u hu).2]
      exact h.quiet u
  · have hreport : c.report = none := by
      cases c with
      | returned res => exact absurd trivial hquiet
      | _ => rfl
    rw [hreport] at hcalls
    refine ⟨fun u => ?_, fun u => ?_, fun u => ?_⟩ <;> by_cases hu : u = t
    · rw [hu, hcalls]
      exact h.ended t
    · rw [(hother u hu).2]
      exact h.ended u
    · rw [hu, hself, hcalls]
      exact fun _ => hwrote
    · rw [(hother u hu).1, (hother u hu).2]
      exact h.running u
    · rw [hu, hself]
      exact fun hc => absurd hc hquiet
    · rw [(hother u hu).1, (hother u hu).2]
      exact h.quiet u

end Calls

section Runs

variable {τ : Type} [DecidableEq τ] {I : LockImpl τ} {hdr₀ : DbHeader} {rows₀ : RowBytes}
  {m : Placement} {entries : List (Nat × RowRef)} {chain : HeapChain} {t : τ}

theorem wrote_start {sql : CString} {c : Client} (h : Client.start sql = some c) :
    c ≠ .idle ∧ c.Wrote [] := by
  rw [Client.start] at h
  split at h
  · split at h <;>
    · obtain rfl := Option.some.inj h
      refine ⟨?_, rfl⟩
      intro hidle
      cases hidle
  · obtain rfl := Option.some.inj h
    refine ⟨?_, rfl⟩
    intro hidle
    cases hidle
  · cases h

theorem accounts_timeout (need : LockNeed) : (ExecResult.failed need.timeout).Accounts [] := by
  unfold LockNeed.timeout
  split <;> rfl

/-- A call into the lock table changes nothing. -/
theorem wrote_of_instr {env : ExecEnv} {c : Client} {req : LockRequest} {mode : LockMode}
    {next : Bool → Client} {changes : List RowChange} (h : c.instr env = .lock req mode next)
    (hw : c.Wrote changes) (ok : Bool) : next ok ≠ .idle ∧ (next ok).Wrote changes := by
  cases c with
  | locking stmt need =>
    cases h
    obtain rfl : changes = [] := hw
    cases ok
    · exact ⟨nofun, accounts_timeout need⟩
    · exact ⟨nofun, rfl⟩
  | insertLocking stmt id =>
    cases h
    obtain rfl : changes = [] := hw
    cases ok <;> exact ⟨nofun, rfl⟩
  | scanLocking job ids id rest =>
    cases h
    obtain ⟨hsorted, rfl⟩ := hw
    cases ok
    · exact ⟨nofun, rfl⟩
    · refine ⟨?_, wrote_lockNext hsorted⟩
      show Client.lockNext job ids rest ≠ .idle
      unfold Client.lockNext
      split
      · nofun
      · split <;> nofun
  | _ => cases h

theorem ActStep.ne_idle {env : ExecEnv} {st st' : Pager} {c c' : Client}
    (h : ActStep env st c c' st') : c' ≠ .idle := by
  have hnext : ∀ job count ids, Client.nextRow job count ids ≠ .idle := by
    intro job count ids
    cases ids <;> nofun
  have hend : ∀ job ids, endCollecting job ids ≠ .idle := by
    intro job ids
    unfold endCollecting
    split
    · nofun
    · unfold Client.lockNext
      split
      · nofun
      · split <;> nofun
  cases h with
  | collected => exact hend _ _
  | @collecting job pid ids ids' more next st' page run =>
    cases more
    · exact hend _ _
    · nofun
  | scanMiss | scanUnreadable | scanDeleteCount | scanWrite => exact hnext _ _ _
  | @scanFetch job id ref ids count row values st' run values_eq =>
    split
    · cases job <;> nofun
    · exact hnext _ _ _
  | scanDeleteHeap run =>
    split
    · nofun
    · exact hnext _ _ _
  | scanDeleteTree run =>
    split
    · nofun
    · exact hnext _ _ _
  | _ => nofun

/-- **Every step keeps the accounts.** -/
theorem CallsAccount.step {s s' : DbSys τ I.State} (ha : CallsAccount s)
    (h : Consistent hdr₀ rows₀ s m entries chain) (hplain : (s.clients t).Plain)
    (hstep : DbSys.Step I t s s') : CallsAccount s' := by
  have hrunning := ha.running t
  cases hstep with
  | start sql c quiet starts =>
    obtain ⟨hidle, hw⟩ := wrote_start starts
    refine ha.goto (t := t) (c := c) rfl rfl hidle ?_
    rw [ha.quiet t quiet, quiet.change_eq]
    exact hw
  | lock env instr a self asks enabled exec done =>
    rename_i req mode next r locks
    have hquiet : ¬ (s.clients t).Quiet := by
      intro hquiet
      obtain hc | ⟨res, hc⟩ := hquiet.report_cases <;> rw [hc] at instr <;> cases instr
    have hchange : (s.clients t).change s.pager.header = none := by
      cases hc : s.clients t with
      | locking | insertLocking | scanLocking => rfl
      | _ =>
        rw [hc] at instr
        cases instr
    obtain ⟨hidle, hw⟩ := wrote_of_instr instr (hrunning hquiet) (decide (r = .granted))
    refine ha.goto (t := t) (c := next (decide (r = .granted))) rfl rfl hidle ?_
    rw [hchange, Option.toList_none, List.append_nil]
    exact hw
  | wait env instr a self asks enabled exec => exact ⟨ha.ended, ha.running, ha.quiet⟩
  | enter env instr free =>
    rename_i ddl next
    cases hc : s.clients t with
    | entering stmt =>
      rw [hc] at instr hrunning
      cases instr
      refine ha.goto (t := t) (c := .executing stmt) rfl rfl nofun ?_
      rw [hc]
      exact (List.append_nil _).trans (hrunning id)
    | _ =>
      rw [hc] at instr
      cases instr
  | act env instr run =>
    rename_i mc c pager
    have hact := actStep_of_run instr run
    have hquiet : ¬ (s.clients t).Quiet := by
      intro hquiet
      obtain hc | ⟨res, hc⟩ := hquiet.report_cases <;> rw [hc] at instr <;> cases instr
    exact ha.goto rfl rfl hact.ne_idle
      (hact.wrote hplain h.store (h.clients t) (hrunning hquiet))
  | release env instr enabled exec =>
    rename_i next r locks
    cases hc : s.clients t with
    | releasing res =>
      rw [hc] at instr hrunning
      cases instr
      refine ha.goto (t := t) (c := .returned res) rfl rfl nofun ?_
      rw [hc]
      show res.Accounts (_ ++ [])
      rw [List.append_nil]
      exact hrunning id
    | _ =>
      rw [hc] at instr
      cases instr

/-- Every run keeps them. -/
theorem DbSys.DmlReach.accounts {s : DbSys τ (listLocks τ).State} {st : Pager}
    (h : RowStore st m entries chain) (hlinked : ∀ id, m.Linked id)
    (hcount : st.header.rowCount = entries.length)
    (hrun : DbSys.DmlReach (listLocks τ) (DbSys.init (listLocks τ) st) s) : CallsAccount s := by
  induction hrun with
  | refl =>
    exact ⟨fun t call hcall => absurd hcall List.not_mem_nil, fun t ht => absurd trivial ht,
      fun t _ => rfl⟩
  | tail hreach hstep ih =>
    obtain ⟨t, hstep, -⟩ := hstep
    obtain ⟨m', entries', chain', hcons⟩ := DbSys.DmlReach.consistent h hlinked hcount hreach
    exact ih.step hcons (DbSys.DmlReach.plain hreach t) hstep

/-- **What a call reports is what it has done.** Over any database, in every state that threads
reach by INSERT, DELETE, UPDATE and SELECT in any order of pieces that do not overlap: the result of
every call that has returned accounts for the changes that the call has made, and a thread that is
in no call has made no other changes. -/
theorem calls_account {s : DbSys τ (memLocks τ).State} {st : Pager} {pageSize : Nat}
    (hps : IsPageSize pageSize) (hdb : DbReach pageSize st)
    (hrun : DbSys.DmlReach (memLocks τ) (DbSys.init (memLocks τ) st) s) (t : τ) :
    (∀ call ∈ (callsOf t s.log).ended, call.2.Accounts call.1) ∧
      ((s.clients t).Quiet → (callsOf t s.log).running = []) := by
  obtain ⟨entries₀, chain₀, hinv, -⟩ := hdb.inv hps
  obtain ⟨m₀, hstore, hlinked⟩ := hinv.exists_rowStore
  obtain ⟨l, hreach, -⟩ := DbSys.DmlReach.exists_refines hrun
  have hacc := DbSys.DmlReach.accounts hstore hlinked hinv.rowCount hreach
  exact ⟨hacc.ended t, hacc.quiet t⟩

theorem calls_account_insertedByTwo :
    (∀ call ∈ (callsOf true insertedByTwo.log).ended, call.2.Accounts call.1) ∧
      ((insertedByTwo.clients true).Quiet → (callsOf true insertedByTwo.log).running = []) :=
  calls_account ⟨12, le_refl _, rfl⟩ dbReach_intTable reach_insertedByTwo true

end Runs

end MiniDb
