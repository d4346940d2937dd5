import MiniDb.Clients.Steps
import MiniDb.Db.LockCoverage
import MiniDb.Server.LockCalls
import MiniDb.Sql.Executor.Collect

/-! # What clients hold while they wait

A call of `db_execute` asks the lock table for a row before it executes, while it holds nothing; an
INSERT asks for the row of its new id, and still holds nothing; a scan asks for its rows one by one,
in ascending order. When the call has returned, nothing is left of its locks. -/

set_option autoImplicit false

namespace MiniDb

open Lib

/-- The call into the lock table that the thread is in. -/
def Client.call : Client → Option (LockRequest × LockMode)
  | .locking _ need => some (need.request, need.mode)
  | .insertLocking _ id => some (.point id, .x)
  | .scanLocking _ _ id _ => some (.point id, .x)
  | _ => none

/-- What is known of a statement and of the ids of a scan. -/
def Client.Sound : Client → Prop
  | .locking stmt need => (∃ sql, parse sql = .ok stmt) ∧ determineLock stmt = some need
  | .entering stmt | .executing stmt => ∃ sql, parse sql = .ok stmt
  | .scanLocking _ _ id rest => (id :: rest).Pairwise (· < ·)
  | _ => True

/-- The rows that the thread may have locked. -/
def Client.MayHold : Client → Nat → Prop
  | .idle, _ | .returned _, _ | .locking .., _ | .insertLocking .., _ | .collecting .., _ => False
  | .entering stmt, id | .executing stmt, id =>
    ∃ need, determineLock stmt = some need ∧ need.request.Covers id
  | .scanLocking _ _ next _, id => id < next
  | _, _ => True

/-- **What the lock table knows of the clients.** -/
structure ClientLocks {τ : Type} (s : DbSys τ (LockSys τ)) : Prop where
  table : LockInv s.locks
  waits : ∀ t w, s.locks.waiting t = some w → (s.clients t).call = some (w.req, w.mode)
  sound : ∀ t, (s.clients t).Sound
  holds : ∀ g ∈ s.locks.table.grants, ∀ id ∈ g.covers, (s.clients g.owner).MayHold id

section Client

variable {env : ExecEnv} {c c' : Client} {st st' : Pager} {req : LockRequest} {mode : LockMode}
  {next : Bool → Client} {stmt : Statement} {id : Nat}

theorem call_of_instr (h : c.instr env = .lock req mode next) : c.call = some (req, mode) := by
  cases c <;> cases h <;> rfl

theorem Client.Quiet.call_eq (h : c.Quiet) : c.call = none := by
  cases c <;> first | rfl | exact h.elim

theorem Client.Quiet.not_mayHold (h : c.Quiet) : ¬ c.MayHold id := by
  cases c <;> first | exact fun hid => hid | exact h.elim

theorem sound_nextRow (job : ScanJob) (count : Nat) (ids : List Nat) :
    (Client.nextRow job count ids).Sound := by
  cases ids <;> trivial

theorem mayHold_nextRow (job : ScanJob) (count : Nat) (ids : List Nat) :
    (Client.nextRow job count ids).MayHold id := by
  cases ids <;> trivial

theorem sound_lockNext (job : ScanJob) (ids : List Nat) {rest : List Nat}
    (h : rest.Pairwise (· < ·)) : (Client.lockNext job ids rest).Sound := by
  cases rest with
  | cons id rest => exact h
  | nil => cases ids <;> trivial

theorem mayHold_lockNext (job : ScanJob) (ids : List Nat) {rest : List Nat}
    (h : ∀ i ∈ rest, id < i) : (Client.lockNext job ids rest).MayHold id := by
  cases rest with
  | cons i rest => exact h i List.mem_cons_self
  | nil => cases ids <;> trivial

theorem sound_endCollecting (job : ScanJob) (ids : Collector Nat) :
    (endCollecting job ids).Sound := by
  unfold endCollecting
  split
  · trivial
  · exact sound_lockNext job _ (pairwise_sortIds _)

/-- A statement that scans or inserts has locked nothing. -/
theorem determineLock_eq_none (hparse : ∃ sql, parse sql = .ok stmt)
    (h : ¬ stmt.type.HasWhere ∨ stmt.predicateKind ≠ .idEq) : determineLock stmt = none := by
  obtain ⟨sql, hparse⟩ := hparse
  cases hneed : determineLock stmt with
  | none => rfl
  | some need =>
    obtain ⟨hwhere, hkind, -⟩ := determineLock_eq_some hparse hneed
    rcases h with h | h
    · exact absurd hwhere h
    · exact absurd hkind h

theorem Statement.Takes.planByType {path : AccessPath} (h : stmt.Takes path) :
    MiniDb.planByType stmt = path := by
  obtain ⟨hexplain, hplan⟩ := h
  unfold plannerCreatePlan at hplan
  cases htype : stmt.type with
  | explain => exact absurd htype hexplain
  | _ =>
    rw [htype] at hplan
    exact hplan

theorem Statement.Takes.insert (h : stmt.Takes .insert) : stmt.type = .insert := by
  have hplan := h.planByType
  unfold MiniDb.planByType at hplan
  cases htype : stmt.type with
  | insert => rfl
  | _ =>
    simp only [htype] at hplan
    repeat' split at hplan
    all_goals cases hplan

theorem Statement.Takes.scan (h : stmt.Takes .tableScan)
    (htype : stmt.type = .delete ∨ stmt.type = .update) : stmt.predicateKind ≠ .idEq := by
  intro hkind
  have hplan := h.planByType
  unfold MiniDb.planByType at hplan
  rcases htype with htype | htype <;> simp [htype, hkind] at hplan

/-- A piece of code takes no lock, and is not in a call of the lock table. -/
theorem ActStep.locks (h : ActStep env st c c' st') (hs : c.Sound) :
    c.call = none ∧ c'.Sound ∧ ∀ id, c.MayHold id → c'.MayHold id := by
  have hnone : ∀ {stmt : Statement}, (∃ sql, parse sql = .ok stmt) →
      (¬ stmt.type.HasWhere ∨ stmt.predicateKind ≠ .idEq) → ∀ id,
      ¬ (Client.executing stmt).MayHold id := by
    intro stmt hparse hfree id hhold
    obtain ⟨need, hneed, -⟩ := hhold
    rw [determineLock_eq_none hparse hfree] at hneed
    cases hneed
  cases h with
  | insertId path columns run =>
    refine ⟨rfl, trivial, fun id hid => absurd hid (hnone hs (.inl ?_) id)⟩
    rw [path.insert]
    rintro (h | h | h) <;> cases h
  | scanDelete path type =>
    exact ⟨rfl, trivial, fun id hid => absurd hid (hnone hs (.inr (path.scan (.inl type))) id)⟩
  | scanUpdate path type target =>
    exact ⟨rfl, trivial, fun id hid => absurd hid (hnone hs (.inr (path.scan (.inr type))) id)⟩
  | collected => exact ⟨rfl, sound_endCollecting _ _, fun id hid => hid.elim⟩
  | @collecting job pid ids ids' more next st' page run =>
    refine ⟨rfl, ?_, fun id hid => hid.elim⟩
    cases more
    · exact sound_endCollecting _ _
    · trivial
  | scanMiss run => exact ⟨rfl, sound_nextRow _ _ _, fun id _ => mayHold_nextRow _ _ _⟩
  | scanUnreadable run => exact ⟨rfl, sound_nextRow _ _ _, fun id _ => mayHold_nextRow _ _ _⟩
  | @scanFetch job id ref ids count row values st' run values_eq =>
    refine ⟨rfl, ?_, ?_⟩
    · split
      · cases job <;> trivial
      · exact sound_nextRow _ _ _
    · intro id _
      split
      · cases job <;> trivial
      · exact mayHold_nextRow _ _ _
  | scanDeleteHeap run =>
    refine ⟨rfl, ?_, ?_⟩
    · split
      · trivial
      · exact sound_nextRow _ _ _
    · intro id _
      split
      · trivial
      · exact mayHold_nextRow _ _ _
  | scanDeleteTree run =>
    refine ⟨rfl, ?_, ?_⟩
    · split
      · trivial
      · exact sound_nextRow _ _ _
    · intro id _
      split
      · trivial
      · exact mayHold_nextRow _ _ _
  | scanDeleteCount run => exact ⟨rfl, sound_nextRow _ _ _, fun id _ => mayHold_nextRow _ _ _⟩
  | scanWrite run => exact ⟨rfl, sound_nextRow _ _ _, fun id _ => mayHold_nextRow _ _ _⟩
  | _ => exact ⟨rfl, trivial, fun id _ => trivial⟩

/-- Behind a call of the lock table the thread may hold what it held and, when the call was granted,
what it asked for. -/
theorem locks_of_instr (h : c.instr env = .lock req mode next) (hs : c.Sound) (ok : Bool) :
    (next ok).Sound ∧ (∀ id, c.MayHold id → (next ok).MayHold id) ∧
      (ok = true → ∀ id, req.Covers id → (next ok).MayHold id) := by
  cases c with
  | locking stmt need =>
    cases h
    refine ⟨?_, fun id hid => hid.elim, ?_⟩
    · cases ok
      · trivial
      · exact hs.1
    · rintro rfl id hid
      exact ⟨need, hs.2, hid⟩
  | insertLocking stmt id =>
    cases h
    refine ⟨?_, fun id hid => hid.elim, ?_⟩
    · cases ok <;> trivial
    · rintro rfl id _
      trivial
  | scanLocking job ids id rest =>
    cases h
    obtain ⟨hlt, hrest⟩ := List.pairwise_cons.mp hs
    refine ⟨?_, ?_, ?_⟩
    · cases ok
      · trivial
      · exact sound_lockNext job ids hrest
    · intro i hi
      cases ok
      · trivial
      · exact mayHold_lockNext job ids fun j hj => lt_trans hi (hlt j hj)
    · rintro rfl i hi
      obtain rfl : i = id := hi
      exact mayHold_lockNext job ids hlt
  | _ => cases h

theorem sound_start {sql : CString} (h : Client.start sql = some c) : c.Sound := by
  rw [Client.start] at h
  split at h
  · rename_i stmt hparse
    split at h
    · rename_i need hneed
      obtain rfl := Option.some.inj h
      exact ⟨⟨sql, hparse⟩, hneed⟩
    · obtain rfl := Option.some.inj h
      exact ⟨sql, hparse⟩
  · obtain rfl := Option.some.inj h
    trivial
  · cases h

end Client

/-! ## Steps -/

section Step

variable {τ : Type} [DecidableEq τ] {s s' : DbSys τ (LockSys τ)} {t : τ}

omit [DecidableEq τ] in
theorem ClientLocks.waiting_eq_none (h : ClientLocks s) (hcall : (s.clients t).call = none) :
    s.locks.waiting t = none := by
  cases hw : s.locks.waiting t with
  | none => rfl
  | some w =>
    have hsome := h.waits t w hw
    rw [hcall] at hsome
    cases hsome

omit [DecidableEq τ] in
/-- A section that belongs to a call with a request is a section of the call the thread is in. -/
theorem ClientLocks.call_eq (h : ClientLocks s) {a : LockAction τ} {req : LockRequest}
    {mode : LockMode} (hself : a.self = t) (hasks : a.Asks req mode)
    (hcall : (s.clients t).call = some (req, mode))
    (hen : ∀ u, (∃ alloc, a = .wake u alloc) ∨ a = .timeout u → (s.locks.waiting u).isSome) :
    a.call s.locks = some (req, mode) := by
  have hwaiting : ∀ u, u = t → (s.locks.waiting u).isSome →
      (s.locks.waiting u).map (fun w => (w.req, w.mode)) = some (req, mode) := by
    rintro u rfl hsome
    obtain ⟨w, hw⟩ := Option.isSome_iff_exists.mp hsome
    rw [hw, Option.map_some, ← hcall]
    exact (h.waits _ _ hw).symm
  cases a with
  | acquire self rowId m alloc =>
    obtain ⟨rfl, rfl⟩ := hasks
    rfl
  | acquireRange self low high m alloc =>
    obtain ⟨rfl, rfl⟩ := hasks
    rfl
  | wake self alloc => exact hwaiting self hself (hen self (.inl ⟨alloc, rfl⟩))
  | timeout self => exact hwaiting self hself (hen self (.inr rfl))
  | releaseAll self => exact hasks.elim

/-- The same lock table, with one thread somewhere else. -/
theorem ClientLocks.move (h : ClientLocks s) {c : Client} (hlocks : s'.locks = s.locks)
    (hclients : s'.clients = Function.update s.clients t c)
    (hcall : (s.clients t).call = none) (hsound : c.Sound)
    (hhold : ∀ id, (s.clients t).MayHold id → c.MayHold id) : ClientLocks s' := by
  constructor
  · rw [hlocks]
    exact h.table
  · intro u w hw
    rw [hlocks] at hw
    have hne : u ≠ t := by
      rintro rfl
      rw [h.waiting_eq_none hcall] at hw
      cases hw
    rw [hclients, Function.update_of_ne hne]
    exact h.waits u w hw
  · intro u
    rw [hclients]
    by_cases hu : u = t
    · subst hu
      rwa [Function.update_self]
    · rw [Function.update_of_ne hu]
      exact h.sound u
  · intro g hg id hid
    rw [hlocks] at hg
    rw [hclients]
    have hold := h.holds g hg id hid
    by_cases hu : g.owner = t
    · rw [hu] at hold ⊢
      rw [Function.update_self]
      exact hhold id hold
    · rwa [Function.update_of_ne hu]

/-- A section of the lock table in a call with this request. -/
theorem ClientLocks.section (h : ClientLocks s) {a : LockAction τ} {req : LockRequest}
    {mode : LockMode} {r : LockReply} {locks : LockSys τ} {c : Client} (hself : a.self = t)
    (hen : a.Enabled s.locks) (hcall : a.call s.locks = some (req, mode))
    (hexec : a.exec s.locks = some (r, locks)) (hlocks : s'.locks = locks)
    (hclients : s'.clients = Function.update s.clients t c) (hsound : c.Sound)
    (hwaits : r = .blocked → c.call = some (req, mode))
    (hhold : ∀ id, (s.clients t).MayHold id → c.MayHold id)
    (hnew : r = .granted → ∀ id, req.Covers id → c.MayHold id) : ClientLocks s' := by
  subst hlocks
  have heff := exec_effect h.table hen hcall hexec
  rw [hself] at heff
  constructor
  · exact heff.inv h.table
  · intro u w hw
    by_cases hu : u = t
    · subst hu
      rw [hclients, Function.update_self]
      by_cases hr : r = .blocked
      · obtain ⟨w', hw', rfl, rfl, -⟩ := heff.blocked hr
        rw [hw] at hw'
        obtain rfl := Option.some.inj hw'
        exact hwaits hr
      · rw [heff.done hr] at hw
        cases hw
    · rw [hclients, Function.update_of_ne hu]
      rw [heff.others u hu] at hw
      exact h.waits u w hw
  · intro u
    rw [hclients]
    by_cases hu : u = t
    · subst hu
      rwa [Function.update_self]
    · rw [Function.update_of_ne hu]
      exact h.sound u
  · rintro g ⟨e, he, rfl⟩ id hid
    rw [hclients]
    rcases exec_entries h.table hen hexec e he with hold | ⟨req', mode', hcall', hgrant, hr, -⟩
    · have hmay := h.holds e.grant ⟨e, hold, rfl⟩ id hid
      by_cases hu : e.grant.owner = t
      · rw [hu] at hmay ⊢
        rw [Function.update_self]
        exact hhold id hmay
      · rwa [Function.update_of_ne hu]
    · -- a new entry is for what the call asks for
      rw [hcall] at hcall'
      obtain ⟨rfl, rfl⟩ := Prod.mk.inj (Option.some.inj hcall')
      rw [hgrant] at hid ⊢
      show (Function.update s.clients t c a.self).MayHold id
      rw [hself, Function.update_self]
      exact hnew hr id hid

omit [DecidableEq τ] in
theorem enabled_waiting {l : LockSys τ} {a : LockAction τ} (h : a.Enabled l) :
    ∀ u, (∃ alloc, a = .wake u alloc) ∨ a = .timeout u → (l.waiting u).isSome := by
  rintro u (⟨alloc, rfl⟩ | rfl)
  · exact h.1
  · exact h.1

/-- **Every step keeps what the lock table knows of the clients.** -/
theorem ClientLocks.step {s s' : DbSys τ (listLocks τ).State} (h : ClientLocks s)
    (hstep : DbSys.Step (listLocks τ) t s s') : ClientLocks s' := by
  cases hstep with
  | start sql c quiet starts =>
    exact h.move rfl rfl quiet.call_eq (sound_start starts)
      fun id hid => absurd hid quiet.not_mayHold
  | lock env instr a self asks enabled exec done =>
    rename_i req mode next r locks
    obtain ⟨hsound, hhold, hnew⟩ := locks_of_instr instr (h.sound t) (decide (r = .granted))
    have hcall := h.call_eq self asks (call_of_instr instr) (enabled_waiting enabled)
    exact h.section self enabled hcall exec rfl rfl hsound (fun hr => absurd hr done) hhold
      fun hr => hnew (decide_eq_true hr)
  | wait env instr a self asks enabled exec =>
    rename_i req mode next locks
    have hclient := call_of_instr instr
    have hcall := h.call_eq self asks hclient (enabled_waiting enabled)
    exact h.section self enabled hcall exec rfl (Function.update_eq_self t s.clients).symm
      (h.sound t) (fun _ => hclient) (fun _ hid => hid) (fun hr => nomatch hr)
  | enter env instr free =>
    rename_i ddl next
    cases hc : s.clients t with
    | entering stmt =>
      rw [hc] at instr
      cases instr
      have hsound := h.sound t
      rw [hc] at hsound
      refine h.move rfl rfl (by rw [hc]; rfl) hsound ?_
      rw [hc]
      exact fun id hid => hid
    | _ =>
      rw [hc] at instr
      cases instr
  | act env instr run =>
    obtain ⟨hcall, hsound, hhold⟩ := (actStep_of_run instr run).locks (h.sound t)
    exact h.move rfl rfl hcall hsound hhold
  | release env instr enabled exec =>
    rename_i next r locks
    obtain ⟨rfl, rfl⟩ := Prod.mk.inj (Option.some.inj exec)
    cases hc : s.clients t with
    | releasing res =>
      rw [hc] at instr
      cases instr
      obtain ⟨hchange, hwaiting, hnone⟩ := lockReleaseAll_spec h.table t
      have hwait : s.locks.waiting t = none := h.waiting_eq_none (by rw [hc]; rfl)
      have hself : ∀ w, (lockReleaseAll s.locks t).waiting t = some w →
          w.Owns (lockReleaseAll s.locks t).table t := by
        intro w hw
        rw [hwaiting, hwait] at hw
        cases hw
      refine ⟨hchange.inv h.table (fun u _ => by rw [hwaiting]) hself, ?_, ?_, ?_⟩
      · intro u w hw
        have hw' : s.locks.waiting u = some w := hwaiting ▸ hw
        have hne : u ≠ t := by
          rintro rfl
          rw [hwait] at hw'
          cases hw'
        show (Function.update s.clients t _ u).call = _
        rw [Function.update_of_ne hne]
        exact h.waits u w hw'
      · intro u
        show (Function.update s.clients t _ u).Sound
        by_cases hu : u = t
        · subst hu
          rw [Function.update_self]
          trivial
        · rw [Function.update_of_ne hu]
          exact h.sound u
      · intro g hg id hid
        have hne : g.owner ≠ t := fun hu => hnone False id ⟨g, hg, hu, hid, False.elim⟩
        show (Function.update s.clients t _ g.owner).MayHold id
        rw [Function.update_of_ne hne]
        exact h.holds g (((hchange.grantStep h.table).frame g hne).mp hg) id hid
    | _ =>
      rw [hc] at instr
      cases instr

theorem ClientLocks.init (st : Pager) : ClientLocks (DbSys.init (listLocks τ) st) where
  table := lockInv_init
  waits := nofun
  sound := fun _ => trivial
  holds := by
    rintro g ⟨e, he, -⟩
    exact absurd he (by simp [DbSys.init, listLocks])

theorem DbSys.Reach.clientLocks {s : DbSys τ (listLocks τ).State} {st : Pager}
    (h : DbSys.Reach (listLocks τ) (DbSys.init (listLocks τ) st) s) : ClientLocks s := by
  refine invariant_of_step (ClientLocks.init st) ?_ h
  rintro s s' hs ⟨t, hstep⟩
  exact hs.step hstep

end Step

end MiniDb
