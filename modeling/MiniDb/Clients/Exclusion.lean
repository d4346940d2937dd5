import MiniDb.Clients.Release

/-! # The rows that clients have to themselves

A DELETE or UPDATE of one id has locked it in mode X before it executes; an INSERT has locked its
new id behind the wait for it, a scan all its ids behind the waits for them. They keep what they
have locked until they are done with it. So of all threads at most one is at work on a row. -/

set_option autoImplicit false

namespace MiniDb

open Lib

/-- The rows that the thread has locked in mode X. -/
def Client.Owns : Client → Nat → Prop
  | .entering stmt, id | .executing stmt, id =>
    ∃ need, determineLock stmt = some need ∧ need.mode = .x ∧ need.request.Covers id
  | .insertHeap _ i, id | .insertTree i _, id | .insertCount i, id => id = i
  | .deleteHeap i _, id | .deleteTree i _, id | .deleteCount i, id => id = i
  | .updateFetch stmt _ _, id | .updateWrite stmt _ _ _, id => id = stmt.predId
  | .scanLocking _ ids next rest, id => id ∈ ids ∧ id ∉ next :: rest
  | .scanSearch _ i ids _, id | .scanFetch _ i _ ids _, id | .scanDeleteHeap _ i _ ids _, id
  | .scanDeleteTree _ i _ ids _, id | .scanDeleteCount _ i ids _, id
  | .scanWrite _ _ i _ _ ids _, id => id ∈ i :: ids
  | _, _ => False

/-- The lock table knows of the rows that the threads count on. -/
def OwnsLocks {τ : Type} (s : DbSys τ (LockSys τ)) : Prop :=
  ∀ t id, (s.clients t).Owns id → Holds s.locks.table.grants t True id

section Client

variable {env : ExecEnv} {c c' : Client} {st st' : Pager} {req : LockRequest} {mode : LockMode}
  {next : Bool → Client} {stmt : Statement} {id : Nat}

theorem Statement.Takes.indexDelete (h : stmt.Takes .indexDelete) :
    stmt.type = .delete ∧ stmt.predicateKind = .idEq := by
  have hplan := h.planByType
  unfold MiniDb.planByType at hplan
  cases htype : stmt.type with
  | delete =>
    simp only [htype] at hplan
    split at hplan
    · exact ⟨rfl, by assumption⟩
    · cases hplan
  | _ =>
    simp only [htype] at hplan
    repeat' split at hplan
    all_goals cases hplan

theorem Statement.Takes.indexUpdate (h : stmt.Takes .indexUpdate) :
    stmt.type = .update ∧ stmt.predicateKind = .idEq := by
  have hplan := h.planByType
  unfold MiniDb.planByType at hplan
  cases htype : stmt.type with
  | update =>
    simp only [htype] at hplan
    split at hplan
    · exact ⟨rfl, by assumption⟩
    · cases hplan
  | _ =>
    simp only [htype] at hplan
    repeat' split at hplan
    all_goals cases hplan

/-- A statement that writes the row of an id has locked it. -/
theorem owns_executing (htype : stmt.type = .delete ∨ stmt.type = .update)
    (hkind : stmt.predicateKind = .idEq) : (Client.executing stmt).Owns stmt.predId := by
  refine ⟨_, determineLock_point (.inr htype) hkind, ?_, rfl⟩
  rcases htype with h | h <;> rw [h] <;> rfl

theorem owns_nextRow {job : ScanJob} {count : Nat} {ids : List Nat}
    (h : (Client.nextRow job count ids).Owns id) : id ∈ ids := by
  cases ids with
  | nil => exact h.elim
  | cons i ids => exact h

theorem owns_lockNext {job : ScanJob} {ids rest : List Nat}
    (h : (Client.lockNext job ids rest).Owns id) : id ∈ ids ∧ id ∉ rest := by
  cases rest with
  | cons i rest => exact h
  | nil =>
    cases ids with
    | nil => exact h.elim
    | cons i ids => exact ⟨h, List.not_mem_nil⟩

theorem owns_endCollecting {job : ScanJob} {ids : Collector Nat} :
    ¬ (endCollecting job ids).Owns id := by
  unfold endCollecting
  split
  · exact False.elim
  · intro h
    exact (owns_lockNext h).2 (owns_lockNext h).1

/-- A piece of code counts on no row that the thread has not locked before. -/
theorem ActStep.owns (h : ActStep env st c c' st') (hid : c'.Owns id) : c.Owns id := by
  cases h with
  | deleteFound path run =>
    obtain rfl : id = _ := hid
    exact owns_executing (.inl path.indexDelete.1) path.indexDelete.2
  | updateFound path target run =>
    obtain rfl : id = _ := hid
    exact owns_executing (.inr path.indexUpdate.1) path.indexUpdate.2
  | collected => exact absurd hid owns_endCollecting
  | @collecting job pid ids ids' more next st' page run =>
    cases more
    · exact absurd hid owns_endCollecting
    · exact hid.elim
  | scanMiss run => exact List.mem_cons_of_mem _ (owns_nextRow hid)
  | scanUnreadable run => exact List.mem_cons_of_mem _ (owns_nextRow hid)
  | @scanFetch job i ref ids count row values st' run values_eq =>
    split at hid
    · cases job <;> exact hid
    · exact List.mem_cons_of_mem _ (owns_nextRow hid)
  | scanDeleteHeap run =>
    split at hid
    · exact hid
    · exact List.mem_cons_of_mem _ (owns_nextRow hid)
  | scanDeleteTree run =>
    split at hid
    · exact hid
    · exact List.mem_cons_of_mem _ (owns_nextRow hid)
  | scanDeleteCount run => exact List.mem_cons_of_mem _ (owns_nextRow hid)
  | scanWrite run => exact List.mem_cons_of_mem _ (owns_nextRow hid)
  | insertHeap row_eq run => exact hid
  | insertTree run => exact hid
  | deleteHeap run => exact hid
  | deleteTree run => exact hid
  | updateFetch run values_eq => exact hid
  | scanFound run => exact hid
  | _ => exact hid.elim

/-- Behind a call of the lock table the thread counts on what it counted on before and, when the
call was granted, on what it asked for in mode X. -/
theorem owns_of_instr (h : c.instr env = .lock req mode next) (hs : c.Sound) {ok : Bool}
    (hid : (next ok).Owns id) : c.Owns id ∨ ok = true ∧ mode = .x ∧ req.Covers id := by
  cases ok with
  | false => cases c <;> cases h <;> exact hid.elim
  | true =>
    cases c with
    | locking stmt need =>
      cases h
      obtain ⟨need', hneed, hmode, hcovers⟩ := hid
      rw [hs.2] at hneed
      obtain rfl := Option.some.inj hneed
      exact .inr ⟨rfl, hmode, hcovers⟩
    | insertLocking stmt i =>
      cases h
      exact .inr ⟨rfl, rfl, hid⟩
    | scanLocking job ids i rest =>
      cases h
      obtain ⟨hmem, hrest⟩ := owns_lockNext hid
      by_cases hi : id = i
      · exact .inr ⟨rfl, rfl, hi⟩
      · exact .inl ⟨hmem, fun hin => (List.mem_cons.mp hin).elim hi hrest⟩
    | _ => cases h

/-- A thread that counts on a row asks for others in mode X only. -/
theorem mode_of_owns (h : c.instr env = .lock req mode next) (hid : c.Owns id) : mode = .x := by
  cases c with
  | scanLocking job ids i rest =>
    cases h
    rfl
  | locking stmt need => exact hid.elim
  | insertLocking stmt i => exact hid.elim
  | _ => cases h

theorem owns_start {sql : CString} (h : Client.start sql = some c) : ¬ c.Owns id := by
  rw [Client.start] at h
  split at h
  · split at h
    · obtain rfl := Option.some.inj h
      exact False.elim
    · rename_i hneed
      obtain rfl := Option.some.inj h
      rintro ⟨need, hsome, -⟩
      rw [hneed] at hsome
      cases hsome
  · obtain rfl := Option.some.inj h
    exact False.elim
  · cases h

end Client

section Step

variable {τ : Type} [DecidableEq τ] {s s' : DbSys τ (listLocks τ).State} {t u : τ} {id : Nat}

/-- What the other threads hold stays. -/
theorem DbSys.Step.holds_of_ne (h : ClientLocks s) (hstep : DbSys.Step (listLocks τ) t s s')
    (hne : u ≠ t) (hold : Holds s.locks.table.grants u True id) :
    Holds s'.locks.table.grants u True id := by
  obtain ⟨g, ⟨e, he, rfl⟩, howner, hid, hx⟩ := hold
  have howner' : e.owner ≠ t := fun heq => hne (howner.symm.trans heq)
  exact ⟨e.grant, ⟨e, ((hstep.entries h).1 e howner').mpr he, rfl⟩, howner, hid, hx⟩

theorem OwnsLocks.step (h : ClientLocks s) (ho : OwnsLocks s)
    (hstep : DbSys.Step (listLocks τ) t s s') : OwnsLocks s' := by
  intro u id hid
  by_cases hu : u = t
  · subst hu
    have hold := ho u id
    cases hstep with
    | start sql c quiet starts =>
      exact absurd (by simpa [DbSys.goto] using hid) (owns_start starts)
    | lock env instr a self asks enabled exec done =>
      rename_i req mode next r locks
      have hid' : (next (decide (r = .granted))).Owns id := by simpa [DbSys.goto] using hid
      have hcall := h.call_eq self asks (call_of_instr instr) (enabled_waiting enabled)
      rcases owns_of_instr instr (h.sound u) hid' with hown | ⟨hok, rfl, hcovers⟩
      · obtain rfl := mode_of_owns instr hown
        exact exec_holds h.table hcall exec (hold hown)
      · have heff := exec_effect h.table enabled hcall exec
        rw [self] at heff
        obtain ⟨g, hg, howner, hgid, hx⟩ := heff.granted (of_decide_eq_true hok) id hcovers
        exact ⟨g, hg, howner, hgid, fun _ => hx rfl⟩
    | wait env instr a self asks enabled exec =>
      have hcall := h.call_eq self asks (call_of_instr instr) (enabled_waiting enabled)
      obtain rfl := mode_of_owns instr hid
      exact exec_holds h.table hcall exec (hold hid)
    | enter env instr free =>
      rename_i ddl next
      have hid' : next.Owns id := by simpa [DbSys.goto] using hid
      cases hc : s.clients u with
      | entering stmt =>
        rw [hc] at instr hold
        cases instr
        exact hold hid'
      | _ =>
        rw [hc] at instr
        cases instr
    | act env instr run =>
      rename_i m c pager
      have hid' : c.Owns id := by simpa [DbSys.goto] using hid
      exact hold ((actStep_of_run instr run).owns hid')
    | release env instr enabled exec =>
      rename_i next r locks
      have hid' : next.Owns id := by simpa [DbSys.goto] using hid
      cases hc : s.clients u with
      | releasing res =>
        rw [hc] at instr
        cases instr
        exact hid'.elim
      | _ =>
        rw [hc] at instr
        cases instr
  · have hsame : s'.clients u = s.clients u := by
      cases hstep <;> simp [DbSys.goto, hu]
    rw [hsame] at hid
    exact hstep.holds_of_ne h hu (ho u id hid)

theorem DbSys.Reach.ownsLocks {st : Pager}
    (h : DbSys.Reach (listLocks τ) (DbSys.init (listLocks τ) st) s) : OwnsLocks s := by
  induction h with
  | refl => exact fun _ _ hid => hid.elim
  | tail hreach hstep ih =>
    obtain ⟨t, hstep⟩ := hstep
    exact ih.step (DbSys.Reach.clientLocks hreach) hstep

/-- **A row belongs to one thread at a time.** -/
theorem OwnsLocks.eq_of_owns (ho : OwnsLocks s) (h : ClientLocks s) (ht : (s.clients t).Owns id)
    (hu : (s.clients u).Owns id) : t = u :=
  h.table.compatible.eq_of_holds (ho u id hu) (ho t id ht)

end Step

end MiniDb
