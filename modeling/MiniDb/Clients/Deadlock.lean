import MiniDb.Clients.Locks
import MiniDb.Db.Reach
import MiniDb.Server.WriterCount

/-! # No deadlock in the lock table

A thread waits for an entry that conflicts with its request, or, as a reader, for a writer that
waits. A client that holds something while it waits is in the middle of a scan, and waits for a
larger id than all that it holds. So along a chain of waits the ids go up, and it never closes. -/

set_option autoImplicit false

namespace MiniDb

open Lib

/-- The ids of the entry overlap those of the request. -/
def LockRequest.Overlaps {τ : Type} (e : LockEntry τ) : LockRequest → Prop
  | .point rowId => e.Covers rowId
  | .range low high =>
    if e.isRange then low ≤ e.rangeHigh ∧ e.rowId ≤ high else low ≤ e.rowId ∧ e.rowId ≤ high

/-- `t` is in the wait loop, and an entry of `u` or its waiting for X holds it there. -/
def LockSys.WaitsFor {τ : Type} (s : LockSys τ) (t u : τ) : Prop :=
  ∃ w, s.waiting t = some w ∧
    ((∃ e ∈ s.table.entries, e.owner = u ∧ e.owner ≠ t ∧ w.req.Overlaps e ∧
        (e.mode = .x ∨ w.mode = .x)) ∨
      w.mode = .s ∧ s.WriterBlocked u)

section

variable {τ : Type} [DecidableEq τ]

/-- The row that a thread waits for. -/
def LockSys.waitKey (s : LockSys τ) (t : τ) : Nat :=
  match s.waiting t with
  | some ⟨.point id, _, _, _⟩ => id
  | _ => 0

section Client

variable {c : Client} {req : LockRequest} {mode : LockMode}

/-- A client asks for one row. -/
theorem Client.Sound.point (h : c.Sound) (hcall : c.call = some (req, mode)) :
    ∃ id, req = .point id := by
  cases c with
  | locking stmt need =>
    obtain ⟨⟨sql, hparse⟩, hneed⟩ := h
    obtain ⟨-, -, rfl⟩ := determineLock_eq_some hparse hneed
    obtain ⟨rfl, -⟩ := Prod.mk.inj (Option.some.inj hcall)
    exact ⟨_, rfl⟩
  | insertLocking stmt id =>
    obtain ⟨rfl, -⟩ := Prod.mk.inj (Option.some.inj hcall)
    exact ⟨_, rfl⟩
  | scanLocking job ids id rest =>
    obtain ⟨rfl, -⟩ := Prod.mk.inj (Option.some.inj hcall)
    exact ⟨_, rfl⟩
  | _ => cases hcall

/-- A client that waits and may hold a row waits for a larger one, for X. -/
theorem Client.MayHold.lt {id : Nat} (h : c.MayHold id)
    (hcall : c.call = some (req, mode)) : mode = .x ∧ ∃ next, req = .point next ∧ id < next := by
  cases c with
  | locking stmt need => exact h.elim
  | insertLocking stmt id => exact h.elim
  | scanLocking job ids next rest =>
    obtain ⟨rfl, rfl⟩ := Prod.mk.inj (Option.some.inj hcall)
    exact ⟨rfl, next, rfl, h⟩
  | _ => cases hcall

end Client

variable {s : DbSys τ (LockSys τ)} {t u : τ}

omit [DecidableEq τ] in
/-- Whoever waits for an entry of a client that waits has the smaller id, and that client waits for
X. -/
theorem ClientLocks.lt_of_entry (h : ClientLocks s) {w w' : LockWait}
    (hw : s.locks.waiting t = some w) (hw' : s.locks.waiting u = some w')
    {e : LockEntry τ} (he : e ∈ s.locks.table.entries) (hu : e.owner = u)
    (hover : w.req.Overlaps e) :
    w'.mode = .x ∧ s.locks.waitKey t < s.locks.waitKey u := by
  obtain ⟨id, hreq⟩ := (h.sound t).point (h.waits t w hw)
  rw [hreq] at hover
  have hmay := h.holds e.grant ⟨e, he, rfl⟩ id hover
  have howner : e.grant.owner = u := hu
  rw [howner] at hmay
  obtain ⟨hx, next, hreq', hlt⟩ := hmay.lt (h.waits u w' hw')
  refine ⟨hx, ?_⟩
  obtain ⟨req, mode, registered, entry⟩ := w
  obtain ⟨req', mode', registered', entry'⟩ := w'
  obtain rfl : req = .point id := hreq
  obtain rfl : req' = .point next := hreq'
  simp only [LockSys.waitKey, hw, hw']
  exact hlt

omit [DecidableEq τ] in
/-- Nobody waits for a reader that waits. -/
theorem ClientLocks.mode_of_waitedFor (h : ClientLocks s) {v : τ} {w : LockWait}
    (hv : s.locks.WaitsFor v t) (hw : s.locks.waiting t = some w) : w.mode = .x := by
  obtain ⟨w', hw', ⟨e, he, hu, -, hover, -⟩ | ⟨-, w'', hw'', hx⟩⟩ := hv
  · exact (h.lt_of_entry hw' hw he hu hover).1
  · rw [hw] at hw''
    obtain rfl := Option.some.inj hw''
    exact hx

/-- **Row locks never deadlock.** No state that the clients reach has a cycle of threads of which
each waits in the lock table for the next. -/
theorem rowLocks_acyclic {s : DbSys τ (listLocks τ).State} {st : Pager}
    (h : DbSys.Reach (listLocks τ) (DbSys.init (listLocks τ) st) s) :
    ¬ ∃ t, Relation.TransGen s.locks.WaitsFor t t := by
  have hlocks : ClientLocks s := h.clientLocks
  rintro ⟨t, hcycle⟩
  refine not_transGen_self s.locks.waitKey ?_ t hcycle
  intro a b hprev hab hnext
  obtain ⟨v, hv⟩ := hprev
  obtain ⟨w, hw, hwhy⟩ := hab
  obtain ⟨d, w', hw', -⟩ := hnext
  have hx := hlocks.mode_of_waitedFor hv hw
  rcases hwhy with ⟨e, he, hu, -, hover, -⟩ | ⟨hs, -⟩
  · exact (hlocks.lt_of_entry hw hw' he hu hover).2
  · rw [hx] at hs
    cases hs

end

/-- Two DELETEs of one row: the second waits for the first. -/
theorem rowLocks_acyclic_delete :
    ∃ s : DbSys Nat (listLocks Nat).State,
      DbSys.Reach (listLocks Nat) (DbSys.init (listLocks Nat) (pagerOpenCreate 4096)) s ∧
      s.locks.WaitsFor 2 1 ∧ ¬ ∃ t, Relation.TransGen s.locks.WaitsFor t t := by
  let stmt : Statement :=
    { type := .delete, tableName := cstr "t", predicateKind := .idEq, predField := cstr "id"
      predValue := cstr "5", predId := 5 }
  have hparse : parse (cstr "DELETE FROM t WHERE id = 5") = .ok stmt := by
    decide +kernel
  have hstart : Client.start (cstr "DELETE FROM t WHERE id = 5") =
      some (.locking stmt ⟨.point 5, .x⟩) := by
    rw [Client.start, hparse]
    rfl
  let s₀ := DbSys.init (listLocks Nat) (pagerOpenCreate 4096)
  let s₁ := s₀.goto 1 (.locking stmt ⟨.point 5, .x⟩)
  obtain ⟨l₂, l₄, h₂, h₄, hwait₂, hentries, hwait₄, hentries₄⟩ : ∃ l₂ l₄,
      lockAcquire (lockTableInit Nat) 1 5 .x (some 100) = some (.granted, l₂) ∧
      lockAcquire l₂ 2 5 .x none = some (.blocked, l₄) ∧ l₂.waiting 2 = none ∧
      l₂.table = globalListInsertPoint (lockTableInit Nat).table (hashRowId 5)
        ⟨100, 5, 0, .x, 1, false⟩ ∧
      l₄.waiting 2 = some ⟨.point 5, .x, true, none⟩ ∧
      l₄.table = { l₂.table with waitingWriters := 1 } :=
    ⟨_, _, rfl, rfl, rfl, rfl, rfl, rfl⟩
  let s₂ : DbSys Nat (listLocks Nat).State :=
    ({ s₁ with locks := l₂ } : DbSys Nat (listLocks Nat).State).goto 1 (.entering stmt)
  let s₃ := s₂.goto 2 (.locking stmt ⟨.point 5, .x⟩)
  let s₄ : DbSys Nat (listLocks Nat).State := { s₃ with locks := l₄ }
  have hstep₁ : DbSys.Step (listLocks Nat) 1 s₀ s₁ := .start _ _ trivial hstart
  have hen₂ : LockAction.Enabled (.acquire 1 5 .x (some 100)) (lockTableInit Nat) :=
    ⟨rfl, fun _ _ e he => absurd he (by simp)⟩
  have hen₄ : LockAction.Enabled (.acquire 2 5 .x none) l₂ := 
    ⟨hwait₂, fun _ haddr => absurd haddr (by simp [LockAction.alloc])⟩
  have hnext : (s₁.clients 1).instr grantingEnv = .lock (.point 5) .x fun ok =>
      if ok then .entering stmt else .returned (.failed (.rowLockTimeout 5)) := rfl
  have hstep₂ : DbSys.Step (listLocks Nat) 1 s₁ s₂ :=
    DbSys.Step.lock (I := listLocks Nat) (s := s₁) grantingEnv hnext
      (.acquire 1 5 .x (some 100)) rfl ⟨rfl, rfl⟩ hen₂ h₂ LockReply.noConfusion
  have hstep₃ : DbSys.Step (listLocks Nat) 2 s₂ s₃ := .start _ _ trivial hstart
  have hstep₄ : DbSys.Step (listLocks Nat) 2 s₃ s₄ :=
    .wait grantingEnv rfl (.acquire 2 5 .x none) rfl ⟨rfl, rfl⟩ hen₄ h₄
  have hreach : DbSys.Reach (listLocks Nat) s₀ s₄ :=
    (((Relation.ReflTransGen.single ⟨1, hstep₁⟩).tail ⟨1, hstep₂⟩).tail ⟨2, hstep₃⟩).tail
      ⟨2, hstep₄⟩
  refine ⟨s₄, hreach, ?_, rowLocks_acyclic hreach⟩
  refine ⟨_, hwait₄, .inl ⟨⟨100, 5, 0, .x, 1, false⟩, ?_, rfl, by decide, rfl, .inl rfl⟩⟩
  have hsame : (LockTable.entries l₄.table) = l₂.table.entries := by rw [hentries₄]; rfl
  show _ ∈ l₄.table.entries
  rw [hsame, hentries, mem_globalListInsertPoint]
  exact .inl rfl

end MiniDb
