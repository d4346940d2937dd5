import Mathlib.Data.Fintype.Basic
import MiniDb.Clients.Release

/-! # Runs that can be computed

What becomes of a system when its threads act in a given order. `DbSys.tick` lets one thread execute
what it stands at, over the lock table in memory; where it can, this is a step of the system. -/

set_option autoImplicit false

namespace MiniDb

open Lib

section Schedule

variable {τ : Type} [DecidableEq τ] [Fintype τ]

/-- The section of the lock table by which a call goes on: its first one, or the one behind a wait. -/
def LockRequest.action (req : LockRequest) (mode : LockMode) (t : τ) (addr : Nat) (waits : Bool) :
    LockAction τ :=
  if waits then .wake t (some addr)
  else
    match req with
    | .point rowId => .acquire t rowId mode (some addr)
    | .range low high => .acquireRange t low high mode (some addr)

instance (s : DbSys τ (LockMem τ)) (ddl : Bool) : Decidable (s.EngineFree ddl) :=
  inferInstanceAs (Decidable (∀ u inside, (s.clients u).InEngine = some inside →
    ddl = false ∧ inside = false))

/-- The thread executes what it stands at. `addr` is what `calloc` returns. -/
def DbSys.tick (env : ExecEnv) (s : DbSys τ (LockMem τ)) (t : τ) (addr : Nat) :
    Option (DbSys τ (LockMem τ)) :=
  match (s.clients t).instr env with
  | .lock req mode next =>
    if addr ≠ 0 ∧ addr ∉ s.locks.nodes then
      (s.locks.exec (req.action mode t addr (s.locks.waiting t).isSome)).map fun (r, locks) =>
        if r = .blocked then { s with locks }
        else ({ s with locks } : DbSys τ (LockMem τ)).goto t (next (decide (r = .granted)))
    else none
  | .enter ddl next => if s.EngineFree ddl then some (s.goto t next) else none
  | .act m => (m.run s.pager).map fun (c, pager) => { s.goto t c with pager }
  | .release next =>
    if (s.locks.waiting t).isSome then none
    else (s.locks.exec (.releaseAll t)).map fun (_, locks) =>
      ({ s with locks } : DbSys τ (LockMem τ)).goto t next
  | .none => none

/-- The thread begins a call. -/
def DbSys.call (s : DbSys τ (LockMem τ)) (t : τ) (sql : CString) : Option (DbSys τ (LockMem τ)) :=
  match s.clients t with
  | .idle | .returned _ => (Client.start sql).map (s.goto t)
  | _ => none

/-- Threads that begin calls and act, in this order. -/
inductive Turn (τ : Type) where
  | call (t : τ) (sql : CString)
  | tick (t : τ) (addr : Nat)

def Turn.exec (env : ExecEnv) (s : DbSys τ (LockMem τ)) : Turn τ → Option (DbSys τ (LockMem τ))
  | .call t sql => s.call t sql
  | .tick t addr => s.tick env t addr

/-- The system behind these turns. -/
def DbSys.schedule (env : ExecEnv) (s : DbSys τ (LockMem τ)) (turns : List (Turn τ)) :
    Option (DbSys τ (LockMem τ)) :=
  turns.foldlM (Turn.exec env) s

variable {env : ExecEnv} {s s' : DbSys τ (LockMem τ)} {t : τ} {addr : Nat} {sql : CString}

omit [DecidableEq τ] [Fintype τ] in
theorem LockRequest.action_self (req : LockRequest) (mode : LockMode) (t : τ) (addr : Nat)
    (waits : Bool) :
    (req.action mode t addr waits).self = t ∧ (req.action mode t addr waits).Asks req mode ∧
      (req.action mode t addr waits).alloc = some addr := by
  unfold LockRequest.action
  cases waits with
  | true => exact ⟨rfl, trivial, rfl⟩
  | false => cases req <;> exact ⟨rfl, ⟨rfl, rfl⟩, rfl⟩

/-- **What a thread executes is a step of the system.** -/
theorem DbSys.tick_step (h : s.tick env t addr = some s') : DbSys.Step (memLocks τ) t s s' := by
  unfold DbSys.tick at h
  split at h
  · rename_i req mode next hinstr
    split at h
    · rename_i haddr
      obtain ⟨⟨r, locks⟩, hexec, hs'⟩ := Option.map_eq_some_iff.mp h
      obtain ⟨hself, hasks, halloc⟩ := req.action_self mode t addr
        (s.locks.waiting t).isSome
      have henabled : LockMem.Enabled (req.action mode t addr (s.locks.waiting t).isSome)
          s.locks := by
        refine ⟨?_, fun a ha => ?_⟩
        · unfold LockRequest.action
          cases hwait : s.locks.waiting t with
          | some w => simp [hwait]
          | none => cases req <;> simp [hwait, LockAction.self]
        · rw [halloc] at ha
          obtain rfl := Option.some.inj ha
          exact haddr
      dsimp only at hs'
      by_cases hr : r = .blocked
      · subst hr
        rw [if_pos rfl] at hs'
        exact hs' ▸ .wait env hinstr _ hself hasks henabled hexec
      · rw [if_neg hr] at hs'
        exact hs' ▸ .lock env hinstr _ hself hasks henabled hexec hr
    · cases h
  · rename_i ddl next hinstr
    split at h
    · rename_i hfree
      obtain rfl := Option.some.inj h
      exact .enter env hinstr hfree
    · cases h
  · rename_i m hinstr
    obtain ⟨⟨c, pager⟩, hrun, rfl⟩ := Option.map_eq_some_iff.mp h
    exact .act env hinstr hrun
  · rename_i next hinstr
    split at h
    · cases h
    · rename_i hwait
      obtain ⟨⟨r, locks⟩, hexec, rfl⟩ := Option.map_eq_some_iff.mp h
      have henabled : LockMem.Enabled (.releaseAll t) s.locks := by
        refine ⟨Option.not_isSome_iff_eq_none.mp hwait, ?_⟩
        intro a ha
        cases ha
      exact .release env hinstr henabled hexec
  · cases h

omit [Fintype τ] in
theorem DbSys.call_step (h : s.call t sql = some s') :
    DbSys.Step (memLocks τ) t s s' ∧ ∃ c, Client.start sql = some c ∧ s'.clients t = c := by
  have hstart : (s.clients t).Quiet → (Client.start sql).map (s.goto t) = some s' →
      DbSys.Step (memLocks τ) t s s' ∧ ∃ c, Client.start sql = some c ∧ s'.clients t = c := by
    intro hquiet h
    obtain ⟨c, hstarts, rfl⟩ := Option.map_eq_some_iff.mp h
    exact ⟨.start sql c hquiet hstarts, c, hstarts, Function.update_self ..⟩
  unfold DbSys.call at h
  split at h
  · rename_i hc
    exact hstart (hc ▸ trivial) h
  · rename_i hc
    exact hstart (hc ▸ trivial) h
  · cases h

theorem Client.returned_of_report {c : Client} (h : c.report.isSome = true) :
    ∃ res, c = .returned res := by
  cases c with
  | returned res => exact ⟨res, rfl⟩
  | _ => cases h

/-- A schedule is a run of the system. -/
theorem DbSys.schedule_reach {turns : List (Turn τ)} (h : s.schedule env turns = some s') :
    DbSys.Reach (memLocks τ) s s' := by
  induction turns generalizing s with
  | nil =>
    obtain rfl := Option.some.inj h
    exact .refl
  | cons turn turns ih =>
    obtain ⟨s₁, hturn, hrest⟩ := Option.bind_eq_some_iff.mp h
    cases turn with
    | call t sql => exact .head ⟨t, (DbSys.call_step hturn).1⟩ (ih hrest)
    | tick t addr => exact .head ⟨t, DbSys.tick_step hturn⟩ (ih hrest)

/-- The system behind a schedule, from a file on which no call is running. -/
def DbSys.behind (env : ExecEnv) (st : Pager) (turns : List (Turn τ)) : DbSys τ (LockMem τ) :=
  (DbSys.schedule env (DbSys.init (memLocks τ) st) turns).getD (DbSys.init (memLocks τ) st)

theorem DbSys.reach_behind {st : Pager} {turns : List (Turn τ)}
    (h : (DbSys.schedule env (DbSys.init (memLocks τ) st) turns).isSome = true) :
    DbSys.Reach (memLocks τ) (DbSys.init (memLocks τ) st) (DbSys.behind env st turns) := by
  obtain ⟨s, hs⟩ := Option.isSome_iff_exists.mp h
  rw [DbSys.behind, hs, Option.getD_some]
  exact DbSys.schedule_reach hs

end Schedule

end MiniDb
