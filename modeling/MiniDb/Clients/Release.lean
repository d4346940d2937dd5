import MiniDb.Clients.Locks
import MiniDb.Server.LockRefines

/-! # Nothing is left of a call

`db_execute` over the lock table in memory. Every run is a run over the lock table with lists, so
what is known of that one holds here: each thread's list names the entries it owns, each once, and a
call that has returned, whatever its outcome, leaves its thread without any. -/

set_option autoImplicit false

namespace MiniDb

open Lib

variable {τ : Type}

/-- The lists of a memory: `points` of the buckets, `ranges` of the range locks and `held` of the
threads. -/
structure LockMem.WellLinked (m : LockMem τ) (points : Fin lockTableBuckets → List Nat)
    (ranges : List Nat) (held : τ → List Nat) : Prop where
  bucket : ∀ b, (globalLinks τ).IsList m.nodes (m.buckets b) (points b)
  range : (globalLinks τ).IsList m.nodes m.rangeLocks ranges
  owner : ∀ t, (ownerLinks τ).IsList m.nodes (m.tlsHeldLocks t) (held t)
  /-- an entry of a bucket is a row lock of that bucket -/
  pointEntry : ∀ b, ∀ a ∈ points b, ∃ n, m.nodes.lookup a = some n ∧ n.isRange = false ∧
    hashRowId n.rowId = b
  rangeEntry : ∀ a ∈ ranges, ∃ n, m.nodes.lookup a = some n ∧ n.isRange = true
  /-- a thread's list has the entries it owns -/
  holds : ∀ t a, a ∈ held t ↔ ((∃ b, a ∈ points b) ∨ a ∈ ranges) ∧
    ∃ n, m.nodes.lookup a = some n ∧ n.owner = t
  /-- no entry is off the lists -/
  live : ∀ a, a ∈ m.nodes ↔ (∃ b, a ∈ points b) ∨ a ∈ ranges

section Memory

variable {m : LockMem τ} {s : LockSys τ} {a : Nat} {n : LockNode τ}

theorem LockMem.Refines.mem_lists (h : m.Refines s) :
    a ∈ m.nodes ↔ (∃ b, a ∈ (s.table.buckets b).map (·.addr)) ∨
      a ∈ s.table.rangeLocks.map (·.addr) := by
  constructor
  · intro ha
    obtain ⟨n, hn⟩ := Finmap.mem_iff.mp ha
    rcases mem_entries.mp (h.table.entry_mem hn) with ⟨b, he⟩ | he
    · exact .inl ⟨b, List.mem_map.mpr ⟨_, he, rfl⟩⟩
    · exact .inr (List.mem_map.mpr ⟨_, he, rfl⟩)
  · rintro (⟨b, ha⟩ | ha)
    · exact (h.table.buckets b).live a ha
    · exact h.table.rangeLocks.live a ha

theorem LockMem.Refines.wellLinked (h : m.Refines s) (hinv : LockInv s) :
    m.WellLinked (fun b => (s.table.buckets b).map (·.addr)) (s.table.rangeLocks.map (·.addr))
      s.held := by
  refine ⟨h.table.buckets, h.table.rangeLocks, h.held, ?_, ?_, ?_, fun a => h.mem_lists⟩
  · intro b a ha
    obtain ⟨e, he, rfl⟩ := List.mem_map.mp ha
    obtain ⟨n, hn, hentry⟩ := h.table.exists_node (mem_entries.mpr (.inl ⟨b, he⟩))
    rw [← hentry] at he
    obtain ⟨hhash, hpoint⟩ := hinv.placed.bucket b _ he
    exact ⟨n, hn, hpoint, hhash⟩
  · intro a ha
    obtain ⟨e, he, rfl⟩ := List.mem_map.mp ha
    obtain ⟨n, hn, hentry⟩ := h.table.exists_node (mem_entries.mpr (.inr he))
    rw [← hentry] at he
    exact ⟨n, hn, hinv.placed.range _ he⟩
  · intro t a
    rw [← h.mem_lists, hinv.held t a]
    constructor
    · rintro ⟨e, he, rfl, rfl⟩
      obtain ⟨n, hn, hentry⟩ := h.table.exists_node he
      exact ⟨Finmap.mem_of_lookup_eq_some hn, n, hn, congrArg LockEntry.owner hentry⟩
    · rintro ⟨-, n, hn, rfl⟩
      exact ⟨n.entry a, h.table.entry_mem hn, rfl, rfl⟩

end Memory

/-! ## Clients over the lock table in memory -/

/-- The lock table in memory. -/
@[reducible] def memLocks (τ : Type) [DecidableEq τ] : LockImpl τ :=
  ⟨LockMem τ, LockMem.init τ, LockMem.Enabled, LockMem.exec⟩

/-- The system with another lock table. -/
def DbSys.withLocks {L L' : Type} (s : DbSys τ L) (locks : L') : DbSys τ L' :=
  ⟨s.pager, locks, s.clients, s.log⟩

section Clients

variable [DecidableEq τ] {t : τ}

/-- **A step over the memory is a step over the lists.** -/
theorem DbSys.Step.refines {s s' : DbSys τ (memLocks τ).State} {l : LockSys τ}
    (hstep : DbSys.Step (memLocks τ) t s s') (href : LockMem.Refines s.locks l)
    (hinv : LockInv l) :
    ∃ l', DbSys.Step (listLocks τ) t (s.withLocks l) (s'.withLocks l') ∧
      LockMem.Refines s'.locks l' := by
  cases hstep with
  | start sql c quiet starts => exact ⟨l, .start sql c quiet starts, href⟩
  | lock env instr a self asks enabled exec done =>
    obtain ⟨hen, r', m', l', hm, hl, href'⟩ := href.exec hinv enabled
    obtain ⟨rfl, rfl⟩ := Prod.mk.inj (Option.some.inj (exec.symm.trans hm))
    exact ⟨l', DbSys.Step.lock (I := listLocks τ) (s := s.withLocks l) env instr a self asks hen hl
      done, href'⟩
  | wait env instr a self asks enabled exec =>
    obtain ⟨hen, r', m', l', hm, hl, href'⟩ := href.exec hinv enabled
    obtain ⟨rfl, rfl⟩ := Prod.mk.inj (Option.some.inj (exec.symm.trans hm))
    exact ⟨l', DbSys.Step.wait (I := listLocks τ) (s := s.withLocks l) env instr a self asks hen hl,
      href'⟩
  | enter env instr free => exact ⟨l, .enter env instr free, href⟩
  | act env instr run =>
    exact ⟨l, DbSys.Step.act (I := listLocks τ) (s := s.withLocks l) env instr run, href⟩
  | release env instr enabled exec =>
    have hrelease : LockMem.Enabled (.releaseAll t) s.locks := enabled
    obtain ⟨hen, r', m', l', hm, hl, href'⟩ := href.exec hinv hrelease
    obtain ⟨rfl, rfl⟩ := Prod.mk.inj (Option.some.inj (exec.symm.trans hm))
    exact ⟨l', DbSys.Step.release (I := listLocks τ) (s := s.withLocks l) env instr hen hl, href'⟩

theorem DbSys.Reach.exists_refines {st : Pager} {s : DbSys τ (memLocks τ).State}
    (h : DbSys.Reach (memLocks τ) (DbSys.init (memLocks τ) st) s) :
    ∃ l, DbSys.Reach (listLocks τ) (DbSys.init (listLocks τ) st) (s.withLocks l) ∧
      LockMem.Refines s.locks l := by
  induction h with
  | refl => exact ⟨lockTableInit τ, .refl, LockMem.refines_init⟩
  | tail _ hstep ih =>
    obtain ⟨l, hreach, href⟩ := ih
    obtain ⟨t, hstep⟩ := hstep
    obtain ⟨l', hstep', href'⟩ := hstep.refines href hreach.clientLocks.table
    exact ⟨l', hreach.tail ⟨t, hstep'⟩, href'⟩

/-! ## What a step does to the entries -/

/-- A call into the lock table asks for a row. -/
theorem Client.Sound.call_covers {c : Client} {req : LockRequest} {mode : LockMode} (hs : c.Sound)
    (h : c.call = some (req, mode)) : ∃ id, req.Covers id := by
  cases c with
  | locking stmt need =>
    obtain ⟨⟨sql, hparse⟩, hneed⟩ := hs
    obtain ⟨rfl, rfl⟩ := Prod.mk.inj (Option.some.inj h)
    obtain ⟨-, -, rfl⟩ := determineLock_eq_some hparse hneed
    exact ⟨_, rfl⟩
  | insertLocking stmt id =>
    obtain ⟨rfl, rfl⟩ := Prod.mk.inj (Option.some.inj h)
    exact ⟨id, rfl⟩
  | scanLocking job ids id rest =>
    obtain ⟨rfl, rfl⟩ := Prod.mk.inj (Option.some.inj h)
    exact ⟨id, rfl⟩
  | _ => cases h

/-- What a step does to the entries of the lock table. -/
theorem DbSys.Step.entries {s s' : DbSys τ (listLocks τ).State} (h : ClientLocks s)
    (hstep : DbSys.Step (listLocks τ) t s s') :
    (∀ e : LockEntry τ, e.owner ≠ t → (e ∈ s'.locks.table.entries ↔ e ∈ s.locks.table.entries)) ∧
      ∀ e ∈ s'.locks.table.entries, e ∈ s.locks.table.entries ∨ ∃ id, e.Covers id := by
  have hsection : ∀ {env : ExecEnv} {req mode next} {a : LockAction τ} {r : LockReply}
      {locks : LockSys τ}, (s.clients t).instr env = .lock req mode next → a.self = t →
      a.Asks req mode → a.Enabled s.locks → a.exec s.locks = some (r, locks) →
      (∀ e : LockEntry τ, e.owner ≠ t → (e ∈ locks.table.entries ↔ e ∈ s.locks.table.entries)) ∧
        ∀ e ∈ locks.table.entries, e ∈ s.locks.table.entries ∨ ∃ id, e.Covers id := by
    intro env req mode next a r locks instr hself hasks hen hexec
    have hcall := call_of_instr instr
    have hacall := h.call_eq hself hasks hcall (enabled_waiting hen)
    have heff := exec_effect h.table hen hacall hexec
    rw [hself] at heff
    refine ⟨fun e he => heff.change.frame h.table e he, fun e he => ?_⟩
    rcases exec_entries h.table hen hexec e he with hold | ⟨req', mode', hcall', hgrant, -⟩
    · exact .inl hold
    · right
      rw [hacall] at hcall'
      obtain ⟨rfl, rfl⟩ := Prod.mk.inj (Option.some.inj hcall')
      obtain ⟨id, hid⟩ := (h.sound t).call_covers hcall
      have hcovers : e.grant.covers = {id | req.Covers id} := by rw [hgrant]
      exact ⟨id, (Set.ext_iff.mp hcovers id).mpr hid⟩
  cases hstep with
  | lock env instr a self asks enabled exec done => exact hsection instr self asks enabled exec
  | wait env instr a self asks enabled exec => exact hsection instr self asks enabled exec
  | release env instr enabled exec =>
    obtain ⟨-, rfl⟩ := Prod.mk.inj (Option.some.inj exec)
    obtain ⟨hchange, -, -⟩ := lockReleaseAll_spec h.table t
    exact ⟨fun e he => hchange.frame h.table e he, fun e he => .inl (mem_foldl_remove.mp he).1⟩
  | _ => exact ⟨fun _ _ => Iff.rfl, fun _ he => .inl he⟩

theorem DbSys.Reach.entries_cover {st : Pager} {s : DbSys τ (listLocks τ).State}
    (h : DbSys.Reach (listLocks τ) (DbSys.init (listLocks τ) st) s) :
    ∀ e ∈ s.locks.table.entries, ∃ id, e.Covers id := by
  induction h with
  | refl =>
    intro e he
    exact absurd he (by simp [DbSys.init, listLocks])
  | tail hreach hstep ih =>
    intro e he
    obtain ⟨t, hstep⟩ := hstep
    rcases (hstep.entries (DbSys.Reach.clientLocks hreach)).2 e he with hold | hnew
    · exact ih e hold
    · exact hnew

/-- A thread whose call has returned owns no entry. -/
theorem DbSys.Reach.returned_free {st : Pager} {s : DbSys τ (listLocks τ).State}
    (h : DbSys.Reach (listLocks τ) (DbSys.init (listLocks τ) st) s) {res : ExecResult}
    (hres : s.clients t = .returned res) : ∀ e ∈ s.locks.table.entries, e.owner ≠ t := by
  rintro e he rfl
  obtain ⟨id, hid⟩ := h.entries_cover e he
  have hmay := h.clientLocks.holds e.grant ⟨e, he, rfl⟩ id hid
  rw [show s.clients e.grant.owner = .returned res from hres] at hmay
  exact hmay

end Clients

end MiniDb
