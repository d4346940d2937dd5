import MiniDb.Clients.Schedule
import MiniDb.Db.Reach

/-! # Strict two-phase release

What the lock table in memory looks like during a run of its sections, and during a run of
`db_execute`: no entry of a thread goes before its call returns, and then all of them do. -/

set_option autoImplicit false

namespace MiniDb

/-- **The lists agree, and a call that has returned holds nothing.** In every run of threads on the
lock table the lists are well formed and every section runs to its end; and when they run
`db_execute`, a thread whose call has returned owns no entry, and a step of one thread removes or
changes no entry of another. -/
theorem strictTwoPhase (τ : Type) [DecidableEq τ] :
    (∀ m : LockMem τ, Relation.ReflTransGen LockMem.Step (LockMem.init τ) m →
      (∃ points ranges held, m.WellLinked points ranges held) ∧
        ∀ a, LockMem.Enabled a m → (m.exec a).isSome) ∧
    ∀ (st : Pager) (s : DbSys τ (memLocks τ).State),
      DbSys.Reach (memLocks τ) (DbSys.init (memLocks τ) st) s →
      (∃ points ranges held, LockMem.WellLinked s.locks points ranges held ∧
        ∀ t res, s.clients t = .returned res → held t = []) ∧
      (∀ t res, s.clients t = .returned res →
        ∀ a n, s.locks.nodes.lookup a = some n → n.owner ≠ t) ∧
      ∀ t (s' : DbSys τ (memLocks τ).State), DbSys.Step (memLocks τ) t s s' →
        ∀ a n, s.locks.nodes.lookup a = some n → n.owner ≠ t →
          ∃ n', s'.locks.nodes.lookup a = some n' ∧ n'.entry a = n.entry a := by
  refine ⟨fun m hm => ?_, fun st s hs => ?_⟩
  · obtain ⟨l, hreach, href⟩ := LockMem.exists_refines hm
    refine ⟨⟨_, _, _, href.wellLinked (lockInv_reachable hreach)⟩, fun a ha => ?_⟩
    obtain ⟨-, r, m', s', hrun, -⟩ := href.exec (lockInv_reachable hreach) ha
    rw [hrun]
    rfl
  · obtain ⟨l, hreach, href⟩ := hs.exists_refines
    have hlinked := href.wellLinked hreach.clientLocks.table
    have hfree : ∀ t res, s.clients t = .returned res →
        ∀ a n, s.locks.nodes.lookup a = some n → n.owner ≠ t :=
      fun t res hres a n hn => hreach.returned_free hres _ (href.table.entry_mem hn)
    refine ⟨⟨_, _, _, hlinked, fun t res hres => ?_⟩, hfree, ?_⟩
    · rw [List.eq_nil_iff_forall_not_mem]
      intro a ha
      obtain ⟨-, n, hn, howner⟩ := (hlinked.holds t a).mp ha
      exact hfree t res hres a n hn howner
    · intro t s' hstep a n hn hne
      obtain ⟨l', hstep', href'⟩ := hstep.refines href hreach.clientLocks.table
      have hmem := ((hstep'.entries hreach.clientLocks).1 (n.entry a) hne).mpr
        (href.table.entry_mem hn)
      exact href'.table.exists_node hmem

/-! One thread has deleted nothing and has returned, another has come as far as the engine lock. -/

/-- The turns of two DELETEs. -/
def twoDeletes : List (Turn Bool) :=
  [.call false (cstr "DELETE FROM t WHERE id = 3"),
    .call true (cstr "DELETE FROM t WHERE id = 5"), .tick false 1, .tick true 2, .tick false 3,
    .tick false 3, .tick false 3, .tick false 3]

/-- The system behind them, over a new table. -/
def deletedByOne : DbSys Bool (LockMem Bool) := DbSys.behind grantingEnv intTable twoDeletes

theorem strictTwoPhase_deletedByOne :
    (∃ m : LockMem Nat, Relation.ReflTransGen LockMem.Step (LockMem.init Nat) m ∧
      ∃ points ranges held, m.WellLinked points ranges held ∧ 100 ∈ held 1) ∧
    DbSys.Reach (memLocks Bool) (DbSys.init (memLocks Bool) intTable) deletedByOne ∧
      (∃ res, deletedByOne.clients false = .returned res) ∧
      ∃ points ranges held, LockMem.WellLinked deletedByOne.locks points ranges held ∧
        held false = [] ∧ 2 ∈ held true := by
  constructor
  · obtain ⟨m, hexec, n, hn, howner⟩ : ∃ m,
        (LockMem.init Nat).exec (.acquire 1 5 .x (some 100)) = some (.granted, m) ∧
        ∃ n, m.nodes.lookup 100 = some n ∧ n.owner = 1 :=
      ⟨_, rfl, _, rfl, rfl⟩
    have hen : LockMem.Enabled (.acquire 1 5 .x (some 100)) (LockMem.init Nat) := by
      refine ⟨rfl, ?_⟩
      rintro _ ⟨⟩
      exact ⟨by decide, Finmap.notMem_empty⟩
    have hrun : Relation.ReflTransGen LockMem.Step (LockMem.init Nat) m :=
      .single ⟨_, hen, _, hexec⟩
    obtain ⟨points, ranges, held, hlinked⟩ := ((strictTwoPhase Nat).1 m hrun).1
    have hlive := (hlinked.live 100).mp (Finmap.mem_of_lookup_eq_some hn)
    exact ⟨m, hrun, points, ranges, held, hlinked,
      (hlinked.holds 1 100).mpr ⟨hlive, n, hn, howner⟩⟩
  · have hrun : DbSys.Reach (memLocks Bool) (DbSys.init (memLocks Bool) intTable) deletedByOne :=
      DbSys.reach_behind (by decide +kernel)
    have hret : (deletedByOne.clients false).report.isSome = true := by decide +kernel
    have howner : (deletedByOne.locks.nodes.lookup 2).map LockNode.owner = some true := by
      decide +kernel
    obtain ⟨res, hres⟩ := Client.returned_of_report hret
    obtain ⟨n, hn, howner⟩ := Option.map_eq_some_iff.mp howner
    obtain ⟨⟨points, ranges, held, hlinked, hnone⟩, -, -⟩ :=
      (strictTwoPhase Bool).2 intTable deletedByOne hrun
    have hlive := (hlinked.live 2).mp (Finmap.mem_of_lookup_eq_some hn)
    exact ⟨hrun, ⟨res, hres⟩, points, ranges, held, hlinked, hnone false res hres,
      (hlinked.holds true 2).mpr ⟨hlive, n, hn, howner⟩⟩

end MiniDb
