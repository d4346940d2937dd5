import MiniDb.Db.Blind
import MiniDb.Db.Reach

/-! # Closing a file and opening it again

What `pager_open` recomputes from the file is the last heap page and the hint. Nobody sees the
difference: whatever texts are run in however many sessions, the file being closed and opened again
between them, the results and the places of all rows are those of one long session. -/

set_option autoImplicit false

namespace MiniDb

open Lib

/-- A text, and the surroundings it is run in. -/
abbrev SqlCall := ExecEnv × CString

/-- The texts of one session. -/
def runTexts (texts : List SqlCall) : PagerM (List ExecResult) :=
  runAll (fun c => dbExecute c.1 c.2) texts

/-- Sessions, with the file closed behind each and opened again. -/
def runSessions : List (List SqlCall) → PagerM (List ExecResult)
  | [] => return []
  | texts :: sessions => do
    let results ← runTexts texts
    pagerReopen
    return results ++ (← runSessions sessions)

/-! ## The hint of a database -/

section

variable {st st' t : Pager} {entries : List (Nat × RowRef)} {chain : HeapChain} {env : ExecEnv}
  {stmt : Statement} {sql : CString} {rowSize : Nat}

theorem Stored.sameRows (h : Stored st rowSize entries chain) (hs : st.SameRows st')
    (hhint : st'.heapMayHaveFreeSlots = false → ∀ n ∈ chain, n.2.freeSlotHead = slotNone) :
    Stored st' rowSize entries chain := by
  obtain ⟨t, b, rfl⟩ := hs
  obtain ⟨free, leaves, rows, hat, rfl⟩ := h
  have hfree : Pager.FreeList { st with trace := t, heapMayHaveFreeSlots := b } free :=
    hat.tree.freeList.congr (fun _ _ => rfl) rfl rfl
  refine ⟨free, leaves, rows, ⟨?_, ?_, hat.disjoint, hat.owned⟩, rfl⟩
  · exact hat.tree.frame hfree (fun _ _ => rfl) hat.tree.held rfl rfl
  · exact ⟨hfree, hat.heap.pages, hat.heap.links, hat.heap.last, hat.heap.nodup, hat.heap.held,
      hat.heap.layout, hhint⟩

/-- A database is one under any hint that hides no free slot. -/
theorem DbInv.sameRows (h : DbInv st entries chain) (hs : st.SameRows st')
    (hhint : st'.heapMayHaveFreeSlots = false → ∀ n ∈ chain, n.2.freeSlotHead = slotNone) :
    DbInv st' entries chain := by
  have hstored := h.stored.sameRows hs hhint
  obtain ⟨t, b, rfl⟩ := hs
  exact {
    pageSize := h.pageSize
    stored := hstored
    refs := h.refs
    keys := h.keys
    nextId_pos := h.nextId_pos
    nextId_lt := h.nextId_lt
    rowCount := h.rowCount
    rowSize := h.rowSize
    room := h.room
    noTable := h.noTable
    idFirst := h.idFirst
    schema := fun hv => ⟨(h.schema hv).sound, (h.schema hv).contiguous, (h.schema hv).rowSize⟩
    sizes := h.sizes
    contents := fun hs => h.contents ⟨hs.sound, hs.contiguous, hs.rowSize⟩ }

/-- Opening a database again. -/
theorem DbInv.reopen (h : DbInv st entries chain) :
    ∃ st', pagerReopen.run st = some ((), st') ∧ st.SameRows st' ∧ DbInv st' entries chain := by
  obtain ⟨free, leaves, rows, hat, -⟩ := id h.stored
  obtain ⟨t, hrun⟩ := hat.heap.chainAt.reopen
  refine ⟨_, hrun, ⟨_, _, rfl⟩, h.sameRows ⟨_, _, rfl⟩ fun hoff n hn => ?_⟩
  -- the hint is off only where the walk has met no free slot
  have hnone : chain.any (fun n => n.2.freeSlotHead ≠ slotNone) = false := hoff
  rw [List.any_eq_false] at hnone
  simpa using hnone n hn

/-- The hint of a database hides no free slot. -/
theorem DbInv.slotsHinted (h : DbInv st entries chain) : SlotsHinted st := by
  obtain ⟨free, leaves, rows, hat, -⟩ := h.stored
  refine ⟨free, chain, hat.heap.chainAt, fun p hp next => hat.not_free hp next, ?_, hat.heap.hint⟩
  intro n hn
  rcases h.room with hfit | ⟨pid, hchain⟩
  · obtain ⟨slots, hlay⟩ := hat.heap.layout n hn
    exact ⟨slots, hlay.chain, hlay.nodup, hlay.free_iff, hlay.lt_slotNone hfit.small⟩
  · rw [hchain] at hn
    obtain rfl := List.mem_singleton.mp hn
    exact ⟨[], threaded_empty _ _ _⟩

/-! ## Statements -/

/-- Two databases that differ in the hint and the trace. -/
structure SameDb (st t : Pager) : Prop where
  left : ∃ entries chain, DbInv st entries chain
  right : ∃ entries chain, DbInv t entries chain
  sameRows : st.SameRows t

/-- A row gets the same place, since both searches find what a search without the hint does. -/
theorem heapInsert_rel (h : SlotsHinted st) (ht : SlotsHinted t) (hst : st.SameRows t)
    (rounds : Nat) (row : List UInt8) :
    Option.Rel (fun x y => x.1 = y.1 ∧ x.2.SameRows y.2) ((heapInsert rounds row).run st)
      ((heapInsert rounds row).run t) := by
  have hleft := heapInsert_agrees rounds row st t ⟨h, hst⟩
  have hright := heapInsert_agrees rounds row t t ⟨ht, .refl t⟩
  generalize (heapInsertNoHint rounds row).run t = z at hleft hright
  generalize (heapInsert rounds row).run st = x at hleft ⊢
  generalize (heapInsert rounds row).run t = y at hright ⊢
  cases hleft with
  | none =>
    cases hright with
    | none => exact .none
  | some hx =>
    cases hright with
    | some hy => exact .some ⟨hx.1.trans hy.1.symm, hx.2.2.trans hy.2.2.symm⟩

/-- An INSERT goes the same way under both hints. -/
theorem SameDb.execInsert (h : SameDb st t) :
    Option.Rel (fun x y => x.1 = y.1 ∧ x.2.SameRows y.2) ((execInsert env stmt).run st)
      ((execInsert env stmt).run t) := by
  obtain ⟨⟨entries, chain, hst⟩, ⟨entries', chain', ht⟩, hsame⟩ := h
  have hheader : t.header = st.header := by
    obtain ⟨tr, b, rfl⟩ := hsame
    rfl
  rw [MiniDb.execInsert, run_bind_get, run_bind_get, hheader]
  dsimp only
  split
  · exact blind_pure _ _ _ hsame
  cases hid : takeNextId.run st with
  | none =>
    rw [StateT.run_bind, StateT.run_bind, hid, blind_takeNextId.of_none hsame hid]
    exact .none
  | some x =>
    obtain ⟨myId, st₁⟩ := x
    obtain ⟨t₁, hidt, hsame₁⟩ := blind_takeNextId.of_run hsame hid
    rw [run_bind_of hid, run_bind_of hidt]
    split
    · exact blind_pure _ _ _ hsame₁
    cases hrow : rowSerialize st.header (insertRowValues st.header myId stmt) with
    | none => exact .none
    | some row =>
      -- the id is taken, and both are databases still
      have honly : ∀ {s s₁ : Pager} {es : List (Nat × RowRef)} {c : HeapChain}, DbInv s es c →
          takeNextId.run s = some (myId, s₁) → SlotsHinted s₁ := by
        intro s s₁ es c hinv hrun
        obtain ⟨-, hlt, hs₁⟩ := takeNextId_cases hrun
        have hids : s.OnlyIds s₁ := ⟨s.header.nextId + 1, s.trace, Nat.le_succ _, hlt, hs₁⟩
        exact (hinv.onlyIds hids).slotsHinted
      have hsome : ∀ s : Pager, (orUndefined (some row)).run s = some (row, s) := fun _ => rfl
      rw [run_bind_of (hsome st₁), run_bind_of (hsome t₁)]
      apply agrees_bind_run (heapInsert_rel (honly hst hid) (honly ht hidt) hsame₁ env.rounds row)
      intro ref
      apply (blind_bptreeInsert _ _).bind
      intro rc
      split
      · exact blind_pure _
      · exact blind_incrementRowCount.bind fun _ => blind_pure _

theorem SameDb.execute (h : SameDb st t) :
    Option.Rel (fun x y => x.1 = y.1 ∧ x.2.SameRows y.2) ((execute env stmt).run st)
      ((execute env stmt).run t) := by
  unfold MiniDb.execute
  split
  · exact blind_pure _ _ _ h.sameRows
  · split
    · exact blind_execCreateTable _ _ _ h.sameRows
    · exact h.execInsert
    · exact blind_execIndexLookup _ _ h.sameRows
    · exact blind_execIndexRangeScan _ _ h.sameRows
    · split
      · exact blind_execDeleteScan _ _ h.sameRows
      · exact blind_execUpdateScan _ _ h.sameRows
      · exact blind_execTableScan _ _ h.sameRows
    · exact blind_execIndexDelete _ _ h.sameRows
    · exact blind_execIndexUpdate _ _ h.sameRows
    · exact blind_execDropTable _ _ _ h.sameRows

/-- Every text takes two such databases to two such databases. -/
theorem agrees_dbExecute (env : ExecEnv) (sql : CString) :
    Agrees SameDb (dbExecute env sql) (dbExecute env sql) := by
  intro st t h
  have hrel : Option.Rel (fun x y => x.1 = y.1 ∧ x.2.SameRows y.2) ((dbExecute env sql).run st)
      ((dbExecute env sql).run t) := by
    unfold dbExecute
    split
    · unfold dbRun
      split
      · exact h.execute
      · split
        · exact h.execute
        · exact blind_pure _ _ _ h.sameRows
    · exact blind_pure _ _ _ h.sameRows
    · exact .none
  obtain ⟨entries, chain, hst⟩ := h.left
  obtain ⟨entries', chain', ht⟩ := h.right
  cases hs : (dbExecute env sql).run st with
  | none =>
    rw [hs] at hrel
    generalize (dbExecute env sql).run t = y at hrel ⊢
    cases hrel
    exact .none
  | some x =>
    obtain ⟨res, st'⟩ := x
    rw [hs] at hrel
    cases htr : (dbExecute env sql).run t with
    | none =>
      rw [htr] at hrel
      cases hrel
    | some y =>
      obtain ⟨res', t'⟩ := y
      rw [htr] at hrel
      have hboth : res = res' ∧ st'.SameRows t' := by
        cases hrel
        assumption
      exact .some ⟨hboth.1, (dbExecute_step hst hs).inv, (dbExecute_step ht htr).inv, hboth.2⟩

/-! ## Sessions -/

/-- The file is closed and opened again in one of them. -/
theorem SameDb.reopen (h : SameDb st t) : ∃ st', pagerReopen.run st = some ((), st') ∧ SameDb st' t := by
  obtain ⟨entries, chain, hst⟩ := h.left
  obtain ⟨st', hrun, hsame, hinv⟩ := hst.reopen
  exact ⟨st', hrun, ⟨entries, chain, hinv⟩, h.right, hsame.symm.trans h.sameRows⟩

theorem agrees_runSessions (sessions : List (List SqlCall)) :
    Agrees SameDb (runSessions sessions) (runTexts sessions.flatten) := by
  induction sessions with
  | nil => exact agrees_pure
  | cons texts sessions ih =>
    have hcall : ∀ c : SqlCall, Agrees SameDb (dbExecute c.1 c.2) (dbExecute c.1 c.2) :=
      fun c => agrees_dbExecute c.1 c.2
    have htexts : Agrees SameDb (runTexts texts) (runTexts texts) := Agrees.runAll hcall texts
    have happend : runTexts (texts ++ sessions.flatten) = do
        let rs ← runTexts texts
        let qs ← runTexts sessions.flatten
        return rs ++ qs := runAll_append _ _ _
    rw [runSessions, List.flatten_cons, happend]
    apply htexts.bind
    intro results s t hst
    obtain ⟨s', hreopen, hst'⟩ := hst.reopen
    rw [run_bind_of hreopen]
    exact agrees_bind_run (ih s' t hst') fun rest => agrees_pure

/-- **Closing and opening again is invisible.** Texts that are run from a new file on in any number
of sessions have the results they have in a single one, and in the end the header, the last heap
page and all pages of the file are the same. -/
theorem reopen_invisible {pageSize : Nat} (hps : IsPageSize pageSize)
    (sessions : List (List SqlCall)) :
    Option.Rel (fun x y => x.1 = y.1 ∧ x.2.SameRows y.2)
      ((runSessions sessions).run (pagerOpenCreate pageSize))
      ((runTexts sessions.flatten).run (pagerOpenCreate pageSize)) := by
  have hinv : ∃ entries chain, DbInv (pagerOpenCreate pageSize) entries chain :=
    ⟨_, _, dbInv_create hps⟩
  have hrel := agrees_runSessions sessions _ _ ⟨hinv, hinv, .refl _⟩
  generalize (runSessions sessions).run (pagerOpenCreate pageSize) = x at hrel ⊢
  generalize (runTexts sessions.flatten).run (pagerOpenCreate pageSize) = y at hrel ⊢
  cases hrel with
  | none => exact .none
  | some h => exact .some ⟨h.1, h.2.sameRows⟩

end

/-- A table with two rows, of which one is deleted, and a new row in the next session. -/
theorem reopen_invisible_twoSessions :
    Option.Rel (fun x y => x.1 = y.1 ∧ x.2.SameRows y.2)
      ((runSessions [[(grantingEnv, cstr "CREATE TABLE t (a INT)"),
        (grantingEnv, cstr "INSERT INTO t VALUES (7)"),
        (grantingEnv, cstr "INSERT INTO t VALUES (9)"),
        (grantingEnv, cstr "DELETE FROM t WHERE id = 1")],
        [(grantingEnv, cstr "INSERT INTO t VALUES (5)")]]).run (pagerOpenCreate 4096))
      ((runTexts [(grantingEnv, cstr "CREATE TABLE t (a INT)"),
        (grantingEnv, cstr "INSERT INTO t VALUES (7)"),
        (grantingEnv, cstr "INSERT INTO t VALUES (9)"),
        (grantingEnv, cstr "DELETE FROM t WHERE id = 1"),
        (grantingEnv, cstr "INSERT INTO t VALUES (5)")]).run (pagerOpenCreate 4096)) :=
  reopen_invisible ⟨12, le_refl _, rfl⟩ _

end MiniDb
