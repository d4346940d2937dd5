import Mathlib.Algebra.Order.BigOperators.Group.List
import MiniDb.Db.Reach
import MiniDb.Storage.Bptree.Capacity

/-! # Insertions that succeed

While there are ids for rows and for pages, a row that fits a page is stored. So a table can have any
number of rows up to a little over `2 ^ 31`: the pages that its heap and its index take are far fewer
than there are page ids. -/

set_option autoImplicit false

namespace MiniDb

open Lib

section Pages

variable {st st' : Pager} {rowSize n : Nat} {free free' : List Nat} {leaves : List LeafNode}
  {rows : List Row} {chain chain' : HeapChain}

/-- The pages of the file, one after the other, are the pages of the three owners. -/
theorem StoredAt.perm_pages (h : StoredAt st rowSize free leaves rows chain) :
    (List.range' 1 (st.header.nextPageId - 1)).Perm
      (chain.pids ++ treePids leaves rows ++ free) := by
  have hnd : (chain.pids ++ treePids leaves rows ++ free).Nodup := by
    refine (h.heap.nodup.append h.tree.nodup ?_).append h.tree.freeList.nodup ?_
    · intro p hp hp'
      exact h.disjoint p hp' hp
    · intro p hp hp'
      rcases List.mem_append.mp hp with hp | hp
      · exact (h.heap.held p hp).not_mem hp'
      · exact (h.tree.held p hp).not_mem hp'
  rw [List.perm_ext_iff_of_nodup List.nodup_range' hnd]
  intro p
  rw [List.mem_range'_1, List.mem_append, List.mem_append]
  have hpos := h.tree.freeList.pos
  constructor
  · intro hp
    by_cases hfree : p ∈ free
    · exact .inr hfree
    · exact .inl ((h.owned p ⟨by omega, by omega, hfree⟩).symm)
  · intro hp
    have hbounds : p ≠ 0 ∧ p < st.header.nextPageId := by
      rcases hp with (hp | hp) | hp
      · exact ⟨(h.heap.held p hp).1, (h.heap.held p hp).2.1⟩
      · exact ⟨(h.tree.held p hp).1, (h.tree.held p hp).2.1⟩
      · exact ⟨h.tree.freeList.chain.ne_zero p hp, h.tree.freeList.lt p hp⟩
    omega

/-- Every page id that has been given out is that of the header, or has one owner. -/
theorem StoredAt.nextPageId_eq (h : StoredAt st rowSize free leaves rows chain) :
    st.header.nextPageId =
      1 + chain.length + (treePids leaves rows).length + free.length := by
  have hlen := h.perm_pages.length_eq
  rw [List.length_range', List.length_append, List.length_append, HeapChain.pids,
    List.length_map] at hlen
  have hpos := h.tree.freeList.pos
  omega

/-- Pages can be had as long as the ones in use are few. -/
theorem StoredAt.hasRoom_iff (h : StoredAt st rowSize free leaves rows chain) :
    st.HasRoom free n ↔ 1 + chain.length + (treePids leaves rows).length + n < pageIdCount := by
  rw [Pager.HasRoom, h.nextPageId_eq]
  omega

theorem StoredAt.heapStep_room (h : StoredAt st rowSize free leaves rows chain)
    (hs : HeapStep st free chain st' free' chain') (hinv : HeapInv st' free' rowSize chain')
    (hroom : st.HasRoom free (n + 1)) : st'.HasRoom free' n := by
  obtain ⟨new, hpids, hnew, -⟩ := hs.pids
  have hlen := congrArg List.length hpids
  rw [List.length_append, HeapChain.pids, HeapChain.pids, List.length_map, List.length_map] at hlen
  rw [h.hasRoom_iff] at hroom
  rw [(h.heapStep hs hinv).hasRoom_iff]
  omega

/-- The pages of a tree with these entries, for pages of 4096 bytes: two for each 145 entries. -/
theorem TreeInv.length_treePids_le (h : TreeInv st free leaves rows) (hps : st.pageSize = 4096) :
    (treePids leaves rows).length ≤ 2 + 2 * ((treeEntries leaves).length / 145) := by
  have hinner := h.upper.length_rowsPids_le h.occupied h.pageSize
  have hleaves := h.length_leaves
  rw [hps, show minLeafKeys 4096 = 145 by decide] at hleaves
  rw [List.length_map] at hinner
  rw [treePids, List.length_append, List.length_map]
  omega

/-- Of a tree with many entries, for pages of 4096 bytes, there are many leaves. -/
theorem TreeInv.length_entries_le (h : TreeInv st free leaves rows) (hps : st.pageSize = 4096) :
    (treeEntries leaves).length ≤ leaves.length * 291 := by
  rw [treeEntries, List.length_flatMap]
  have hmax : ∀ k ∈ leaves.map fun n => n.entries.length, k ≤ 291 := by
    intro k hk
    obtain ⟨n, hn, rfl⟩ := List.mem_map.mp hk
    have hocc := (h.leafOcc n hn).2
    rw [hps] at hocc
    exact hocc
  have hsum := List.sum_le_card_nsmul _ 291 hmax
  rwa [List.length_map] at hsum

/-- A tree with more entries than a leaf holds has an internal node. -/
theorem TreeInv.rows_ne_nil_of_many (h : TreeInv st free leaves rows) (hps : st.pageSize = 4096)
    (hmany : 291 < (treeEntries leaves).length) : rows ≠ [] := by
  rintro rfl
  have hone : leaves.length = 1 := by simpa using congrArg List.length h.upper.1
  have hle := h.length_entries_le hps
  omega

/-- The links of the pages lead to one chain only. -/
theorem heapLinks_unique {g : Nat → Page} {head : Nat} (hlinks : HeapLinks head chain)
    (hlinks' : HeapLinks head chain') (hpages : ∀ n ∈ chain, g n.1 = .heap n.2)
    (hpages' : ∀ n ∈ chain', g n.1 = .heap n.2) (hne : ∀ p ∈ chain.pids, p ≠ 0)
    (hne' : ∀ p ∈ chain'.pids, p ≠ 0) : chain = chain' := by
  induction chain generalizing head chain' with
  | nil =>
    obtain rfl : head = 0 := hlinks
    cases chain' with
    | nil => rfl
    | cons m ms => exact absurd hlinks'.1.symm (hne' m.1 List.mem_cons_self)
  | cons n ns ih =>
    obtain ⟨rfl, hrest⟩ := hlinks
    cases chain' with
    | nil => exact absurd hlinks' (hne n.1 List.mem_cons_self)
    | cons m ms =>
      obtain ⟨hhead, hrest'⟩ := hlinks'
      have hpage := hpages n List.mem_cons_self
      rw [hhead, hpages' m List.mem_cons_self] at hpage
      have hnm : n = m := Prod.ext hhead (Page.heap.inj hpage).symm
      subst hnm
      rw [ih hrest hrest' (fun k hk => hpages k (List.mem_cons_of_mem _ hk))
        (fun k hk => hpages' k (List.mem_cons_of_mem _ hk))
        (fun p hp => hne p (List.mem_cons_of_mem _ hp))
        (fun p hp => hne' p (List.mem_cons_of_mem _ hp))]

end Pages

section Insert

variable {st : Pager} {env : ExecEnv} {stmt : Statement} {free : List Nat}
  {leaves : List LeafNode} {rows : List Row} {chain : HeapChain} {row : List UInt8}

theorem dbRun_insert (h : stmt.type = .insert) : dbRun env stmt = execInsert env stmt := by
  simp [dbRun, determineLock, lockModeOf, execute, plannerCreatePlan, planByType, h]

/-- Nothing keeps an insertion from its row: not the lock, the ids, or the pages. -/
structure InsertReady (st : Pager) (env : ExecEnv) (free : List Nat) : Prop where
  lock : env.lockAcquire st.header.nextId .x = true
  rounds : 0 < env.rounds
  ids : st.header.nextId + 1 < 2 ^ 64
  room : st.HasRoom free (maxTreeDepth + 2)

/-- **An insertion that is ready stores its row**, on one more page of the heap at most. -/
theorem DbInv.run_execInsert (h : DbInv st (treeEntries leaves) chain)
    (hat : StoredAt st st.header.rowSize free leaves rows chain) (hready : InsertReady st env free)
    (hcols : st.header.columns ≠ []) (hfit : RowFits st.pageSize st.header.rowSize)
    (hrow : rowSerialize st.header (insertRowValues st.header st.header.nextId stmt) = some row) :
    ∃ st' free' leaves' rows' chain',
      (execInsert env stmt).run st = some (.done (.inserted st.header.nextId), st') ∧
      StoredAt st' st'.header.rowSize free' leaves' rows' chain' ∧
      DbInv st' (treeEntries leaves') chain' ∧
      SameSchema st'.header st.header ∧ st'.pageSize = st.pageSize ∧
      st'.header.nextId = st.header.nextId + 1 ∧
      (treeEntries leaves').length = (treeEntries leaves).length + 1 ∧
      chain'.length ≤ chain.length + 1 := by
  obtain ⟨rounds, hrounds⟩ : ∃ n, env.rounds = n + 1 :=
    ⟨env.rounds - 1, (Nat.sub_add_cancel hready.rounds).symm⟩
  set st₁ := st.setHeader { st.header with nextId := st.header.nextId + 1 } with hst₁
  have hat₁ : StoredAt st₁ st.header.rowSize free leaves rows chain :=
    hat.samePages ⟨rfl, rfl, rfl, rfl, rfl, rfl, rfl, rfl⟩
  have hdepth := hat.tree.depth
  have hroom₁ : st₁.HasRoom free (rows.length + 2 + 1) := by
    have hroom : st.HasRoom free (rows.length + 2 + 1) := hready.room.mono (by omega)
    exact hroom
  -- the row goes to the heap
  obtain ⟨ref, st₂, free₂, chain₂, l, r, hheap, hinv₂, hstep₂, -⟩ | ⟨hfull, -⟩ :=
    heapInsert_spec hat₁.heap hfit (length_rowSerialize hrow) rounds
  case inr => exact absurd (hroom₁.mono (by omega)) hfull
  have hat₂ := hat₁.heapStep hstep₂ hinv₂
  have hroom₂ := hat₁.heapStep_room hstep₂ hinv₂ hroom₁
  -- and its key to the index
  have hnew : ∀ e ∈ treeEntries leaves, e.1 ≠ st.header.nextId :=
    fun e he => ne_of_lt (h.keys e he).2
  obtain ⟨st₃, free₃, leaves₃, rows₃, l', r', htree, hstep₃, hinv₃, -⟩ | ⟨hfull, -⟩ :=
    bptreeInsert_new hat₂.tree ref h.nextId_lt hnew
  case inr => exact absurd hroom₂ hfull
  set st' := st₃.setHeader { st₃.header with rowCount := st₃.header.rowCount + 1 } with hst'
  have hrun : (execInsert env stmt).run st = some (.done (.inserted st.header.nextId), st') := by
    have hid : takeNextId.run st = some (st.header.nextId, st₁) := by
      rw [takeNextId, run_bind_get]
      simp only [guard, if_pos hready.ids]
      rfl
    have hserial : (orUndefined (rowSerialize st.header
        (insertRowValues st.header st.header.nextId stmt))).run st₁ = some (row, st₁) := by
      rw [hrow]
      rfl
    rw [execInsert, run_bind_get, if_neg hcols, run_bind_of hid, hready.lock]
    show (orUndefined _ >>= _ : PagerM ExecResult).run st₁ = _
    rw [run_bind_of hserial, hrounds, run_bind_of hheap, run_bind_of htree, if_neg (by simp)]
    rfl
  have hsame := hstep₂.sameTable.trans hstep₃.sameTable
  have hat₃ : StoredAt st₃ st.header.rowSize free₃ leaves₃ rows₃ chain₂ :=
    hat₂.treeStep hstep₃ hinv₃
  have hat' : StoredAt st' st'.header.rowSize free₃ leaves₃ rows₃ chain₂ := by
    have hsize : st'.header.rowSize = st.header.rowSize := hsame.rowSize
    rw [hsize]
    exact hat₃.samePages ⟨rfl, rfl, rfl, rfl, rfl, rfl, rfl, rfl⟩
  obtain ⟨message, hne, hres, -⟩ | ⟨ref', row', l₁, r₁, chain', -, -, hkept, hentries, hinv', -⟩ :=
    execInsert_cases h hrun
  · cases hres
  -- what the invariant is about are the pages that the steps have left
  obtain ⟨free'', leaves'', rows'', hat'', heq⟩ := hinv'.stored
  have hchain : chain' = chain₂ := heapLinks_unique hat''.heap.links hat'.heap.links
    hat''.heap.pages hat'.heap.pages hat''.heap.ne_zero hat'.heap.ne_zero
  obtain ⟨new, hpids, hone, -⟩ := hstep₂.pids
  have hlen := congrArg List.length hpids
  rw [List.length_append, HeapChain.pids, HeapChain.pids, List.length_map, List.length_map] at hlen
  refine ⟨st', free'', leaves'', rows'', chain', hrun, hat'', heq ▸ hinv', hkept.schema,
    hkept.pageSize, hsame.nextId, ?_, ?_⟩
  · rw [heq, hentries]
    simp only [List.length_append, List.length_cons]
    omega
  · rw [hchain]
    omega

end Insert

/-! ## A table with many rows -/

/-- A database with this many rows in the table of one INT column. -/
structure IntRows (n : Nat) (st : Pager) (free : List Nat) (leaves : List LeafNode) (rows : List Row)
    (chain : HeapChain) : Prop where
  reach : DbReach 4096 st
  stored : StoredAt st st.header.rowSize free leaves rows chain
  inv : DbInv st (treeEntries leaves) chain
  schema : SameSchema st.header intTable.header
  pageSize : st.pageSize = 4096
  entries : (treeEntries leaves).length = n
  pages : chain.length ≤ n + 1
  nextId : st.header.nextId = n + 1

section IntRows

variable {n : Nat} {st : Pager} {free : List Nat} {leaves : List LeafNode} {rows : List Row}
  {chain : HeapChain}

theorem exists_intRows_zero : ∃ free leaves rows chain, IntRows 0 intTable free leaves rows chain := by
  obtain ⟨entries, chain, hinv, hps⟩ := dbReach_intTable.inv ⟨12, le_refl _, rfl⟩
  obtain ⟨free, leaves, rows, hat, rfl⟩ := hinv.stored
  have hids : intTable.header.nextPageId = 3 := rfl
  have htree : 0 < (treePids leaves rows).length :=
    List.length_pos_of_mem (hat.tree.mem_treePids_iff.mpr ⟨0, .here⟩)
  have hpages := hat.nextPageId_eq
  exact ⟨free, leaves, rows, chain, dbReach_intTable, hat, hinv, ⟨rfl, rfl⟩, hps,
    hinv.rowCount.symm, by omega, rfl⟩

/-- A row more, as long as there are not too many for the ids of pages. -/
theorem IntRows.insert (h : IntRows n st free leaves rows chain) (hn : n ≤ 2147483648) :
    ∃ st' free' leaves' rows' chain', IntRows (n + 1) st' free' leaves' rows' chain' := by
  set stmt : Statement :=
    { type := .insert, tableName := cstr "t", insertValues := [cstr "7"] } with hstmt
  have hparse : parse (cstr "INSERT INTO t VALUES (7)") = .ok stmt := by
    decide +kernel
  have hcols : st.header.columns = intTable.header.columns := h.schema.columns
  have hsound : SoundSchema st.header := by
    apply h.inv.schema
    rw [hcols]
    unfold VarcharUsable
    decide
  have hready : InsertReady st grantingEnv free := by
    refine ⟨rfl, Nat.one_pos, ?_, ?_⟩
    · rw [h.nextId]
      omega
    · have htree := h.stored.tree.length_treePids_le h.pageSize
      have hpages := h.pages
      rw [h.entries] at htree
      rw [h.stored.hasRoom_iff, maxTreeDepth, pageIdCount]
      omega
  have hfit : RowFits st.pageSize st.header.rowSize := by
    rw [h.pageSize, h.schema.rowSize]
    exact ⟨by decide, by decide⟩
  have hne : st.header.columns ≠ [] := by
    rw [hcols]
    decide
  obtain ⟨st', free', leaves', rows', chain', hrun, hat', hinv', hsame, hps, hnext, hentries,
      hchain⟩ := h.inv.run_execInsert h.stored hready hne hfit
    (hsound.rowSerialize (@insertRowValues_wellTyped _ stmt _ (h.inv.idFirst hne)))
  have hreach : DbReach 4096 st' := by
    rw [← dbRun_insert rfl, ← dbExecute_of_parse hparse] at hrun
    exact h.reach.run hrun
  have hpages := h.pages
  exact ⟨st', free', leaves', rows', chain', hreach, hat', hinv',
    ⟨hsame.columns.trans h.schema.columns, hsame.rowSize.trans h.schema.rowSize⟩,
    hps.trans h.pageSize, by rw [hentries, h.entries], by omega, by rw [hnext, h.nextId]⟩

/-- Tables of any number of rows up to a little over `2 ^ 31` can be had. -/
theorem exists_intRows (hn : n ≤ 2147483649) :
    ∃ st free leaves rows chain, IntRows n st free leaves rows chain := by
  induction n with
  | zero => exact ⟨intTable, exists_intRows_zero⟩
  | succ n ih =>
    obtain ⟨st, free, leaves, rows, chain, h⟩ := ih (Nat.le_of_succ_le hn)
    exact h.insert (Nat.le_of_succ_le_succ hn)

end IntRows

end MiniDb
