import MiniDb.Db.Reach
import MiniDb.Storage.Bptree.PinDiscipline
import MiniDb.Storage.Heap.Pins

/-! # The pins and latches of a statement

What the functions of `executor.c` take and give back. They take read latches through lookups and
scans and write latches through the heap and the index, and end with none: the one exception is a
DELETE that repairs an internal node of the index, which takes a table of many rows. -/

set_option autoImplicit false

namespace MiniDb

open Lib

section

variable {fresh : Set Nat} {L : Ledger} {env : ExecEnv} {stmt : Statement} {hdr : DbHeader}

theorem pays_orUndefined {α : Type} (o : Option α) : Pays fresh (orUndefined o) L fun _ => L := by
  cases o with
  | none => exact records_failure
  | some a => exact records_pure rfl

/-! ## Reading -/

theorem balanced_scanMatching {γ : Type} (push : RowValues → γ → Bool × Option γ) (ctx : γ) :
    Balanced (scanMatching env stmt push ctx) := fun _ =>
  records_get.bind fun _ => (pays_heapScan _ _ _ _).bind fun _ => pays_orUndefined _

theorem balanced_execIndexLookup : Balanced (execIndexLookup stmt) := by
  intro L
  apply records_get.bind
  intro st
  apply (balanced_bptreeSearch _ L).bind
  intro found
  cases found with
  | none => exact records_pure rfl
  | some ref =>
    apply (pays_heapFetch _ _).bind
    intro row
    cases row with
    | none => exact records_pure rfl
    | some row =>
      apply (pays_orUndefined _).bind
      intro values
      exact (pays_pagerUnlatchR rfl).bind fun _ => records_pure rfl

theorem balanced_fetchMatchingRowById (id : Nat) :
    Balanced (fetchMatchingRowById hdr id stmt) := by
  intro L
  apply (balanced_bptreeSearch _ L).bind
  intro found
  cases found with
  | none => exact records_pure rfl
  | some ref =>
    apply (pays_heapFetch _ _).bind
    intro row
    cases row with
    | none => exact records_pure rfl
    | some row =>
      apply (pays_orUndefined _).bind
      intro values
      apply (pays_pagerUnlatchR rfl).bind
      intro _
      split <;> exact records_pure rfl

/-- The latch that the second phase of a range scan holds. -/
def latchOf (cur : Option Nat) (L : Ledger) : Ledger :=
  match cur with
  | none => L
  | some pid => .rlatch pid ::ₘ L

/-- The latch moves to the page of the next row. -/
theorem pays_latchRowPage (cur : Option Nat) (pid : Nat) :
    Pays fresh (latchRowPage cur pid) (latchOf cur L) fun _ => latchOf (some pid) L := by
  cases cur with
  | none => exact pays_pagerGetPageRlatch
  | some curPid =>
    by_cases hpid : pid = curPid
    · subst hpid
      show Pays fresh (if pid ≠ pid then _ else _) _ _
      rw [if_neg (by simp)]
      exact records_pure rfl
    · show Pays fresh (if pid ≠ curPid then _ else _) _ _
      rw [if_pos hpid]
      exact (pays_pagerUnlatchR rfl).bind fun _ => pays_pagerGetPageRlatch

theorem pays_fetchRange (cur : Option Nat) (refs : List RowRef) :
    Pays fresh (fetchRange hdr cur refs) (latchOf cur L) fun _ => L := by
  induction refs generalizing cur with
  | nil =>
    cases cur with
    | none =>
      show Pays fresh (pure []) L fun _ => L
      exact records_pure rfl
    | some pid => exact (pays_pagerUnlatchR rfl).bind fun _ => records_pure rfl
  | cons ref refs ih =>
    rw [fetchRange]
    apply (pays_latchRowPage cur ref.pageId).bind
    intro _
    apply pays_readHeap.bind
    intro hph
    apply (pays_orUndefined _).bind
    intro slot
    split
    · apply (pays_orUndefined _).bind
      intro row
      apply (pays_orUndefined _).bind
      intro values
      exact (ih _).bind fun _ => records_pure rfl
    · exact ih _

theorem balanced_execIndexRangeScan : Balanced (execIndexRangeScan env stmt) := by
  intro L
  apply records_get.bind
  intro st
  dsimp only
  split
  · exact records_pure rfl
  · apply (balanced_bptreeRangeScan _ _ _ L).bind
    intro found
    apply (pays_orUndefined _).bind
    intro rc
    split
    · exact records_pure rfl
    · exact (pays_fetchRange none _).bind fun _ => records_pure rfl

theorem balanced_printOrdered (cmp : RowValues → RowValues → Option Int) (rows : List RowValues) :
    Balanced (printOrdered hdr cmp stmt rows) := by
  intro L
  unfold printOrdered
  dsimp only
  split
  · exact (pays_orUndefined _).bind fun _ => records_pure rfl
  · rw [pure_bind]
    exact records_pure rfl

theorem balanced_execOrderedScan : Balanced (execOrderedScan env stmt) := by
  intro L
  apply records_get.bind
  intro st
  dsimp only
  split
  · exact records_pure rfl
  · split
    · split
      · exact records_pure rfl
      · exact (balanced_scanMatching _ _ L).bind fun _ => balanced_printOrdered _ _ L
    · split
      · exact records_pure rfl
      · apply (balanced_scanMatching _ _ L).bind
        intro rc
        split
        · exact records_pure rfl
        · exact balanced_printOrdered _ _ L

theorem balanced_execTableScan : Balanced (execTableScan env stmt) := by
  intro L
  apply records_get.bind
  intro st
  dsimp only
  split
  · split
    · exact records_pure rfl
    · exact (balanced_scanMatching _ _ L).bind fun _ => records_pure rfl
  · split
    · exact records_pure rfl
    · split
      · exact balanced_execOrderedScan L
      · exact (balanced_scanMatching _ _ L).bind fun _ => records_pure rfl

/-! ## Writing -/

theorem pays_updateRow (colIdx : Nat) (ref : RowRef) (values : RowValues) :
    Pays fresh (updateRow hdr stmt colIdx ref values) L fun _ => L := by
  apply (pays_orUndefined _).bind
  intro values'
  apply (pays_orUndefined _).bind
  intro row
  apply pays_pagerGetPageWlatch.bind
  intro _
  apply pays_readHeap.bind
  intro hph
  apply (pays_orUndefined _).bind
  intro slot
  apply (pays_orUndefined _).bind
  intro hph'
  apply (pays_writePage (.inl (Multiset.mem_cons_self _ _))).bind
  intro _
  exact pays_pagerMarkDirty.bind fun _ => pays_pagerUnlatchW rfl

theorem balanced_execIndexUpdate : Balanced (execIndexUpdate stmt) := by
  intro L
  apply records_get.bind
  intro st
  dsimp only
  split
  · exact records_pure rfl
  · apply (balanced_bptreeSearch _ L).bind
    intro found
    cases found with
    | none => exact records_pure rfl
    | some ref =>
      apply (pays_heapFetch _ _).bind
      intro row
      cases row with
      | none => exact records_pure rfl
      | some row =>
        apply (pays_orUndefined _).bind
        intro values
        apply (pays_pagerUnlatchR rfl).bind
        intro _
        exact (pays_updateRow _ _ _).bind fun _ => records_pure rfl

theorem balanced_updateLocked (colIdx : Nat) (ids : List Nat) :
    Balanced (updateLocked hdr stmt colIdx ids) := by
  intro L
  induction ids with
  | nil => exact records_pure rfl
  | cons id ids ih =>
    rw [updateLocked]
    apply (balanced_fetchMatchingRowById id L).bind
    intro found
    cases found with
    | none => exact ih
    | some p => exact (pays_updateRow _ _ _).bind fun _ => ih.bind fun _ => records_pure rfl

theorem balanced_execUpdateScan : Balanced (execUpdateScan env stmt) := by
  intro L
  apply records_get.bind
  intro st
  dsimp only
  split
  · exact records_pure rfl
  · apply (balanced_scanMatching _ _ L).bind
    intro uc
    split
    · exact records_pure rfl
    · split
      · exact records_pure rfl
      · exact (balanced_updateLocked _ _ L).bind fun _ => records_pure rfl

/-! ## Tables -/

theorem balanced_execCreateTable : Balanced (execCreateTable stmt) := by
  intro L
  apply records_get.bind
  intro st
  dsimp only
  split
  · exact records_pure rfl
  · apply (pays_orUndefined _).bind
    intro columns
    refine Records.bind (pays_modify ?_) fun _ => records_pure rfl
    exact fun _ => rfl

theorem balanced_freePages (pids : List Nat) : Balanced (freePages pids) := by
  intro L
  induction pids with
  | nil => exact records_pure rfl
  | cons pid pids ih =>
    rw [freePages]
    apply pays_pagerGetPage.bind
    intro _
    apply pays_readPage.bind
    intro page
    apply (pays_pagerUnpin rfl).bind
    intro _
    split
    · exact ih
    · exact (pays_pagerFreePage (.inr (Set.mem_univ pid))).bind fun _ => ih

theorem balanced_allocPageWith (page : Nat → Page) : Balanced (allocPageWith page) := by
  intro L
  apply (balanced_pagerAllocPage L).bind
  intro pid
  apply pays_pagerGetPage.bind
  intro _
  apply records_get.bind
  intro st
  apply (pays_writePage (.inr (Set.mem_univ pid))).bind
  intro _
  apply pays_pagerMarkDirty.bind
  intro _
  exact (pays_pagerUnpin rfl).bind fun _ => records_pure rfl

theorem balanced_execDropTable : Balanced (execDropTable stmt) := by
  intro L
  apply records_get.bind
  intro st
  dsimp only
  split
  · exact records_pure rfl
  · apply (balanced_freePages _ L).bind
    intro _
    apply (balanced_allocPageWith _ L).bind
    intro newHeap
    apply (balanced_allocPageWith _ L).bind
    intro newRoot
    refine Records.bind (pays_modify ?_) fun _ => records_pure rfl
    exact fun _ => rfl

end

/-! ## The index -/

section Index

variable {st st' : Pager} {free : List Nat} {leaves : List LeafNode} {rows : List Row}
  {entries : List (Nat × RowRef)} {chain : HeapChain} {rowSize key : Nat} {ref : RowRef}

/-- An insertion gives everything back. -/
theorem TreeInv.paid_bptreeInsert (h : TreeInv st free leaves rows) {r : Int}
    (hrun : (bptreeInsert key ref).run st = some (r, st')) : Paid Set.univ st 0 st' 0 := by
  obtain ⟨⟨leafPid, stack⟩, st₁, hfind, hrun⟩ := run_bind_eq_some.mp hrun
  have hpaid : Paid Set.univ st 0 st₁ (wlatches stack + 0) := h.paid_findLeafWlatch hfind
  obtain ⟨lph, st₂, hread, hrun⟩ := run_bind_eq_some.mp hrun
  have hpaid₂ := hpaid.trans (pays_readLeaf _ _ _ hread)
  split at hrun
  · -- the key is there
    obtain ⟨_, st₃, hrelease, hrest⟩ := run_bind_eq_some.mp hrun
    obtain ⟨-, rfl⟩ := run_pure_eq_some.mp hrest
    exact hpaid₂.trans (pays_lsReleaseAll stack _ _ _ hrelease)
  · obtain ⟨pageSize, st₃, hps, hrun⟩ := run_bind_eq_some.mp hrun
    have hpaid₃ := hpaid₂.trans (pays_getPageSize _ _ _ hps)
    split at hrun
    · obtain ⟨_, st₄, hwrite, hrun⟩ := run_bind_eq_some.mp hrun
      obtain ⟨_, st₅, hdirty, hrun⟩ := run_bind_eq_some.mp hrun
      obtain ⟨_, st₆, hrelease, hrest⟩ := run_bind_eq_some.mp hrun
      obtain ⟨-, rfl⟩ := run_pure_eq_some.mp hrest
      exact ((hpaid₃.trans (pays_writeLeaf may _ _ _ hwrite)).trans
        (pays_pagerMarkDirty _ _ _ hdirty)).trans (pays_lsReleaseAll stack _ _ _ hrelease)
    · -- the leaf is split
      obtain ⟨promoted, st₄, hsplit, hrun⟩ := run_bind_eq_some.mp hrun
      obtain ⟨_, st₅, hpropagate, hrest⟩ := run_bind_eq_some.mp hrun
      obtain ⟨-, rfl⟩ := run_pure_eq_some.mp hrest
      exact (hpaid₃.trans (balanced_splitLeaf _ _ _ _ _ _ _ _ hsplit)).trans
        (pays_propagateInsert stack _ _ _ _ _ _ _ hpropagate)

/-- A tree with a node to repair has an internal node that is not the root. -/
theorem RepairsInternal.two_le (h : TreeInv st free leaves rows) (hr : RepairsInternal st key) :
    2 ≤ rows.length := by
  obtain ⟨leafPid, lph, iph, childIdx, hm, hnot, -⟩ := hr
  obtain ⟨a, n, b, hn⟩ := h.exists_leafFor key
  obtain ⟨st₁, -, hfind⟩ := h.findLeafRlatch hn
  obtain ⟨st₂, hfound⟩ := hm.found
  obtain ⟨rfl, -⟩ := Prod.mk.inj (Option.some.inj (hfound.symm.trans hfind))
  have hhead : n.head ∈ leaves.map LeafNode.head := List.mem_map_of_mem hn.mem
  have hparent : (st.pages n.pid).parent = lph.parentPageId := by
    rw [hm.leaf]
    rfl
  have hupper := h.upper
  cases rows with
  | nil =>
    -- the leaf would be the root
    rw [hupper.1, List.mem_singleton] at hhead
    exact absurd (congrArg Prod.snd hhead) hm.notRoot
  | cons row rest =>
    cases rest with
    | nil =>
      -- and here its parent would be
      obtain ⟨top, rfl, -, htop⟩ := hupper.single rfl
      rw [← hupper.1.kids, List.flatMap_singleton] at hhead
      have hroot := hupper.1.parent top List.mem_cons_self n.head hhead
      exact absurd (hparent.symm.trans (hroot.trans htop)) hnot
    | cons row' rest => exact Nat.le_add_left 2 rest.length

/-- A deletion that repairs no internal node gives everything back. -/
theorem LeafMerge.paid_done (m : LeafMerge st free key st') (hnot : ¬ RepairsInternal st key) :
    Paid Set.univ st 0 st' 0 := by
  obtain ⟨free₂, hs, q', hhead, hlen, hroot, hps, haround, -, -⟩ := m.rowsAround
  have hpid : q'.pid = m.q.pid := congrArg Prod.snd hhead
  obtain ⟨parent, hpage⟩ : ∃ parent, m.st₂.pages m.q.pid =
      .internal ⟨parent, q'.leftmost, q'.entries⟩ := by
    rw [← hpid]
    exact ⟨_, (haround.upper.1.on q' (by simp)).eq⟩
  have hpaid : Paid Set.univ st 0 m.st₂ (wlatches (m.n.pid :: m.q.pid :: m.above) + 0) := by
    rw [Multiset.add_zero]
    exact (paid_mono m.paid fun _ hp => hp.elim).trans (pays_mergeLeaves _ _ _ _ _ m.merge)
  rw [m.repairsInternal_iff] at hnot
  refine hpaid.trans (paid_propagateDelete_done m.propagate ?_)
  rw [hroot, hps]
  by_cases hq : m.q.pid = st.header.rootIndexPageId
  · exact .inl hq
  · refine .inr ⟨_, hpage, ?_⟩
    show _ ≤ q'.entries.length
    have hlong := fun h => hnot ⟨hq, h⟩
    omega

theorem TreeInv.paid_bptreeDelete (h : TreeInv st free leaves rows) {r : Int}
    (hrun : (bptreeDelete key).run st = some (r, st')) (hnot : ¬ RepairsInternal st key) :
    Paid Set.univ st 0 st' 0 := by
  rcases h.bptreeDelete_cases hrun with ⟨hpaid, -⟩ | ⟨⟨m⟩⟩
  · exact paid_mono hpaid fun _ hp => hp.elim
  · exact m.paid_done hnot

/-- The entries from which on an index may have internal nodes below its root. -/
def manyEntries (pageSize : Nat) : Nat :=
  2 * minLeafKeys pageSize * (minInternalKeys pageSize + 1)

/-- In an index with fewer entries no deletion repairs an internal node. -/
theorem TreeInv.not_repairsInternal (h : TreeInv st free leaves rows)
    (hfew : (treeEntries leaves).length < manyEntries st.pageSize) : ¬ RepairsInternal st key := by
  intro hr
  have htwo := hr.two_le h
  have hne : rows ≠ [] := by
    rintro rfl
    exact absurd htwo (by decide)
  have hpow : minInternalKeys st.pageSize + 1 ≤
      (minInternalKeys st.pageSize + 1) ^ (rows.length - 1) :=
    Nat.le_self_pow (by omega) _
  have hmany : manyEntries st.pageSize ≤ (treeEntries leaves).length :=
    Nat.le_trans (Nat.mul_le_mul_left _ hpow) (h.length_entries_ge hne)
  omega

end Index

/-! ## Statements -/

section Statements

variable {st st' : Pager} {entries : List (Nat × RowRef)} {chain : HeapChain} {env : ExecEnv}
  {stmt : Statement} {res : ExecResult} {hdr : DbHeader} {id : Nat} {ref : RowRef}

theorem Balanced.paid {α : Type} {m : PagerM α} {a : α} (h : Balanced m)
    (hrun : m.run st = some (a, st')) : Paid Set.univ st 0 st' 0 :=
  h 0 st a st' hrun

theorem DbInv.paid_execInsert (h : DbInv st entries chain)
    (hrun : (execInsert env stmt).run st = some (res, st')) : Paid Set.univ st 0 st' 0 := by
  rw [execInsert, run_bind_get] at hrun
  dsimp only at hrun
  split at hrun
  · obtain ⟨-, rfl⟩ := run_pure_eq_some.mp hrun
    exact .refl
  obtain ⟨myId, st₁, hid, hlock⟩ := run_bind_eq_some.mp hrun
  obtain ⟨rfl, hlt, hst₁⟩ := takeNextId_cases hid
  have hids : st.OnlyIds st₁ := ⟨st.header.nextId + 1, st.trace, Nat.le_succ _, hlt, hst₁⟩
  have h₁ := h.onlyIds hids
  have hpaid₁ : Paid Set.univ st 0 st₁ 0 := .silent (by rw [hst₁]; rfl)
  split at hlock
  · obtain ⟨-, rfl⟩ := run_pure_eq_some.mp hlock
    exact hpaid₁
  obtain ⟨row, st₂, hserial, hinsert⟩ := run_bind_eq_some.mp hlock
  obtain ⟨hrow, rfl⟩ := orUndefined_eq_some hserial
  obtain ⟨ref, st₃, hheap, hindex⟩ := run_bind_eq_some.mp hinsert
  obtain ⟨rc, st₄, htree, hcount⟩ := run_bind_eq_some.mp hindex
  -- the index is in order behind the insertion of the row
  have hlen : row.length = st₂.header.rowSize := by
    rw [length_rowSerialize hrow, hst₁]
    rfl
  obtain ⟨-, chain', -, -, hstored, -⟩ :=
    h₁.stored.insertRow (h₁.rowFits_of_insert hlen hheap) hlen hheap
  obtain ⟨free, leaves, rows, hat, -⟩ := hstored
  have hpaid₄ := (hpaid₁.trans ((balanced_heapInsert _ _).paid hheap)).trans
    (hat.tree.paid_bptreeInsert htree)
  split at hcount
  · obtain ⟨-, rfl⟩ := run_pure_eq_some.mp hcount
    exact hpaid₄
  · obtain ⟨u, st₅, hincr, hdone⟩ := run_bind_eq_some.mp hcount
    obtain rfl := run_modify_eq_some.mp hincr
    obtain ⟨-, rfl⟩ := run_pure_eq_some.mp hdone
    exact hpaid₄.trans (.silent rfl)

/-- Where the index has few entries, its deletions give everything back. -/
theorem Stored.paid_bptreeDelete {rowSize : Nat} {r : Int} (h : Stored st rowSize entries chain)
    (hfew : entries.length < manyEntries st.pageSize)
    (hrun : (bptreeDelete id).run st = some (r, st')) : Paid Set.univ st 0 st' 0 := by
  obtain ⟨free, leaves, rows, hat, rfl⟩ := h
  exact hat.tree.paid_bptreeDelete hrun (hat.tree.not_repairsInternal hfew)

/-- A row taken out of the heap and of the index. -/
theorem DbInv.paid_erase {rc rc' : Int} {st₁ st₂ : Pager} {u : Unit} (h : DbInv st entries chain)
    (hfew : entries.length < manyEntries st.pageSize) (hmem : (id, ref) ∈ entries)
    (hheap : (heapDelete ref).run st = some (rc, st₁))
    (htree : (bptreeDelete id).run st₁ = some (rc', st₂))
    (hcount : decrementRowCount.run st₂ = some (u, st')) : Paid Set.univ st 0 st' 0 := by
  obtain ⟨row, hrow⟩ := h.exists_row hmem
  obtain ⟨-, hsame, chain', -, -, hstored, -⟩ := h.stored.deleteRow hrow hheap
  have hpaid₂ : Paid Set.univ st 0 st₂ 0 := (pays_heapDelete ref _ _ _ hheap).trans
    (hstored.paid_bptreeDelete (by rw [hsame.pageSize]; exact hfew) htree)
  obtain rfl := run_modify_eq_some.mp hcount
  exact hpaid₂.trans (.silent rfl)

theorem DbInv.paid_execIndexDelete (h : DbInv st entries chain)
    (hfew : entries.length < manyEntries st.pageSize)
    (hrun : (execIndexDelete stmt).run st = some (res, st')) : Paid Set.univ st 0 st' 0 := by
  obtain ⟨found, st₁, hsearch, hrest⟩ := run_bind_eq_some.mp hrun
  obtain ⟨hsame, hres⟩ := h.stored.search hsearch
  have hpaid₁ := (balanced_bptreeSearch _).paid hsearch
  cases found with
  | none =>
    obtain ⟨-, rfl⟩ := run_pure_eq_some.mp hrest
    exact hpaid₁
  | some ref =>
    obtain ⟨rc, st₂, hheap, hindex⟩ := run_bind_eq_some.mp hrest
    obtain ⟨rc', st₃, htree, hcount⟩ := run_bind_eq_some.mp hindex
    obtain ⟨u, st₄, hdecr, hdone⟩ := run_bind_eq_some.mp hcount
    obtain ⟨-, rfl⟩ := run_pure_eq_some.mp hdone
    exact hpaid₁.trans ((h.sameData hsame).paid_erase (by rw [hsame.pageSize]; exact hfew)
      ((hres ref).mp rfl) hheap htree hdecr)

/-- The second pass of a DELETE by scan: the index only loses entries. -/
theorem DbInv.paid_deleteLocked {ids : List Nat} {n : Nat} (h : DbInv st entries chain)
    (hfew : entries.length < manyEntries st.pageSize) (hsize : hdr.rowSize = st.header.rowSize)
    (hrun : (deleteLocked hdr stmt ids).run st = some (n, st')) : Paid Set.univ st 0 st' 0 := by
  induction ids generalizing st entries chain n with
  | nil =>
    obtain ⟨-, rfl⟩ := run_pure_eq_some.mp hrun
    exact .refl
  | cons id ids ih =>
    obtain ⟨found, st₁, hfetch, hrest⟩ := run_bind_eq_some.mp hrun
    obtain ⟨hsame, hfound⟩ := h.fetchMatching hsize hfetch
    have h₁ := h.sameData hsame
    have hfew₁ : entries.length < manyEntries st₁.pageSize := by rw [hsame.pageSize]; exact hfew
    have hsize₁ : hdr.rowSize = st₁.header.rowSize := hsize.trans hsame.sameTable.rowSize.symm
    have hpaid₁ := (balanced_fetchMatchingRowById id).paid hfetch
    cases found with
    | none => exact hpaid₁.trans (ih h₁ hfew₁ hsize₁ hrest)
    | some p =>
      have hmem := (hfound p.1 p.2 rfl).1
      obtain ⟨gone, st₂, hdelete, hcount⟩ := run_bind_eq_some.mp hrest
      obtain ⟨rfl, st₃, rc, rc', hheap, htree⟩ := h₁.deleteRow hmem hdelete
      obtain ⟨u, st₄, hdecr, hmore⟩ := run_bind_eq_some.mp hcount
      obtain ⟨k, st₅, hlater, hdone⟩ := run_bind_eq_some.mp hmore
      obtain ⟨-, rfl⟩ := run_pure_eq_some.mp hdone
      obtain ⟨l, r, chain₁, hkept, hentries, -, -, hinv⟩ := h₁.eraseRow hmem hheap htree hdecr
      have hfew₄ : (l ++ r).length < manyEntries st₄.pageSize := by
        rw [hkept.pageSize]
        rw [hentries, List.length_append, List.length_cons] at hfew₁
        rw [List.length_append]
        omega
      exact (hpaid₁.trans (h₁.paid_erase hfew₁ hmem hheap htree hdecr)).trans
        (ih hinv hfew₄ (hsize₁.trans hkept.schema.rowSize.symm) hlater)

theorem DbInv.paid_execDeleteScan (h : DbInv st entries chain)
    (hfew : entries.length < manyEntries st.pageSize)
    (hrun : (execDeleteScan env stmt).run st = some (res, st')) : Paid Set.univ st 0 st' 0 := by
  obtain ⟨dc, st₁, hscan, hrest⟩ := run_bind_eq_some.mp hrun
  have hsame := readOnly_scanMatching _ _ st dc st₁ hscan
  have hpaid₁ := (balanced_scanMatching _ _).paid hscan
  split at hrest
  · obtain ⟨-, rfl⟩ := run_pure_eq_some.mp hrest
    exact hpaid₁
  split at hrest
  · obtain ⟨-, rfl⟩ := run_pure_eq_some.mp hrest
    exact hpaid₁
  · rw [run_bind_get] at hrest
    obtain ⟨n, st₂, hdelete, hdone⟩ := run_bind_eq_some.mp hrest
    obtain ⟨-, rfl⟩ := run_pure_eq_some.mp hdone
    exact hpaid₁.trans ((h.sameData hsame).paid_deleteLocked (by rw [hsame.pageSize]; exact hfew)
      rfl hdelete)

theorem planByType_indexDelete (hplan : plannerCreatePlan stmt = .indexDelete)
    (htype : stmt.type ≠ .explain) : stmt.type = .delete := by
  cases h : stmt.type with
  | delete => rfl
  | explain => exact absurd h htype
  | _ =>
    simp only [plannerCreatePlan, planByType, h] at hplan
    repeat' split at hplan
    all_goals cases hplan

theorem DbInv.paid_execute (h : DbInv st entries chain)
    (hfew : stmt.type = .delete → entries.length < manyEntries st.pageSize)
    (hrun : (execute env stmt).run st = some (res, st')) : Paid Set.univ st 0 st' 0 := by
  rw [execute] at hrun
  split at hrun
  · obtain ⟨-, rfl⟩ := run_pure_eq_some.mp hrun
    exact .refl
  rename_i htype
  split at hrun
  · exact balanced_execCreateTable.paid hrun
  · exact h.paid_execInsert hrun
  · exact balanced_execIndexLookup.paid hrun
  · exact balanced_execIndexRangeScan.paid hrun
  · split at hrun
    · rename_i hdelete
      exact h.paid_execDeleteScan (hfew hdelete) hrun
    · exact balanced_execUpdateScan.paid hrun
    · exact balanced_execTableScan.paid hrun
  · rename_i hplan
    exact h.paid_execIndexDelete (hfew (planByType_indexDelete hplan htype)) hrun
  · exact balanced_execIndexUpdate.paid hrun
  · exact balanced_execDropTable.paid hrun

/-- **No statement keeps a pin or a latch.** In every database that SQL texts lead to, whatever a text
does and whether it fails: each latch it takes has its pin, it gives back what it has taken and
nothing else, and in the end everything. A DELETE is promised so much while the table has fewer rows
than an index of three levels holds. -/
theorem dbExecute_pinDiscipline {pageSize : Nat} {sql : CString} (hps : IsPageSize pageSize)
    (h : DbReach pageSize st) (hrun : (dbExecute env sql).run st = some (res, st'))
    (hfew : ∀ stmt, parse sql = .ok stmt → stmt.type = .delete →
      st.header.rowCount < manyEntries pageSize) : PinDiscipline (callEvents st st') := by
  obtain ⟨entries, chain, hinv, rfl⟩ := h.inv hps
  have hnone : Paid Set.univ st 0 st 0 := .refl
  rw [dbExecute] at hrun
  split at hrun
  · rename_i stmt hparse
    have hpaid : ∀ {res}, (execute env stmt).run st = some (res, st') →
        Paid Set.univ st 0 st' 0 := fun hexec =>
      hinv.paid_execute (fun hdelete => hinv.rowCount ▸ hfew stmt hparse hdelete) hexec
    rw [dbRun] at hrun
    split at hrun
    · exact pinDiscipline_of_paid (hpaid hrun)
    · split at hrun
      · exact pinDiscipline_of_paid (hpaid hrun)
      · obtain ⟨-, rfl⟩ := run_pure_eq_some.mp hrun
        exact pinDiscipline_of_paid hnone
  · obtain ⟨-, rfl⟩ := run_pure_eq_some.mp hrun
    exact pinDiscipline_of_paid hnone
  · cases hrun

end Statements

/-- A DELETE that finds no memory for a copy of the page, and scans it slot by slot. -/
theorem dbExecute_pinDiscipline_twoRowTable :
    ∃ st', (dbExecute { grantingEnv with pageCopy := fun _ _ => false }
        (cstr "DELETE FROM t WHERE a = 9")).run twoRowTable =
      some (.done (.deletedScan 1), st') ∧ PinDiscipline (callEvents twoRowTable st') := by
  have hparse : parse (cstr "DELETE FROM t WHERE a = 9") = .ok
      { type := .delete
        tableName := cstr "t"
        predicateKind := .fieldEq
        predField := cstr "a"
        predValue := cstr "9"
        predOp := .eq } := by
    decide +kernel
  have hres : ((dbExecute { grantingEnv with pageCopy := fun _ _ => false }
      (cstr "DELETE FROM t WHERE a = 9")).run twoRowTable).map Prod.fst =
        some (.done (.deletedScan 1)) := by
    rw [dbExecute_of_parse hparse]
    decide +kernel
  have hrun := run_of_result hres
  refine ⟨_, hrun, dbExecute_pinDiscipline ⟨12, le_refl _, rfl⟩ dbReach_twoRowTable hrun ?_⟩
  intro stmt _ _
  decide +kernel

end MiniDb
