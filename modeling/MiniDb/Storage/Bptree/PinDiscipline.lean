import MiniDb.Storage.Bptree.LeafMerge
import MiniDb.Storage.Bptree.SparseTree

/-! # The pins of the tree operations

Search, scan and insertion give back every pin they take, and so does a deletion as long as it
repairs no internal node (`pinDiscipline_iff`). `propagate_delete` drops its pin on the node before
it calls `fix_internal_underflow_latched`, and every exit of that function drops it once more: the
latch on the node is then without a pin. -/

set_option autoImplicit false

namespace MiniDb

open Lib

/-! ## The repair of internal nodes -/

section Repair

variable {stack parents : List Nat} {nodePid : Nat} {propagate : PagerM Unit} {L : Ledger}
  {st st' : Pager}

theorem extends_lsReleaseAll (stack : List Nat) :
    Keeps (fun st st' => st.trace <:+ st'.trace) (lsReleaseAll stack) :=
  (@pays_lsReleaseAll ∅ 0 stack).extends

/-- On each of its ways `fix_internal_underflow_latched` is in order up to some point, if it has a
pin on the node at its start. -/
theorem paid_fixInternalUnderflowLatched
    (hpropagate : Keeps (fun st st' => st.trace <:+ st'.trace) propagate)
    (hrun : (fixInternalUnderflowLatched stack nodePid parents propagate).run st = some ((), st')) :
    ∃ st₁, Paid Set.univ st (.pin nodePid ::ₘ L) st₁ L ∧ st₁.trace <:+ st'.trace := by
  have hrelease := extends_lsReleaseAll stack
  cases parents with
  | nil =>
    obtain ⟨_, st₁, hunpin, hrest⟩ := run_bind_eq_some.mp hrun
    exact ⟨st₁, pays_pagerUnpin rfl _ _ _ hunpin, hrelease _ _ _ hrest⟩
  | cons parentPid above =>
    obtain ⟨_, st₁, hget, hrun⟩ := run_bind_eq_some.mp hrun
    obtain ⟨iph, st₂, hread, hrun⟩ := run_bind_eq_some.mp hrun
    obtain ⟨niph, st₃, hread', hrun⟩ := run_bind_eq_some.mp hrun
    have hpaid : Paid Set.univ st (.pin nodePid ::ₘ L) st₃
        (.pin parentPid ::ₘ .pin nodePid ::ₘ L) :=
      ((pays_pagerGetPage _ _ _ hget).trans (pays_readInternal _ _ _ hread)).trans
        (pays_readInternal _ _ _ hread')
    cases hidx : findChildIdx iph nodePid with
    | none =>
      rw [hidx] at hrun
      obtain ⟨_, st₄, hunpin, hrun⟩ := run_bind_eq_some.mp hrun
      obtain ⟨_, st₅, hunpin', hrest⟩ := run_bind_eq_some.mp hrun
      exact ⟨st₅, (hpaid.trans (pays_pagerUnpin (Multiset.cons_swap _ _ _) _ _ _ hunpin)).trans
        (pays_pagerUnpin rfl _ _ _ hunpin'), hrelease _ _ _ hrest⟩
    | some childIdx =>
      rw [hidx] at hrun
      obtain ⟨right, st₄, hright, hrun⟩ := run_bind_eq_some.mp hrun
      have hpaid₄ := hpaid.trans (pays_tryBorrowInternalRight _ _ _ _ _ _ hright)
      cases right with
      | true => exact ⟨st₄, hpaid₄, hrelease _ _ _ hrun⟩
      | false =>
        obtain ⟨left, st₅, hleft, hrun⟩ := run_bind_eq_some.mp hrun
        have hpaid₅ := hpaid₄.trans (pays_tryBorrowInternalLeft _ _ _ _ _ _ hleft)
        cases left with
        | true => exact ⟨st₅, hpaid₅, hrelease _ _ _ hrun⟩
        | false =>
          obtain ⟨_, st₆, hmerge, hrest⟩ := run_bind_eq_some.mp hrun
          exact ⟨st₆, hpaid₅.trans (pays_mergeInternal _ _ _ _ _ _ hmerge),
            hpropagate _ _ _ hrest⟩

theorem extends_propagateDelete (stack nodes : List Nat) :
    Keeps (fun st st' => st.trace <:+ st'.trace) (propagateDelete stack nodes) := by
  induction nodes with
  | nil => exact keeps_failure
  | cons nodePid parents ih =>
    rw [propagateDelete]
    apply (@pays_rootId ∅ 0).extends.bind
    intro root
    split
    · exact (balanced_shrinkRoot nodePid 0).extends.bind fun _ => extends_lsReleaseAll stack
    · apply (@pays_pagerGetPage ∅ 0 nodePid).extends.bind
      intro _
      apply (@pays_readInternal ∅ 0 nodePid).extends.bind
      intro iph
      apply (@pays_pagerUnpin ∅ _ 0 nodePid rfl).extends.bind
      intro _
      apply (@pays_getPageSize ∅ 0).extends.bind
      intro pageSize
      split
      · exact extends_lsReleaseAll stack
      · intro st _ st' hrun
        obtain ⟨st₁, hpaid, hrest⟩ := @paid_fixInternalUnderflowLatched _ _ _ _ 0 _ _ ih hrun
        obtain ⟨events, htrace, -⟩ := hpaid
        exact List.IsSuffix.trans ⟨events, htrace.symm⟩ hrest

/-- An inner node that has lost an entry and has enough left. -/
theorem paid_propagateDelete_full {fresh : Set Nat} {iph : InternalPage}
    (hrun : (propagateDelete stack (nodePid :: parents)).run st = some ((), st'))
    (hroot : nodePid ≠ st.header.rootIndexPageId) (hpage : st.pages nodePid = .internal iph)
    (hfull : minInternalKeys st.pageSize ≤ iph.entries.length) :
    Paid fresh st (wlatches stack + L) st' L := by
  rw [propagateDelete, run_bind_of run_rootId, if_neg hroot] at hrun
  obtain ⟨_, st₁, hget, hrun⟩ := run_bind_eq_some.mp hrun
  have hpaid := @pays_pagerGetPage fresh (wlatches stack + L) _ _ _ _ hget
  obtain rfl := run_modify_eq_some.mp hget
  have hread : (readInternal nodePid).run (st.log (.get nodePid)) =
      some (iph, st.log (.get nodePid)) := run_readInternal hpage
  rw [run_bind_of hread] at hrun
  obtain ⟨_, st₂, hunpin, hrun⟩ := run_bind_eq_some.mp hrun
  have hpaid₂ := hpaid.trans (pays_pagerUnpin rfl _ _ _ hunpin)
  obtain rfl := run_modify_eq_some.mp hunpin
  rw [run_bind_of run_getPageSize] at hrun
  split at hrun
  · exact hpaid₂.trans (pays_lsReleaseAll stack _ _ _ hrun)
  · rename_i hlt
    exact absurd hfull hlt

/-- The node that has lost an entry needs no repair. -/
theorem paid_propagateDelete_done
    (hrun : (propagateDelete stack (nodePid :: parents)).run st = some ((), st'))
    (hdone : nodePid = st.header.rootIndexPageId ∨ ∃ iph, st.pages nodePid = .internal iph ∧
      minInternalKeys st.pageSize ≤ iph.entries.length) :
    Paid Set.univ st (wlatches stack + L) st' L := by
  by_cases hroot : nodePid = st.header.rootIndexPageId
  · rw [propagateDelete, run_bind_of run_rootId, if_pos hroot] at hrun
    obtain ⟨_, st₁, hshrink, hrest⟩ := run_bind_eq_some.mp hrun
    exact (balanced_shrinkRoot nodePid _ _ _ _ hshrink).trans (pays_lsReleaseAll stack _ _ _ hrest)
  · obtain ⟨iph, hpage, hfull⟩ := hdone.resolve_left hroot
    exact paid_propagateDelete_full hrun hroot hpage hfull

/-- The node that has lost an entry is repaired: in order up to here, and then only with one pin
more. -/
theorem paid_propagateDelete_repair {iph : InternalPage}
    (hrun : (propagateDelete stack (nodePid :: parents)).run st = some ((), st'))
    (hroot : nodePid ≠ st.header.rootIndexPageId) (hpage : st.pages nodePid = .internal iph)
    (hshort : iph.entries.length < minInternalKeys st.pageSize) :
    ∃ st₁ st₂, Paid Set.univ st L st₁ L ∧ Paid Set.univ st₁ (.pin nodePid ::ₘ L) st₂ L ∧
      st₂.trace <:+ st'.trace := by
  rw [propagateDelete, run_bind_of run_rootId, if_neg hroot] at hrun
  obtain ⟨_, st₁, hget, hrun⟩ := run_bind_eq_some.mp hrun
  have hpaid := @pays_pagerGetPage Set.univ L _ _ _ _ hget
  obtain rfl := run_modify_eq_some.mp hget
  have hread : (readInternal nodePid).run (st.log (.get nodePid)) =
      some (iph, st.log (.get nodePid)) := run_readInternal hpage
  rw [run_bind_of hread] at hrun
  obtain ⟨_, st₂, hunpin, hrun⟩ := run_bind_eq_some.mp hrun
  have hpaid₂ := hpaid.trans (pays_pagerUnpin rfl _ _ _ hunpin)
  obtain rfl := run_modify_eq_some.mp hunpin
  rw [run_bind_of run_getPageSize] at hrun
  split at hrun
  · rename_i hfull
    exact absurd hfull (Nat.not_le.mpr hshort)
  · obtain ⟨st₃, hpaid₃, hrest⟩ :=
      paid_fixInternalUnderflowLatched (extends_propagateDelete stack parents) hrun
    exact ⟨_, st₃, hpaid₂, hpaid₃, hrest⟩

end Repair

/-! ## The calls -/

/-- A deletion of the key repairs an internal node: it merges two leaves, and their parent, which is
not the root, has no entry to spare. -/
def RepairsInternal (st : Pager) (key : Nat) : Prop :=
  ∃ leafPid lph iph childIdx, MergesLeaf st key leafPid lph iph childIdx ∧
    lph.parentPageId ≠ st.header.rootIndexPageId ∧ iph.entries.length ≤ minInternalKeys st.pageSize

/-- The calls that do. -/
def TreeCall.RepairsInternal (st : Pager) : TreeCall → Prop
  | .delete key => MiniDb.RepairsInternal st key.toNat
  | _ => False

section Calls

variable {st st' : Pager} {free : List Nat} {leaves : List LeafNode} {rows : List Row}

theorem LeafMerge.repairsInternal_iff {key : Nat} (m : LeafMerge st free key st') :
    RepairsInternal st key ↔ m.q.pid ≠ st.header.rootIndexPageId ∧
      m.q.entries.length ≤ minInternalKeys st.pageSize := by
  constructor
  · rintro ⟨leafPid, lph, iph, childIdx, hm, hroot, hshort⟩
    obtain ⟨-, rfl, rfl, -⟩ := m.merges.unique hm.toLeafUnder
    rw [m.parent_eq] at hroot
    exact ⟨hroot, hshort⟩
  · rintro ⟨hroot, hshort⟩
    exact ⟨_, _, _, _, m.merges, by rw [m.parent_eq]; exact hroot, hshort⟩

/-- A deletion that merges leaves. -/
theorem LeafMerge.pinDiscipline {key : Nat} (m : LeafMerge st free key st') :
    PinDiscipline (callEvents st st') ↔ ¬ RepairsInternal st key := by
  obtain ⟨free₂, hs, q', hhead, hlen, hroot, hps, haround, -, -⟩ := m.rowsAround
  have hpid : q'.pid = m.q.pid := congrArg Prod.snd hhead
  obtain ⟨parent, hpage⟩ : ∃ parent, m.st₂.pages m.q.pid =
      .internal ⟨parent, q'.leftmost, q'.entries⟩ := by
    rw [← hpid]
    exact ⟨_, (haround.upper.1.on q' (by simp)).eq⟩
  have hpaid : Paid Set.univ st 0 m.st₂ (wlatches (m.n.pid :: m.q.pid :: m.above) + 0) := by
    rw [Multiset.add_zero]
    exact (paid_mono m.paid fun _ hp => hp.elim).trans (pays_mergeLeaves _ _ _ _ _ m.merge)
  rw [m.repairsInternal_iff]
  constructor
  · rintro hpins ⟨hnot, hshort⟩
    obtain ⟨st₃, st₄, hpaid₃, hpaid₄, hrest⟩ := paid_propagateDelete_repair m.propagate
      (by rw [hroot]; exact hnot) hpage (by rw [hps]; show q'.entries.length < _; omega)
    refine not_pinDiscipline_of_paid (hpaid.trans hpaid₃) hpaid₄ ?_ hrest hpins
    rw [Multiset.add_zero]
    simp [wlatches]
  · intro hnot
    refine pinDiscipline_of_paid (hpaid.trans (paid_propagateDelete_done m.propagate ?_))
    rw [hroot, hps]
    by_cases hq : m.q.pid = st.header.rootIndexPageId
    · exact .inl hq
    · refine .inr ⟨_, hpage, ?_⟩
      show _ ≤ q'.entries.length
      have hlong := fun h => hnot ⟨hq, h⟩
      omega

theorem pinDiscipline_bptreeDelete_iff (h : TreeInv st free leaves rows) {key : Nat} {r : Int}
    (hrun : (bptreeDelete key).run st = some (r, st')) :
    PinDiscipline (callEvents st st') ↔ ¬ RepairsInternal st key := by
  rcases h.bptreeDelete_cases hrun with ⟨hpaid, hnone⟩ | ⟨⟨m⟩⟩
  · refine iff_of_true (pinDiscipline_of_paid hpaid) ?_
    rintro ⟨leafPid, lph, iph, childIdx, hm, -⟩
    exact hnone _ _ _ _ hm
  · exact m.pinDiscipline

theorem pinDiscipline_bptreeInsert (h : TreeInv st free leaves rows) {key : Nat} {ref : RowRef}
    {r : Int} (hrun : (bptreeInsert key ref).run st = some (r, st')) :
    PinDiscipline (callEvents st st') := by
  obtain ⟨⟨leafPid, stack⟩, st₁, hfind, hrun⟩ := run_bind_eq_some.mp hrun
  have hpaid : Paid Set.univ st 0 st₁ (wlatches stack + 0) := h.paid_findLeafWlatch hfind
  have hrest : Pays Set.univ (do
      let lph ← readLeaf leafPid
      if (lph.entries[leafFind lph.entries key]?).any (·.1 == key) then
        lsReleaseAll stack
        return (-1 : Int)
      else if lph.entries.length < maxLeafKeys (← getPageSize) then
        leafInsertEntry leafPid lph key ref
        pagerMarkDirty leafPid
        lsReleaseAll stack
        return 0
      else
        let promoted ← splitLeaf leafPid lph key ref
        propagateInsert stack promoted.1 promoted.2 leafPid stack.tail
        return 0) (wlatches stack + 0) fun _ => 0 := by
    apply pays_readLeaf.bind
    intro lph
    split
    · exact (pays_lsReleaseAll stack).bind fun _ => records_pure rfl
    · apply pays_getPageSize.bind
      intro pageSize
      split
      · apply (pays_writeLeaf may).bind
        intro _
        apply pays_pagerMarkDirty.bind
        intro _
        exact (pays_lsReleaseAll stack).bind fun _ => records_pure rfl
      · apply (balanced_splitLeaf leafPid lph key ref _).bind
        intro promoted
        exact (pays_propagateInsert stack _ _ _ _).bind fun _ => records_pure rfl
  exact pinDiscipline_of_paid (hpaid.trans (hrest _ _ _ hrun))

/-- **The pin discipline**: every latch of a call has its pin, everything given back has been taken,
and nothing is kept, except where a deletion repairs an internal node. -/
theorem pinDiscipline_iff (h : TreeInv st free leaves rows) :
    (∀ (c : TreeCall) r st', c.exec.run st = some (r, st') →
      (PinDiscipline (callEvents st st') ↔ ¬ c.RepairsInternal st)) ∧
    ∀ (γ : Type) (range : KeyRange) (cb : RangeCallback γ) (ctx r : γ) st',
      (bptreeRangeScan range cb ctx).run st = some (r, st') →
        PinDiscipline (callEvents st st') := by
  refine ⟨?_, fun γ range cb ctx r st' hrun =>
    pinDiscipline_of_paid (balanced_bptreeRangeScan range cb ctx 0 _ _ _ hrun)⟩
  intro c r st' hrun
  cases c with
  | insert key ref =>
    obtain ⟨rc, st₁, hinsert, hrest⟩ := run_bind_eq_some.mp hrun
    obtain ⟨-, rfl⟩ := run_pure_eq_some.mp hrest
    exact iff_of_true (pinDiscipline_bptreeInsert h hinsert) not_false
  | delete key =>
    obtain ⟨rc, st₁, hdelete, hrest⟩ := run_bind_eq_some.mp hrun
    obtain ⟨-, rfl⟩ := run_pure_eq_some.mp hrest
    exact pinDiscipline_bptreeDelete_iff h hdelete
  | search key =>
    obtain ⟨found, st₁, hsearch, hrest⟩ := run_bind_eq_some.mp hrun
    obtain ⟨-, rfl⟩ := run_pure_eq_some.mp hrest
    exact iff_of_true (pinDiscipline_of_paid (balanced_bptreeSearch _ 0 _ _ _ hsearch)) not_false

end Calls

/-! ## A deletion that drops a pin twice -/

theorem repairsInternal_sparseTree : RepairsInternal sparseTree 0 := by
  obtain ⟨lph, iph, hm, hparent, hlen⟩ := mergesLeaf_sparseTree
  refine ⟨_, lph, iph, _, hm, ?_, le_of_eq hlen⟩
  rw [hparent]
  exact Nat.succ_ne_self 2

theorem not_pinDiscipline_sparseTree : TreeInv sparseTree [] sparseLeaves sparseRows ∧
    ∃ st', (bptreeDelete 0).run sparseTree = some (0, st') ∧
      ¬ PinDiscipline (callEvents sparseTree st') := by
  obtain ⟨st', hrun⟩ := run_bptreeDelete_sparseTree
  refine ⟨treeInv_sparseTree, st', hrun, fun hpins => ?_⟩
  exact (pinDiscipline_bptreeDelete_iff treeInv_sparseTree hrun).mp hpins repairsInternal_sparseTree

theorem pinDiscipline_iff_sparseTree :
    ∃ st', (TreeCall.delete 0).exec.run sparseTree = some (.status 0, st') ∧
      (PinDiscipline (callEvents sparseTree st') ↔
        ¬ (TreeCall.delete 0).RepairsInternal sparseTree) := by
  obtain ⟨st', hrun⟩ := run_bptreeDelete_sparseTree
  have hexec : (TreeCall.delete 0).exec.run sparseTree = some (.status 0, st') := by
    have hdelete : (bptreeDelete (0 : UInt64).toNat).run sparseTree = some (0, st') := hrun
    rw [TreeCall.exec, run_bind_of hdelete]
    rfl
  exact ⟨st', hexec, (pinDiscipline_iff treeInv_sparseTree).1 _ _ _ hexec⟩

end MiniDb
