import MiniDb.Storage.Bptree.LeafUnderflow

/-! # Deletions that merge two leaves

A deletion ends at the leaf or with a borrowed entry, and its events are in order, or it merges two
leaves and goes on with the node above them (`TreeInv.bptreeDelete_cases`). That node has then lost
an entry, and the rows around it are whole (`LeafMerge.rowsAround`). -/

set_option autoImplicit false

namespace MiniDb

open Lib

/-- A deletion that merges two leaves: the leaf `n` has lost the key, the latches of the descent and
a pin on its parent `q` are held, and what is left to run is the merge and the repair above it. -/
structure LeafMerge (st : Pager) (free : List Nat) (key : Nat) (st' : Pager) where
  a : List LeafNode
  n : LeafNode
  b : List LeafNode
  a' : Row
  q : InnerNode
  b' : Row
  rest : List Row
  ka : List (Nat × Nat)
  kb : List (Nat × Nat)
  above : List Nat
  lph : LeafPage
  st₁ : Pager
  st₂ : Pager
  merges : MergesLeaf st key n.pid lph (q.page (st₁.pages q.pid).parent) ka.length
  parent_eq : lph.parentPageId = q.pid
  next_eq : (st₁.pages n.pid).nextLeaf = lph.nextLeafPageId
  header : st₁.header = st.header
  pageSize : st₁.pageSize = st.pageSize
  shape : TreeShape st₁ free (a ++ [n] ++ b) ((a' ++ q :: b') :: rest)
  under : LeavesUnder a [n] b a' q b' ka kb
  side : LeavesFull st.pageSize (a ++ b)
  lacks : n.entries.length + 1 = minLeafKeys st.pageSize
  /-- neither sibling lends an entry -/
  right : ¬ Spares st₁ (q.page (st₁.pages q.pid).parent) (ka.length + 1)
  left : 0 < ka.length → ¬ Spares st₁ (q.page (st₁.pages q.pid).parent) (ka.length - 1)
  ancestors : q.Safe st.pageSize false ∧ above = [] ∨ ¬ q.Safe st.pageSize false ∧
    Ancestors (·.Safe st.pageSize false) (a'.map InnerNode.head) q.head (b'.map InnerNode.head)
      rest above
  inUse : ∀ p ∈ treePids (a ++ [n] ++ b) ((a' ++ q :: b') :: rest), ¬ st.Unused p
  paid : Paid ∅ st 0 st₁ (.pin q.pid ::ₘ wlatches (n.pid :: q.pid :: above))
  merge : (mergeLeaves q.pid n.pid ka.length (q.page (st₁.pages q.pid).parent)).run st₁ =
    some ((), st₂)
  propagate : (propagateDelete (n.pid :: q.pid :: above) (q.pid :: above)).run st₂ = some ((), st')

section Cases

variable {st st' : Pager} {free : List Nat} {leaves : List LeafNode} {rows : List Row}
  {key : Nat} {r : Int}

/-- How a deletion goes on from the leaf of the key: there is no such key, the leaf can do without
it, or the leaf is too short without it. -/
theorem bptreeDelete_run_cases {pid : Nat} {stack : List Nat} {lph : LeafPage} {st₁ : Pager}
    (hfind : (findLeafWlatch key false).run st = some ((pid, stack), st₁))
    (hread : (readLeaf pid).run st₁ = some (lph, st₁))
    (hrun : (bptreeDelete key).run st = some (r, st')) :
    (¬ ∃ e, lph.entries[leafFind lph.entries key]? = some e ∧ e.1 = key) ∧
        (lsReleaseAll stack).run st₁ = some ((), st') ∨
      (∃ e, lph.entries[leafFind lph.entries key]? = some e ∧ e.1 = key) ∧ ∃ st₂,
        (writeLeaf pid { lph with entries := lph.entries.eraseIdx (leafFind lph.entries key) }).run
          st₁ = some ((), st₂) ∧
        ((pid = st₂.header.rootIndexPageId ∨ minLeafKeys st₂.pageSize ≤
              (lph.entries.eraseIdx (leafFind lph.entries key)).length) ∧
            (lsReleaseAll stack).run (st₂.log (.markDirty pid)) = some ((), st') ∨
          ¬ (pid = st₂.header.rootIndexPageId ∨ minLeafKeys st₂.pageSize ≤
              (lph.entries.eraseIdx (leafFind lph.entries key)).length) ∧
            (fixLeafUnderflowLatched stack pid stack.tail).run (st₂.log (.markDirty pid)) =
              some ((), st')) := by
  have hany : (lph.entries[leafFind lph.entries key]?).any (·.1 == key) = true ↔
      ∃ e, lph.entries[leafFind lph.entries key]? = some e ∧ e.1 = key := by
    simp [Option.any_eq_true]
  unfold bptreeDelete at hrun
  rw [run_bind_of hfind] at hrun
  dsimp only at hrun
  rw [run_bind_of hread] at hrun
  rw [← hany]
  split at hrun
  case isFalse hno =>
    obtain ⟨_, st₂, hrel, hrun⟩ := run_bind_eq_some.mp hrun
    obtain ⟨-, rfl⟩ := run_pure_eq_some.mp hrun
    exact .inl ⟨hno, hrel⟩
  case isTrue hyes =>
    obtain ⟨_, st₂, hwrite, hrun⟩ := run_bind_eq_some.mp hrun
    obtain ⟨_, st₃, hdirty, hrun⟩ := run_bind_eq_some.mp hrun
    obtain rfl := run_modify_eq_some.mp hdirty
    rw [run_bind_of run_rootId, run_bind_of run_getPageSize] at hrun
    refine .inr ⟨hyes, st₂, hwrite, ?_⟩
    split at hrun
    case isTrue hdone =>
      obtain ⟨_, st₄, hrel, hrun⟩ := run_bind_eq_some.mp hrun
      obtain ⟨-, rfl⟩ := run_pure_eq_some.mp hrun
      exact .inl ⟨hdone, hrel⟩
    case isFalse hdone =>
      obtain ⟨_, st₄, hfix, hrun⟩ := run_bind_eq_some.mp hrun
      obtain ⟨-, rfl⟩ := run_pure_eq_some.mp hrun
      exact .inr ⟨hdone, hfix⟩

variable {a b : List LeafNode} {n : LeafNode}

/-- The only leaf that the deletion of a key can merge is that of the key. -/
theorem TreeInv.mergesLeaf_unique (h : TreeInv st free leaves rows) (hn : LeafFor key leaves a n b)
    {leafPid childIdx : Nat} {lph : LeafPage} {iph : InternalPage}
    (hm : MergesLeaf st key leafPid lph iph childIdx) :
    leafPid = n.pid ∧ lph = n.page (st.pages n.pid) := by
  obtain ⟨st₂, hrun₂⟩ := hm.found
  obtain ⟨st₃, -, hfound⟩ := h.findLeafRlatch hn
  obtain ⟨rfl, -⟩ := Prod.mk.inj (Option.some.inj (hfound.symm.trans hrun₂))
  exact ⟨rfl, Page.leaf.inj (hm.leaf.symm.trans (h.leafOn n hn.mem).eq)⟩

/-- A leaf that has become too short borrows an entry, or it is merged. -/
theorem TreeInv.fixLeaf_cases {a' b' : Row} {q : InnerNode} {rest : List Row}
    {ka kb : List (Nat × Nat)} {above : List Nat} {ref : RowRef} {l r' : List (Nat × RowRef)}
    {st₁ st₃ : Pager} (h : TreeInv st free leaves ((a' ++ q :: b') :: rest))
    (hn : LeafFor key leaves a n b) (hu : LeavesUnder a [n] b a' q b' ka kb)
    (hanc : q.Safe st.pageSize false ∧ above = [] ∨ ¬ q.Safe st.pageSize false ∧
      Ancestors (·.Safe st.pageSize false) (a'.map InnerNode.head) q.head (b'.map InnerNode.head)
        rest above)
    (heqn : n.entries = l ++ (key, ref) :: r')
    (hexact : n.entries.length = minLeafKeys st.pageSize) (hsame₁ : st.SameData st₁)
    (hst₃ : st₃ = (st₁.setPage n.pid (.leaf ⟨(st.pages n.pid).parent,
      (st.pages n.pid).nextLeaf, (st.pages n.pid).prevLeaf, l ++ r'⟩)).log (.markDirty n.pid))
    (hstep : TreeStep st free leaves ((a' ++ q :: b') :: rest) st₃ free
      (a ++ { n with entries := l ++ r' } :: b) ((a' ++ q :: b') :: rest))
    (hpaid₃ : Paid ∅ st 0 st₃ (wlatches (n.pid :: q.pid :: above) + 0))
    (hfix : (fixLeafUnderflowLatched (n.pid :: q.pid :: above) n.pid (q.pid :: above)).run st₃ =
      some ((), st')) :
    (Paid ∅ st 0 st' 0 ∧
        ∀ leafPid lph iph childIdx, ¬ MergesLeaf st key leafPid lph iph childIdx) ∨
      Nonempty (LeafMerge st free key st') := by
  have hunder := h.leafUnder hn hu
  set n' : LeafNode := { n with entries := l ++ r' }
  have hu' : LeavesUnder a [n'] b a' q b' ka kb := ⟨hu.left, hu.right, hu.kids⟩
  have hshape : TreeShape st₃ free (a ++ [n'] ++ b) ((a' ++ q :: b') :: rest) := by
    rw [← List.append_cons]
    exact hstep.shape
  have hq : q ∈ a' ++ q :: b' := List.mem_append_right _ List.mem_cons_self
  -- nothing has changed but the leaf
  have hpages : ∀ p, p ≠ n.pid → st₃.pages p = st.pages p := by
    intro p hp
    rw [hst₃]
    show Function.update st₁.pages n.pid _ p = _
    rw [Function.update_of_ne hp, hsame₁.pages]
  have hpageSize : st₃.pageSize = st.pageSize := by
    rw [hst₃]
    exact hsame₁.pageSize
  have hqn : q.pid ≠ n.pid := by
    intro heq
    refine (List.nodup_append.mp h.nodup).2.2 n.pid (List.mem_map_of_mem hn.mem) q.pid ?_ heq.symm
    rw [rowsPids_cons]
    exact List.mem_append_left _ (List.mem_map_of_mem hq)
  have hspares : ∀ {i}, i ≠ ka.length → (Spares st₃ (q.page (st.pages q.pid).parent) i ↔
      Spares st (q.page (st.pages q.pid).parent) i) := fun hi =>
    spares_congr (hshape.childAt_ne hu' _ hi) hpageSize hpages
  have hqpage : st₃.pages q.pid = .internal (q.page (st.pages q.pid).parent) := by
    rw [hpages q.pid hqn]
    exact (h.upper.1.on q hq).eq
  obtain ⟨hlends, hpaid⟩ | ⟨hright, hleft, st₅, st₆, hsame, hpaid, hmerge, hprop⟩ :=
    @fixLeafUnderflowLatched_cases ∅ 0 _ _ _ _ _ _ _ _ hqpage (hshape.findChildIdx_eq hu' _)
      List.mem_cons_self (List.mem_cons_of_mem _ List.mem_cons_self) hfix
  · -- a sibling lends an entry
    refine .inl ⟨hpaid₃.trans hpaid, fun leafPid lph iph childIdx hm => ?_⟩
    obtain ⟨-, -, rfl, rfl⟩ := hunder.unique hm.toLeafUnder
    obtain hright | ⟨hpos, hleft⟩ := hlends
    · exact hm.right ((hspares (Nat.succ_ne_self _)).mp hright)
    · exact hm.left hpos ((hspares (by omega)).mp hleft)
  · -- the leaf is merged
    have hparent : (st.pages n.pid).parent = q.pid := by
      have hkids : q.kids = ka ++ n.head :: kb := by simpa using hu.kids
      exact h.upper.1.parent q hq n.head (by rw [hkids]; simp)
    have hq₅ : st₅.pages q.pid = st.pages q.pid := by rw [hsame.pages, hpages q.pid hqn]
    have hn₅ : st₅.pages n.pid = .leaf ⟨(st.pages n.pid).parent, (st.pages n.pid).nextLeaf,
        (st.pages n.pid).prevLeaf, l ++ r'⟩ := by
      rw [hsame.pages, hst₃]
      exact Function.update_self _ _ _
    have hlack : n'.entries.length + 1 = minLeafKeys st.pageSize := by
      rw [← hexact, heqn]
      simp only [n', List.length_append, List.length_cons]
      omega
    have hheader : st₃.header = st.header := by
      rw [hst₃]
      exact hsame₁.header
    rw [Multiset.add_zero] at hpaid₃ hpaid
    refine .inr ⟨{
      a := a
      n := n'
      b := b
      a' := a'
      q := q
      b' := b'
      rest := rest
      ka := ka
      kb := kb
      above := above
      lph := n.page (st.pages n.pid)
      st₁ := st₅
      st₂ := st₆
      merges := ?_
      parent_eq := hparent
      next_eq := ?_
      header := hsame.header.trans hheader
      pageSize := hsame.pageSize.trans hpageSize
      shape := hshape.sameData hsame
      under := hu'
      side := ?_
      lacks := hlack
      right := ?_
      left := ?_
      ancestors := hanc
      inUse := ?_
      paid := hpaid₃.trans hpaid
      merge := ?_
      propagate := hprop }⟩
    · rw [hq₅]
      refine ⟨hunder, ⟨ref, ?_⟩, le_of_eq hexact, fun hs => hright ?_, fun hpos hs => hleft hpos ?_⟩
      · show (key, ref) ∈ n.entries
        rw [heqn]
        simp
      · exact (hspares (Nat.succ_ne_self _)).mpr hs
      · exact (hspares (by omega)).mpr hs
    · show (st₅.pages n.pid).nextLeaf = _
      rw [hn₅]
      rfl
    · intro m hm
      have hocc := h.leafOcc m (by
        rw [hn.eq]
        simp only [List.mem_append, List.mem_cons] at hm ⊢
        tauto)
      rwa [minEntries, if_neg (List.cons_ne_nil _ _)] at hocc
    · rw [hq₅, hsame.spares_iff]
      exact hright
    · rw [hq₅, hsame.spares_iff]
      exact hleft
    · intro p hp
      apply h.not_unused
      rw [hn.eq, List.append_cons]
      simpa [treePids] using hp
    · rw [hq₅]
      exact hmerge

/-- **A deletion merges leaves, or its events are in order whatever else it does.** -/
theorem TreeInv.bptreeDelete_cases (h : TreeInv st free leaves rows)
    (hrun : (bptreeDelete key).run st = some (r, st')) :
    (Paid ∅ st 0 st' 0 ∧
        ∀ leafPid lph iph childIdx, ¬ MergesLeaf st key leafPid lph iph childIdx) ∨
      Nonempty (LeafMerge st free key st') := by
  obtain ⟨a, n, b, hn⟩ := h.exists_leafFor key
  have hmem : n ∈ leaves := hn.mem
  obtain ⟨st₁, above, hsame₁, hfind, hanc⟩ := h.findLeafWlatch hn false
  set stack := n.pid :: if n.Safe st.pageSize false then [] else above with hstack
  have hpaid₁ : Paid ∅ st 0 st₁ (wlatches stack + 0) := h.paid_findLeafWlatch hfind
  have hread : (readLeaf n.pid).run st₁ = some (n.page (st.pages n.pid), st₁) := by
    refine run_readLeaf ?_
    rw [hsame₁.pages]
    exact (h.leafOn n hmem).eq
  have hpresent : (∃ e, n.entries[leafFind n.entries key]? = some e ∧ e.1 = key) ↔
      ∃ ref, (key, ref) ∈ n.entries := by
    rw [← any_leafFind_iff (h.order.sorted n hmem)]
    simp [Option.any_eq_true]
  obtain ⟨hno, hrel⟩ | ⟨hyes, st₂, hwrite, hrest⟩ := bptreeDelete_run_cases hfind hread hrun
  · -- there is no such key
    refine .inl ⟨hpaid₁.trans (pays_lsReleaseAll stack _ _ _ hrel),
      fun leafPid lph iph childIdx hm => hno (hpresent.mpr ?_)⟩
    obtain ⟨-, rfl⟩ := h.mergesLeaf_unique hn hm
    exact hm.present
  -- the entry leaves its leaf
  obtain ⟨ref, hin⟩ := hpresent.mp hyes
  obtain ⟨l, r', heqn, hat, hstep⟩ := h.eraseKey hn hin hsame₁
  have herase : (n.page (st.pages n.pid)).entries.eraseIdx
      (leafFind (n.page (st.pages n.pid)).entries key) = l ++ r' := by
    show n.entries.eraseIdx (leafFind n.entries key) = l ++ r'
    rw [hat, heqn, List.eraseIdx_append_of_length_le (le_refl _)]
    simp
  have hlen : n.entries.length = (l ++ r').length + 1 := by
    simp only [heqn, List.length_append, List.length_cons]
    omega
  rw [herase] at hwrite hrest
  have hself : .wlatch n.pid ∈ wlatches stack + 0 :=
    Multiset.mem_add.mpr (.inl (mem_wlatches.mpr List.mem_cons_self))
  have hpaid₃ : Paid ∅ st 0 (st₂.log (.markDirty n.pid)) (wlatches stack + 0) :=
    (hpaid₁.trans (pays_writeLeaf (.inl hself) _ _ _ hwrite)).trans
      (pays_pagerMarkDirty _ _ _ rfl)
  obtain rfl := run_writeLeaf_eq_some hwrite
  simp only [Pager.setPage_header, Pager.setPage_pageSize, hsame₁.header, hsame₁.pageSize] at hrest
  obtain ⟨hdone, hrel⟩ | ⟨hdone, hfix⟩ := hrest
  · -- the leaf can do without it
    refine .inl ⟨hpaid₃.trans (pays_lsReleaseAll stack _ _ _ hrel),
      fun leafPid lph iph childIdx hm => ?_⟩
    obtain ⟨rfl, rfl⟩ := h.mergesLeaf_unique hn hm
    obtain hroot | henough := hdone
    · exact hm.notRoot hroot
    · have hshort : n.entries.length ≤ minLeafKeys st.pageSize := hm.short
      omega
  · -- it is too short without it
    rw [not_or] at hdone
    obtain ⟨hrows, hunsafe, hexact⟩ := h.leaf_short hn hdone.1 (by omega)
    obtain ⟨row, rest, rfl⟩ := List.exists_cons_of_ne_nil hrows
    obtain ⟨a', q, b', ka, kb, above', rfl, hkids, hha, hhb, rfl, hsafe⟩ := hanc
    rw [if_neg hunsafe] at hstack
    rw [hstack] at hpaid₃ hfix
    exact h.fixLeaf_cases hn ⟨hha, hhb, by simpa using hkids⟩ hsafe heqn hexact hsame₁ rfl hstep
      hpaid₃ hfix

end Cases

/-! ## After the merge -/

section After

variable {st st' : Pager} {free : List Nat} {key : Nat}

/-- A leaf next to the one that is merged has no entry to spare. -/
theorem length_le_of_not_spares {iph : InternalPage} {i : Nat} {l : LeafNode}
    (hchild : iph.childAt i = some l.pid) (hon : l.On (st.pages l.pid))
    (hnot : ¬ Spares st iph i) : l.entries.length ≤ minLeafKeys st.pageSize := by
  by_contra hlt
  exact hnot ⟨l.pid, _, hchild, hon.eq, Nat.lt_of_not_le hlt⟩

/-- The parent has a second child. -/
theorem LeafMerge.kids_ne_singleton (m : LeafMerge st free key st') :
    ¬ (m.ka = [] ∧ m.kb = []) := by
  rintro ⟨hka, hkb⟩
  have hq := (m.shape.occupied.1 m.q (by simp)).1
  have hlen := congrArg List.length m.under.kids
  rw [hka, hkb] at hlen
  have hpos : 1 ≤ minKeys m.st₁.pageSize m.rest := by
    have hmin := minInternalKeys_ge m.shape.pageSize
    unfold minKeys
    split <;> omega
  simp only [InnerNode.kids, List.length_cons, List.length_append, List.length_map,
    List.length_nil] at hlen
  omega

/-- **After the merge** the parent has lost an entry, and what hangs below its row are leaves of
before, without the one that has gone into its left sibling. -/
theorem LeafMerge.rowsAround (m : LeafMerge st free key st') :
    ∃ free₂ hs q', q'.head = m.q.head ∧ q'.entries.length + 1 = m.q.entries.length ∧
      m.st₂.header.rootIndexPageId = st.header.rootIndexPageId ∧ m.st₂.pageSize = st.pageSize ∧
      RowsAround m.st₂ free₂ hs m.a' [q'] m.b' m.rest ∧
      (∀ c ∈ hs, c.2 ∈ (m.a ++ [m.n] ++ m.b).map LeafNode.pid) ∧
      (m.ka ≠ [] → ∀ c ∈ hs, c.2 ≠ m.n.pid) := by
  have hkids := m.kids_ne_singleton
  revert hkids
  obtain ⟨a, n, b, a', q, b', rest, ka, kb, above, lph, st₁, st₂, -, -, -, hheader, hps, hshape, hu,
    hside, hlacks, hright, hleft, -, -, -, hmerge, -⟩ := m
  dsimp only at *
  intro hkids
  have hmin := two_mul_minLeafKeys_le st.pageSize
  have hone := minLeafKeys_ge hshape.pageSize
  rw [hps] at hone
  -- the parent loses the entry between the two leaves
  have herase : ∀ {x y : Nat × Nat} {ka kb : List (Nat × Nat)}, q.kids = ka ++ x :: y :: kb →
      (q.entries.eraseIdx ka.length).length + 1 = q.entries.length := by
    intro x y ka kb hk
    have hget := q.entry_of hk
    rw [List.getElem?_eq_some_iff] at hget
    obtain ⟨hlt, -⟩ := hget
    rw [List.length_eraseIdx_of_lt hlt]
    omega
  rcases hu.left_cases with rfl | ⟨a₂, l, ka₂, rfl, rfl, hu₂⟩
  · -- with the right sibling
    obtain rfl | ⟨r, b₂, kb₂, rfl, rfl, hu₂⟩ := hu.right_cases
    · exact absurd ⟨rfl, rfl⟩ hkids
    set st₃ := (st₁.log (.get r.pid)).log (.wlatch r.pid)
    have hs₃ : st₁.SameData st₃ := .trans .log .log
    have hp : TreeShape st₁ free (a ++ [n, r] ++ b₂) ((a' ++ q :: b') :: rest) := by
      simpa using hshape
    have hk : q.kids = [] ++ n.head :: r.head :: kb₂ := by simpa using hu₂.kids
    have hchild : (q.page (st₁.pages q.pid).parent).childAt ([] ++ [n.head]).length = some r.pid :=
      q.childAt_of _ (x := r.head) (by simpa using hk)
    have hrlen := length_le_of_not_spares hchild (hp.leafOn r (by simp)) hright
    rw [hps] at hrlen
    have hside₃ : LeavesFull st₃.pageSize (a ++ b₂) := by
      rw [hs₃.pageSize, hps]
      exact fun k hk => hside k (by grind)
    obtain ⟨st₄, hrun, hmeta, hroot, -, haround⟩ := (hp.sameData hs₃).run_mergePair r.pid hside₃ hu₂
      (by rw [hs₃.pageSize, hps]; omega)
    rw [hs₃.pages] at hrun
    rw [List.length_nil] at hmerge hrun
    rw [hp.run_mergeLeaves_right hu₂, hrun] at hmerge
    obtain ⟨-, rfl⟩ := Prod.mk.inj (Option.some.inj hmerge)
    refine ⟨_, _, { q with entries := q.entries.eraseIdx 0 }, rfl, herase hk, ?_, ?_, haround, ?_,
      fun hne => absurd rfl hne⟩
    · rw [hroot, hs₃.header, hheader]
    · rw [hmeta.pageSize, hs₃.pageSize, hps]
    · intro c hc
      obtain ⟨k, hk, rfl⟩ := List.mem_map.mp hc
      simp only [List.mem_append, List.mem_singleton] at hk
      rcases hk with (hk | rfl) | hk
      · exact List.mem_map_of_mem (by simp [hk])
      · exact List.mem_map_of_mem (f := LeafNode.pid) (a := n) (by simp)
      · exact List.mem_map_of_mem (by simp [hk])
  · -- with the left sibling
    set st₃ := (st₁.log (.get l.pid)).log (.wlatch l.pid)
    have hs₃ : st₁.SameData st₃ := .trans .log .log
    have hp : TreeShape st₁ free (a₂ ++ [l, n] ++ b) ((a' ++ q :: b') :: rest) := by
      simpa using hshape
    have hk : q.kids = ka₂ ++ l.head :: n.head :: kb := by simpa using hu₂.kids
    have hchild : (q.page (st₁.pages q.pid).parent).childAt ((ka₂ ++ [l.head]).length - 1) =
        some l.pid := by
      rw [List.length_append, List.length_singleton, Nat.add_sub_cancel]
      exact q.childAt_of _ hk
    have hllen := length_le_of_not_spares hchild (hp.leafOn l (by simp)) (hleft (by simp))
    rw [hps] at hllen
    have hside₃ : LeavesFull st₃.pageSize (a₂ ++ b) := by
      rw [hs₃.pageSize, hps]
      exact fun k hk => hside k (by grind)
    obtain ⟨st₄, hrun, hmeta, hroot, -, haround⟩ := (hp.sameData hs₃).run_mergePair l.pid hside₃ hu₂
      (by rw [hs₃.pageSize, hps]; omega)
    rw [hs₃.pages] at hrun
    rw [List.length_append, List.length_singleton, hp.run_mergeLeaves_left hu₂, hrun] at hmerge
    obtain ⟨-, rfl⟩ := Prod.mk.inj (Option.some.inj hmerge)
    have hmem : ∀ c ∈ (a₂ ++ [l.join n] ++ b).map LeafNode.head,
        ∃ k ∈ a₂ ++ [l] ++ b, c.2 = k.pid := by
      intro c hc
      obtain ⟨k, hk, rfl⟩ := List.mem_map.mp hc
      simp only [List.mem_append, List.mem_singleton] at hk
      rcases hk with (hk | rfl) | hk
      · exact ⟨k, by simp [hk], rfl⟩
      · exact ⟨l, by simp, rfl⟩
      · exact ⟨k, by simp [hk], rfl⟩
    refine ⟨_, _, { q with entries := q.entries.eraseIdx ka₂.length }, rfl, herase hk, ?_, ?_,
      haround, ?_, fun _ => ?_⟩
    · rw [hroot, hs₃.header, hheader]
    · rw [hmeta.pageSize, hs₃.pageSize, hps]
    · intro c hc
      obtain ⟨k, hk, hpid⟩ := hmem c hc
      rw [hpid]
      exact List.mem_map_of_mem (by simp only [List.mem_append] at hk ⊢; tauto)
    · intro c hc
      obtain ⟨k, hk, hpid⟩ := hmem c hc
      rw [hpid]
      have hnd := (List.nodup_append.mp hshape.nodup).1
      rw [List.append_assoc, List.singleton_append] at hnd
      exact ne_of_nodup_map hnd k hk

end After

end MiniDb
