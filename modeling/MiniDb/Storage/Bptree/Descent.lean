import Mathlib.Data.List.Perm.Subperm
import MiniDb.Storage.Bptree.Checked
import MiniDb.Storage.Bptree.Rows

/-! # Descending to a leaf

Both descents of `bptree.c` follow the rows from the root to the leaf responsible for a key. The
write-latched one keeps on its stack the ancestors that the coming insertion or deletion may still
have to change: going up from the leaf, everything to the first safe node or the root (`Ancestors`).
The tree is never deeper than the stack is large, because 64-bit keys run out first, so no page is
dropped. -/

set_option autoImplicit false

namespace MiniDb

open Lib

/-! ## Trace-only changes -/

/-- `st'` is `st` up to recorded events. -/
def Pager.SameData (st st' : Pager) : Prop := ∃ t, st' = { st with trace := t }

section SameData

variable {st st' st'' : Pager} {free : List Nat} {leaves : List LeafNode} {rows : List Row}

theorem Pager.SameData.refl : st.SameData st := ⟨st.trace, rfl⟩

theorem Pager.SameData.log {e : PagerEvent} : st.SameData (st.log e) := ⟨_, rfl⟩

theorem Pager.SameData.trans (h : st.SameData st') (h' : st'.SameData st'') : st.SameData st'' := by
  obtain ⟨t, rfl⟩ := h
  obtain ⟨t', rfl⟩ := h'
  exact ⟨t', rfl⟩

theorem Pager.SameData.pages (h : st.SameData st') : st'.pages = st.pages := by
  obtain ⟨t, rfl⟩ := h
  rfl

theorem Pager.SameData.header (h : st.SameData st') : st'.header = st.header := by
  obtain ⟨t, rfl⟩ := h
  rfl

theorem Pager.SameData.pageSize (h : st.SameData st') : st'.pageSize = st.pageSize := by
  obtain ⟨t, rfl⟩ := h
  rfl

theorem Pager.SameData.freeList (h : st.SameData st') (hf : st.FreeList free) :
    st'.FreeList free := by
  obtain ⟨t, rfl⟩ := h
  exact ⟨hf.chain, hf.nodup, hf.lt, hf.pos⟩

theorem Pager.SameData.held (h : st.SameData st') (p : Nat) : st'.Held free p ↔ st.Held free p := by
  obtain ⟨t, rfl⟩ := h
  rfl

theorem TreeShape.sameData (h : TreeShape st free leaves rows) (hs : st.SameData st') :
    TreeShape st' free leaves rows := by
  have hf := hs.freeList h.freeList
  obtain ⟨t, rfl⟩ := hs
  exact ⟨h.pageSize, hf, h.upper, h.occupied, h.leafOn, h.chain, h.order, h.nodup, h.held⟩

theorem TreeInv.sameData (h : TreeInv st free leaves rows) (hs : st.SameData st') :
    TreeInv st' free leaves rows :=
  ⟨h.toTreeShape.sameData hs, by
    obtain ⟨t, rfl⟩ := hs
    exact h.leafOcc⟩

theorem run_forM_unlatchW (pids : List Nat) (st : Pager) :
    ∃ st', (pids.forM pagerUnlatchW).run st = some ((), st') ∧ st.SameData st' := by
  induction pids generalizing st with
  | nil => exact ⟨st, rfl, .refl⟩
  | cons p ps ih =>
    obtain ⟨st', hrun, hs⟩ := ih (st.log (.unlatchW p))
    exact ⟨st', by simpa using hrun, Pager.SameData.log.trans hs⟩

theorem run_lsReleaseAll (stack : List Nat) (st : Pager) :
    ∃ st', (lsReleaseAll stack).run st = some ((), st') ∧ st.SameData st' :=
  run_forM_unlatchW _ st

end SameData

/-! ## Positions of a key -/

/-- `x` is the head whose key range contains `key`. -/
structure Located (key : Nat) (hs ha : List (Nat × Nat)) (x : Nat × Nat) (hb : List (Nat × Nat)) :
    Prop where
  eq : hs = ha ++ x :: hb
  le : ∀ y ∈ ha ++ [x], y.1 ≤ key
  gt : ∀ y ∈ hb, key < y.1

theorem exists_located {hs : List (Nat × Nat)} (hinc : Increasing hs) {c : Nat × Nat}
    {t : List (Nat × Nat)} (hc : hs = c :: t) {key : Nat} (hle : c.1 ≤ key) :
    ∃ ha x hb, Located key hs ha x hb := by
  obtain ⟨l, r, heq, -, hl, hr⟩ := partitionPoint_spec (partitioned_le (f := Prod.fst) hinc key)
  have hl0 : l ≠ [] := by
    rintro rfl
    have hmem : c ∈ r := by
      rw [List.nil_append] at heq
      simp [← heq, hc]
    have := hr c hmem
    simp only [decide_eq_false_iff_not] at this
    exact this hle
  refine ⟨l.dropLast, l.getLast hl0, r, ?_, ?_, ?_⟩
  · rw [heq, ← List.singleton_append, ← List.append_assoc, List.dropLast_append_getLast]
  · rw [List.dropLast_append_getLast]
    intro y hy
    simpa using hl y hy
  · intro y hy
    simpa using hr y hy

theorem Located.singleton {key : Nat} {c x : Nat × Nat} {ha hb : List (Nat × Nat)}
    (h : Located key [c] ha x hb) : ha = [] ∧ x = c ∧ hb = [] := by
  have heq := h.eq
  cases ha with
  | nil => simpa [eq_comm] using heq
  | cons y ha => simp at heq

/-- One step up: the node above the located head is the located node of its row. -/
theorem Located.above {key : Nat} {a b : Row} {p : InnerNode} {ka kb : List (Nat × Nat)}
    {x : Nat × Nat} (h : Located key ((a ++ p :: b).flatMap InnerNode.kids)
      (a.flatMap InnerNode.kids ++ ka) x (kb ++ b.flatMap InnerNode.kids))
    (hk : p.kids = ka ++ x :: kb) :
    Located key ((a ++ p :: b).map InnerNode.head) (a.map InnerNode.head) p.head
      (b.map InnerNode.head) ∧ Located key p.kids ka x kb := by
  have hkle : ∀ y ∈ ka ++ [x], y.1 ≤ key := by
    intro y hy
    apply h.le
    rw [List.append_assoc]
    exact List.mem_append_right _ hy
  -- the first kid of a node has the low key of the node
  have hhead : ∀ n : InnerNode, (n.low, n.leftmost) ∈ n.kids := fun n => List.mem_cons_self
  refine ⟨⟨by simp, ?_, ?_⟩, hk, hkle, fun y hy => h.gt y (List.mem_append_left _ hy)⟩
  · intro y hy
    rcases List.mem_append.mp hy with hy | hy
    · obtain ⟨n, hn, rfl⟩ := List.mem_map.mp hy
      refine h.le (n.low, n.leftmost) (List.mem_append_left _ (List.mem_append_left _ ?_))
      exact List.mem_flatMap.mpr ⟨n, hn, hhead n⟩
    · rw [List.mem_singleton] at hy
      subst hy
      refine hkle (p.low, p.leftmost) ?_
      have hfirst : (ka ++ x :: kb).head? = some (p.low, p.leftmost) := by rw [← hk]; rfl
      cases ka with
      | nil => simpa [eq_comm] using hfirst
      | cons z ka => simpa [eq_comm] using Or.inl hfirst
  · intro y hy
    obtain ⟨n, hn, rfl⟩ := List.mem_map.mp hy
    refine h.gt (n.low, n.leftmost) (List.mem_append_right _ ?_)
    exact List.mem_flatMap.mpr ⟨n, hn, hhead n⟩

/-- A head below a row of nodes is a kid of one of them. -/
theorem exists_parent {hs ha hb : List (Nat × Nat)} {x : Nat × Nat} {row : Row}
    (hkids : row.flatMap InnerNode.kids = hs) (h : hs = ha ++ x :: hb) :
    ∃ a p b ka kb, row = a ++ p :: b ∧ p.kids = ka ++ x :: kb ∧
      ha = a.flatMap InnerNode.kids ++ ka ∧ hb = kb ++ b.flatMap InnerNode.kids := by
  induction row generalizing hs ha with
  | nil =>
    rw [h, List.flatMap_nil] at hkids
    cases ha <;> cases hkids
  | cons n row ih =>
    rw [h, List.flatMap_cons, List.append_eq_append_iff] at hkids
    rcases hkids with ⟨ha', rfl, hrest⟩ | ⟨kb, hk, hrest⟩
    · obtain ⟨a, p, b, ka, kb, rfl, hk, rfl, rfl⟩ := ih hrest rfl
      exact ⟨n :: a, p, b, ka, kb, rfl, hk, by simp, rfl⟩
    · cases kb with
      | nil =>
        obtain ⟨a, p, b, ka, kb, rfl, hk', hnil, rfl⟩ :=
          ih hrest.symm (show x :: hb = [] ++ x :: hb from rfl)
        refine ⟨n :: a, p, b, ka, kb, rfl, hk', ?_, rfl⟩
        rw [List.flatMap_cons, List.append_assoc, ← hnil, List.append_nil, hk, List.append_nil]
      | cons y kb =>
        obtain ⟨rfl, rfl⟩ := List.cons.inj hrest
        exact ⟨[], n, row, ha, kb, rfl, hk, rfl, rfl⟩

/-- The kids of a node of an increasing row increase. -/
theorem Increasing.kids {row : Row} {n : InnerNode} (h : Increasing (row.flatMap InnerNode.kids))
    (hn : n ∈ row) : Increasing n.kids := by
  obtain ⟨l, r, rfl⟩ := List.append_of_mem hn
  rw [List.flatMap_append, List.flatMap_cons, Increasing] at h
  exact (List.pairwise_append.mp (List.pairwise_append.mp h).2.1).1

/-- The stack above the head `x`: the path upwards from `x`, cut after the first safe node. -/
def Ancestors (safe : InnerNode → Prop) :
    List (Nat × Nat) → Nat × Nat → List (Nat × Nat) → List Row → List Nat → Prop
  | _, _, _, [], above => above = []
  | ha, x, hb, row :: rest, above =>
    ∃ a p b ka kb above', row = a ++ p :: b ∧ p.kids = ka ++ x :: kb ∧
      ha = a.flatMap InnerNode.kids ++ ka ∧ hb = kb ++ b.flatMap InnerNode.kids ∧
      above = p.pid :: above' ∧
      (safe p ∧ above' = [] ∨
        ¬ safe p ∧ Ancestors safe (a.map InnerNode.head) p.head (b.map InnerNode.head) rest above')

/-- An insertion does not split the node, a deletion does not merge it. -/
def InnerNode.Safe (pageSize : Nat) (isInsert : Bool) (n : InnerNode) : Prop :=
  if isInsert then n.entries.length < maxInternalKeys pageSize
  else minInternalKeys pageSize < n.entries.length

instance (pageSize : Nat) (isInsert : Bool) (n : InnerNode) : Decidable (n.Safe pageSize isInsert) := by
  unfold InnerNode.Safe
  infer_instance

theorem InnerNode.On.safeNode {n : InnerNode} {pg : Page} (h : n.On pg) (pageSize : Nat)
    (isInsert : Bool) : safeNode pageSize isInsert pg = some (decide (n.Safe pageSize isInsert)) := by
  obtain ⟨par, rfl⟩ := h
  cases isInsert <;> simp [MiniDb.safeNode, InnerNode.Safe]

/-- Every tree page is classified by the safe-node test. -/
theorem Page.IsTree.safeNode {pg : Page} (h : pg.IsTree) (pageSize : Nat) (isInsert : Bool) :
    ∃ safe, MiniDb.safeNode pageSize isInsert pg = some safe := by
  cases pg with
  | leaf l => exact ⟨_, rfl⟩
  | internal i => exact ⟨_, rfl⟩
  | _ => exact absurd h id

theorem Ancestors.length_le {safe : InnerNode → Prop} :
    ∀ {rows : List Row} {ha hb : List (Nat × Nat)} {x : Nat × Nat} {above : List Nat},
      Ancestors safe ha x hb rows above → above.length ≤ rows.length
  | [], _, _, _, _, h => by simp [show _ = [] from h]
  | _ :: _, _, _, _, _, ⟨_, _, _, _, _, _, _, _, _, _, rfl, h⟩ => by
    rcases h with ⟨-, rfl⟩ | ⟨-, h⟩
    · simp
    · simpa using h.length_le

section Descent

variable {root : Nat} {st : Pager} {key : Nat}

/-- **The write-latched descent**: after as many rounds as there are rows above, the loop stands at
the head of the row below whose range contains the key, with the ancestors on the stack unless
that page is safe. -/
theorem findLeafWlatchLoop_descend (st : Pager) (key : Nat) (isInsert : Bool) :
    ∀ {rows : List Row} {hs ha hb : List (Nat × Nat)} {x : Nat × Nat},
      Upper st.pages root hs rows → (∀ c ∈ hs, (st.pages c.2).IsTree) →
      rows.length < maxTreeDepth → Located key hs ha x hb →
      ∃ st' above safe, st.SameData st' ∧
        Ancestors (·.Safe st.pageSize isInsert) ha x hb rows above ∧
        safeNode st.pageSize isInsert (st.pages x.2) = some safe ∧
        ∀ fuel, (findLeafWlatchLoopChecked key isInsert (fuel + rows.length) root [root]).run st =
          (findLeafWlatchLoopChecked key isInsert fuel x.2
            (x.2 :: if safe then [] else above)).run st' := by
  intro rows
  induction rows with
  | nil =>
    rintro hs ha hb x ⟨rfl, -⟩ htree - hloc
    obtain ⟨rfl, rfl, rfl⟩ := hloc.singleton
    obtain ⟨safe, hsafe⟩ := (htree (0, root) (by simp)).safeNode st.pageSize isInsert
    exact ⟨st, [], safe, .refl, rfl, hsafe, fun fuel => by simp⟩
  | cons row rest ih =>
    rintro hs ha hb x ⟨hrow, hrest⟩ htree hdepth hloc
    have htree' : ∀ c ∈ row.map InnerNode.head, (st.pages c.2).IsTree := by
      intro c hc
      obtain ⟨n, hn, rfl⟩ := List.mem_map.mp hc
      exact (hrow.on n hn).isTree
    -- `x` is the kid of `p` that contains the key
    obtain ⟨a, p, b, ka, kb, rfl, hkids, rfl, rfl⟩ := exists_parent hrow.kids hloc.eq
    have hlocx := hloc
    rw [← hrow.kids] at hlocx
    obtain ⟨hlocp, hlock⟩ := hlocx.above hkids
    have hp : p ∈ a ++ p :: b := by simp
    obtain ⟨st₁, above, safeP, hsame₁, hanc, hsafeP, hrun⟩ :=
      ih hrest htree' (by simp only [List.length_cons] at hdepth; omega) hlocp
    have hon := hrow.on p hp
    have hsafe : safeP = decide (p.Safe st.pageSize isInsert) := by
      have := hon.safeNode st.pageSize isInsert
      rw [show p.head.2 = p.pid from rfl, this] at hsafeP
      exact (Option.some.inj hsafeP).symm
    obtain ⟨safe, hsafex⟩ := (htree x (hloc.eq ▸ by simp)).safeNode st.pageSize isInsert
    obtain ⟨st₂, hrel, hsame₂⟩ := run_lsReleaseAll (p.pid :: if safeP then [] else above)
      ((st₁.log (.get x.2)).log (.wlatch x.2))
    refine ⟨if safe then st₂ else (st₁.log (.get x.2)).log (.wlatch x.2),
      p.pid :: if safeP then [] else above, safe, ?_, ?_, hsafex, ?_⟩
    · have h₁ : st.SameData ((st₁.log (.get x.2)).log (.wlatch x.2)) :=
        hsame₁.trans (Pager.SameData.log.trans Pager.SameData.log)
      split
      · exact h₁.trans hsame₂
      · exact h₁
    · refine ⟨a, p, b, ka, kb, _, rfl, hlock.eq, rfl, rfl, rfl, ?_⟩
      by_cases hs : p.Safe st.pageSize isInsert
      · exact .inl ⟨hs, by simp [hsafe, hs]⟩
      · exact .inr ⟨hs, by simpa [hsafe, hs] using hanc⟩
    · intro fuel
      have hpush : lsPushChecked (p.pid :: if safeP then [] else above) x.2 =
          pure (x.2 :: p.pid :: if safeP then [] else above) := by
        have hlen := hanc.length_le
        refine if_pos ?_
        simp only [List.length_cons] at hdepth ⊢
        split
        · simp only [List.length_nil]; omega
        · omega
      have hidx : internalFind p.entries key = ka.length :=
        p.internalFind_of hlock.eq hlock.le hlock.gt
      have hchild := p.childAt_of (st.pages p.pid).parent hlock.eq
      have hpage : st₁.pages p.pid = .internal ⟨(st.pages p.pid).parent, p.leftmost, p.entries⟩ := by
        rw [hsame₁.pages]
        exact hon.eq
      rw [List.length_cons, ← Nat.add_assoc, Nat.add_right_comm, hrun (fuel + 1)]
      rw [findLeafWlatchLoopChecked]
      simp only [InnerNode.head, StateT.run_bind, run_readPage, hpage, hidx, hchild,
        Option.bind_eq_bind, Option.bind_some, run_pagerGetPageWlatch, getPageSize, StateT.run_pure,
        StateT.run_get, Option.pure_def, Pager.log_pageSize, Pager.log_pages, hsame₁.pageSize,
        hsame₁.pages, hsafex]
      cases safe with
      | true => simp [hrel, lsPushChecked, maxTreeDepth]
      | false => simp [hpush]

/-- **The read-latched descent**, which keeps no stack. -/
theorem findLeafRlatchLoop_descend (st : Pager) (key : Nat) :
    ∀ {rows : List Row} {hs ha hb : List (Nat × Nat)} {x : Nat × Nat},
      Upper st.pages root hs rows → Located key hs ha x hb →
      ∃ st', st.SameData st' ∧ ∀ fuel,
        (findLeafRlatchLoop key (fuel + rows.length) root).run st =
          (findLeafRlatchLoop key fuel x.2).run st' := by
  intro rows
  induction rows with
  | nil =>
    rintro hs ha hb x ⟨rfl, -⟩ hloc
    obtain ⟨rfl, rfl, rfl⟩ := hloc.singleton
    exact ⟨st, .refl, fun fuel => rfl⟩
  | cons row rest ih =>
    rintro hs ha hb x ⟨hrow, hrest⟩ hloc
    obtain ⟨a, p, b, ka, kb, rfl, hkids, rfl, rfl⟩ := exists_parent hrow.kids hloc.eq
    rw [← hrow.kids] at hloc
    obtain ⟨hlocp, hlock⟩ := hloc.above hkids
    have hp : p ∈ a ++ p :: b := by simp
    obtain ⟨st₁, hsame₁, hrun⟩ := ih hrest hlocp
    have hidx : internalFind p.entries key = ka.length :=
      p.internalFind_of hlock.eq hlock.le hlock.gt
    have hchild := p.childAt_of (st.pages p.pid).parent hlock.eq
    have hpage : st₁.pages p.pid = .internal ⟨(st.pages p.pid).parent, p.leftmost, p.entries⟩ := by
      rw [hsame₁.pages]
      exact (hrow.on p hp).eq
    refine ⟨((st₁.log (.get x.2)).log (.rlatch x.2)).log (.unlatchR p.pid),
      hsame₁.trans (.trans .log (.trans .log .log)), fun fuel => ?_⟩
    rw [List.length_cons, ← Nat.add_assoc, Nat.add_right_comm, hrun (fuel + 1), findLeafRlatchLoop]
    simp only [InnerNode.head, StateT.run_bind, run_readPage, hpage, hidx, hchild,
      Option.bind_eq_bind, Option.bind_some, run_pagerGetPageRlatch, run_pagerUnlatchR]

end Descent

/-! ## Depth

Every row is at least 171 times as long as the row above it, and the low keys of the leaves are
distinct 64-bit numbers. -/

section Depth

variable {g : Nat → Page} {root ps : Nat}

theorem length_flatMap_kids_ge {m : Nat} {row : Row} (h : ∀ n ∈ row, m ≤ n.entries.length) :
    row.length * (m + 1) ≤ (row.flatMap InnerNode.kids).length := by
  induction row with
  | nil => simp
  | cons n row ih =>
    have h1 := ih fun m hm => h m (List.mem_cons_of_mem _ hm)
    have h2 : m + 1 ≤ n.kids.length := Nat.succ_le_succ (h n (by simp))
    rw [List.length_cons, Nat.add_mul, Nat.one_mul, List.flatMap_cons, List.length_append]
    omega

/-- The number of heads below `rows` grows with the number of rows. -/
theorem Upper.length_ge :
    ∀ {rows : List Row} {hs : List (Nat × Nat)}, Upper g root hs rows → Occupied ps rows →
      rows ≠ [] → 2 * (minInternalKeys ps + 1) ^ (rows.length - 1) ≤ hs.length
  | [], _, _, _, h => absurd rfl h
  | [row], hs, ⟨hrow, htop, _⟩, ⟨hocc, _⟩, _ => by
    obtain ⟨n, rfl⟩ : ∃ n, row = [n] := by
      rw [← List.length_eq_one_iff]
      simpa using congrArg List.length htop
    have := (hocc n (by simp)).1
    rw [← hrow.kids]
    simp only [minKeys, if_true] at this
    simp only [List.flatMap_cons, List.flatMap_nil, InnerNode.kids, List.append_nil,
      List.length_cons, List.length_nil, Nat.zero_add, Nat.sub_self, Nat.pow_zero]
    omega
  | row :: row' :: rest, hs, ⟨hrow, hrest⟩, ⟨hocc, hocc'⟩, _ => by
    have ih := hrest.length_ge hocc' (by simp)
    have hkids : row.length * (minInternalKeys ps + 1) ≤ (row.flatMap InnerNode.kids).length :=
      length_flatMap_kids_ge fun n hn => by simpa [minKeys] using (hocc n hn).1
    rw [← hrow.kids]
    rw [List.length_map] at ih
    calc 2 * (minInternalKeys ps + 1) ^ ((row :: row' :: rest).length - 1)
        = 2 * (minInternalKeys ps + 1) ^ ((row' :: rest).length - 1) * (minInternalKeys ps + 1) := by
          simp [Nat.pow_succ, Nat.mul_assoc]
      _ ≤ row.length * (minInternalKeys ps + 1) := Nat.mul_le_mul_right _ ih
      _ ≤ _ := hkids

/-- A strictly increasing list of heads with low keys below `n` has at most `n` elements. -/
theorem Increasing.length_le {hs : List (Nat × Nat)} (h : Increasing hs) {n : Nat}
    (hlt : ∀ y ∈ hs, y.1 < n) : hs.length ≤ n := by
  have hnd : (hs.map Prod.fst).Nodup := (increasing_iff.mp h).imp Nat.ne_of_lt
  have hsub : hs.map Prod.fst ⊆ List.range n := by
    intro k hk
    obtain ⟨y, hy, rfl⟩ := List.mem_map.mp hk
    exact List.mem_range.mpr (hlt y hy)
  simpa using (List.subperm_of_subset hnd hsub).length_le

theorem LeafOrder.increasing {leaves : List LeafNode} (h : LeafOrder leaves) :
    Increasing (leaves.map LeafNode.head) := by
  rw [Increasing, List.pairwise_map]
  exact h.pairwise.imp fun hab => hab.1

variable {st : Pager} {free : List Nat} {leaves : List LeafNode} {rows : List Row}

/-- **The tree fits the latch stack.** -/
theorem TreeInv.depth (h : TreeInv st free leaves rows) : rows.length < maxTreeDepth := by
  by_contra hge
  have hlen : (leaves.map LeafNode.head).length ≤ 2 ^ 64 := by
    refine h.order.increasing.length_le ?_
    intro y hy
    obtain ⟨n, hn, rfl⟩ := List.mem_map.mp hy
    exact h.order.low_lt n hn
  have hne : rows ≠ [] := by
    rintro rfl
    exact hge (by decide)
  have hpow : (2 ^ 7) ^ 31 ≤ (minInternalKeys st.pageSize + 1) ^ (rows.length - 1) := by
    have h170 := minInternalKeys_ge h.pageSize
    have hrows : 31 ≤ rows.length - 1 := by
      simp only [maxTreeDepth] at hge
      omega
    calc (2 ^ 7) ^ 31 ≤ (minInternalKeys st.pageSize + 1) ^ 31 := Nat.pow_le_pow_left (by omega) _
      _ ≤ _ := Nat.pow_le_pow_right (by omega) hrows
  have := h.upper.length_ge h.occupied hne
  have hbig : 2 ^ 64 < 2 * (2 ^ 7) ^ 31 := by decide
  omega

/-- Leaves with many entries each. -/
theorem length_treeEntries_ge {m : Nat} {ns : List LeafNode} (h : ∀ n ∈ ns, m ≤ n.entries.length) :
    ns.length * m ≤ (treeEntries ns).length := by
  induction ns with
  | nil => simp
  | cons n ns ih =>
    have hrest := ih fun m hm => h m (List.mem_cons_of_mem _ hm)
    have hn := h n List.mem_cons_self
    rw [treeEntries, List.flatMap_cons, List.length_append, List.length_cons, Nat.add_mul,
      Nat.one_mul]
    rw [treeEntries] at hrest
    omega

/-- A tree of some height has many entries. -/
theorem TreeInv.length_entries_ge (h : TreeInv st free leaves rows) (hne : rows ≠ []) :
    2 * minLeafKeys st.pageSize * (minInternalKeys st.pageSize + 1) ^ (rows.length - 1) ≤
      (treeEntries leaves).length := by
  have hleaves := h.upper.length_ge h.occupied hne
  rw [List.length_map] at hleaves
  calc 2 * minLeafKeys st.pageSize * (minInternalKeys st.pageSize + 1) ^ (rows.length - 1)
      = 2 * (minInternalKeys st.pageSize + 1) ^ (rows.length - 1) * minLeafKeys st.pageSize := by
        rw [Nat.mul_right_comm]
    _ ≤ leaves.length * minLeafKeys st.pageSize := Nat.mul_le_mul_right _ hleaves
    _ ≤ (treeEntries leaves).length := length_treeEntries_ge fun n hn => by
        have := (h.leafOcc n hn).1
        rwa [minEntries, if_neg hne] at this

theorem Upper.length_le_rowsPids :
    ∀ {rows : List Row} {hs : List (Nat × Nat)}, Upper g root hs rows →
      rows.length ≤ (rowsPids rows).length
  | [], _, _ => by simp
  | row :: rest, _, ⟨_, hrest⟩ => by
    have ih := hrest.length_le_rowsPids
    obtain ⟨c, t, hct⟩ := hrest.first_low
    have : 0 < row.length := by
      rw [← List.length_map (f := InnerNode.head), hct]
      simp
    simp only [List.length_cons, rowsPids_cons, List.length_append, List.length_map]
    omega

/-- A descent ends before it runs out of pages. -/
theorem TreeInv.rows_lt_nextPageId (h : TreeInv st free leaves rows) :
    rows.length < st.header.nextPageId := by
  have hsub : 0 :: rowsPids rows ⊆ List.range st.header.nextPageId := by
    intro p hp
    rcases List.mem_cons.mp hp with rfl | hp
    · exact List.mem_range.mpr h.freeList.pos
    · exact List.mem_range.mpr (h.held p (List.mem_append_right _ hp)).2.1
  have hnd : (0 :: rowsPids rows).Nodup := by
    refine List.nodup_cons.mpr ⟨?_, (List.nodup_append.mp h.nodup).2.1⟩
    intro h0
    exact (h.held 0 (List.mem_append_right _ h0)).1 rfl
  have hle := (List.subperm_of_subset hnd hsub).length_le
  have := h.upper.length_le_rowsPids
  simp only [List.length_cons, List.length_range] at hle
  omega

end Depth

/-! ## Finding the leaf of a key -/

/-- An insertion does not split the leaf, a deletion does not merge it. -/
def LeafNode.Safe (pageSize : Nat) (isInsert : Bool) (n : LeafNode) : Prop :=
  if isInsert then n.entries.length < maxLeafKeys pageSize
  else minLeafKeys pageSize < n.entries.length

instance (pageSize : Nat) (isInsert : Bool) (n : LeafNode) : Decidable (n.Safe pageSize isInsert) := by
  unfold LeafNode.Safe
  infer_instance

theorem LeafNode.On.safeNode {n : LeafNode} {pg : Page} (h : n.On pg) (pageSize : Nat)
    (isInsert : Bool) : safeNode pageSize isInsert pg = some (decide (n.Safe pageSize isInsert)) := by
  obtain ⟨par, next, prev, rfl⟩ := h
  cases isInsert <;> simp [MiniDb.safeNode, LeafNode.Safe]

/-- The leaf `n` is the one responsible for `key`. -/
structure LeafFor (key : Nat) (leaves a : List LeafNode) (n : LeafNode) (b : List LeafNode) :
    Prop where
  eq : leaves = a ++ n :: b
  located : Located key (leaves.map LeafNode.head) (a.map LeafNode.head) n.head
    (b.map LeafNode.head)

theorem LeafFor.mem {key : Nat} {leaves a b : List LeafNode} {n : LeafNode}
    (h : LeafFor key leaves a n b) : n ∈ leaves := by
  rw [h.eq]
  exact List.mem_append_right _ List.mem_cons_self

section FindLeaf

variable {st : Pager} {free : List Nat} {leaves : List LeafNode} {rows : List Row}

theorem TreeInv.exists_leafFor (h : TreeInv st free leaves rows) (key : Nat) :
    ∃ a n b, LeafFor key leaves a n b := by
  obtain ⟨c, t, hct⟩ := h.upper.first_low
  obtain ⟨ha, x, hb, hloc⟩ := exists_located h.order.increasing hct (Nat.zero_le key)
  obtain ⟨a, nb, hleaves, rfl, hnb⟩ := List.map_eq_append_iff.mp hloc.eq
  obtain ⟨n, b, rfl, rfl, rfl⟩ := List.map_eq_cons_iff.mp hnb
  exact ⟨a, n, b, hleaves, hloc⟩

/-- With one round more than there are rows the descent ends at the leaf of the key, the unsafe
ancestors on the stack. -/
theorem TreeInv.findLeafWlatchLoopChecked (h : TreeInv st free leaves rows) {key : Nat}
    {a b : List LeafNode} {n : LeafNode} (hn : LeafFor key leaves a n b) (isInsert : Bool)
    {st₀ : Pager} (hsame₀ : st.SameData st₀) :
    ∃ st' above, st.SameData st' ∧
      (∀ fuel, rows.length < fuel →
        (MiniDb.findLeafWlatchLoopChecked key isInsert fuel st.header.rootIndexPageId
          [st.header.rootIndexPageId]).run st₀ =
            some ((n.pid, n.pid :: if n.Safe st.pageSize isInsert then [] else above), st')) ∧
      Ancestors (·.Safe st.pageSize isInsert) (a.map LeafNode.head) n.head (b.map LeafNode.head)
        rows above := by
  have hmem : n ∈ leaves := hn.mem
  have h₀ := h.sameData hsame₀
  have htree : ∀ c ∈ leaves.map LeafNode.head, (st₀.pages c.2).IsTree := by
    intro c hc
    obtain ⟨m, hm, rfl⟩ := List.mem_map.mp hc
    exact (h₀.leafOn m hm).isTree
  obtain ⟨st', above, safe, hsame, hanc, hsafe, hrun⟩ :=
    findLeafWlatchLoop_descend st₀ key isInsert h₀.upper htree h.depth hn.located
  have hon := h₀.leafOn n hmem
  have hsafe' : safe = decide (n.Safe st₀.pageSize isInsert) :=
    (Option.some.inj ((hon.safeNode st₀.pageSize isInsert).symm.trans hsafe)).symm
  rw [hsame₀.header] at hrun
  rw [hsame₀.pageSize] at hsafe' hanc
  refine ⟨st', above, hsame₀.trans hsame, ?_, hanc⟩
  intro rounds hrounds
  obtain ⟨fuel, rfl⟩ : ∃ fuel, rounds = fuel + 1 + rows.length :=
    ⟨rounds - rows.length - 1, by omega⟩
  have hpage : st'.pages n.pid = .leaf ⟨(st₀.pages n.pid).parent, (st₀.pages n.pid).nextLeaf,
      (st₀.pages n.pid).prevLeaf, n.entries⟩ := by
    rw [hsame.pages]
    exact hon.eq
  rw [hrun (fuel + 1), MiniDb.findLeafWlatchLoopChecked]
  simp [LeafNode.head, hpage, hsafe']

theorem run_findLeafWlatchChecked {key : Nat} {isInsert : Bool} :
    (findLeafWlatchChecked key isInsert).run st =
      (findLeafWlatchLoopChecked key isInsert st.header.nextPageId st.header.rootIndexPageId
        [st.header.rootIndexPageId]).run
          ((st.log (.get st.header.rootIndexPageId)).log (.wlatch st.header.rootIndexPageId)) := by
  simp [findLeafWlatchChecked, rootId, lsPushChecked, maxTreeDepth]

/-- `find_leaf_wlatch` finds the leaf of the key and keeps the unsafe ancestors latched; it drops
none. -/
theorem TreeInv.findLeafWlatchChecked (h : TreeInv st free leaves rows) {key : Nat}
    {a b : List LeafNode} {n : LeafNode} (hn : LeafFor key leaves a n b) (isInsert : Bool) :
    ∃ st' above, st.SameData st' ∧
      (findLeafWlatchChecked key isInsert).run st =
        some ((n.pid, n.pid :: if n.Safe st.pageSize isInsert then [] else above), st') ∧
      Ancestors (·.Safe st.pageSize isInsert) (a.map LeafNode.head) n.head (b.map LeafNode.head)
        rows above := by
  obtain ⟨st', above, hsame, hrun, hanc⟩ :=
    h.findLeafWlatchLoopChecked hn isInsert (Pager.SameData.log.trans .log)
  refine ⟨st', above, hsame, ?_, hanc⟩
  rw [run_findLeafWlatchChecked]
  exact hrun _ h.rows_lt_nextPageId

theorem TreeInv.findLeafWlatch (h : TreeInv st free leaves rows) {key : Nat} {a b : List LeafNode}
    {n : LeafNode} (hn : LeafFor key leaves a n b) (isInsert : Bool) :
    ∃ st' above, st.SameData st' ∧
      (findLeafWlatch key isInsert).run st =
        some ((n.pid, n.pid :: if n.Safe st.pageSize isInsert then [] else above), st') ∧
      Ancestors (·.Safe st.pageSize isInsert) (a.map LeafNode.head) n.head (b.map LeafNode.head)
        rows above := by
  obtain ⟨st', above, hsame, hrun, hanc⟩ := h.findLeafWlatchChecked hn isInsert
  exact ⟨st', above, hsame, refines_findLeafWlatchChecked key isInsert _ _ hrun, hanc⟩

/-- `find_leaf_rlatch` finds the leaf of the key. -/
theorem TreeInv.findLeafRlatch (h : TreeInv st free leaves rows) {key : Nat} {a b : List LeafNode}
    {n : LeafNode} (hn : LeafFor key leaves a n b) :
    ∃ st', st.SameData st' ∧ (findLeafRlatch key).run st = some (n.pid, st') := by
  have hmem : n ∈ leaves := hn.mem
  set st₀ := (st.log (.get st.header.rootIndexPageId)).log (.rlatch st.header.rootIndexPageId)
  have hsame₀ : st.SameData st₀ := .trans .log .log
  obtain ⟨st', hsame, hrun⟩ :=
    findLeafRlatchLoop_descend st₀ key h.upper hn.located
  obtain ⟨fuel, hfuel⟩ : ∃ fuel, st.header.nextPageId = fuel + 1 + rows.length :=
    ⟨st.header.nextPageId - rows.length - 1, by have := h.rows_lt_nextPageId; omega⟩
  have hpage : st'.pages n.pid = .leaf ⟨(st.pages n.pid).parent, (st.pages n.pid).nextLeaf,
      (st.pages n.pid).prevLeaf, n.entries⟩ := by
    rw [hsame.pages]
    exact (h.leafOn n hmem).eq
  refine ⟨st', hsame₀.trans hsame, ?_⟩
  have hstart : (MiniDb.findLeafRlatch key).run st =
      (findLeafRlatchLoop key st.header.nextPageId st.header.rootIndexPageId).run st₀ := by
    simp [MiniDb.findLeafRlatch, rootId, st₀]
  rw [hstart, hfuel, hrun (fuel + 1), findLeafRlatchLoop]
  simp [LeafNode.head, hpage]

end FindLeaf

end MiniDb
