import MiniDb.Lib.Visit
import MiniDb.Storage.Bptree.Refinement

/-! # Range scan

`bptree_range_scan` descends to the leaf of the lower bound, or to the leftmost one, and follows
the right siblings from there, handing every entry to a callback until one lies above the upper
bound or the callback says stop. What a caller may rely on is `visit` over the entries of the tree
inside the interval: each once, in key order, and none after a callback that returned `false`. -/

set_option autoImplicit false

namespace MiniDb

open Lib

/-! ## The code -/

/-- The bounds of a scan, as `bptree_range_scan` takes them. -/
structure KeyRange where
  hasLo : Bool
  lo : Nat
  loInclusive : Bool
  hasHi : Bool
  hi : Nat
  hiInclusive : Bool
  deriving DecidableEq, Repr

/-- `bptree_range_cb`: `true` asks for the next entry. The context is what the callback writes. -/
abbrev RangeCallback (γ : Type) := Nat → RowRef → γ → Bool × γ

/-- The callback on an entry. -/
def RangeCallback.onEntry {γ : Type} (cb : RangeCallback γ) (e : Nat × RowRef) (ctx : γ) : Bool × γ :=
  cb e.1 e.2 ctx

section Code

variable {γ : Type}

/-- The test by which the scan stops at a key. -/
def KeyRange.over (r : KeyRange) (k : Nat) : Bool :=
  r.hasHi && if r.hiInclusive then decide (k > r.hi) else decide (k ≥ r.hi)

/-- The loop of `find_leftmost_leaf_rlatch`. -/
def findLeftmostLeafRlatchLoop : Nat → Nat → PagerM Nat
  | 0, _ => failure
  | fuel + 1, pid => do
    match ← readPage pid with
    | .leaf _ => return pid
    | .internal iph =>
      let childPid := iph.leftmostChildPageId
      pagerGetPageRlatch childPid
      pagerUnlatchR pid
      findLeftmostLeafRlatchLoop fuel childPid
    | _ => failure

/-- `find_leftmost_leaf_rlatch`. -/
def findLeftmostLeafRlatch : PagerM Nat := do
  let pid ← rootId
  pagerGetPageRlatch pid
  findLeftmostLeafRlatchLoop (← get).header.nextPageId pid

/-- The `for` loop over the entries of one leaf; `false` when it returned out of the scan. -/
def scanEntries (r : KeyRange) (cb : RangeCallback γ) : List (Nat × RowRef) → γ → Bool × γ
  | [], ctx => (true, ctx)
  | (k, ref) :: rest, ctx =>
    if r.over k then (false, ctx)
    else
      match cb k ref ctx with
      | (true, ctx) => scanEntries r cb rest ctx
      | (false, ctx) => (false, ctx)

/-- The `while (1)` loop of `bptree_range_scan`; `entries` are those of the leaf from `idx` on.
A walk along the leaves longer than there are pages never ends. -/
def rangeScanLoop (r : KeyRange) (cb : RangeCallback γ) :
    Nat → Nat → LeafPage → List (Nat × RowRef) → γ → PagerM γ
  | 0, _, _, _, _ => failure
  | fuel + 1, pid, lph, entries, ctx => do
    match scanEntries r cb entries ctx with
    | (false, ctx) =>
      pagerUnlatchR pid
      return ctx
    | (true, ctx) =>
      let next := lph.nextLeafPageId
      if next = 0 then
        pagerUnlatchR pid
        return ctx
      else
        pagerGetPageRlatch next
        pagerUnlatchR pid
        let nlph ← readLeaf next
        rangeScanLoop r cb fuel next nlph nlph.entries ctx

/-- The start position in the first leaf: the entries from `idx` on. -/
def KeyRange.startEntries (r : KeyRange) (entries : List (Nat × RowRef)) : List (Nat × RowRef) :=
  if r.hasLo then
    let rest := entries.drop (leafFind entries r.lo)
    if r.loInclusive then rest else rest.dropWhile (·.1 == r.lo)
  else
    entries

/-- The leaf at which the scan starts, read-latched. -/
def findStartLeafRlatch (r : KeyRange) : PagerM Nat :=
  if r.hasLo then findLeafRlatch r.lo else findLeftmostLeafRlatch

/-- `bptree_range_scan`: the context after the last callback. -/
def bptreeRangeScan (r : KeyRange) (cb : RangeCallback γ) (ctx : γ) : PagerM γ := do
  let pid ← findStartLeafRlatch r
  let lph ← readLeaf pid
  rangeScanLoop r cb (← get).header.nextPageId pid lph (r.startEntries lph.entries) ctx

end Code

/-! ## What a scan is for -/

/-- At or above the lower bound, if there is one. -/
def KeyRange.AboveLo (r : KeyRange) (k : Nat) : Prop :=
  r.hasLo → if r.loInclusive then r.lo ≤ k else r.lo < k

/-- At or below the upper bound, if there is one. -/
def KeyRange.BelowHi (r : KeyRange) (k : Nat) : Prop :=
  r.hasHi → if r.hiInclusive then k ≤ r.hi else k < r.hi

instance (r : KeyRange) (k : Nat) : Decidable (r.AboveLo k) := by
  unfold KeyRange.AboveLo
  infer_instance

instance (r : KeyRange) (k : Nat) : Decidable (r.BelowHi k) := by
  unfold KeyRange.BelowHi
  infer_instance

/-- The interval between the bounds. -/
abbrev KeyRange.Contains (r : KeyRange) (k : Nat) : Prop := r.AboveLo k ∧ r.BelowHi k

section Entries

variable {γ : Type}

theorem KeyRange.over_eq_false {r : KeyRange} {k : Nat} : r.over k = false ↔ r.BelowHi k := by
  unfold KeyRange.over KeyRange.BelowHi
  cases r.hasHi <;> cases r.hiInclusive <;> simp

/-- A key above one that stops the scan stops it as well. -/
theorem KeyRange.over_mono {r : KeyRange} {k k' : Nat} (h : r.over k = true) (hk : k ≤ k') :
    r.over k' = true := by
  unfold KeyRange.over at *
  split at * <;> simp_all <;> omega

/-- The loop over one leaf visits the entries it does not stop at; it goes on to the next leaf when
it has visited all of them. -/
theorem scanEntries_eq (r : KeyRange) (cb : RangeCallback γ) {es : List (Nat × RowRef)}
    (hs : es.Pairwise fun a b => a.1 < b.1) (ctx : γ) :
    (scanEntries r cb es ctx).2 = (visit cb.onEntry (es.filter (!r.over ·.1)) ctx).2 ∧
      ((scanEntries r cb es ctx).1 = true ↔
        (∀ e ∈ es, r.over e.1 = false) ∧ (visit cb.onEntry es ctx).1 = true) := by
  induction es generalizing ctx with
  | nil => simp [scanEntries, visit]
  | cons e es ih =>
    obtain ⟨hlt, hs⟩ := List.pairwise_cons.mp hs
    by_cases hover : r.over e.1 = true
    · have hnone : es.filter (!r.over ·.1) = [] := by
        rw [List.filter_eq_nil_iff]
        intro x hx
        simp [KeyRange.over_mono hover (hlt x hx).le]
      simp [scanEntries, hover, hnone, visit]
    · have hover : r.over e.1 = false := by simpa using hover
      simp only [scanEntries, hover, List.filter_cons, Bool.not_false, if_true, visit,
        Bool.false_eq_true, if_false, List.forall_mem_cons, true_and, RangeCallback.onEntry]
      rcases hcb : cb e.1 e.2 ctx with ⟨_ | _, ctx'⟩
      · simp
      · exact ih hs ctx'

end Entries

/-! ## The walk along the leaves -/

section Scan

variable {st : Pager} {free : List Nat} {leaves : List LeafNode} {rows : List Row} {γ : Type}

/-- From an entry of a leaf on, the scan visits what lies to the right and below the upper bound. -/
theorem rangeScanLoop_spec (h : TreeShape st free leaves rows) (r : KeyRange)
    (cb : RangeCallback γ) {a b : List LeafNode} {n : LeafNode} (heq : leaves = a ++ n :: b)
    {es : List (Nat × RowRef)} (hs : (es ++ treeEntries b).Pairwise fun x y => x.1 < y.1)
    {fuel : Nat} (hfuel : b.length < fuel) (ctx : γ) {st₁ : Pager} (hsame : st.SameData st₁)
    {lph : LeafPage} (hlph : st.pages n.pid = .leaf lph) :
    ∃ st', (rangeScanLoop r cb fuel n.pid lph es ctx).run st₁ =
        some ((visit cb.onEntry ((es ++ treeEntries b).filter (!r.over ·.1)) ctx).2, st') ∧
      st.SameData st' := by
  induction b generalizing a n es fuel ctx st₁ lph with
  | nil =>
    obtain ⟨fuel, rfl⟩ : ∃ f, fuel = f + 1 := ⟨fuel - 1, by simp at hfuel; omega⟩
    have hes : es.Pairwise fun x y => x.1 < y.1 := by simpa [treeEntries] using hs
    obtain ⟨hctx, -⟩ := scanEntries_eq r cb hes ctx
    have hnext : lph.nextLeafPageId = 0 := by
      rcases (heq ▸ h).nextLeaf_cases with ⟨-, hn⟩ | ⟨m, b', hm, -⟩
      · simpa [hlph, Page.nextLeaf] using hn
      · cases hm
    refine ⟨st₁.log (.unlatchR n.pid), ?_, hsame.trans .log⟩
    simp only [treeEntries, List.flatMap_nil, List.append_nil, rangeScanLoop, ← hctx, hnext]
    rcases scanEntries r cb es ctx with ⟨_ | _, ctx'⟩ <;> simp
  | cons m b ih =>
    obtain ⟨fuel, rfl⟩ : ∃ f, fuel = f + 1 := ⟨fuel - 1, by simp at hfuel; omega⟩
    obtain ⟨hes, hrest, hlt⟩ := List.pairwise_append.mp hs
    obtain ⟨hctx, hgo⟩ := scanEntries_eq r cb hes ctx
    obtain ⟨hnext, hm0⟩ : lph.nextLeafPageId = m.pid ∧ m.pid ≠ 0 := by
      rcases (heq ▸ h).nextLeaf_cases with ⟨hb, -⟩ | ⟨m', b', hm, hn, hne⟩
      · cases hb
      · obtain ⟨rfl, rfl⟩ := List.cons.inj hm
        exact ⟨by simpa [hlph, Page.nextLeaf] using hn, hne⟩
    have hmem : m ∈ leaves := by simp [heq]
    have hpage := (h.leafOn m hmem).eq
    cases hscan : scanEntries r cb es ctx with
    | mk go ctx' =>
    rw [hscan] at hctx hgo
    replace hctx : ctx' = _ := hctx
    cases go with
    | true =>
      -- the whole leaf was visited: the scan goes on with the next one
      obtain ⟨hunder, hvis⟩ := hgo.mp rfl
      have hfilter : es.filter (!r.over ·.1) = es :=
        List.filter_eq_self.mpr fun e he => by simp [hunder e he]
      have hfuel' : b.length < fuel := by simpa using hfuel
      have hrest' : (m.entries ++ treeEntries b).Pairwise fun x y => x.1 < y.1 := hrest
      obtain ⟨st', hrun, hsame'⟩ := ih (a := a ++ [n]) (n := m) (by simp [heq]) hrest' hfuel' ctx'
        (hsame.trans (.trans (.trans .log .log) .log) : st.SameData
          (((st₁.log (.get m.pid)).log (.rlatch m.pid)).log (.unlatchR n.pid))) hpage
      refine ⟨st', ?_, hsame'⟩
      have hread : (readLeaf m.pid).run
          (((st₁.log (.get m.pid)).log (.rlatch m.pid)).log (.unlatchR n.pid)) = some
          (⟨(st.pages m.pid).parent, (st.pages m.pid).nextLeaf, (st.pages m.pid).prevLeaf,
            m.entries⟩, ((st₁.log (.get m.pid)).log (.rlatch m.pid)).log (.unlatchR n.pid)) :=
        run_readLeaf (by simpa [hsame.pages] using hpage)
      have hsplit : treeEntries (m :: b) = m.entries ++ treeEntries b := rfl
      simp only [rangeScanLoop, hscan, hnext, if_neg hm0, StateT.run_bind, run_pagerGetPageRlatch,
        run_pagerUnlatchR, Option.bind_eq_bind, Option.bind_some, hread, hrun, List.filter_append,
        hfilter, hsplit, visit_append _ es, hvis, if_true]
      rw [hfilter] at hctx
      rw [hctx]
    | false =>
      refine ⟨st₁.log (.unlatchR n.pid), ?_, hsame.trans .log⟩
      simp only [rangeScanLoop, hscan, StateT.run_bind, run_pagerUnlatchR, Option.bind_eq_bind,
        Option.bind_some, StateT.run_pure, Option.pure_def, List.filter_append]
      rw [visit_append]
      split
      · -- all visited but stopped: an entry lies above the bound, and so does all that follows
        rename_i hvis
        have hstop : ∃ e ∈ es, r.over e.1 = true := by
          by_contra hno
          push Not at hno
          have hunder : ∀ e ∈ es, r.over e.1 = false := fun e he => by simpa using hno e he
          have hfilter : es.filter (!r.over ·.1) = es :=
            List.filter_eq_self.mpr fun e he => by simp [hunder e he]
          rw [hfilter] at hvis
          cases hgo.mpr ⟨hunder, hvis⟩
        obtain ⟨e, he, hover⟩ := hstop
        have hnone : (treeEntries (m :: b)).filter (!r.over ·.1) = [] := by
          rw [List.filter_eq_nil_iff]
          intro x hx
          simp [KeyRange.over_mono hover (hlt e he x hx).le]
        simp [hnone, ← hctx]
      · rw [← hctx]

/-- The leftmost descent ends at the first leaf. -/
theorem findLeftmostLeafRlatchLoop_descend {root : Nat} (st : Pager) :
    ∀ {rows : List Row} {hs : List (Nat × Nat)} {x : Nat × Nat}, Upper st.pages root (x :: hs) rows →
      ∃ st', st.SameData st' ∧ ∀ fuel,
        (findLeftmostLeafRlatchLoop (fuel + rows.length) root).run st =
          (findLeftmostLeafRlatchLoop fuel x.2).run st' := by
  intro rows
  induction rows with
  | nil =>
    rintro hs x ⟨heq, -⟩
    obtain ⟨rfl, rfl⟩ := List.cons.inj heq
    exact ⟨st, .refl, fun fuel => rfl⟩
  | cons row rest ih =>
    rintro hs x ⟨hrow, hrest⟩
    cases row with
    | nil => cases hrow.kids
    | cons p row =>
      obtain ⟨st₁, hsame₁, hrun⟩ := ih hrest
      have hx : p.leftmost = x.2 := by
        have hkids := hrow.kids
        rw [List.flatMap_cons, InnerNode.kids] at hkids
        rw [← (List.cons.inj hkids).1]
      have hpage : st₁.pages p.pid =
          .internal ⟨(st.pages p.pid).parent, p.leftmost, p.entries⟩ := by
        rw [hsame₁.pages]
        exact (hrow.on p (by simp)).eq
      refine ⟨((st₁.log (.get x.2)).log (.rlatch x.2)).log (.unlatchR p.pid),
        hsame₁.trans (.trans .log (.trans .log .log)), fun fuel => ?_⟩
      rw [List.length_cons, ← Nat.add_assoc, Nat.add_right_comm, hrun (fuel + 1),
        findLeftmostLeafRlatchLoop]
      simp only [InnerNode.head, StateT.run_bind, run_readPage, hpage, hx,
        Option.bind_eq_bind, Option.bind_some, run_pagerGetPageRlatch, run_pagerUnlatchR]

theorem TreeInv.findLeftmostLeafRlatch (h : TreeInv st free leaves rows) {b : List LeafNode}
    {n : LeafNode} (heq : leaves = n :: b) :
    ∃ st', st.SameData st' ∧ MiniDb.findLeftmostLeafRlatch.run st = some (n.pid, st') := by
  set st₀ := (st.log (.get st.header.rootIndexPageId)).log (.rlatch st.header.rootIndexPageId)
  have hsame₀ : st.SameData st₀ := .trans .log .log
  have hupper : Upper st₀.pages st.header.rootIndexPageId (n.head :: b.map LeafNode.head) rows := by
    rw [← List.map_cons, ← heq]
    exact h.upper
  obtain ⟨st', hsame, hrun⟩ := findLeftmostLeafRlatchLoop_descend st₀ hupper
  obtain ⟨fuel, hfuel⟩ : ∃ fuel, st.header.nextPageId = fuel + 1 + rows.length :=
    ⟨st.header.nextPageId - rows.length - 1, by have := h.rows_lt_nextPageId; omega⟩
  have hpage : st'.pages n.pid = .leaf ⟨(st.pages n.pid).parent, (st.pages n.pid).nextLeaf,
      (st.pages n.pid).prevLeaf, n.entries⟩ := by
    rw [hsame.pages]
    exact (h.leafOn n (by simp [heq])).eq
  refine ⟨st', hsame₀.trans hsame, ?_⟩
  have hstart : MiniDb.findLeftmostLeafRlatch.run st =
      (findLeftmostLeafRlatchLoop st.header.nextPageId st.header.rootIndexPageId).run st₀ := by
    simp [MiniDb.findLeftmostLeafRlatch, rootId, st₀]
  rw [hstart, hfuel, hrun (fuel + 1), findLeftmostLeafRlatchLoop]
  simp only [LeafNode.head, StateT.run_bind, run_readPage, hpage, Option.bind_eq_bind,
    Option.bind_some, StateT.run_pure, Option.pure_def]

/-- There are fewer leaves than page ids. -/
theorem TreeInv.leaves_lt_nextPageId (h : TreeInv st free leaves rows) :
    leaves.length < st.header.nextPageId := by
  have hsub : 0 :: leaves.map LeafNode.pid ⊆ List.range st.header.nextPageId := by
    intro p hp
    rcases List.mem_cons.mp hp with rfl | hp
    · exact List.mem_range.mpr h.freeList.pos
    · exact List.mem_range.mpr (h.held p (List.mem_append_left _ hp)).2.1
  have hnd : (0 :: leaves.map LeafNode.pid).Nodup := by
    refine List.nodup_cons.mpr ⟨?_, (List.nodup_append.mp h.nodup).1⟩
    intro h0
    exact (h.held 0 (List.mem_append_left _ h0)).1 rfl
  have hle := (List.subperm_of_subset hnd hsub).length_le
  simp only [List.length_cons, List.length_map, List.length_range] at hle
  omega

/-- Where the scan starts in a leaf: just behind the entries below the lower bound. -/
theorem KeyRange.startEntries_spec (r : KeyRange) {entries : List (Nat × RowRef)}
    (hs : entries.Pairwise fun a b => a.1 < b.1) :
    ∃ pre, entries = pre ++ r.startEntries entries ∧ (∀ e ∈ pre, ¬ r.AboveLo e.1) ∧
      ∀ e ∈ r.startEntries entries, r.AboveLo e.1 := by
  by_cases hlo : r.hasLo = true
  · obtain ⟨l, es, hsplit⟩ := exists_leafSplit hs r.lo
    have hdrop : entries.drop (leafFind entries r.lo) = es := by
      rw [hsplit.find, hsplit.eq, List.drop_left]
    by_cases hinc : r.loInclusive = true
    · have hstart : r.startEntries entries = es := by
        simp [KeyRange.startEntries, hlo, hinc, hdrop]
      rw [hstart]
      refine ⟨l, hsplit.eq, fun e he => ?_, fun e he => ?_⟩
      · simpa [KeyRange.AboveLo, hlo, hinc] using hsplit.lt e he
      · simpa [KeyRange.AboveLo, hlo, hinc] using hsplit.ge e he
    · -- an exclusive bound skips the entry of the bound itself
      have hinc : r.loInclusive = false := by simpa using hinc
      have hstart : r.startEntries entries = es.dropWhile (·.1 == r.lo) := by
        simp [KeyRange.startEntries, hlo, hinc, hdrop]
      have hsorted : es.Pairwise fun x y => x.1 < y.1 := by
        rw [hsplit.eq] at hs
        exact (List.pairwise_append.mp hs).2.1
      rw [hstart]
      refine ⟨l ++ es.takeWhile (·.1 == r.lo), ?_, fun e he => ?_, fun e he => ?_⟩
      · rw [List.append_assoc, List.takeWhile_append_dropWhile, hsplit.eq]
      · have hle : e.1 ≤ r.lo := by
          rcases List.mem_append.mp he with he | he
          · exact (hsplit.lt e he).le
          · exact (by simpa using List.mem_takeWhile_imp he : e.1 = r.lo).le
        simpa [KeyRange.AboveLo, hlo, hinc] using hle
      · have hgt : r.lo < e.1 := by
          cases es with
          | nil => cases he
          | cons x xs =>
            have hx := hsplit.ge x (by simp)
            have hxs : ∀ y ∈ xs, r.lo < y.1 := fun y hy =>
              lt_of_le_of_lt hx ((List.pairwise_cons.mp hsorted).1 y hy)
            by_cases heq : x.1 = r.lo
            · rw [List.dropWhile_cons_of_pos (by simpa using heq)] at he
              exact hxs e ((List.dropWhile_sublist _).subset he)
            · rw [List.dropWhile_cons_of_neg (by simpa using heq)] at he
              rcases List.mem_cons.mp he with rfl | he
              · omega
              · exact hxs e he
        simpa [KeyRange.AboveLo, hlo, hinc] using hgt
  · have hstart : r.startEntries entries = entries := by simp [KeyRange.startEntries, hlo]
    rw [hstart]
    exact ⟨[], rfl, by simp, fun e _ h => absurd h hlo⟩

/-- The first leaf of a scan: the leaves left of it lie below the lower bound, those right of it
do not. -/
theorem TreeInv.scanLeaf (h : TreeInv st free leaves rows) (r : KeyRange) :
    ∃ a n b st', leaves = a ++ n :: b ∧ st.SameData st' ∧
      (findStartLeafRlatch r).run st = some (n.pid, st') ∧
      (∀ e ∈ treeEntries a, ¬ r.AboveLo e.1) ∧ ∀ e ∈ treeEntries b, r.AboveLo e.1 := by
  by_cases hlo : r.hasLo = true
  · obtain ⟨a, n, b, hn⟩ := h.exists_leafFor r.lo
    obtain ⟨st', hsame, hrun⟩ := h.findLeafRlatch hn
    have horder := h.order
    rw [hn.eq] at horder
    refine ⟨a, n, b, st', hn.eq, hsame, by simpa [findStartLeafRlatch, hlo] using hrun,
      fun e he => ?_, fun e he => ?_⟩
    · obtain ⟨m, hm, hem⟩ := List.mem_flatMap.mp he
      have hlt := lt_of_lt_of_le ((horder.bound m hm n (by simp)).2 e hem) hn.low_le
      cases hinc : r.loInclusive <;> simp [KeyRange.AboveLo, hlo, hinc, hlt, hlt.le]
    · obtain ⟨m, hm, hem⟩ := List.mem_flatMap.mp he
      have hlt := lt_of_lt_of_le (hn.lt_low m hm) (horder.low_le m (by simp [hm]) e hem)
      cases hinc : r.loInclusive <;> simp [KeyRange.AboveLo, hlo, hinc, hlt, hlt.le]
  · obtain ⟨c, t, hct⟩ := h.upper.first_low
    obtain ⟨n, b, hl, -, -⟩ := List.map_eq_cons_iff.mp hct
    obtain ⟨st', hsame, hrun⟩ := h.findLeftmostLeafRlatch hl
    exact ⟨[], n, b, st', hl, hsame, by simpa [findStartLeafRlatch, hlo] using hrun,
      by simp [treeEntries], fun e _ hc => absurd hc hlo⟩

/-- **The scan visits the entries of the interval.** -/
theorem bptreeRangeScan_spec (h : TreeInv st free leaves rows) (r : KeyRange)
    (cb : RangeCallback γ) (ctx : γ) :
    ∃ st', (bptreeRangeScan r cb ctx).run st =
        some ((visit cb.onEntry ((treeEntries leaves).filter (r.Contains ·.1)) ctx).2, st') ∧
      st.SameData st' := by
  obtain ⟨a, n, b, st₁, heq, hsame₁, hfind, hleft, hright⟩ := h.scanLeaf r
  have hmem : n ∈ leaves := by simp [heq]
  obtain ⟨pre, hpre, hbelow, habove⟩ := r.startEntries_spec (h.order.sorted n hmem)
  have hpage := (h.leafOn n hmem).eq
  have hread : (readLeaf n.pid).run st₁ = some (⟨(st.pages n.pid).parent,
      (st.pages n.pid).nextLeaf, (st.pages n.pid).prevLeaf, n.entries⟩, st₁) :=
    run_readLeaf (by rw [hsame₁.pages]; exact hpage)
  have htree : treeEntries leaves =
      (treeEntries a ++ pre) ++ (r.startEntries n.entries ++ treeEntries b) := by
    simp only [heq, treeEntries, List.flatMap_append, List.flatMap_cons, List.append_assoc]
    conv_lhs => rw [hpre]
    rw [List.append_assoc]
  have hsorted := h.order.entries_sorted
  rw [htree] at hsorted
  have hlen : b.length < st.header.nextPageId := by
    have := h.leaves_lt_nextPageId
    simp only [heq, List.length_append, List.length_cons] at this
    omega
  obtain ⟨st', hrun, hsame'⟩ := rangeScanLoop_spec h.toTreeShape r cb heq
    (List.pairwise_append.mp hsorted).2.1 hlen ctx hsame₁ hpage
  refine ⟨st', ?_, hsame'⟩
  have hfilter : (treeEntries leaves).filter (r.Contains ·.1) =
      (r.startEntries n.entries ++ treeEntries b).filter (!r.over ·.1) := by
    have hnone : (treeEntries a ++ pre).filter (r.Contains ·.1) = [] := by
      rw [List.filter_eq_nil_iff]
      intro e he
      have hlo : ¬ r.AboveLo e.1 := (List.mem_append.mp he).elim (hleft e) (hbelow e)
      simp [hlo]
    rw [htree, List.filter_append, hnone, List.nil_append]
    apply List.filter_congr
    intro e he
    have hlo : r.AboveLo e.1 := (List.mem_append.mp he).elim (habove e) (hright e)
    rw [Bool.eq_iff_iff, decide_eq_true_iff, Bool.not_eq_true', KeyRange.over_eq_false,
      KeyRange.Contains, and_iff_right hlo]
  simp only [bptreeRangeScan, StateT.run_bind, hfind, Option.bind_eq_bind, Option.bind_some, hread,
    StateT.run_get, Option.pure_def, hsame₁.header, hrun, hfilter]

end Scan

/-- **Range scan is right.** In a tree that calls have made of the empty root, a scan with any
bounds ends, and has called back for exactly the keys of the map that lie in the interval, in
increasing order, up to the first callback that returns `false`. -/
theorem bptreeRangeScan_visits {pageSize : Nat} (h : 4096 ≤ pageSize) {calls : List TreeCall}
    {rs : List TreeReply} {st : Pager}
    (hrun : (runAll TreeCall.exec calls).run (pagerOpenCreate pageSize) = some (rs, st))
    (hasLo loInclusive hasHi hiInclusive : Bool) (lo hi : UInt64) :
    ∃ entries : List (Nat × RowRef),
      entries.Pairwise (fun a b => a.1 < b.1) ∧
      (∀ (key : UInt64) (ref : RowRef), (key.toNat, ref) ∈ entries ↔
        calls.foldl (fun m c => c.next m) (fun _ => none) key = some ref ∧
          (hasLo → if loInclusive then lo ≤ key else lo < key) ∧
          (hasHi → if hiInclusive then key ≤ hi else key < hi)) ∧
      (∀ e ∈ entries, e.1 < 2 ^ 64) ∧
      ∀ (γ : Type) (cb : RangeCallback γ) (ctx : γ), ∃ st',
        (bptreeRangeScan ⟨hasLo, lo.toNat, loInclusive, hasHi, hi.toNat, hiInclusive⟩ cb ctx).run
            st = some ((visit cb.onEntry entries ctx).2, st') ∧ st.SameData st' := by
  obtain ⟨-, free, leaves, rows, hinv, -, -, hmap⟩ := treeCalls_represents h hrun
  set r : KeyRange := ⟨hasLo, lo.toNat, loInclusive, hasHi, hi.toNat, hiInclusive⟩ with hr
  refine ⟨(treeEntries leaves).filter (r.Contains ·.1),
    hinv.order.entries_sorted.filter _, ?_, ?_, fun γ cb ctx => bptreeRangeScan_spec hinv r cb ctx⟩
  · intro key ref
    rw [List.mem_filter, hmap key ref, decide_eq_true_iff]
    simp only [KeyRange.Contains, KeyRange.AboveLo, KeyRange.BelowHi, hr, UInt64.le_iff_toNat_le,
      UInt64.lt_iff_toNat_lt]
  · intro e he
    obtain ⟨n, hn, hen⟩ := List.mem_flatMap.mp (List.mem_filter.mp he).1
    exact hinv.order.lt n hn e hen

theorem bptreeRangeScan_visits_between :
    ∃ rs st, (runAll TreeCall.exec [.insert 5 ⟨1, 0⟩, .insert 9 ⟨1, 2⟩, .insert 7 ⟨1, 1⟩]).run
        (pagerOpenCreate 4096) = some (rs, st) ∧
      ∃ st', (bptreeRangeScan ⟨true, 5, false, true, 7, true⟩ (fun k _ ks => (true, ks ++ [k]))
        []).run st = some ([7], st') ∧ st.SameData st' := by
  have hpage : 4096 ≤ 4096 := le_refl _
  obtain ⟨rs, st, hrun⟩ := @exists_treeCalls_run 4096 hpage
    [.insert 5 ⟨1, 0⟩, .insert 9 ⟨1, 2⟩, .insert 7 ⟨1, 1⟩] (by decide)
  obtain ⟨entries, hsorted, hmem, hlt, hscan⟩ :=
    bptreeRangeScan_visits hpage hrun true false true true 5 7
  have honly : ∀ e, e ∈ entries ↔ e ∈ [((7 : Nat), (⟨1, 1⟩ : RowRef))] := by
    rintro ⟨k, ref⟩
    constructor
    · intro he
      obtain ⟨key, rfl⟩ : ∃ key : UInt64, key.toNat = k :=
        ⟨UInt64.ofNat k, UInt64.toNat_ofNat_of_lt' (hlt _ he)⟩
      obtain ⟨hbound, hlo, hhi⟩ := (hmem key ref).mp he
      have hkey : key = 7 ∨ key = 5 ∨ key = 9 := by
        by_contra hno
        push Not at hno
        simp [TreeCall.next, hno] at hbound
      rcases hkey with rfl | rfl | rfl
      · simp [TreeCall.next] at hbound
        simp [← hbound]
      · exact absurd (hlo rfl) (by decide)
      · exact absurd (hhi rfl) (by decide)
    · intro he
      obtain ⟨rfl, rfl⟩ := Prod.mk.inj (List.mem_singleton.mp he)
      exact (hmem 7 ⟨1, 1⟩).mpr (by decide)
  have hnodup : entries.Nodup := hsorted.imp fun hab heq => by simp [heq] at hab
  have hentries : entries = [(7, ⟨1, 1⟩)] :=
    List.perm_singleton.mp ((List.perm_ext_iff_of_nodup hnodup (List.nodup_singleton _)).mpr honly)
  subst hentries
  exact ⟨rs, st, hrun, hscan _ _ _⟩

end MiniDb
