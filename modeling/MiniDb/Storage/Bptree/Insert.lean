import MiniDb.Storage.Bptree.Leaves
import MiniDb.Storage.Bptree.PropagateInsert

/-! # Insertion

`bptree_insert` finds the leaf of the key and refuses a key that is there (`bptreeInsertChecked_dup`).
A new key is added in place or by a split that the rows above have to take in
(`bptreeInsertChecked_new`). -/

set_option autoImplicit false

namespace MiniDb

open Lib

/-! ## Splitting a leaf -/

section SplitLeaf

variable {st : Pager} {free : List Nat} {key : Nat} {ref : RowRef}

/-- What `splitLeaf` leaves behind: the leaf `p` keeps `l₁`, its new right neighbour takes the rest,
which starts with `m`. -/
theorem splitLeaf_spec (p : Nat) (lph : LeafPage) {idx : Nat} {l₁ l₂ : List (Nat × RowRef)}
    {m : Nat × RowRef} (hps : 4096 ≤ st.pageSize) (hfree : st.FreeList free)
    (hidx : leafFind lph.entries key = idx)
    (hlen : lph.entries.length ≤ maxLeafKeys st.pageSize) (hidxle : idx ≤ lph.entries.length)
    (htmp : insertAt lph.entries idx (key, ref) = l₁ ++ m :: l₂)
    (hmid : l₁.length = (l₁ ++ m :: l₂).length / 2) (hp : st.Held free p)
    (hnext : lph.nextLeafPageId ≠ 0 → st.Held free lph.nextLeafPageId ∧
      ∃ l, st.pages lph.nextLeafPageId = .leaf l ∧ l.entries.length ≤ maxLeafKeys st.pageSize) :
    (∃ st' free' new, (splitLeaf p lph key ref).run st = some ((m.1, new), st') ∧
      st.Extended free new st' free' ∧
      st'.header.rootIndexPageId = st.header.rootIndexPageId ∧
      st'.pages = Function.update
        (prevSet (Function.update st.pages new
          (.leaf ⟨lph.parentPageId, lph.nextLeafPageId, p, m :: l₂⟩)) lph.nextLeafPageId new)
        p (.leaf { lph with nextLeafPageId := new, entries := l₁ })) ∨
    (¬ st.HasRoom free 1 ∧ (splitLeaf p lph key ref).run st = none) := by
  have hlen' : (l₁ ++ m :: l₂).length = lph.entries.length + 1 := by
    rw [← htmp]
    simp only [insertAt, List.length_append, List.length_cons, List.length_take, List.length_drop]
    omega
  have hmin := minLeafKeys_ge hps
  have hmax := two_mul_minLeafKeys_le st.pageSize
  have hlens : l₁.length ≤ maxLeafKeys st.pageSize ∧
      (m :: l₂).length ≤ maxLeafKeys st.pageSize := by
    simp only [List.length_append, List.length_cons] at hlen' hmid ⊢
    omega
  have hhdr : leafHeaderSize ≤ st.pageSize := by
    simp only [leafHeaderSize]
    omega
  have hpromote : (l₁ ++ m :: l₂)[(l₁ ++ m :: l₂).length / 2]? = some m := by
    rw [← hmid]
    simp
  obtain ⟨new, st₁, free', hrun₁, hall⟩ | ⟨hroom, hnone⟩ := pagerAllocPage_spec hfree
  case inr =>
    refine .inr ⟨hroom, ?_⟩
    simp only [splitLeaf, hidx, htmp, hpromote]
    exact run_bind_none hnone
  left
  set page : Page := .leaf ⟨lph.parentPageId, lph.nextLeafPageId, p, m :: l₂⟩
  set st₂ := ((st₁.log (.get new)).setPage new page).log (.markDirty new)
  have h₂ : st₁.PagesTo (Function.update st.pages new page) st₂ := by
    have hto : st₁.PagesTo (Function.update st₁.pages new page) st₂ :=
      (Pager.PagesTo.refl.log.setPage).log
    rwa [hall.pages, Function.update_idem] at hto
  have hsize₂ : st₂.pageSize = st.pageSize := by rw [h₂.pageSize, hall.pageSize]
  obtain ⟨st₃, hrun₃, h₃⟩ := run_setPrevLeaf st₂ lph.nextLeafPageId new
    (by rw [hsize₂]; exact hps) (fun h0 => by
      obtain ⟨hheld, l, hl, hll⟩ := hnext h0
      have hne : lph.nextLeafPageId ≠ new := fun heq => hall.not_held (heq ▸ hheld)
      exact ⟨l, by rw [h₂.pages, Function.update_of_ne hne, hl], by rw [hsize₂]; exact hll⟩)
  rw [h₂.pages] at h₃
  set lower : Page := .leaf { lph with nextLeafPageId := new, entries := l₁ }
  set st₄ := ((st₃.setPage p lower).log (.markDirty p)).log (.unpin new)
  have h₄ : st₃.PagesTo (Function.update st₃.pages p lower) st₄ := (Pager.PagesTo.refl.setPage.log).log
  rw [h₃.pages] at h₄
  have hto : st₁.PagesTo _ st₄ := h₂.trans (h₃.trans h₄)
  refine ⟨st₄, free', new, ?_, ?_, ?_, hto.pages⟩
  · have hsize₃ : st₃.pageSize = st.pageSize := by rw [h₃.pageSize, hsize₂]
    have hwrite : (writeLeaf new ⟨lph.parentPageId, lph.nextLeafPageId, p, m :: l₂⟩).run
        (st₁.log (.get new)) = some ((), (st₁.log (.get new)).setPage new page) :=
      run_writeLeaf (by simpa [hall.pageSize] using hhdr) (by simpa [hall.pageSize] using hlens.2)
    have hwrite' : (writeLeaf p { lph with nextLeafPageId := new, entries := l₁ }).run st₃ =
        some ((), st₃.setPage p lower) :=
      run_writeLeaf (by rw [hsize₃]; exact hhdr) (by rw [hsize₃]; exact hlens.1)
    have htake : (l₁ ++ m :: l₂).take ((l₁ ++ m :: l₂).length / 2) = l₁ := by
      rw [← hmid]
      simp
    have hdrop : (l₁ ++ m :: l₂).drop ((l₁ ++ m :: l₂).length / 2) = m :: l₂ := by
      rw [← hmid]
      simp
    simp only [splitLeaf, hidx, htmp, hpromote, htake, hdrop]
    simp [hrun₁, hwrite, hrun₃, hwrite', st₂, st₄]
  · refine hall.extended.pagesTo hto fun q hq => ?_
    rw [hall.held, not_or] at hq
    have hqp : q ≠ p := fun h => hq.1 (h ▸ hp)
    have hqnext : prevSet (Function.update st.pages new page) lph.nextLeafPageId new q =
        Function.update st.pages new page q := by
      by_cases h0 : lph.nextLeafPageId = 0
      · simp [prevSet, h0]
      · exact prevSet_of_ne fun heq => hq.1 (heq ▸ (hnext h0).1)
    rw [Function.update_of_ne hqp, hqnext, hall.pages, Function.update_of_ne hq.2,
      Function.update_of_ne hq.2]
  · rw [hto.header, hall.header]

/-- The pager after the entries `m :: l₂` of the leaf `n` have moved to the new leaf `new`, its right
neighbour. -/
structure SplitOff (st : Pager) (free : List Nat) (n : LeafNode) (l₁ l₂ : List (Nat × RowRef))
    (m : Nat × RowRef) (new : Nat) (st' : Pager) (free' : List Nat) : Prop where
  extended : st.Extended free new st' free'
  root : st'.header.rootIndexPageId = st.header.rootIndexPageId
  pages : st'.pages = Function.update
    (prevSet (Function.update st.pages new (.leaf ⟨(st.pages n.pid).parent,
      (st.pages n.pid).nextLeaf, n.pid, m :: l₂⟩)) (st.pages n.pid).nextLeaf new)
    n.pid (.leaf ⟨(st.pages n.pid).parent, new, (st.pages n.pid).prevLeaf, l₁⟩)

section SplitOff

variable {a b : List LeafNode} {n : LeafNode} {rows : List Row} {st' : Pager} {free' : List Nat}
  {l₁ l₂ : List (Nat × RowRef)} {m : Nat × RowRef} {new q : Nat}

theorem SplitOff.ne_new (hs : SplitOff st free n l₁ l₂ m new st' free') (hq : st.Held free q) :
    q ≠ new := by
  rintro rfl
  exact hs.extended.not_held hq

/-- The lower half stays where it was. -/
theorem SplitOff.page_lower (hs : SplitOff st free n l₁ l₂ m new st' free') : st'.pages n.pid =
    .leaf ⟨(st.pages n.pid).parent, new, (st.pages n.pid).prevLeaf, l₁⟩ := by
  rw [hs.pages, Function.update_self]

theorem splitPids (a b : List LeafNode) (n : LeafNode) (l₁ l₂ : List (Nat × RowRef))
    (m : Nat × RowRef) (new : Nat) :
    (a ++ { n with entries := l₁ } :: ⟨m.1, new, m :: l₂⟩ :: b).map LeafNode.pid =
      a.map LeafNode.pid ++ n.pid :: new :: b.map LeafNode.pid := by
  simp

variable (h : TreeShape st free (a ++ n :: b) rows)
  (hs : SplitOff st free n l₁ l₂ m new st' free')

include h hs

theorem SplitOff.next_ne : (st.pages n.pid).nextLeaf ≠ new := by
  intro heq
  have h0 : (st.pages n.pid).nextLeaf ≠ 0 := heq ▸ hs.extended.ne_zero
  exact hs.ne_new (h.held_nextLeaf h0) heq

/-- The upper half is on the new page. -/
theorem SplitOff.page_upper : st'.pages new =
    .leaf ⟨(st.pages n.pid).parent, (st.pages n.pid).nextLeaf, n.pid, m :: l₂⟩ := by
  have hn : st.Held free n.pid := h.held n.pid (by simp [treePids])
  rw [hs.pages, Function.update_of_ne (hs.ne_new hn).symm, prevSet_of_ne (hs.next_ne h).symm,
    Function.update_self]

/-- Every other page is as it was, up to the link back of the leaf behind. -/
theorem SplitOff.page (hq : st.Held free q) (hqn : q ≠ n.pid) :
    st'.pages q = prevSet st.pages (st.pages n.pid).nextLeaf new q := by
  have hnext := hs.next_ne h
  rw [hs.pages, Function.update_of_ne hqn]
  by_cases hqnext : q = (st.pages n.pid).nextLeaf
  · have h0 : q ≠ 0 := hq.ne_zero
    rw [← hqnext] at hnext ⊢
    rw [prevSet_self h0, prevSet_self h0, Function.update_of_ne hnext]
  · rw [prevSet_of_ne hqnext, prevSet_of_ne hqnext, Function.update_of_ne (hs.ne_new hq)]

theorem SplitOff.parent (hq : st.Held free q) : (st'.pages q).parent = (st.pages q).parent := by
  by_cases hqn : q = n.pid
  · rw [hqn, hs.page_lower]
    rfl
  · rw [hs.page h hq hqn]
    exact prevSet_fields.1

/-- A leaf beside `n` is as it was, up to its link back. -/
theorem SplitOff.page_beside {k : LeafNode} (hk : k ∈ a ++ b) :
    st'.pages k.pid = prevSet st.pages (st.pages n.pid).nextLeaf new k.pid := by
  have hmem : k ∈ a ++ n :: b := by grind
  have hheld : st.Held free k.pid := h.held _ (List.mem_append_left _ (List.mem_map_of_mem hmem))
  exact hs.page h hheld (ne_of_nodup_map (List.nodup_append.mp h.nodup).1 k hk)

/-- The new leaf is linked in behind `n`. -/
theorem SplitOff.chain :
    DoublyLinked 0 (fun p => (st'.pages p).nextLeaf) (fun p => (st'.pages p).prevLeaf)
      (a.map LeafNode.pid ++ n.pid :: new :: b.map LeafNode.pid) := by
  have hold := h.chain
  rw [List.map_append, List.map_cons] at hold
  refine hold.insert_after ?_ ?_ ?_ ?_ ?_ ?_
  · simp only [hs.page_lower, Page.nextLeaf]
  · simp only [hs.page_upper h, Page.nextLeaf]
    exact h.nextLeaf_eq
  · simp only [hs.page_upper h, Page.prevLeaf]
  · intro h0
    rw [← h.nextLeaf_eq] at h0 ⊢
    obtain ⟨nb, hnb, heq⟩ := h.exists_nextLeaf h0
    have hpage := hs.page_beside h (List.mem_append_right a hnb)
    have hon := h.leafOn nb (by simp [hnb])
    rw [heq] at hpage hon
    show (st'.pages (st.pages n.pid).nextLeaf).prevLeaf = new
    rw [hpage]
    exact prevSet_prevLeaf h0 hon
  · intro q hq
    obtain ⟨k, hk, rfl⟩ := List.mem_map.mp (List.map_append ▸ hq)
    show (st'.pages k.pid).nextLeaf = (st.pages k.pid).nextLeaf
    rw [hs.page_beside h hk]
    exact prevSet_fields.2.1
  · intro q hq
    by_cases hqn : q = n.pid
    · simp only [hqn, hs.page_lower, Page.prevLeaf]
    · have hq' : q ∈ a.map LeafNode.pid ++ (b.map LeafNode.pid).tail := by
        simp only [List.mem_append, List.mem_cons] at hq ⊢
        grind
      have hqmem : q ∈ (a ++ b).map LeafNode.pid := by
        rw [List.map_append, List.mem_append]
        rw [List.mem_append] at hq'
        exact hq'.imp_right List.mem_of_mem_tail
      obtain ⟨k, hk, rfl⟩ := List.mem_map.mp hqmem
      have hqnext : k.pid ≠ (st.pages n.pid).nextLeaf := fun heq => h.nextLeaf_notMem (heq ▸ hq')
      show (st'.pages k.pid).prevLeaf = (st.pages k.pid).prevLeaf
      rw [hs.page_beside h hk, prevSet_of_ne hqnext]

theorem SplitOff.nodup :
    (treePids (a ++ { n with entries := l₁ } :: ⟨m.1, new, m :: l₂⟩ :: b) rows).Nodup := by
  have hnd := h.nodup
  rw [treePids, List.map_append, List.map_cons] at hnd
  have hmove : a.map LeafNode.pid ++ n.pid :: new :: b.map LeafNode.pid ++ rowsPids rows =
      (a.map LeafNode.pid ++ [n.pid]) ++ new :: (b.map LeafNode.pid ++ rowsPids rows) := by simp
  have hback : (a.map LeafNode.pid ++ [n.pid]) ++ (b.map LeafNode.pid ++ rowsPids rows) =
      a.map LeafNode.pid ++ n.pid :: b.map LeafNode.pid ++ rowsPids rows := by simp
  rw [treePids, splitPids, hmove, List.nodup_middle, List.nodup_cons, hback]
  refine ⟨fun hmem => hs.ne_new (h.held new ?_) rfl, hnd⟩
  simpa [treePids] using hmem

/-- The leaves after a split. -/
theorem SplitOff.leafStep : LeafStep st free (a ++ n :: b) rows st' free'
    (a ++ { n with entries := l₁ } :: ⟨m.1, new, m :: l₂⟩ :: b) where
  sameMeta := hs.extended.sameMeta
  leafOn := by
    intro k hk
    by_cases h₁ : k = { n with entries := l₁ }
    · rw [h₁]
      exact ⟨_, _, _, hs.page_lower⟩
    by_cases h₂ : k = ⟨m.1, new, m :: l₂⟩
    · rw [h₂]
      exact ⟨_, _, _, hs.page_upper h⟩
    have hk' : k ∈ a ++ b := by grind
    rw [hs.page_beside h hk']
    exact prevSet_fields.2.2 k (h.leafOn k (by grind))
  chain := by
    rw [splitPids]
    exact hs.chain h
  nodup := hs.nodup h
  held := by
    intro q
    have := h.held q
    rw [hs.extended.held, splitPids]
    simp only [treePids, List.map_append, List.map_cons, List.mem_append, List.mem_cons] at this ⊢
    grind
  fresh := by
    intro q hq
    rw [splitPids] at hq
    by_cases hqn : q = new
    · exact .inr (hqn ▸ hs.extended.not_held)
    · simp only [List.map_append, List.map_cons, List.mem_append, List.mem_cons] at hq ⊢
      grind
  frame := by
    intro q hq hout _
    have hqnext : q ≠ (st.pages n.pid).nextLeaf := by
      intro heq
      obtain ⟨nb, hnb, hnbq⟩ := h.exists_nextLeaf (heq ▸ hq.ne_zero)
      exact hout (heq ▸ hnbq ▸ List.mem_map_of_mem (by simp [hnb]))
    rw [hs.page h hq fun heq => hout (by simp [heq]), prevSet_of_ne hqnext]

/-- The rows above a split leaf have the separator still to take in. -/
theorem SplitOff.pendingInsert
    (horder : LeafOrder (a ++ { n with entries := l₁ } :: ⟨m.1, new, m :: l₂⟩ :: b)) :
    PendingInsert st' free' m.1 new (a.map LeafNode.head) n.head (b.map LeafNode.head) rows := by
  have hheads : a.map LeafNode.head ++ n.head :: (m.1, new) :: b.map LeafNode.head =
      (a ++ { n with entries := l₁ } :: ⟨m.1, new, m :: l₂⟩ :: b).map LeafNode.head := by
    simp [LeafNode.head]
  have hleaf := hs.leafStep h
  constructor
  case pageSize => rw [hs.extended.sameMeta.pageSize]; exact h.pageSize
  case freeList => exact hs.extended.freeList
  case upper =>
    rw [hs.root]
    have hup := h.upper
    rw [List.map_append, List.map_cons] at hup
    refine hup.congr (fun q hq => ?_) fun q hq => ?_
    · have hout : q ∉ (a ++ n :: b).map LeafNode.pid := fun hmem =>
        (List.nodup_append.mp h.nodup).2.2 q hmem q hq rfl
      have hqheld := h.held q (List.mem_append_right _ hq)
      rw [hs.page h hqheld fun heq => hout (by simp [heq]), prevSet_of_ne]
      · exact .refl
      · intro heq
        obtain ⟨nb, hnb, hnbq⟩ := h.exists_nextLeaf (heq ▸ hqheld.ne_zero)
        exact hout (heq ▸ hnbq ▸ List.mem_map_of_mem (by simp [hnb]))
    · refine hs.parent h (h.held q ?_)
      rwa [← List.map_cons, ← List.map_append, map_snd_leaf_head] at hq
  case occupied => rw [hs.extended.sameMeta.pageSize]; exact h.occupied
  case increasing =>
    rw [hheads]
    exact horder.increasing
  case nodup =>
    rw [hheads, map_snd_leaf_head]
    exact hleaf.nodup
  case held =>
    rw [hheads, map_snd_leaf_head]
    intro q hq
    rw [hs.extended.held]
    rw [splitPids] at hq
    have := h.held q
    simp only [treePids, List.map_append, List.map_cons, List.mem_append, List.mem_cons] at this hq
    grind
  case isTree =>
    rw [hheads]
    intro c hc
    obtain ⟨k, hk, rfl⟩ := List.mem_map.mp hc
    exact (hleaf.leafOn k hk).isTree

end SplitOff

section Halves

variable {a b : List LeafNode} {n : LeafNode} {rows : List Row} {l₁ l₂ : List (Nat × RowRef)}
  {m : Nat × RowRef} {new : Nat}

/-- A leaf is split, unless there is no page for its upper half. -/
theorem TreeInv.run_splitLeaf (h : TreeInv st free (a ++ n :: b) rows) {idx : Nat}
    (hfind : leafFind n.entries key = idx) (hidx : idx ≤ n.entries.length)
    (htmp : insertAt n.entries idx (key, ref) = l₁ ++ m :: l₂)
    (hmid : l₁.length = (l₁ ++ m :: l₂).length / 2) :
    (∃ st' free' new, (splitLeaf n.pid ⟨(st.pages n.pid).parent, (st.pages n.pid).nextLeaf,
        (st.pages n.pid).prevLeaf, n.entries⟩ key ref).run st = some ((m.1, new), st') ∧
      SplitOff st free n l₁ l₂ m new st' free') ∨
    (¬ st.HasRoom free 1 ∧ (splitLeaf n.pid ⟨(st.pages n.pid).parent, (st.pages n.pid).nextLeaf,
        (st.pages n.pid).prevLeaf, n.entries⟩ key ref).run st = none) := by
  have hnext : (st.pages n.pid).nextLeaf ≠ 0 → st.Held free (st.pages n.pid).nextLeaf ∧
      ∃ l, st.pages (st.pages n.pid).nextLeaf = .leaf l ∧
        l.entries.length ≤ maxLeafKeys st.pageSize := by
    intro h0
    obtain ⟨nb, hnb, heq⟩ := h.exists_nextLeaf h0
    rw [← heq]
    have hmem : nb ∈ a ++ n :: b := by simp [hnb]
    exact ⟨h.held nb.pid (List.mem_append_left _ (List.mem_map_of_mem hmem)), _,
      (h.leafOn nb hmem).eq, (h.leafOcc nb hmem).2⟩
  obtain ⟨st₂, free₂, new, hrun, hext, hroot, hpages⟩ | hfull := splitLeaf_spec n.pid
    ⟨(st.pages n.pid).parent, (st.pages n.pid).nextLeaf, (st.pages n.pid).prevLeaf, n.entries⟩
    h.pageSize h.freeList hfind (h.leafOcc n (by simp)).2 hidx htmp hmid
    (h.held n.pid (by simp [treePids])) hnext
  · exact .inl ⟨st₂, free₂, new, hrun, hext, hroot, hpages⟩
  · exact .inr hfull

/-- Both halves are at least half full, and the other leaves have not changed. -/
theorem TreeInv.leafOcc_split (h : TreeInv st free (a ++ n :: b) rows) {rows' : List Row}
    (hne : rows' ≠ []) (hlen : n.entries.length = maxLeafKeys st.pageSize)
    (hlens : (l₁ ++ m :: l₂).length = n.entries.length + 1)
    (hmid : l₁.length = (l₁ ++ m :: l₂).length / 2) :
    ∀ k ∈ a ++ { n with entries := l₁ } :: ⟨m.1, new, m :: l₂⟩ :: b,
      minEntries st.pageSize rows' ≤ k.entries.length ∧
        k.entries.length ≤ maxLeafKeys st.pageSize := by
  have hmin := minLeafKeys_ge h.pageSize
  have hmin₂ := two_mul_minLeafKeys_le st.pageSize
  have hhalf : minEntries st.pageSize rows' = maxLeafKeys st.pageSize / 2 := by
    simp [minEntries, hne, minLeafKeys]
  have hside : ∀ k ∈ a ++ b, minEntries st.pageSize rows' ≤ k.entries.length ∧
      k.entries.length ≤ maxLeafKeys st.pageSize := by
    intro k hk
    have hrows : rows ≠ [] := by
      rintro rfl
      have hone := congrArg List.length h.upper.1
      have hpos := List.length_pos_of_mem hk
      simp only [List.length_map, List.length_append, List.length_cons, List.length_nil]
        at hone hpos
      omega
    have := h.leafOcc k (by grind)
    simpa [minEntries, hne, hrows] using this
  rw [hlens] at hmid
  simp only [List.length_append, List.length_cons] at hlens
  intro k hk
  simp only [List.mem_append, List.mem_cons] at hk
  obtain hk | rfl | rfl | hk := hk
  · exact hside k (List.mem_append_left _ hk)
  · show _ ≤ l₁.length ∧ l₁.length ≤ _
    omega
  · show _ ≤ (m :: l₂).length ∧ (m :: l₂).length ≤ _
    rw [List.length_cons]
    omega
  · exact hside k (List.mem_append_right _ hk)

end Halves

end SplitLeaf

/-! ## The whole insertion -/

section Insert

variable {st : Pager} {free : List Nat} {leaves : List LeafNode} {rows : List Row} {key : Nat}
  {ref : RowRef}

/-- A key that is in the tree is refused, and nothing changes. -/
theorem bptreeInsertChecked_dup (h : TreeInv st free leaves rows) (ref : RowRef) {ref' : RowRef}
    (hmem : (key, ref') ∈ treeEntries leaves) :
    ∃ st', (bptreeInsertChecked key ref).run st = some (-1, st') ∧ st.SameData st' := by
  obtain ⟨a, n, b, hn⟩ := h.exists_leafFor key
  obtain ⟨st₁, above, hsame₁, hrun₁, -⟩ := h.findLeafWlatchChecked hn true
  have hmemn : n ∈ leaves := hn.mem
  have hsorted := h.order.sorted n hmemn
  obtain ⟨l, r, hsplit⟩ := exists_leafSplit hsorted key
  obtain ⟨r', hr⟩ := (hsplit.mem_iff hsorted).mp ((hn.mem_iff h.order).mp hmem)
  have hany : (n.entries[leafFind n.entries key]?).any (·.1 == key) = true :=
    hsplit.any_iff.mpr ⟨ref', r', hr⟩
  have hread : (readLeaf n.pid).run st₁ = some (_, st₁) :=
    run_readLeaf (by rw [hsame₁.pages]; exact (h.leafOn n hmemn).eq)
  obtain ⟨st₂, hrun₂, hsame₂⟩ := run_lsReleaseAll
    (n.pid :: if n.Safe st.pageSize true then [] else above) st₁
  exact ⟨st₂, by simp [bptreeInsertChecked, hrun₁, hread, hany, hrun₂], hsame₁.trans hsame₂⟩

theorem bptreeInsert_dup (h : TreeInv st free leaves rows) (ref : RowRef) {ref' : RowRef}
    (hmem : (key, ref') ∈ treeEntries leaves) :
    ∃ st', (bptreeInsert key ref).run st = some (-1, st') ∧ st.SameData st' := by
  obtain ⟨st', hrun, hsame⟩ := bptreeInsertChecked_dup h ref hmem
  exact ⟨st', refines_bptreeInsertChecked key ref _ _ hrun, hsame⟩

/-- **`bptree_insert`** of a new key adds its entry at its place. It allocates at most one page for
each level and one for the root; without them it does not come back. -/
theorem bptreeInsertChecked_new (h : TreeInv st free leaves rows) (ref : RowRef) (hkey : key < 2 ^ 64)
    (hnew : ∀ e ∈ treeEntries leaves, e.1 ≠ key) :
    (∃ st' free' leaves' rows' l r, (bptreeInsertChecked key ref).run st = some (0, st') ∧
      TreeStep st free leaves rows st' free' leaves' rows' ∧ TreeInv st' free' leaves' rows' ∧
      treeEntries leaves = l ++ r ∧ treeEntries leaves' = l ++ (key, ref) :: r) ∨
    (¬ st.HasRoom free (rows.length + 2) ∧ (bptreeInsertChecked key ref).run st = none ∧
      (bptreeInsert key ref).run st = none) := by
  obtain ⟨a, n, b, hn⟩ := h.exists_leafFor key
  obtain ⟨st₁, above, hsame₁, hrun₁, hanc⟩ := h.findLeafWlatchChecked hn true
  have h₁ := h.sameData hsame₁
  obtain rfl := hn.eq
  have hmemn : n ∈ a ++ n :: b := by simp
  have hnewn : ∀ e ∈ n.entries, e.1 ≠ key := fun e he =>
    hnew e (List.mem_flatMap.mpr ⟨n, hmemn, he⟩)
  obtain ⟨l, r, hsplit⟩ := exists_leafSplit (h.order.sorted n hmemn) key
  have hany : (n.entries[leafFind n.entries key]?).any (·.1 == key) = false := by
    rw [Bool.eq_false_iff, Ne, hsplit.any_iff]
    rintro ⟨ref', r', rfl⟩
    exact hnewn (key, ref') (by simp [hsplit.eq]) rfl
  rw [hsplit.find] at hany
  have hsorted := hsplit.sorted_insert (h.order.sorted n hmemn) hnewn ref
  have hins : insertAt n.entries l.length (key, ref) = l ++ (key, ref) :: r := by
    simp [insertAt, hsplit.eq]
  have horder := hn.order_entries h.order _ hsorted hkey fun e he => by
    rw [hsplit.eq]
    simp only [List.mem_append, List.mem_cons] at he ⊢
    rcases he with he | rfl | he
    · exact .inl (.inl he)
    · exact .inr rfl
    · exact .inl (.inr he)
  have hentries : treeEntries (a ++ n :: b) =
      (treeEntries a ++ l) ++ (r ++ treeEntries b) := by
    simp [treeEntries, hsplit.eq]
  have hocc := h.leafOcc n hmemn
  have hread : (readLeaf n.pid).run st₁ = some (⟨(st₁.pages n.pid).parent,
      (st₁.pages n.pid).nextLeaf, (st₁.pages n.pid).prevLeaf, n.entries⟩, st₁) :=
    run_readLeaf (h₁.leafOn n hmemn).eq
  have hps := h.pageSize
  have hstep₁ : TreeStep st free (a ++ n :: b) rows st₁ free (a ++ n :: b) rows :=
    (TreeStep.refl h.toTreeShape).sameData hsame₁
  have hps₁ : st₁.pageSize = st.pageSize := hsame₁.pageSize
  set n' : LeafNode := { n with entries := l ++ (key, ref) :: r }
  have hlen' : n'.entries.length = n.entries.length + 1 := by
    simp [n', hsplit.eq]
    omega
  by_cases hroom : n.Safe st.pageSize true
  · -- the leaf has room
    have hlt : n.entries.length < maxLeafKeys st.pageSize := by simpa [LeafNode.Safe] using hroom
    set page : LeafPage := ⟨(st₁.pages n.pid).parent, (st₁.pages n.pid).nextLeaf,
      (st₁.pages n.pid).prevLeaf, n'.entries⟩
    have hwrite : (writeLeaf n.pid page).run st₁ = some ((), st₁.setPage n.pid (.leaf page)) :=
      run_writeLeaf (by simp only [leafHeaderSize]; omega) (by rw [hps₁, hlen']; omega)
    set st₂ := (st₁.setPage n.pid (.leaf page)).log (.markDirty n.pid)
    have h₂ : st₁.PagesTo (Function.update st₁.pages n.pid (.leaf page)) st₂ :=
      Pager.PagesTo.refl.setPage.log
    rw [← List.append_cons] at horder
    have hstep₂ := h₁.toTreeShape.setEntries h₂ horder
    obtain ⟨st₃, hrun₃, hsame₃⟩ := run_lsReleaseAll [n.pid] st₂
    have hstep := (hstep₁.trans hstep₂).sameData hsame₃
    refine .inl ⟨st₃, free, a ++ n' :: b, rows, _, _, ?_, hstep, ⟨hstep.shape, ?_⟩, hentries, ?_⟩
    · simp [bptreeInsertChecked, hrun₁, hread, hany, getPageSize, hps₁, hlt, hroom,
        leafInsertEntry, hsplit.find, hins, hwrite, hrun₃, st₂, page, n']
    · rw [hstep.sameMeta.pageSize]
      intro m hm
      by_cases hmn : m = n'
      · subst hmn
        omega
      · exact h.leafOcc m (by grind)
    · simp [treeEntries, n']
  · -- the leaf is split
    have hmax : n.entries.length = maxLeafKeys st.pageSize := by
      simp only [LeafNode.Safe, if_true] at hroom
      omega
    have hmin := minLeafKeys_ge hps
    have hmin₂ := two_mul_minLeafKeys_le st.pageSize
    obtain ⟨l₁, m, l₂, htmp, hmid⟩ := exists_half (show 0 < n'.entries.length by omega)
    have hnlt : ¬ n.entries.length < maxLeafKeys st.pageSize := by omega
    have hdescent := refines_findLeafWlatchChecked key true _ _ hrun₁
    obtain ⟨st₂, free₂, new, hrun₂, hoff⟩ | ⟨hfull, hnone⟩ :=
      h₁.run_splitLeaf hsplit.find (by simp [hsplit.eq]) (hins.trans htmp) hmid
    case inr =>
      refine .inr ⟨fun hroom => hfull ((hsame₁.pagesTo.hasRoom.mpr hroom).mono (by omega)), ?_, ?_⟩
      · simp [bptreeInsertChecked, hrun₁, hread, hany, hsplit.find, getPageSize, hps₁, hnlt, hnone]
      · simp [bptreeInsert, hdescent, hread, hany, hsplit.find, getPageSize, hps₁, hnlt, hnone]
    have horder' : LeafOrder (a ++ { n with entries := l₁ } :: ⟨m.1, new, m :: l₂⟩ :: b) := by
      have hcut : LeafOrder (a ++ [⟨n.low, n.pid, l₁ ++ m :: l₂⟩] ++ b) := by
        rw [← htmp]
        exact horder
      have hl₁ne : l₁ ≠ [] := by
        rw [← List.length_pos_iff, hmid, ← htmp]
        omega
      simpa using hcut.cut hl₁ne new
    have hleaf := hoff.leafStep h₁.toTreeShape
    have hpend := hoff.pendingInsert h₁.toTreeShape horder'
    have hps₂ : st₂.pageSize = st.pageSize :=
      hoff.extended.sameMeta.pageSize.trans hps₁
    rw [← hps₂] at hanc
    obtain ⟨st₃, free₃, rows', hrun₃, hne, hup⟩ | ⟨hfull, hnone, hnone'⟩ :=
      propagateInsertChecked_spec (n.pid :: above) hpend hanc
    case inr =>
      rw [show n.head.2 = n.pid from rfl] at hnone hnone'
      refine .inr ⟨fun hroom => hfull (hoff.extended.room _
        (hsame₁.pagesTo.hasRoom.mpr hroom)), ?_, ?_⟩
      · simp [bptreeInsertChecked, hrun₁, hread, hany, hsplit.find, getPageSize, hps₁, hnlt, hroom,
          hrun₂, hnone]
      · simp [bptreeInsert, hdescent, hread, hany, hsplit.find, getPageSize, hps₁, hnlt, hroom,
          hrun₂, hnone']
    have hstep := hstep₁.trans (hleaf.tree h₁.toTreeShape horder' rfl
      (by simpa [LeafNode.head] using hup))
    refine .inl ⟨st₃, free₃, _, rows', _, _, ?_, hstep, ⟨hstep.shape, ?_⟩, hentries, ?_⟩
    · rw [show n.head.2 = n.pid from rfl] at hrun₃
      simp [bptreeInsertChecked, hrun₁, hread, hany, hsplit.find, getPageSize, hps₁, hnlt, hroom,
        hrun₂, hrun₃]
    · rw [hstep.sameMeta.pageSize]
      exact h.leafOcc_split hne hmax (by rw [← htmp]; exact hlen') hmid
    · have happ : l₁ ++ m :: l₂ = l ++ (key, ref) :: r := htmp.symm
      have := congrArg (fun t => treeEntries a ++ t ++ treeEntries b) happ
      simpa [treeEntries] using this

theorem bptreeInsert_new (h : TreeInv st free leaves rows) (ref : RowRef) (hkey : key < 2 ^ 64)
    (hnew : ∀ e ∈ treeEntries leaves, e.1 ≠ key) :
    (∃ st' free' leaves' rows' l r, (bptreeInsert key ref).run st = some (0, st') ∧
      TreeStep st free leaves rows st' free' leaves' rows' ∧ TreeInv st' free' leaves' rows' ∧
      treeEntries leaves = l ++ r ∧ treeEntries leaves' = l ++ (key, ref) :: r) ∨
    (¬ st.HasRoom free (rows.length + 2) ∧ (bptreeInsert key ref).run st = none) := by
  obtain ⟨st', free', leaves', rows', l, r, hrun, hrest⟩ | ⟨hfull, -, hnone⟩ :=
    bptreeInsertChecked_new h ref hkey hnew
  · left
    exact ⟨st', free', leaves', rows', l, r, refines_bptreeInsertChecked key ref _ _ hrun, hrest⟩
  · exact .inr ⟨hfull, hnone⟩

/-- The exits for a stack that ends too early are never taken, and every insertion that has the
pages it may need comes to an end. -/
theorem TreeInv.bptreeInsertChecked_eq (h : TreeInv st free leaves rows) (ref : RowRef)
    (hkey : key < 2 ^ 64) :
    (bptreeInsert key ref).run st = (bptreeInsertChecked key ref).run st ∧
      (st.HasRoom free (rows.length + 2) → ∃ r, (bptreeInsert key ref).run st = some r) := by
  by_cases hmem : ∃ ref', (key, ref') ∈ treeEntries leaves
  · obtain ⟨ref', hmem⟩ := hmem
    obtain ⟨st', hchecked, -⟩ := bptreeInsertChecked_dup h ref hmem
    have hrun := refines_bptreeInsertChecked key ref _ _ hchecked
    exact ⟨hrun.trans hchecked.symm, fun _ => ⟨_, hrun⟩⟩
  · have hnew : ∀ e ∈ treeEntries leaves, e.1 ≠ key := by
      rintro ⟨k, ref'⟩ he hk
      obtain rfl : k = key := hk
      exact hmem ⟨ref', he⟩
    obtain ⟨st', -, -, -, -, -, hchecked, -⟩ | ⟨hfull, hnone, hnone'⟩ :=
      bptreeInsertChecked_new h ref hkey hnew
    · have hrun := refines_bptreeInsertChecked key ref _ _ hchecked
      exact ⟨hrun.trans hchecked.symm, fun _ => ⟨_, hrun⟩⟩
    · exact ⟨hnone'.trans hnone.symm, fun hroom => absurd hroom hfull⟩

end Insert

end MiniDb
