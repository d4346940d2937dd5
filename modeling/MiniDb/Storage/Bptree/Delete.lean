import MiniDb.Storage.Bptree.Leaves
import MiniDb.Storage.Bptree.PropagateDelete

/-! # Deletion

`bptree_delete` takes the entry out of its leaf. A leaf that gets short of entries borrows one from
a sibling, which changes a separator of their parent, or is merged with it, which takes an entry
from the parent and goes on as in `propagateDeleteChecked_spec`. -/

set_option autoImplicit false

namespace MiniDb

open Lib

/-- Where neighbouring leaves hang: under the node `q`. -/
structure LeavesUnder (a mid b : List LeafNode) (a' : Row) (q : InnerNode) (b' : Row)
    (ka kb : List (Nat × Nat)) : Prop where
  left : a.map LeafNode.head = a'.flatMap InnerNode.kids ++ ka
  right : b.map LeafNode.head = kb ++ b'.flatMap InnerNode.kids
  kids : q.kids = ka ++ mid.map LeafNode.head ++ kb

section LeavesUnder

variable {a b : List LeafNode} {n : LeafNode} {a' b' : Row} {q : InnerNode}
  {ka kb : List (Nat × Nat)}

/-- The right sibling of `n`, if there is one. -/
theorem LeavesUnder.right_cases (hu : LeavesUnder a [n] b a' q b' ka kb) :
    kb = [] ∨ ∃ r b₂ kb₂, b = r :: b₂ ∧ kb = r.head :: kb₂ ∧
      LeavesUnder a [n, r] b₂ a' q b' ka kb₂ := by
  cases kb with
  | nil => exact .inl rfl
  | cons y kb₂ =>
    obtain ⟨r, b₂, rfl, rfl, hb₂⟩ := List.map_eq_cons_iff.mp hu.right
    exact .inr ⟨r, b₂, kb₂, rfl, rfl, hu.left, hb₂, by simpa using hu.kids⟩

/-- The left sibling of `n`, if there is one. -/
theorem LeavesUnder.left_cases (hu : LeavesUnder a [n] b a' q b' ka kb) :
    ka = [] ∨ ∃ a₂ l ka₂, a = a₂ ++ [l] ∧ ka = ka₂ ++ [l.head] ∧
      LeavesUnder a₂ [l, n] b a' q b' ka₂ kb := by
  obtain rfl | ⟨ka₂, z, rfl⟩ : ka = [] ∨ ∃ ka₂ z, ka = ka₂ ++ [z] := by
    rcases List.eq_nil_or_concat ka with hnil | ⟨ka₂, z, hcat⟩
    · exact .inl hnil
    · exact .inr ⟨ka₂, z, by simpa using hcat⟩
  · exact .inl rfl
  · have hleft := hu.left
    rw [← List.append_assoc] at hleft
    obtain ⟨a₂, t, rfl, ha₂, ht⟩ := List.map_eq_append_iff.mp hleft
    obtain ⟨l, rfl, rfl⟩ := List.map_eq_singleton_iff.mp ht
    exact .inr ⟨a₂, l, ka₂, rfl, rfl, ha₂, hu.right, by simpa using hu.kids⟩

end LeavesUnder

/-! ## Two leaves and their parent -/

section Pair

variable {st st' : Pager} {free : List Nat} {a b : List LeafNode} {l r l' r' : LeafNode}
  {a' b' : Row} {q q' : InnerNode} {rest : List Row} {ka kb : List (Nat × Nat)} {g : Nat → Page}

theorem TreeShape.pair_ne (h : TreeShape st free (a ++ [l, r] ++ b) ((a' ++ q :: b') :: rest)) :
    l.pid ≠ r.pid ∧ l.pid ≠ q.pid ∧ r.pid ≠ q.pid := by
  have hsub : [l.pid, r.pid, q.pid].Sublist
      (treePids (a ++ [l, r] ++ b) ((a' ++ q :: b') :: rest)) := by
    have h₁ : [l.pid, r.pid].Sublist ((a ++ [l, r] ++ b).map LeafNode.pid) := by
      simp only [List.map_append]
      exact (List.sublist_append_right _ _).trans (List.sublist_append_left _ _)
    have h₂ : [q.pid].Sublist (rowsPids ((a' ++ q :: b') :: rest)) := by simp
    exact h₁.append h₂
  simpa [and_assoc] using h.nodup.sublist hsub

/-- Leaves beside a pair of neighbours have other pages. -/
theorem TreeShape.beside_ne {rows : List Row} (h : TreeShape st free (a ++ [l, r] ++ b) rows) :
    ∀ n ∈ a ++ b, n.pid ≠ l.pid ∧ n.pid ≠ r.pid := by
  have hnd := (List.nodup_append.mp h.nodup).1
  have h₁ : a ++ [l, r] ++ b = a ++ l :: r :: b := by simp
  have h₂ : a ++ [l, r] ++ b = (a ++ [l]) ++ r :: b := by simp
  intro n hn
  refine ⟨ne_of_nodup_map (h₁ ▸ hnd) n ?_, ne_of_nodup_map (h₂ ▸ hnd) n ?_⟩
  · simp only [List.mem_append, List.mem_cons] at hn ⊢
    tauto
  · simp only [List.mem_append, List.mem_cons] at hn ⊢
    tauto

/-- Entries move between two leaves, and the separator between them is set to the new low key of
the right one. -/
theorem TreeShape.setPair (h : TreeShape st free (a ++ [l, r] ++ b) ((a' ++ q :: b') :: rest))
    (hu : LeavesUnder a [l, r] b a' q b' ka kb) (hu' : LeavesUnder a [l', r'] b a' q' b' ka kb)
    (hpids : l'.pid = l.pid ∧ r'.pid = r.pid ∧ q'.pid = q.pid) (hlow : q'.low = q.low)
    (hlen : q'.entries.length = q.entries.length) (horder : LeafOrder (a ++ [l', r'] ++ b))
    (hto : st.PagesTo g st')
    (hl : g l.pid = .leaf ⟨(st.pages l.pid).parent, (st.pages l.pid).nextLeaf,
      (st.pages l.pid).prevLeaf, l'.entries⟩)
    (hr : g r.pid = .leaf ⟨(st.pages r.pid).parent, (st.pages r.pid).nextLeaf,
      (st.pages r.pid).prevLeaf, r'.entries⟩)
    (hq : g q.pid = .internal (q'.page (st.pages q.pid).parent))
    (hother : ∀ p, p ∉ [l.pid, r.pid, q.pid] → g p = st.pages p) :
    TreeStep st free (a ++ [l, r] ++ b) ((a' ++ q :: b') :: rest) st' free (a ++ [l', r'] ++ b)
      ((a' ++ q' :: b') :: rest) := by
  obtain ⟨hlp, hrp, hqp⟩ := hpids
  obtain ⟨hlr, hlq, hrq⟩ := h.pair_ne
  have hnd := h.nodup
  have hheld := h.held
  have hmap : (a ++ [l', r'] ++ b).map LeafNode.pid = (a ++ [l, r] ++ b).map LeafNode.pid := by
    simp [hlp, hrp]
  have hrows : rowsPids ((a' ++ q' :: b') :: rest) = rowsPids ((a' ++ q :: b') :: rest) := by
    simp [hqp]
  have hqpage := (h.upper.1.on q (by simp)).eq
  have hfields : ∀ p, (g p).parent = (st.pages p).parent ∧
      (g p).nextLeaf = (st.pages p).nextLeaf ∧ (g p).prevLeaf = (st.pages p).prevLeaf := by
    intro p
    by_cases hp : p ∈ [l.pid, r.pid, q.pid]
    · simp only [List.mem_cons, List.not_mem_nil, or_false] at hp
      rcases hp with rfl | rfl | rfl
      · rw [hl]
        exact ⟨rfl, rfl, rfl⟩
      · rw [hr]
        exact ⟨rfl, rfl, rfl⟩
      · rw [hq, hqpage]
        exact ⟨rfl, rfl, rfl⟩
    · rw [hother p hp]
      exact ⟨rfl, rfl, rfl⟩
  have hrowframe : ∀ p ∈ rowsPids ((a' ++ q :: b') :: rest), p ≠ q.pid → g p = st.pages p := by
    intro p hp hpq
    have hdisj := (List.nodup_append.mp hnd).2.2
    refine hother p ?_
    simp only [List.mem_cons, List.not_mem_nil, or_false, not_or]
    exact ⟨fun heq => hdisj l.pid (by simp) p hp heq.symm,
      fun heq => hdisj r.pid (by simp) p hp heq.symm, hpq⟩
  have hstep : LeafStep st free (a ++ [l, r] ++ b) ((a' ++ q :: b') :: rest) st' free
      (a ++ [l', r'] ++ b) := by
    constructor
    case sameMeta => exact hto.sameMeta
    case leafOn =>
      intro m hm
      rw [hto.pages]
      by_cases h₁ : m = l'
      · subst h₁
        rw [hlp, hl]
        exact ⟨_, _, _, rfl⟩
      by_cases h₂ : m = r'
      · subst h₂
        rw [hrp, hr]
        exact ⟨_, _, _, rfl⟩
      have hm' : m ∈ a ++ b := by grind
      obtain ⟨hml, hmr⟩ := h.beside_ne m hm'
      rw [hother m.pid]
      · exact h.leafOn m (by grind)
      · simp only [List.mem_cons, List.not_mem_nil, or_false, not_or]
        refine ⟨hml, hmr, fun heq => ?_⟩
        exact (List.nodup_append.mp hnd).2.2 m.pid (List.mem_map_of_mem (by grind)) q.pid (by simp)
          heq
    case chain =>
      rw [hmap, hto.pages]
      exact h.chain.congr (fun p _ => (hfields p).2.1) fun p _ => (hfields p).2.2
    case nodup => rwa [treePids, hmap]
    case held =>
      intro p
      have := hheld p
      rw [hto.held, hmap]
      rw [treePids, List.mem_append] at this
      tauto
    case fresh =>
      intro p hp
      exact .inl (hmap ▸ hp)
    case frame =>
      intro p _ hp hprows
      rw [hto.pages, hother p]
      simp only [List.mem_cons, List.not_mem_nil, or_false, not_or]
      exact ⟨fun heq => hp (by simp [heq]), fun heq => hp (by simp [heq]),
        fun heq => hprows (by simp [heq])⟩
  have hsplit : ∀ m : List LeafNode, (a ++ m ++ b).map LeafNode.head =
      a'.flatMap InnerNode.kids ++ ka ++ m.map LeafNode.head ++
        (kb ++ b'.flatMap InnerNode.kids) := by
    intro m
    rw [List.map_append, List.map_append, hu.left, hu.right]
  refine hstep.tree h horder hrows ?_
  refine UpperStep.refl ?_ ?_ ?_ ?_ ?_
  · refine hto.freeList h.freeList fun p hp => hother p fun hmem => ?_
    refine (hheld p ?_).not_mem hp
    simp only [List.mem_cons, List.not_mem_nil, or_false] at hmem
    rcases hmem with rfl | rfl | rfl <;> simp [treePids]
  · have hup := h.upper
    rw [hsplit] at hup ⊢
    rw [hto.pages, hto.header]
    refine hup.replace hu.kids hu'.kids hqp hlow ⟨_, hq⟩ (hfields _).1 ?_
      (fun c _ => (hfields c.2).1) ?_
    · intro c hc
      obtain ⟨n, hn, heq⟩ : ∃ n ∈ [l, r], n.head.2 = c.2 := by
        obtain ⟨n, hn, rfl⟩ := List.mem_map.mp hc
        simp only [List.mem_cons, List.not_mem_nil, or_false] at hn
        rcases hn with rfl | rfl
        · exact ⟨l, by simp, hlp.symm⟩
        · exact ⟨r, by simp, hrp.symm⟩
      rw [(hfields _).1, ← heq]
      refine h.upper.1.parent q (by simp) n.head ?_
      rw [hu.kids]
      simp only [List.mem_append]
      exact .inl (.inr (List.mem_map_of_mem hn))
    · intro p hp
      obtain ⟨hp', hpq⟩ := rowsPids_beside (List.nodup_append.mp hnd).2.1 p hp
      exact hrowframe p hp' hpq
  · rw [hto.pageSize]
    refine ⟨fun n hn => ?_, h.occupied.2⟩
    by_cases hnq : n = q'
    · subst hnq
      have := h.occupied.1 q (by simp)
      simpa [InnerNode.Full, hlen] using this
    · exact h.occupied.1 n (by grind)
  · rw [map_snd_leaf_head, hmap, hrows]
    exact hnd
  · rw [hrows]
    exact fun p hp => (hto.held p).mpr (hheld p (List.mem_append_right _ hp))

/-- The page map after the leaf `r` has moved into its left neighbour `l`, up to the page of `r`. -/
def mergedLeaf (g : Nat → Page) (l r : LeafNode) (q q' : InnerNode) : Nat → Page :=
  Function.update (prevSet (Function.update g l.pid (.leaf ⟨(g l.pid).parent, (g r.pid).nextLeaf,
    (g l.pid).prevLeaf, l.entries ++ r.entries⟩)) (g r.pid).nextLeaf l.pid)
    q.pid (.internal (q'.page (g q.pid).parent))

/-- The pager after the leaf `r` has moved into its left neighbour `l`; their parent is `q'` now. -/
structure MergedInto (st : Pager) (free : List Nat) (l r : LeafNode) (q q' : InnerNode)
    (st' : Pager) : Prop where
  sameMeta : st.SameMeta st'
  root : st'.header.rootIndexPageId = st.header.rootIndexPageId
  freeList : st'.FreeList (r.pid :: free)
  held : ∀ p, st'.Held (r.pid :: free) p ↔ st.Held free p ∧ p ≠ r.pid
  pages : ∀ p, p ≠ r.pid → st'.pages p = mergedLeaf st.pages l r q q' p

/-- What `mergeLeaf` leaves behind. -/
theorem run_mergeLeaf (u idx : Nat)
    (h : TreeShape st free (a ++ [l, r] ++ b) ((a' ++ q :: b') :: rest))
    (hle : l.entries.length + r.entries.length ≤ maxLeafKeys st.pageSize)
    (hleb : ∀ n ∈ b, n.entries.length ≤ maxLeafKeys st.pageSize) :
    ∃ st', (mergeLeaf q.pid l.pid r.pid u idx (q.page (st.pages q.pid).parent)
        ⟨(st.pages l.pid).parent, (st.pages l.pid).nextLeaf, (st.pages l.pid).prevLeaf, l.entries⟩
        ⟨(st.pages r.pid).parent, (st.pages r.pid).nextLeaf, (st.pages r.pid).prevLeaf,
          r.entries⟩).run st = some ((), st') ∧
      MergedInto st free l r q { q with entries := q.entries.eraseIdx idx } st' := by
  obtain ⟨hlr, hlq, hrq⟩ := h.pair_ne
  have hps := h.pageSize
  set g := st.pages
  set next := (g r.pid).nextLeaf
  have hshape : TreeShape st free ((a ++ [l]) ++ r :: b) ((a' ++ q :: b') :: rest) := by
    simpa using h
  have hnextmem : next ≠ 0 → ∃ n ∈ b, n.pid = next := hshape.exists_nextLeaf
  set merged : LeafPage := ⟨(g l.pid).parent, next, (g l.pid).prevLeaf, l.entries ++ r.entries⟩
  have hw₁ : (writeLeaf l.pid merged).run st = some ((), st.setPage l.pid (.leaf merged)) :=
    run_writeLeaf (by simp only [leafHeaderSize]; omega) (by simpa [merged] using hle)
  set st₁ := ((st.setPage l.pid (.leaf merged)).log (.markDirty l.pid)).log (.unlatchW u)
  have h₁ : st.PagesTo (Function.update g l.pid (.leaf merged)) st₁ :=
    (Pager.PagesTo.refl.setPage.log).log
  obtain ⟨st₂, hrun₂, h₂⟩ := run_setPrevLeaf st₁ next l.pid hps
    (fun h0 => by
      obtain ⟨n, hn, heq⟩ := hnextmem h0
      have hne : next ≠ l.pid := heq ▸ (h.beside_ne n (List.mem_append_right _ hn)).1
      rw [h₁.pages, Function.update_of_ne hne, ← heq]
      exact ⟨_, (h.leafOn n (by simp [hn])).eq, hleb n hn⟩)
  rw [h₁.pages] at h₂
  have hlenq := (h.occupied.1 q (by simp)).2
  have hps₂ : st₂.pageSize = st.pageSize := by rw [h₂.pageSize, h₁.pageSize]
  have hw₃ : (deleteEntryFromInternal q.pid (q.page (g q.pid).parent) idx).run st₂ = some ((), _) :=
    run_writeInternal (by rw [hps₂]; simp only [internalHeaderSize]; omega) (by
      rw [hps₂]
      exact le_trans (List.length_eraseIdx_le _ _) hlenq)
  set lower : Page := .internal { q.page (g q.pid).parent with
    entries := (q.page (g q.pid).parent).entries.eraseIdx idx }
  set st₃ := ((st₂.setPage q.pid lower).log (.markDirty q.pid)).log (.unpin q.pid)
  have h₃ : st₂.PagesTo (Function.update st₂.pages q.pid lower) st₃ :=
    (Pager.PagesTo.refl.setPage.log).log
  rw [h₂.pages] at h₃
  have hto : st.PagesTo _ st₃ := h₁.trans (h₂.trans h₃)
  have hfree₃ : st₃.FreeList free := hto.freeList h.freeList fun p hp => by
    have hnot : ∀ n ∈ a ++ [l, r] ++ b, p ≠ n.pid := by
      rintro n hn rfl
      exact (h.held n.pid (List.mem_append_left _ (List.mem_map_of_mem hn))).not_mem hp
    have hpq : p ≠ q.pid := by
      rintro rfl
      exact (h.held q.pid (by simp [treePids])).not_mem hp
    have hpn : prevSet (Function.update g l.pid (.leaf merged)) next l.pid p =
        Function.update g l.pid (.leaf merged) p := by
      by_cases h0 : next = 0
      · simp [prevSet, h0]
      · obtain ⟨n, hn, heq⟩ := hnextmem h0
        exact prevSet_of_ne (heq ▸ hnot n (by simp [hn]))
    rw [Function.update_of_ne hpq, hpn, Function.update_of_ne (hnot l (by simp))]
  obtain ⟨st₄, hrun₄, h₄⟩ := pagerFreePage_spec hfree₃
    ((hto.held r.pid).mpr (h.held r.pid (by simp [treePids])))
  refine ⟨st₄, ?_, hto.sameMeta.trans h₄.sameMeta, ?_, h₄.freeList, ?_, ?_⟩
  · have hw₁' : (writeLeaf l.pid ⟨(g l.pid).parent, next, (g l.pid).prevLeaf,
        l.entries ++ r.entries⟩).run st = some ((), st.setPage l.pid (.leaf merged)) := hw₁
    simp [mergeLeaf, hw₁', hrun₂, hw₃, hrun₄, st₁, st₃, lower]
  · rw [h₄.header, hto.header]
  · intro p
    rw [h₄.held, hto.held]
  · intro p hp
    rw [h₄.pages p hp, hto.pages]
    rfl

end Pair

/-! ## Two leaves that have become one -/

section MergedInto

variable {st st' : Pager} {free : List Nat} {a b : List LeafNode} {l r n : LeafNode}
  {a' b' : Row} {q q' : InnerNode} {rest : List Row} {ka kb : List (Nat × Nat)} {p : Nat}

/-- The leaf `l` with the entries of `r` behind its own. -/
def LeafNode.join (l r : LeafNode) : LeafNode := { l with entries := l.entries ++ r.entries }

@[simp] theorem LeafNode.join_pid (l r : LeafNode) : (l.join r).pid = l.pid := rfl

@[simp] theorem LeafNode.join_head (l r : LeafNode) : (l.join r).head = l.head := rfl

@[simp] theorem LeafNode.join_entries (l r : LeafNode) :
    (l.join r).entries = l.entries ++ r.entries := rfl

theorem TreeShape.shape_right {rows : List Row} (h : TreeShape st free (a ++ [l, r] ++ b) rows) :
    TreeShape st free ((a ++ [l]) ++ r :: b) rows := by
  simpa using h

theorem joinPids_iff : p ∈ (a ++ [l, r] ++ b).map LeafNode.pid ↔
    p ∈ (a ++ [l.join r] ++ b).map LeafNode.pid ∨ p = r.pid := by
  simp only [List.map_append, List.map_cons, List.map_nil, List.mem_append, List.mem_cons,
    List.not_mem_nil, or_false, LeafNode.join_pid]
  tauto

theorem treePids_join_sublist (rows : List Row) :
    (treePids (a ++ [l.join r] ++ b) rows).Sublist (treePids (a ++ [l, r] ++ b) rows) := by
  refine List.Sublist.append ?_ (List.Sublist.refl _)
  simp

variable (h : TreeShape st free (a ++ [l, r] ++ b) ((a' ++ q :: b') :: rest))

include h

theorem TreeShape.leaf_ne_inner (hn : n ∈ a ++ [l, r] ++ b) :
    n.pid ≠ q.pid ∧ n.pid ∉ rowsPids ((a' ++ q :: b') :: rest) := by
  have hdisj := (List.nodup_append.mp h.nodup).2.2 n.pid (List.mem_map_of_mem hn)
  exact ⟨fun heq => hdisj q.pid (by simp) heq, fun hmem => hdisj n.pid hmem rfl⟩

theorem TreeShape.join_ne (hn : n ∈ a ++ [l.join r] ++ b) : n.pid ≠ r.pid := by
  by_cases hnm : n = l.join r
  · rw [hnm]
    exact h.pair_ne.1
  · exact (h.beside_ne n (by grind)).2

variable (hm : MergedInto st free l r q q' st')

include hm

/-- The left page has the entries of both. -/
theorem MergedInto.page_left : st'.pages l.pid =
    .leaf ⟨(st.pages l.pid).parent, (st.pages r.pid).nextLeaf, (st.pages l.pid).prevLeaf,
      (l.join r).entries⟩ := by
  obtain ⟨hlr, hlq, -⟩ := h.pair_ne
  have hlnext : l.pid ≠ (st.pages r.pid).nextLeaf := fun heq =>
    h.shape_right.nextLeaf_notMem (by rw [← heq]; simp)
  rw [hm.pages _ hlr, mergedLeaf, Function.update_of_ne hlq, prevSet_of_ne hlnext,
    Function.update_self]
  rfl

theorem MergedInto.page_parent :
    st'.pages q.pid = .internal (q'.page (st.pages q.pid).parent) := by
  rw [hm.pages _ h.pair_ne.2.2.symm, mergedLeaf, Function.update_self]

omit h in
/-- Every other page is as it was, up to the link back of the leaf behind. -/
theorem MergedInto.page (hl : p ≠ l.pid) (hr : p ≠ r.pid) (hq : p ≠ q.pid) :
    st'.pages p = prevSet st.pages (st.pages r.pid).nextLeaf l.pid p := by
  rw [hm.pages p hr, mergedLeaf, Function.update_of_ne hq]
  by_cases hpn : p = (st.pages r.pid).nextLeaf
  · rw [← hpn]
    by_cases h0 : p = 0
    · rw [prevSet, if_pos h0, prevSet, if_pos h0, Function.update_of_ne hl]
    · rw [prevSet_self h0, prevSet_self h0, Function.update_of_ne hl]
  · rw [prevSet_of_ne hpn, prevSet_of_ne hpn, Function.update_of_ne hl]

theorem MergedInto.parent (hp : p ≠ r.pid) : (st'.pages p).parent = (st.pages p).parent := by
  by_cases h₁ : p = l.pid
  · rw [h₁, hm.page_left h]
    rfl
  by_cases h₂ : p = q.pid
  · rw [h₂, hm.page_parent h]
    rfl
  rw [hm.page h₁ hp h₂]
  exact prevSet_fields.1

/-- A leaf beside the two is as it was, up to its link back. -/
theorem MergedInto.page_beside (hn : n ∈ a ++ b) :
    st'.pages n.pid = prevSet st.pages (st.pages r.pid).nextLeaf l.pid n.pid := by
  obtain ⟨hnl, hnr⟩ := h.beside_ne n hn
  exact hm.page hnl hnr (h.leaf_ne_inner (by grind)).1

/-- A page that is no leaf of the tree and not the parent has not changed. -/
theorem MergedInto.page_frame (hp : st.Held free p)
    (hleaf : p ∉ (a ++ [l, r] ++ b).map LeafNode.pid) (hpq : p ≠ q.pid) :
    st'.pages p = st.pages p := by
  have hne : ∀ n ∈ a ++ [l, r] ++ b, p ≠ n.pid := fun n hn heq =>
    hleaf (heq ▸ List.mem_map_of_mem hn)
  have hpn : p ≠ (st.pages r.pid).nextLeaf := by
    intro heq
    obtain ⟨n, hn, hnp⟩ := h.shape_right.exists_nextLeaf (heq ▸ hp.ne_zero)
    exact hne n (by simp [hn]) (heq.trans hnp.symm)
  rw [hm.page (hne l (by simp)) (hne r (by simp)) hpq, prevSet_of_ne hpn]

/-- The right leaf is out of the chain. -/
theorem MergedInto.chain :
    DoublyLinked 0 (fun p => (st'.pages p).nextLeaf) (fun p => (st'.pages p).prevLeaf)
      ((a ++ [l.join r] ++ b).map LeafNode.pid) := by
  have hold := h.chain
  have hpids : (a ++ [l, r] ++ b).map LeafNode.pid =
      a.map LeafNode.pid ++ l.pid :: r.pid :: b.map LeafNode.pid := by simp
  have hpids' : (a ++ [l.join r] ++ b).map LeafNode.pid =
      a.map LeafNode.pid ++ l.pid :: b.map LeafNode.pid := by simp
  rw [hpids] at hold
  rw [hpids']
  have hleft := hm.page_left h
  refine hold.remove_after ?_ ?_ ?_ ?_
  · simp only [hleft, Page.nextLeaf]
    exact h.shape_right.nextLeaf_eq
  · intro h0
    rw [← h.shape_right.nextLeaf_eq] at h0 ⊢
    obtain ⟨n, hn, heq⟩ := h.shape_right.exists_nextLeaf h0
    have hon := h.leafOn n (by simp [hn])
    have hpn := hm.page_beside h (List.mem_append_right a hn)
    rw [heq] at hon hpn
    show (st'.pages (st.pages r.pid).nextLeaf).prevLeaf = l.pid
    rw [hpn]
    exact prevSet_prevLeaf h0 hon
  · intro p hp
    obtain ⟨n, hn, rfl⟩ := List.mem_map.mp (List.map_append ▸ hp)
    show (st'.pages n.pid).nextLeaf = (st.pages n.pid).nextLeaf
    rw [hm.page_beside h hn]
    exact prevSet_fields.2.1
  · intro p hp
    by_cases hpl : p = l.pid
    · simp only [hpl, hleft, Page.prevLeaf]
    · have hp' : p ∈ a.map LeafNode.pid ++ (b.map LeafNode.pid).tail := by
        simp only [List.mem_append, List.mem_cons] at hp ⊢
        tauto
      have hmem : p ∈ (a ++ b).map LeafNode.pid := by
        rw [List.map_append, List.mem_append]
        rw [List.mem_append] at hp'
        exact hp'.imp_right List.mem_of_mem_tail
      obtain ⟨n, hn, rfl⟩ := List.mem_map.mp hmem
      have hpn : n.pid ≠ (st.pages r.pid).nextLeaf := by
        intro heq
        refine h.shape_right.nextLeaf_notMem (heq ▸ ?_)
        simp only [List.map_append, List.mem_append] at hp' ⊢
        tauto
      show (st'.pages n.pid).prevLeaf = (st.pages n.pid).prevLeaf
      rw [hm.page_beside h hn, prevSet_of_ne hpn]

/-- The leaves after a merge. -/
theorem MergedInto.leafStep :
    LeafStep st free (a ++ [l, r] ++ b) ((a' ++ q :: b') :: rest) st' (r.pid :: free)
      (a ++ [l.join r] ++ b) where
  sameMeta := hm.sameMeta
  leafOn := by
    intro n hn
    by_cases hnm : n = l.join r
    · rw [hnm]
      exact ⟨_, _, _, hm.page_left h⟩
    · have hn' : n ∈ a ++ b := by grind
      rw [hm.page_beside h hn']
      exact prevSet_fields.2.2 n (h.leafOn n (by grind))
  chain := hm.chain h
  nodup := h.nodup.sublist (treePids_join_sublist _)
  held := by
    intro p
    have hin : p ∈ (a ++ [l.join r] ++ b).map LeafNode.pid → st.Held free p ∧ p ≠ r.pid := by
      intro hp
      refine ⟨h.held p ((treePids_join_sublist _).subset (List.mem_append_left _ hp)), ?_⟩
      obtain ⟨n, hn, rfl⟩ := List.mem_map.mp hp
      exact h.join_ne hn
    rw [hm.held, joinPids_iff]
    tauto
  fresh := fun p hp => .inl (joinPids_iff.mpr (.inl hp))
  frame := fun p hp hleaf hrows =>
    hm.page_frame h hp hleaf fun heq => hrows (by simp [heq])

/-- The index above the merged leaf. -/
theorem MergedInto.upper (hu : LeavesUnder a [l, r] b a' q b' ka kb)
    (hu' : LeavesUnder a [l.join r] b a' q' b' ka kb) (hpid : q'.pid = q.pid)
    (hlow : q'.low = q.low) :
    Upper st'.pages st'.header.rootIndexPageId ((a ++ [l.join r] ++ b).map LeafNode.head)
      ((a' ++ [q'] ++ b') :: rest) := by
  obtain ⟨hlr, -, hrq⟩ := h.pair_ne
  have hsplit : ∀ n : List LeafNode, (a ++ n ++ b).map LeafNode.head =
      a'.flatMap InnerNode.kids ++ ka ++ n.map LeafNode.head ++
        (kb ++ b'.flatMap InnerNode.kids) := by
    intro n
    rw [List.map_append, List.map_append, hu.left, hu.right]
  have hup := h.upper
  rw [hsplit] at hup ⊢
  rw [hm.root, ← List.append_cons]
  refine hup.replace hu.kids hu'.kids hpid hlow ⟨_, hm.page_parent h⟩ (hm.parent h hrq.symm)
    ?_ ?_ ?_
  · intro c hc
    obtain rfl : c = (l.join r).head := by simpa using hc
    show (st'.pages l.pid).parent = q.pid
    rw [hm.parent h hlr]
    refine h.upper.1.parent q (by simp) l.head ?_
    rw [hu.kids]
    simp
  · intro c hc
    rw [← hu.left, ← hu.right, ← List.map_append] at hc
    obtain ⟨n, hn, rfl⟩ := List.mem_map.mp hc
    exact hm.parent h (h.beside_ne n hn).2
  · intro p hp
    obtain ⟨hp', hpq⟩ := rowsPids_beside (List.nodup_append.mp h.nodup).2.1 p hp
    refine hm.page_frame h (h.held p (List.mem_append_right _ hp')) (fun hmem => ?_) hpq
    obtain ⟨n, hn, rfl⟩ := List.mem_map.mp hmem
    exact (h.leaf_ne_inner hn).2 hp'

/-- Two sibling leaves become one, and the rows above are left with a parent that has lost an
entry. -/
theorem MergedInto.rowsAround (hu : LeavesUnder a [l, r] b a' q b' ka kb)
    (hu' : LeavesUnder a [l.join r] b a' q' b' ka kb) (hpid : q'.pid = q.pid)
    (hlow : q'.low = q.low) :
    RowsAround st' (r.pid :: free) ((a ++ [l.join r] ++ b).map LeafNode.head) a' [q'] b'
      rest := by
  have hleaf := hm.leafStep h
  have hrows : rowsPids ((a' ++ [q'] ++ b') :: rest) = rowsPids ((a' ++ q :: b') :: rest) := by
    simp [hpid]
  constructor
  case pageSize => rw [hm.sameMeta.pageSize]; exact h.pageSize
  case freeList => exact hm.freeList
  case upper => exact hm.upper h hu hu' hpid hlow
  case side =>
    rw [hm.sameMeta.pageSize]
    exact fun n hn => h.occupied.1 n (by grind)
  case occupied =>
    rw [hm.sameMeta.pageSize]
    exact h.occupied.2
  case nodup =>
    rw [map_snd_leaf_head, hrows]
    exact hleaf.nodup
  case held =>
    rw [map_snd_leaf_head, hrows]
    intro p hp
    rw [hm.held]
    refine ⟨h.held p ((treePids_join_sublist _).subset hp), ?_⟩
    obtain hp | hp := List.mem_append.mp hp
    · obtain ⟨n, hn, rfl⟩ := List.mem_map.mp hp
      exact h.join_ne hn
    · rintro rfl
      exact (h.leaf_ne_inner (by simp)).2 hp
  case isTree =>
    intro c hc
    obtain ⟨n, hn, rfl⟩ := List.mem_map.mp hc
    exact (hleaf.leafOn n hn).isTree

end MergedInto

/-! ## The steps of `fix_leaf_underflow_latched` -/

section Fix

variable {st st₁ : Pager} {free : List Nat} {a b : List LeafNode} {n : LeafNode}
  {a' b' : Row} {q : InnerNode} {rest : List Row} {ka kb : List (Nat × Nat)}

/-- Every leaf has the entries of a leaf below an internal node. -/
def LeavesFull (pageSize : Nat) (leaves : List LeafNode) : Prop :=
  ∀ m ∈ leaves, minLeafKeys pageSize ≤ m.entries.length ∧ m.entries.length ≤ maxLeafKeys pageSize

/-- The tree has been repaired without a change to its entries. -/
def Repaired (st : Pager) (free : List Nat) (leaves : List LeafNode) (rows : List Row)
    (st' : Pager) : Prop :=
  ∃ free' leaves' rows', TreeStep st free leaves rows st' free' leaves' rows' ∧
    LeavesFull st.pageSize leaves' ∧ treeEntries leaves' = treeEntries leaves

theorem Repaired.sameData {leaves : List LeafNode} {rows : List Row} {st' : Pager}
    (h : Repaired st free leaves rows st₁) (hs : st₁.SameData st') :
    Repaired st free leaves rows st' := by
  obtain ⟨free', leaves', rows', hstep, hfull, heq⟩ := h
  exact ⟨free', leaves', rows', hstep.sameData hs, hfull, heq⟩

theorem Repaired.ofSameData {leaves : List LeafNode} {rows : List Row} {st' : Pager}
    (h : TreeShape st free leaves rows) (hs : st.SameData st₁)
    (hr : Repaired st₁ free leaves rows st') : Repaired st free leaves rows st' := by
  obtain ⟨free', leaves', rows', hstep, hfull, heq⟩ := hr
  exact ⟨free', leaves', rows', ((TreeStep.refl h).sameData hs).trans hstep,
    by rwa [hs.pageSize] at hfull, heq⟩

/-- The page of a leaf with its links. -/
def LeafNode.page (n : LeafNode) (pg : Page) : LeafPage :=
  ⟨pg.parent, pg.nextLeaf, pg.prevLeaf, n.entries⟩

/-- The page map after two leaves and their parent have been written. -/
def pairSet (g : Nat → Page) (l r : LeafNode) (q : InnerNode) : Nat → Page :=
  Function.update (Function.update (Function.update g l.pid (.leaf (l.page (g l.pid)))) r.pid
    (.leaf (r.page (g r.pid)))) q.pid (.internal (q.page (g q.pid).parent))

/-- The parent after the separator at `idx` has been set to `k`. -/
def InnerNode.setSep (q : InnerNode) (idx k : Nat) : InnerNode :=
  { q with entries := q.entries.modify idx fun e => (k, e.2) }

/-- Entries have moved over the border of two leaves: the tree is repaired if both are full enough
now. -/
theorem TreeShape.movedEntry {l r : LeafNode} {es fs : List (Nat × RowRef)} {z : Nat × RowRef}
    {st' : Pager} (h : TreeShape st free (a ++ [l, r] ++ b) ((a' ++ q :: b') :: rest))
    (hside : LeavesFull st.pageSize (a ++ b)) (hu : LeavesUnder a [l, r] b a' q b' ka kb)
    (heq : l.entries ++ r.entries = es ++ z :: fs)
    (hleft : minLeafKeys st.pageSize ≤ es.length ∧ es.length ≤ maxLeafKeys st.pageSize)
    (hright : minLeafKeys st.pageSize ≤ (z :: fs).length ∧
      (z :: fs).length ≤ maxLeafKeys st.pageSize)
    (hto : st.PagesTo (pairSet st.pages { l with entries := es } ⟨z.1, r.pid, z :: fs⟩
      (q.setSep ka.length z.1)) st') :
    Repaired st free (a ++ [l, r] ++ b) ((a' ++ q :: b') :: rest) st' := by
  have hge := minLeafKeys_ge h.pageSize
  obtain ⟨hlr, hlq, hrq⟩ := h.pair_ne
  set l' : LeafNode := { l with entries := es }
  set r' : LeafNode := ⟨z.1, r.pid, z :: fs⟩
  have hkids : q.kids = ka ++ l.head :: r.head :: kb := by simpa using hu.kids
  have horder : LeafOrder (a ++ [l', r'] ++ b) := by
    have hjoin := h.order.join
    rw [heq] at hjoin
    refine hjoin.cut ?_ r.pid
    rw [← List.length_pos_iff]
    omega
  have hu' : LeavesUnder a [l', r'] b a' (q.setSep ka.length z.1) b' ka kb :=
    ⟨hu.left, hu.right, by simpa [LeafNode.head] using
      show (q.setSep ka.length z.1).kids = _ from q.kids_setKey hkids z.1⟩
  have hstep := h.setPair hu hu' ⟨rfl, rfl, rfl⟩ rfl (List.length_modify _ _ _) horder hto
    (by
      show Function.update _ q.pid _ l.pid = _
      rw [Function.update_of_ne hlq]
      show Function.update _ r.pid _ l.pid = _
      rw [Function.update_of_ne hlr]
      exact Function.update_self _ _ _)
    (by
      show Function.update _ q.pid _ r.pid = _
      rw [Function.update_of_ne hrq]
      exact Function.update_self _ _ _)
    (Function.update_self _ _ _)
    (fun p hp => by
      simp only [List.mem_cons, List.not_mem_nil, or_false, not_or] at hp
      show Function.update _ q.pid _ p = _
      rw [Function.update_of_ne hp.2.2]
      show Function.update _ r.pid _ p = _
      rw [Function.update_of_ne hp.2.1]
      exact Function.update_of_ne hp.1 _ _)
  refine ⟨free, a ++ [l', r'] ++ b, _, hstep, ?_, ?_⟩
  · intro m hm
    simp only [List.mem_append, List.mem_cons, List.not_mem_nil, or_false] at hm
    obtain (hm | rfl | rfl) | hm := hm
    · exact hside m (by simp [hm])
    · exact hleft
    · exact hright
    · exact hside m (by simp [hm])
  · have hmid : l'.entries ++ r'.entries = l.entries ++ r.entries := heq.symm
    simp [treeEntries, ← List.append_assoc, hmid]

/-- What borrowing the first entry `f` of the right sibling leaves behind. -/
theorem TreeShape.run_borrowLeafRight {r : LeafNode} {f s : Nat × RowRef} {t : List (Nat × RowRef)}
    (h : TreeShape st free (a ++ [n, r] ++ b) ((a' ++ q :: b') :: rest)) (idx : Nat)
    (hr : r.entries = f :: s :: t) (hlenn : n.entries.length < maxLeafKeys st.pageSize)
    (hlenr : r.entries.length ≤ maxLeafKeys st.pageSize) :
    ∃ st', (borrowLeafRight q.pid n.pid r.pid idx (q.page (st.pages q.pid).parent)
        (r.page (st.pages r.pid))).run ((st.log (.get r.pid)).log (.wlatch r.pid)) =
          some ((), st') ∧
      st.PagesTo (pairSet st.pages { n with entries := n.entries ++ [f] } ⟨s.1, r.pid, s :: t⟩
        (q.setSep idx s.1)) st' := by
  set st₁ := (st.log (.get r.pid)).log (.wlatch r.pid)
  set n' : LeafNode := { n with entries := n.entries ++ [f] }
  set r' : LeafNode := ⟨s.1, r.pid, s :: t⟩
  have hnmem : n ∈ a ++ [n, r] ++ b := by simp
  obtain ⟨hnr, hnq, hrq⟩ := h.pair_ne
  have hflt : ∀ e ∈ n.entries, e.1 < f.1 := by
    intro e he
    have hord := h.order.pairwise
    rw [List.append_assoc] at hord
    have hnr' := (List.pairwise_append.mp hord).2.1
    simp only [List.cons_append, List.nil_append, List.pairwise_cons, List.mem_cons] at hnr'
    exact lt_of_lt_of_le ((hnr'.1 r (.inl rfl)).2 e he)
      (h.order.low_le r (by simp) f (by simp [hr]))
  have hins : insertAt n.entries (leafFind n.entries f.1) f = n'.entries := by
    rw [leafFind_last hflt]
    simp [insertAt, n']
  have hhdr : leafHeaderSize ≤ st.pageSize := le_trans (by decide) h.pageSize
  -- the three writes
  have hw₁ : (writeLeaf r.pid (r'.page (st.pages r.pid))).run st₁ = some ((), _) :=
    run_writeLeaf hhdr (by
      show (s :: t).length ≤ maxLeafKeys st.pageSize
      rw [hr] at hlenr
      exact le_trans (Nat.le_succ _) hlenr)
  set st₂ := ((st₁.setPage r.pid (.leaf (r'.page (st.pages r.pid)))).log (.markDirty r.pid)).log
    (.unlatchW r.pid)
  have hread₂ : (readLeaf n.pid).run st₂ = some (n.page (st.pages n.pid), st₂) := by
    refine run_readLeaf ?_
    show Function.update st.pages r.pid _ n.pid = _
    rw [Function.update_of_ne hnr]
    exact (h.leafOn n hnmem).eq
  have hw₂ : (writeLeaf n.pid (n'.page (st.pages n.pid))).run st₂ = some ((), _) :=
    run_writeLeaf hhdr (by
      show (n.entries ++ [f]).length ≤ maxLeafKeys st.pageSize
      simp only [List.length_append, List.length_singleton]
      omega)
  set st₃ := (st₂.setPage n.pid (.leaf (n'.page (st.pages n.pid)))).log (.markDirty n.pid)
  have hw₃ : (writeInternal q.pid ((q.setSep idx s.1).page (st.pages q.pid).parent)).run st₃ =
      some ((), _) :=
    run_writeInternal (le_trans (by decide) h.pageSize) (by
      show (q.entries.modify _ _).length ≤ maxInternalKeys st.pageSize
      rw [List.length_modify]
      exact (h.occupied.1 q (by simp)).2)
  set st₄ := ((st₃.setPage q.pid (.internal ((q.setSep idx s.1).page (st.pages q.pid).parent))).log
    (.markDirty q.pid)).log (.unpin q.pid)
  refine ⟨st₄, ?_, ?_⟩
  · have e₀ : (r.page (st.pages r.pid)).entries[0]? = some f := by simp [LeafNode.page, hr]
    have e₁ : (r.page (st.pages r.pid)).entries[1]? = some s := by simp [LeafNode.page, hr]
    have e₂ : (r.page (st.pages r.pid)).entries.eraseIdx 0 = s :: t := by
      simp [LeafNode.page, hr]
    have e₃ : (leafInsertEntry n.pid (n.page (st.pages n.pid)) f.1 f.2).run st₂ =
        some ((), st₂.setPage n.pid (.leaf (n'.page (st.pages n.pid)))) := by
      simp only [leafInsertEntry, LeafNode.page, hins]
      exact hw₂
    simp only [borrowLeafRight, e₀, e₁, e₂, StateT.run_bind, Option.bind_eq_bind]
    erw [hw₁]
    simp only [Option.bind_some, run_pagerMarkDirty, run_pagerUnlatchW]
    erw [hread₂]
    simp only [Option.bind_some, e₃]
    erw [hw₃]
    rfl
  · have hto : st.PagesTo (Function.update (Function.update (Function.update st.pages r.pid
        (.leaf (r'.page (st.pages r.pid)))) n.pid (.leaf (n'.page (st.pages n.pid)))) q.pid
        (.internal ((q.setSep idx s.1).page (st.pages q.pid).parent))) st₄ :=
      ((Pager.PagesTo.refl.log.log.setPage.log.log).setPage.log).setPage.log.log
    rwa [Function.update_comm hnr.symm] at hto

/-- What borrowing the last entry `z` of the left sibling leaves behind. -/
theorem TreeShape.run_borrowLeafLeft {l : LeafNode} {z : Nat × RowRef} {i : List (Nat × RowRef)}
    (h : TreeShape st free (a ++ [l, n] ++ b) ((a' ++ q :: b') :: rest)) (idx : Nat)
    (hl : l.entries = i ++ [z]) (hlenn : n.entries.length < maxLeafKeys st.pageSize)
    (hlenl : l.entries.length ≤ maxLeafKeys st.pageSize) :
    ∃ st', (borrowLeafLeft q.pid n.pid l.pid idx (q.page (st.pages q.pid).parent)
        (l.page (st.pages l.pid))).run ((st.log (.get l.pid)).log (.wlatch l.pid)) =
          some ((), st') ∧
      st.PagesTo (pairSet st.pages { l with entries := i } ⟨z.1, n.pid, z :: n.entries⟩
        (q.setSep idx z.1)) st' := by
  set st₁ := (st.log (.get l.pid)).log (.wlatch l.pid)
  set l' : LeafNode := { l with entries := i }
  set n' : LeafNode := ⟨z.1, n.pid, z :: n.entries⟩
  have hnmem : n ∈ a ++ [l, n] ++ b := by simp
  obtain ⟨hln, hlq, hnq⟩ := h.pair_ne
  have hzlt : ∀ e ∈ n.entries, z.1 ≤ e.1 := by
    intro e he
    have hord := h.order.pairwise
    rw [List.append_assoc] at hord
    have hln' := (List.pairwise_append.mp hord).2.1
    simp only [List.cons_append, List.nil_append, List.pairwise_cons, List.mem_cons] at hln'
    exact le_of_lt (lt_of_lt_of_le ((hln'.1 n (.inl rfl)).2 z (by simp [hl]))
      (h.order.low_le n hnmem e he))
  have hins : insertAt n.entries (leafFind n.entries z.1) z = n'.entries := by
    rw [leafFind_first hzlt]
    simp [insertAt, n']
  have hhdr : leafHeaderSize ≤ st.pageSize := le_trans (by decide) h.pageSize
  -- the three writes
  have hw₁ : (writeLeaf l.pid (l'.page (st.pages l.pid))).run st₁ = some ((), _) :=
    run_writeLeaf hhdr (by
      show i.length ≤ maxLeafKeys st.pageSize
      rw [hl, List.length_append] at hlenl
      exact le_trans (Nat.le_add_right _ _) hlenl)
  set st₂ := ((st₁.setPage l.pid (.leaf (l'.page (st.pages l.pid)))).log (.markDirty l.pid)).log
    (.unlatchW l.pid)
  have hread₂ : (readLeaf n.pid).run st₂ = some (n.page (st.pages n.pid), st₂) := by
    refine run_readLeaf ?_
    show Function.update st.pages l.pid _ n.pid = _
    rw [Function.update_of_ne hln.symm]
    exact (h.leafOn n hnmem).eq
  have hw₂ : (writeLeaf n.pid (n'.page (st.pages n.pid))).run st₂ = some ((), _) :=
    run_writeLeaf hhdr (by
      show (z :: n.entries).length ≤ maxLeafKeys st.pageSize
      simp only [List.length_cons]
      omega)
  set st₃ := (st₂.setPage n.pid (.leaf (n'.page (st.pages n.pid)))).log (.markDirty n.pid)
  have hread₃ : (readLeaf n.pid).run st₃ = some (n'.page (st.pages n.pid), st₃) := by
    refine run_readLeaf ?_
    show Function.update _ n.pid _ n.pid = _
    rw [Function.update_self]
  have hw₃ : (writeInternal q.pid ((q.setSep idx z.1).page (st.pages q.pid).parent)).run st₃ =
      some ((), _) :=
    run_writeInternal (le_trans (by decide) h.pageSize) (by
      show (q.entries.modify _ _).length ≤ maxInternalKeys st.pageSize
      rw [List.length_modify]
      exact (h.occupied.1 q (by simp)).2)
  set st₄ := ((st₃.setPage q.pid (.internal ((q.setSep idx z.1).page (st.pages q.pid).parent))).log
    (.markDirty q.pid)).log (.unpin q.pid)
  refine ⟨st₄, ?_, ((Pager.PagesTo.refl.log.log.setPage.log.log).setPage.log).setPage.log.log⟩
  have e₀ : (l.page (st.pages l.pid)).entries[(l.page (st.pages l.pid)).entries.length - 1]? =
      some z := by simp [LeafNode.page, hl]
  have e₂ : (l.page (st.pages l.pid)).entries.take
      ((l.page (st.pages l.pid)).entries.length - 1) = i := by simp [LeafNode.page, hl]
  have e₃ : (leafInsertEntry n.pid (n.page (st.pages n.pid)) z.1 z.2).run st₂ =
      some ((), st₂.setPage n.pid (.leaf (n'.page (st.pages n.pid)))) := by
    simp only [leafInsertEntry, LeafNode.page, hins]
    exact hw₂
  have e₄ : (n'.page (st.pages n.pid)).entries[0]? = some z := rfl
  simp only [borrowLeafLeft, e₀, e₂, StateT.run_bind, Option.bind_eq_bind]
  erw [hw₁]
  simp only [Option.bind_some, run_pagerMarkDirty, run_pagerUnlatchW]
  erw [hread₂]
  simp only [Option.bind_some, e₃]
  erw [hread₃]
  simp only [Option.bind_some, e₄, StateT.run_bind, Option.bind_eq_bind]
  erw [hw₃]
  rfl

/-- A leaf that lacks an entry borrows one from its right sibling, or that has none to spare. -/
theorem tryBorrowLeafRight_spec
    (h : TreeShape st free (a ++ [n] ++ b) ((a' ++ q :: b') :: rest))
    (hside : LeavesFull st.pageSize (a ++ b)) (hu : LeavesUnder a [n] b a' q b' ka kb)
    (hlen : n.entries.length + 1 = minLeafKeys st.pageSize) :
    (∃ st', (tryBorrowLeafRight q.pid n.pid ka.length (q.page (st.pages q.pid).parent)).run st =
        some (false, st') ∧ st.SameData st' ∧ ∀ r b₂ kb₂, b = r :: b₂ → kb = r.head :: kb₂ →
        r.entries.length ≤ minLeafKeys st.pageSize) ∨
    ∃ st', (tryBorrowLeafRight q.pid n.pid ka.length (q.page (st.pages q.pid).parent)).run st =
        some (true, st') ∧
      Repaired st free (a ++ [n] ++ b) ((a' ++ q :: b') :: rest) st' := by
  have hmin := two_mul_minLeafKeys_le st.pageSize
  have hge := minLeafKeys_ge h.pageSize
  obtain rfl | ⟨r, b₂, kb₂, rfl, rfl, hu₂⟩ := hu.right_cases
  · refine .inl ⟨st, ?_, .refl, by simp⟩
    have hlenq : (q.page (st.pages q.pid).parent).entries.length = ka.length := by
      have := congrArg List.length hu.kids
      simpa [InnerNode.kids, InnerNode.page] using this
    simp [tryBorrowLeafRight, hlenq]
  have h₂ : TreeShape st free (a ++ [n, r] ++ b₂) ((a' ++ q :: b') :: rest) := by simpa using h
  have hkids : q.kids = ka ++ n.head :: r.head :: kb₂ := by simpa using hu₂.kids
  have hget := q.entries_get hkids (st.pages q.pid).parent
  have hlt : ka.length < (q.page (st.pages q.pid).parent).entries.length := by
    rw [List.getElem?_eq_some_iff] at hget
    exact hget.1
  set st₁ := (st.log (.get r.pid)).log (.wlatch r.pid)
  have hread : (readLeaf r.pid).run st₁ = some (r.page (st.pages r.pid), st₁) :=
    run_readLeaf (h₂.leafOn r (by simp)).eq
  by_cases hrich : minLeafKeys st.pageSize < (r.page (st.pages r.pid)).entries.length
  · right
    have hrich' : minLeafKeys st.pageSize < r.entries.length := hrich
    obtain ⟨f, t₁, hft⟩ := List.exists_cons_of_length_pos (l := r.entries) (by omega)
    obtain ⟨s, t, rfl⟩ := List.exists_cons_of_length_pos (l := t₁) (by
      have := congrArg List.length hft
      simp only [List.length_cons] at this
      omega)
    have hrlen : r.entries.length = t.length + 2 := by simp [hft]
    have hlenr := (hside r (by simp)).2
    obtain ⟨st₄, hborrow, hto⟩ := h₂.run_borrowLeafRight ka.length hft (by omega) hlenr
    refine ⟨st₄, ?_, ?_⟩
    · simp only [tryBorrowLeafRight, if_pos hlt, hget]
      simp only [StateT.run_bind, run_pagerGetPageWlatch, Option.bind_eq_bind, Option.bind_some,
        LeafNode.head]
      erw [hread]
      simp only [Option.bind_some, run_getPageSize]
      rw [if_pos (show minLeafKeys st₁.pageSize < _ from hrich)]
      exact (run_bind_of hborrow).trans rfl
    · have hside₂ : LeavesFull st.pageSize (a ++ b₂) := fun m hm => hside m (by grind)
      have hmoved := h₂.movedEntry hside₂ hu₂
        (show n.entries ++ r.entries = (n.entries ++ [f]) ++ s :: t by simp [hft]) (by simp only [List.length_append, List.length_singleton]; omega)
        (by simp only [List.length_cons]; omega) hto
      simpa using hmoved
  · refine .inl ⟨st₁.log (.unlatchW r.pid), ?_, .trans .log (.trans .log .log), ?_⟩
    · simp only [tryBorrowLeafRight, if_pos hlt, hget]
      simp only [StateT.run_bind, run_pagerGetPageWlatch, Option.bind_eq_bind, Option.bind_some,
        LeafNode.head]
      erw [hread]
      simp only [Option.bind_some, run_getPageSize]
      rw [if_neg (show ¬ minLeafKeys st₁.pageSize < _ from hrich)]
      rfl
    · rintro r' b₃ kb₃ heq -
      obtain ⟨rfl, -⟩ := List.cons.inj heq
      exact not_lt.mp hrich

/-- A leaf that lacks an entry borrows one from its left sibling, or that has none to spare. -/
theorem tryBorrowLeafLeft_spec
    (h : TreeShape st free (a ++ [n] ++ b) ((a' ++ q :: b') :: rest))
    (hside : LeavesFull st.pageSize (a ++ b)) (hu : LeavesUnder a [n] b a' q b' ka kb)
    (hlen : n.entries.length + 1 = minLeafKeys st.pageSize) :
    (∃ st', (tryBorrowLeafLeft q.pid n.pid ka.length (q.page (st.pages q.pid).parent)).run st =
        some (false, st') ∧ st.SameData st' ∧ ∀ a₂ l ka₂, a = a₂ ++ [l] → ka = ka₂ ++ [l.head] →
        l.entries.length ≤ minLeafKeys st.pageSize) ∨
    ∃ st', (tryBorrowLeafLeft q.pid n.pid ka.length (q.page (st.pages q.pid).parent)).run st =
        some (true, st') ∧
      Repaired st free (a ++ [n] ++ b) ((a' ++ q :: b') :: rest) st' := by
  have hmin := two_mul_minLeafKeys_le st.pageSize
  have hge := minLeafKeys_ge h.pageSize
  obtain rfl | ⟨a₂, l, ka₂, rfl, rfl, hu₂⟩ := hu.left_cases
  · exact .inl ⟨st, by simp [tryBorrowLeafLeft], .refl, by simp⟩
  have h₂ : TreeShape st free (a₂ ++ [l, n] ++ b) ((a' ++ q :: b') :: rest) := by simpa using h
  have hkids : q.kids = ka₂ ++ l.head :: n.head :: kb := by simpa using hu₂.kids
  have hchild : (q.page (st.pages q.pid).parent).childAt ka₂.length = some l.pid :=
    q.childAt_of (st.pages q.pid).parent hkids
  have hpos : (ka₂ ++ [l.head]).length > 0 := by simp
  have hpred : (ka₂ ++ [l.head]).length - 1 = ka₂.length := by simp
  set st₁ := (st.log (.get l.pid)).log (.wlatch l.pid)
  have hread : (readLeaf l.pid).run st₁ = some (l.page (st.pages l.pid), st₁) :=
    run_readLeaf (h₂.leafOn l (by simp)).eq
  by_cases hrich : minLeafKeys st.pageSize < (l.page (st.pages l.pid)).entries.length
  · right
    have hrich' : minLeafKeys st.pageSize < l.entries.length := hrich
    obtain ⟨i, z, hiz⟩ : ∃ i z, l.entries = i ++ [z] := by
      have hne : l.entries ≠ [] := by
        rw [← List.length_pos_iff]
        omega
      exact ⟨_, _, (List.dropLast_append_getLast hne).symm⟩
    have hllen : l.entries.length = i.length + 1 := by simp [hiz]
    have hlenl := (hside l (by simp)).2
    obtain ⟨st₄, hborrow, hto⟩ := h₂.run_borrowLeafLeft ka₂.length hiz (by omega) hlenl
    refine ⟨st₄, ?_, ?_⟩
    · simp only [tryBorrowLeafLeft, if_pos hpos, hpred, hchild]
      simp only [StateT.run_bind, run_pagerGetPageWlatch, Option.bind_eq_bind, Option.bind_some]
      erw [hread]
      simp only [Option.bind_some, run_getPageSize]
      rw [if_pos (show minLeafKeys st₁.pageSize < _ from hrich)]
      exact (run_bind_of hborrow).trans rfl
    · have hside₂ : LeavesFull st.pageSize (a₂ ++ b) := fun m hm => hside m (by grind)
      have hmoved := h₂.movedEntry hside₂ hu₂
        (show l.entries ++ n.entries = i ++ z :: n.entries by simp [hiz]) (by omega) (by simp only [List.length_cons]; omega) hto
      simpa using hmoved
  · refine .inl ⟨st₁.log (.unlatchW l.pid), ?_, .trans .log (.trans .log .log), ?_⟩
    · simp only [tryBorrowLeafLeft, if_pos hpos, hpred, hchild]
      simp only [StateT.run_bind, run_pagerGetPageWlatch, Option.bind_eq_bind, Option.bind_some]
      erw [hread]
      simp only [Option.bind_some, run_getPageSize]
      rw [if_neg (show ¬ minLeafKeys st₁.pageSize < _ from hrich)]
      rfl
    · rintro a₃ l' ka₃ heq -
      obtain ⟨-, heq⟩ := List.append_inj' heq rfl
      obtain ⟨rfl, -⟩ := List.cons.inj heq
      exact not_lt.mp hrich

/-- The first part of both merges: the two leaves become one and their parent loses an entry. -/
theorem TreeShape.run_mergePair {l r : LeafNode}
    (h : TreeShape st free (a ++ [l, r] ++ b) ((a' ++ q :: b') :: rest)) (u : Nat)
    (hside : LeavesFull st.pageSize (a ++ b)) (hu : LeavesUnder a [l, r] b a' q b' ka kb)
    (hup : l.entries.length + r.entries.length ≤ maxLeafKeys st.pageSize) :
    ∃ st', (mergeLeaf q.pid l.pid r.pid u ka.length (q.page (st.pages q.pid).parent)
        (l.page (st.pages l.pid)) (r.page (st.pages r.pid))).run st = some ((), st') ∧
      st.SameMeta st' ∧ st'.header.rootIndexPageId = st.header.rootIndexPageId ∧
      LeafStep st free (a ++ [l, r] ++ b) ((a' ++ q :: b') :: rest) st' (r.pid :: free)
        (a ++ [l.join r] ++ b) ∧
      RowsAround st' (r.pid :: free)
        ((a ++ [l.join r] ++ b).map LeafNode.head) a'
        [{ q with entries := q.entries.eraseIdx ka.length }] b' rest := by
  have hkids : q.kids = ka ++ l.head :: r.head :: kb := by simpa using hu.kids
  set q' : InnerNode := { q with entries := q.entries.eraseIdx ka.length }
  have hu' : LeavesUnder a [l.join r] b a' q' b' ka kb :=
    ⟨hu.left, hu.right, by simpa [LeafNode.head, LeafNode.join] using
      show q'.kids = _ from q.kids_eraseIdx hkids⟩
  obtain ⟨st₂, hrun₂, hm⟩ := run_mergeLeaf u ka.length h hup
    fun n hn => (hside n (List.mem_append_right _ hn)).2
  exact ⟨st₂, hrun₂, hm.sameMeta, hm.root, hm.leafStep h, hm.rowsAround h hu hu' rfl rfl⟩

/-- Both merges of `fix_leaf_underflow_latched`, with the repair of the rows above. -/
theorem TreeShape.mergePair {l r : LeafNode}
    (h : TreeShape st free (a ++ [l, r] ++ b) ((a' ++ q :: b') :: rest)) (u : Nat)
    (stack above : List Nat)
    (hside : LeavesFull st.pageSize (a ++ b)) (hu : LeavesUnder a [l, r] b a' q b' ka kb)
    (hlow : minLeafKeys st.pageSize ≤ l.entries.length + r.entries.length)
    (hup : l.entries.length + r.entries.length ≤ maxLeafKeys st.pageSize)
    (hsafe : q.Safe st.pageSize false ∧ above = [] ∨ ¬ q.Safe st.pageSize false ∧
      Ancestors (·.Safe st.pageSize false) (a'.map InnerNode.head) q.head (b'.map InnerNode.head)
        rest above) :
    ∃ st', StateT.run (do
        mergeLeaf q.pid l.pid r.pid u ka.length (q.page (st.pages q.pid).parent)
          (l.page (st.pages l.pid)) (r.page (st.pages r.pid))
        propagateDeleteChecked stack (q.pid :: above)) st = some ((), st') ∧
      Repaired st free (a ++ [l, r] ++ b) ((a' ++ q :: b') :: rest) st' := by
  obtain ⟨st₂, hrun₂, hmeta, hroot, hleaf, haround⟩ := h.run_mergePair u hside hu hup
  have hkids : q.kids = ka ++ l.head :: r.head :: kb := by simpa using hu.kids
  set q' : InnerNode := { q with entries := q.entries.eraseIdx ka.length }
  have hps₂ : st₂.pageSize = st.pageSize := hmeta.pageSize
  have hqfull := h.occupied.1 q (by simp)
  have hqlen : q.entries.length = q'.entries.length + 1 := by
    have hget := q.entry_of hkids
    rw [List.getElem?_eq_some_iff] at hget
    rw [List.length_eraseIdx_of_lt hget.1]
    have := hget.1
    omega
  obtain ⟨st₃, free₃, rows₃, hrun₃, hup₃⟩ := propagateDeleteChecked_spec stack above haround
    (by rw [hps₂]; have := hqfull.2; omega)
    (fun hne => by
      have := hqfull.1
      simp only [minKeys, if_neg hne] at this
      rw [hps₂]
      omega)
    (by
      rw [hps₂]
      rcases hsafe with ⟨hsf, -⟩ | ⟨-, hanc⟩
      · simp only [InnerNode.Safe, Bool.false_eq_true, if_false] at hsf
        exact .inl (by omega)
      · exact .inr hanc)
  have hstep := hleaf.tree h h.order.join (by simp [q']) hup₃
  refine ⟨st₃, ?_, free₃, _, rows₃, hstep, ?_, ?_⟩
  · rw [StateT.run_bind, hrun₂]
    exact hrun₃
  · intro k hk
    simp only [List.mem_append, List.mem_cons, List.not_mem_nil, or_false] at hk
    rcases hk with (hk | rfl) | hk
    · exact hside k (by simp [hk])
    · simp only [LeafNode.join_entries, List.length_append]
      omega
    · exact hside k (by simp [hk])
  · simp [treeEntries]

/-- On the left edge of its parent a leaf is merged with its right sibling. -/
theorem TreeShape.run_mergeLeaves_right {r : LeafNode}
    (h : TreeShape st free (a ++ [n, r] ++ b) ((a' ++ q :: b') :: rest))
    (hu : LeavesUnder a [n, r] b a' q b' [] kb) :
    (mergeLeaves q.pid n.pid 0 (q.page (st.pages q.pid).parent)).run st =
      (mergeLeaf q.pid n.pid r.pid r.pid 0 (q.page (st.pages q.pid).parent)
        (n.page (st.pages n.pid)) (r.page (st.pages r.pid))).run
          ((st.log (.get r.pid)).log (.wlatch r.pid)) := by
  set st₁ := (st.log (.get r.pid)).log (.wlatch r.pid)
  have hkids : q.kids = [] ++ n.head :: r.head :: kb := by simpa using hu.kids
  have hget := q.entries_get hkids (st.pages q.pid).parent
  have hreadn : (readLeaf n.pid).run st = some (n.page (st.pages n.pid), st) :=
    run_readLeaf (h.leafOn n (by simp)).eq
  have hreadr : (readLeaf r.pid).run st₁ = some (r.page (st.pages r.pid), st₁) :=
    run_readLeaf (h.leafOn r (by simp)).eq
  simp only [List.length_nil] at hget
  simp only [mergeLeaves, gt_iff_lt, lt_irrefl, if_false, hget, StateT.run_bind, hreadn,
    Option.bind_eq_bind, Option.bind_some, run_pagerGetPageWlatch, LeafNode.head]
  rw [hreadr]
  rfl

/-- Elsewhere it is merged with its left sibling. -/
theorem TreeShape.run_mergeLeaves_left {l : LeafNode}
    (h : TreeShape st free (a ++ [l, n] ++ b) ((a' ++ q :: b') :: rest))
    (hu : LeavesUnder a [l, n] b a' q b' ka kb) :
    (mergeLeaves q.pid n.pid (ka.length + 1) (q.page (st.pages q.pid).parent)).run st =
      (mergeLeaf q.pid l.pid n.pid l.pid ka.length (q.page (st.pages q.pid).parent)
        (l.page (st.pages l.pid)) (n.page (st.pages n.pid))).run
          ((st.log (.get l.pid)).log (.wlatch l.pid)) := by
  set st₁ := (st.log (.get l.pid)).log (.wlatch l.pid)
  have hkids : q.kids = ka ++ l.head :: n.head :: kb := by simpa using hu.kids
  have hchild : (q.page (st.pages q.pid).parent).childAt ka.length = some l.pid :=
    q.childAt_of (st.pages q.pid).parent hkids
  have hreadl : (readLeaf l.pid).run st₁ = some (l.page (st.pages l.pid), st₁) :=
    run_readLeaf (h.leafOn l (by simp)).eq
  have hreadn : (readLeaf n.pid).run st₁ = some (n.page (st.pages n.pid), st₁) :=
    run_readLeaf (h.leafOn n (by simp)).eq
  simp only [mergeLeaves, if_pos (Nat.succ_pos _), Nat.add_sub_cancel, hchild, StateT.run_bind,
    Option.bind_eq_bind, Option.bind_some, run_pagerGetPageWlatch]
  rw [hreadl]
  simp only [Option.bind_some, hreadn]

/-- The kids of a node above the leaves are different pages. -/
theorem TreeShape.kids_nodup (h : TreeShape st free (a ++ [n] ++ b) ((a' ++ q :: b') :: rest))
    (hu : LeavesUnder a [n] b a' q b' ka kb) : (q.kids.map Prod.snd).Nodup := by
  have hnd := (List.nodup_append.mp h.nodup).1
  rw [← map_snd_leaf_head] at hnd
  have hsub : q.kids.Sublist ((a ++ [n] ++ b).map LeafNode.head) := by
    rw [hu.kids, List.map_append, List.map_append, hu.left, hu.right]
    exact ((List.sublist_append_right _ _).append (List.Sublist.refl _)).append
      (List.sublist_append_left _ _)
  exact hnd.sublist (hsub.map _)

/-- `find_child_idx` finds the place of a leaf among the kids of its parent. -/
theorem TreeShape.findChildIdx_eq (h : TreeShape st free (a ++ [n] ++ b) ((a' ++ q :: b') :: rest))
    (hu : LeavesUnder a [n] b a' q b' ka kb) (parent : Nat) :
    findChildIdx (q.page parent) n.pid = some ka.length := by
  have hkids : q.kids = ka ++ n.head :: kb := by simpa using hu.kids
  have hnd := h.kids_nodup hu
  rw [hkids] at hnd
  exact q.findChildIdx_of hkids fun y hy => ne_of_nodup_map hnd y (List.mem_append_left _ hy)

/-- Only at its own place is the leaf a child of its parent. -/
theorem TreeShape.childAt_ne (h : TreeShape st free (a ++ [n] ++ b) ((a' ++ q :: b') :: rest))
    (hu : LeavesUnder a [n] b a' q b' ka kb) (parent : Nat) {i : Nat} (hi : i ≠ ka.length) :
    (q.page parent).childAt i ≠ some n.pid := by
  have hkids : q.kids = ka ++ n.head :: kb := by simpa using hu.kids
  have hself : (q.kids.map Prod.snd)[ka.length]? = some n.pid := by
    simp [hkids, LeafNode.head]
  have hlt : ka.length < (q.kids.map Prod.snd).length := (List.getElem?_eq_some_iff.mp hself).1
  intro hchild
  rw [InnerNode.page, InnerNode.childAt_eq, ← List.getElem?_map, ← hself] at hchild
  exact hi ((List.getElem?_inj hlt (h.kids_nodup hu)).mp hchild.symm).symm

/-- **`fix_leaf_underflow_latched` repairs the tree around a leaf that lacks an entry.** -/
theorem fixLeafUnderflowLatchedChecked_spec {rows : List Row} (stack above : List Nat)
    (h : TreeShape st free (a ++ [n] ++ b) rows) (hrows : rows ≠ [])
    (hside : LeavesFull st.pageSize (a ++ b))
    (hlen : n.entries.length + 1 = minLeafKeys st.pageSize)
    (hanc : Ancestors (·.Safe st.pageSize false) (a.map LeafNode.head) n.head
      (b.map LeafNode.head) rows above) :
    ∃ st', (fixLeafUnderflowLatchedChecked stack n.pid above).run st = some ((), st') ∧
      Repaired st free (a ++ [n] ++ b) rows st' := by
  cases rows with
  | nil => exact absurd rfl hrows
  | cons row rest =>
    obtain ⟨a', q, b', ka, kb, above', rfl, hkids, hha, hhb, rfl, hsafe⟩ := hanc
    have hu : LeavesUnder a [n] b a' q b' ka kb := ⟨hha, hhb, by simpa using hkids⟩
    have hmin := two_mul_minLeafKeys_le st.pageSize
    have hge := minLeafKeys_ge h.pageSize
    set st₁ := st.log (.get q.pid)
    have hs₁ : st.SameData st₁ := .log
    have h₁ := h.sameData hs₁
    have hidx := h.findChildIdx_eq hu (st.pages q.pid).parent
    have hfix : (fixLeafUnderflowLatchedChecked stack n.pid (q.pid :: above')).run st = StateT.run (do
        if ← tryBorrowLeafRight q.pid n.pid ka.length (q.page (st.pages q.pid).parent) then
          lsReleaseAll stack
        else if ← tryBorrowLeafLeft q.pid n.pid ka.length (q.page (st.pages q.pid).parent) then
          lsReleaseAll stack
        else
          mergeLeaves q.pid n.pid ka.length (q.page (st.pages q.pid).parent)
          propagateDeleteChecked stack (q.pid :: above')) st₁ := by
      have hreadq : (readInternal q.pid).run st₁ = some (q.page (st.pages q.pid).parent, st₁) :=
        run_readInternal (h.upper.1.on q (by simp)).eq
      simp only [fixLeafUnderflowLatchedChecked, StateT.run_bind, run_pagerGetPage, Option.bind_eq_bind,
        Option.bind_some]
      rw [hreadq]
      simp only [Option.bind_some, hidx]
      rfl
    have hbr := tryBorrowLeafRight_spec h₁ hside hu hlen
    rcases hbr with ⟨st₂, hrun₂, hs₂, hright⟩ | ⟨st₂, hrun₂, hrep⟩
    swap
    · -- borrowed from the right
      obtain ⟨st₃, hrun₃, hs₃⟩ := run_lsReleaseAll stack st₂
      refine ⟨st₃, ?_, (hrep.ofSameData h hs₁).sameData hs₃⟩
      rw [hfix, StateT.run_bind]
      erw [hrun₂]
      exact hrun₃
    have hs₂' := hs₁.trans hs₂
    have h₂ := h.sameData hs₂'
    have hps₂ := hs₂'.pageSize
    have hbl := tryBorrowLeafLeft_spec h₂ (by rw [hps₂]; exact hside) hu (by rw [hps₂]; exact hlen)
    rw [hs₂'.pages, hps₂] at hbl
    have hrun₂' : (tryBorrowLeafRight q.pid n.pid ka.length (q.page (st.pages q.pid).parent)).run st₁ =
        some (false, st₂) := hrun₂
    rcases hbl with ⟨st₃, hrun₃, hs₃, hleft⟩ | ⟨st₃, hrun₃, hrep⟩
    swap
    · -- borrowed from the left
      obtain ⟨st₄, hrun₄, hs₄⟩ := run_lsReleaseAll stack st₃
      refine ⟨st₄, ?_, (hrep.ofSameData h hs₂').sameData hs₄⟩
      rw [hfix]
      simp only [StateT.run_bind, hrun₂', Option.bind_eq_bind, Option.bind_some, hrun₃,
        Bool.false_eq_true, ↓reduceIte, hrun₄]
    -- merged
    have hs₃' := hs₂'.trans hs₃
    have hrun : ∀ st', StateT.run (do
        mergeLeaves q.pid n.pid ka.length (q.page (st.pages q.pid).parent)
        propagateDeleteChecked stack (q.pid :: above')) st₃ = some ((), st') →
        (fixLeafUnderflowLatchedChecked stack n.pid (q.pid :: above')).run st = some ((), st') := by
      intro st' hst'
      rw [hfix]
      simp only [StateT.run_bind, hrun₂', Option.bind_eq_bind, Option.bind_some, hrun₃,
        Bool.false_eq_true, ↓reduceIte]
      simpa using hst'
    rcases hu.left_cases with rfl | ⟨a₂, l, ka₂, rfl, rfl, hu₂⟩
    · -- on the left edge of the parent: with the right sibling
      obtain rfl | ⟨r, b₂, kb₂, rfl, rfl, hu₂⟩ := hu.right_cases
      · -- the parent has at least one entry
        have hq := (h.occupied.1 q (by simp)).1
        have hqlen := congrArg List.length hu.kids
        have hpos : 1 ≤ minKeys st.pageSize rest := by
          have := minInternalKeys_ge h.pageSize
          unfold minKeys
          split <;> omega
        simp only [InnerNode.kids, List.length_cons, List.length_append, List.length_map,
          List.length_nil] at hqlen
        omega
      · have hrlen : r.entries.length ≤ minLeafKeys st.pageSize := hright r b₂ kb₂ rfl rfl
        have hrfull := (hside r (by simp)).1
        have hp : TreeShape st₃ free (a ++ [n, r] ++ b₂) ((a' ++ q :: b') :: rest) := by
          simpa using h.sameData hs₃'
        have hs₄ : st₃.SameData ((st₃.log (.get r.pid)).log (.wlatch r.pid)) := .trans .log .log
        obtain ⟨st', hrun', hrep⟩ := (hp.sameData hs₄).mergePair r.pid stack above'
          (fun m hm => by rw [(hs₃'.trans hs₄).pageSize]; exact hside m (by grind)) hu₂
          (by rw [(hs₃'.trans hs₄).pageSize]; omega) (by rw [(hs₃'.trans hs₄).pageSize]; omega)
          (by rw [(hs₃'.trans hs₄).pageSize]; exact hsafe)
        rw [hs₄.pages] at hrun'
        refine ⟨st', hrun st' ?_, Repaired.ofSameData h (hs₃'.trans hs₄) (by simpa using hrep)⟩
        have hunf := hp.run_mergeLeaves_right hu₂
        rw [hs₃'.pages] at hunf hrun'
        rw [StateT.run_bind] at hrun' ⊢
        simp only [List.length_nil] at hrun' ⊢
        rw [hunf]
        exact hrun'
    · -- with the left sibling
      have hllen : l.entries.length ≤ minLeafKeys st.pageSize := hleft a₂ l ka₂ rfl rfl
      have hlfull := (hside l (by simp)).1
      have hp : TreeShape st₃ free (a₂ ++ [l, n] ++ b) ((a' ++ q :: b') :: rest) := by
        simpa using h.sameData hs₃'
      have hs₄ : st₃.SameData ((st₃.log (.get l.pid)).log (.wlatch l.pid)) := .trans .log .log
      obtain ⟨st', hrun', hrep⟩ := (hp.sameData hs₄).mergePair l.pid stack above'
        (fun m hm => by rw [(hs₃'.trans hs₄).pageSize]; exact hside m (by grind)) hu₂
        (by rw [(hs₃'.trans hs₄).pageSize]; omega) (by rw [(hs₃'.trans hs₄).pageSize]; omega)
        (by rw [(hs₃'.trans hs₄).pageSize]; exact hsafe)
      rw [hs₄.pages] at hrun'
      refine ⟨st', hrun st' ?_, Repaired.ofSameData h (hs₃'.trans hs₄) (by simpa using hrep)⟩
      have hunf := hp.run_mergeLeaves_left hu₂
      rw [hs₃'.pages] at hunf hrun'
      rw [StateT.run_bind] at hrun' ⊢
      rw [List.length_append, List.length_singleton, hunf]
      exact hrun'

end Fix

/-! ## The whole deletion -/

section Delete

variable {st : Pager} {free : List Nat} {leaves : List LeafNode} {rows : List Row} {key : Nat}

/-- A key that is not in the tree is refused, and nothing changes. -/
theorem bptreeDeleteChecked_absent (h : TreeInv st free leaves rows)
    (hnone : ∀ e ∈ treeEntries leaves, e.1 ≠ key) :
    ∃ st', (bptreeDeleteChecked key).run st = some (-1, st') ∧ st.SameData st' := by
  obtain ⟨a, n, b, hn⟩ := h.exists_leafFor key
  obtain ⟨st₁, above, hsame₁, hrun₁, -⟩ := h.findLeafWlatchChecked hn false
  have hmemn : n ∈ leaves := hn.mem
  have hnonen : ∀ e ∈ n.entries, e.1 ≠ key := fun e he =>
    hnone e (List.mem_flatMap.mpr ⟨n, hmemn, he⟩)
  obtain ⟨l, r, hsplit⟩ := exists_leafSplit (h.order.sorted n hmemn) key
  have hany : (n.entries[leafFind n.entries key]?).any (·.1 == key) = false := by
    rw [Bool.eq_false_iff, Ne, hsplit.any_iff]
    rintro ⟨ref', r', rfl⟩
    exact hnonen (key, ref') (by simp [hsplit.eq]) rfl
  have hread : (readLeaf n.pid).run st₁ = some (_, st₁) :=
    run_readLeaf (by rw [hsame₁.pages]; exact (h.leafOn n hmemn).eq)
  obtain ⟨st₂, hrun₂, hsame₂⟩ := run_lsReleaseAll
    (n.pid :: if n.Safe st.pageSize false then [] else above) st₁
  exact ⟨st₂, by simp [bptreeDeleteChecked, hrun₁, hread, hany, hrun₂], hsame₁.trans hsame₂⟩

theorem bptreeDelete_absent (h : TreeInv st free leaves rows)
    (hnone : ∀ e ∈ treeEntries leaves, e.1 ≠ key) :
    ∃ st', (bptreeDelete key).run st = some (-1, st') ∧ st.SameData st' := by
  obtain ⟨st', hrun, hsame⟩ := bptreeDeleteChecked_absent h hnone
  exact ⟨st', refines_bptreeDeleteChecked key _ _ hrun, hsame⟩

/-- The leaf of a key without the entry of that key. -/
theorem TreeInv.eraseKey {a b : List LeafNode} {n : LeafNode} {ref : RowRef} {st₁ : Pager}
    (h : TreeInv st free leaves rows) (hn : LeafFor key leaves a n b)
    (hmem : (key, ref) ∈ n.entries) (hsame : st.SameData st₁) :
    ∃ l r, n.entries = l ++ (key, ref) :: r ∧ leafFind n.entries key = l.length ∧
      TreeStep st free leaves rows ((st₁.setPage n.pid (.leaf
        ⟨(st.pages n.pid).parent, (st.pages n.pid).nextLeaf, (st.pages n.pid).prevLeaf,
          l ++ r⟩)).log (.markDirty n.pid)) free (a ++ { n with entries := l ++ r } :: b) rows := by
  have h₁ := h.sameData hsame
  obtain rfl := hn.eq
  have hmemn : n ∈ a ++ n :: b := by simp
  have hsorted := h.order.sorted n hmemn
  obtain ⟨l, r, hsplit⟩ := exists_leafSplit hsorted key
  obtain ⟨r', rfl⟩ := (hsplit.mem_iff hsorted).mp hmem
  have hkey : key < 2 ^ 64 := h.order.lt n hmemn _ hmem
  have horder := hn.order_entries h.order (l ++ r') (hsorted.sublist (by simp [hsplit.eq])) hkey
    fun e he => .inl (by
      rw [hsplit.eq]
      simp only [List.mem_append, List.mem_cons] at he ⊢
      tauto)
  rw [← List.append_cons] at horder
  refine ⟨l, r', hsplit.eq, hsplit.find,
    ((TreeStep.refl h.toTreeShape).sameData hsame).trans (h₁.toTreeShape.setEntries ?_ horder)⟩
  rw [hsame.pages, ← hsame.pages]
  exact Pager.PagesTo.refl.setPage.log

/-- A leaf that is not the root has rows above it. -/
theorem TreeInv.rows_ne_nil {a b : List LeafNode} {n : LeafNode} (h : TreeInv st free leaves rows)
    (hn : LeafFor key leaves a n b) (hroot : n.pid ≠ st.header.rootIndexPageId) : rows ≠ [] := by
  rintro rfl
  have hmem : n.head ∈ leaves.map LeafNode.head := by
    rw [hn.eq]
    exact List.mem_map_of_mem (List.mem_append_right _ List.mem_cons_self)
  rw [h.upper.1, List.mem_singleton] at hmem
  exact hroot (congrArg Prod.snd hmem)

/-- A leaf without an entry to spare that is not the root is exactly half full, and not safe. -/
theorem TreeInv.leaf_short {a b : List LeafNode} {n : LeafNode} (h : TreeInv st free leaves rows)
    (hn : LeafFor key leaves a n b) (hroot : n.pid ≠ st.header.rootIndexPageId)
    (hshort : n.entries.length ≤ minLeafKeys st.pageSize) :
    rows ≠ [] ∧ ¬ n.Safe st.pageSize false ∧ n.entries.length = minLeafKeys st.pageSize := by
  have hrows := h.rows_ne_nil hn hroot
  have hmem : n ∈ leaves := hn.mem
  have hmin := (h.leafOcc n hmem).1
  rw [minEntries, if_neg hrows] at hmin
  refine ⟨hrows, ?_, by omega⟩
  rw [LeafNode.Safe, if_neg Bool.false_ne_true]
  omega

/-- **`bptree_delete`** of a key that is in the tree removes its entry. -/
theorem bptreeDeleteChecked_present (h : TreeInv st free leaves rows) {ref : RowRef}
    (hmem : (key, ref) ∈ treeEntries leaves) :
    ∃ st' free' leaves' rows' l r, (bptreeDeleteChecked key).run st = some (0, st') ∧
      TreeStep st free leaves rows st' free' leaves' rows' ∧ TreeInv st' free' leaves' rows' ∧
      treeEntries leaves = l ++ (key, ref) :: r ∧ treeEntries leaves' = l ++ r := by
  obtain ⟨a, n, b, hn⟩ := h.exists_leafFor key
  obtain ⟨st₁, above, hsame₁, hrun₁, hanc⟩ := h.findLeafWlatchChecked hn false
  have h₁ := h.sameData hsame₁
  have hps₁ : st₁.pageSize = st.pageSize := hsame₁.pageSize
  have hmemn' := (hn.mem_iff h.order).mp hmem
  obtain ⟨l, r', heqn, hfind, hstep₂⟩ := h.eraseKey hn hmemn' hsame₁
  obtain rfl := hn.eq
  have hmemn : n ∈ a ++ n :: b := by simp
  have hany : (n.entries[leafFind n.entries key]?).any (·.1 == key) = true := by
    rw [hfind, heqn]
    simp
  have herase : n.entries.eraseIdx l.length = l ++ r' := by
    rw [heqn, List.eraseIdx_append_of_length_le (le_refl _)]
    simp
  rw [hfind] at hany
  have hentries : treeEntries (a ++ n :: b) =
      (treeEntries a ++ l) ++ (key, ref) :: (r' ++ treeEntries b) := by
    simp [treeEntries, heqn]
  have hocc := h.leafOcc n hmemn
  have hread : (readLeaf n.pid).run st₁ = some (n.page (st.pages n.pid), st₁) :=
    run_readLeaf (by rw [hsame₁.pages]; exact (h.leafOn n hmemn).eq)
  set n' : LeafNode := { n with entries := l ++ r' }
  have hlen' : n.entries.length = n'.entries.length + 1 := by
    simp only [heqn, n', List.length_append, List.length_cons]
    omega
  have hentries' : treeEntries (a ++ n' :: b) = (treeEntries a ++ l) ++ (r' ++ treeEntries b) := by
    simp [treeEntries, n']
  -- the entry leaves its leaf
  have hw : (writeLeaf n.pid (n'.page (st.pages n.pid))).run st₁ = some ((), _) :=
    run_writeLeaf (by rw [hps₁]; exact le_trans (by decide) h.pageSize) (by
      rw [hps₁]
      show n'.entries.length ≤ _
      omega)
  set st₂ := (st₁.setPage n.pid (.leaf (n'.page (st.pages n.pid)))).log (.markDirty n.pid)
  have hps₂ : st₂.pageSize = st.pageSize := hps₁
  have hroot₂ : st₂.header.rootIndexPageId = st.header.rootIndexPageId :=
    congrArg DbHeader.rootIndexPageId hsame₁.header
  set stack := n.pid :: if n.Safe st.pageSize false then [] else above
  have hdel : (bptreeDeleteChecked key).run st = StateT.run (do
      if n.pid = st.header.rootIndexPageId ∨ minLeafKeys st.pageSize ≤ n'.entries.length then
        lsReleaseAll stack
        return (0 : Int)
      else
        fixLeafUnderflowLatchedChecked stack n.pid stack.tail
        return 0) st₂ := by
    have e₁ : (writeLeaf n.pid { n.page (st.pages n.pid) with entries := l ++ r' }).run st₁ =
        some ((), st₁.setPage n.pid (.leaf (n'.page (st.pages n.pid)))) := hw
    have e₂ : (n.page (st.pages n.pid)).entries = n.entries := rfl
    simp only [bptreeDeleteChecked, StateT.run_bind, hrun₁, hread, Option.bind_eq_bind, Option.bind_some,
      e₂, hfind, hany, if_true, herase, e₁, run_pagerMarkDirty, run_rootId, run_getPageSize,
      Pager.log_header, Pager.setPage_header, Pager.log_pageSize, Pager.setPage_pageSize,
      hsame₁.header, hps₁]
    rfl
  by_cases hdone : n.pid = st.header.rootIndexPageId ∨ minLeafKeys st.pageSize ≤ n'.entries.length
  · -- the leaf is the root or still at least half full
    obtain ⟨st₃, hrun₃, hs₃⟩ := run_lsReleaseAll stack st₂
    have hstep := hstep₂.sameData hs₃
    refine ⟨st₃, free, a ++ n' :: b, rows, _, _, ?_, hstep, ⟨hstep.shape, ?_⟩, hentries, hentries'⟩
    · rw [hdel, if_pos hdone]
      simp [hrun₃]
    · rw [hstep.sameMeta.pageSize]
      intro m hm
      by_cases hmn : m = n'
      · rw [hmn]
        refine ⟨?_, by omega⟩
        rcases hdone with hroot | hmin
        · have hrows : rows = [] := by
            by_contra hne
            have hmem := h.upper.root_mem hne
            rw [← hroot] at hmem
            exact (List.nodup_append.mp h.nodup).2.2 n.pid (by simp) n.pid hmem rfl
          simp [minEntries, hrows]
        · refine le_trans ?_ hmin
          unfold minEntries
          split <;> omega
      · exact h.leafOcc m (by grind)
  · -- the leaf lacks an entry
    have hdone' := hdone
    rw [not_or] at hdone'
    obtain ⟨hrows, hunsafe, hlen⟩ := h.leaf_short hn hdone'.1 (by omega)
    have htail : stack.tail = above := by simp [stack, hunsafe]
    have hlack : n'.entries.length + 1 = minLeafKeys st.pageSize := by omega
    have hshape₂ : TreeShape st₂ free (a ++ [n'] ++ b) rows := by
      rw [← List.append_cons]
      exact hstep₂.shape
    have hside : LeavesFull st₂.pageSize (a ++ b) := by
      rw [hps₂]
      intro m hm
      have := h.leafOcc m (by grind)
      simpa [minEntries, hrows] using this
    obtain ⟨st₃, hrun₃, free₃, leaves₃, rows₃, hstep₃, hfull, heq⟩ :=
      fixLeafUnderflowLatchedChecked_spec stack above hshape₂ hrows hside
        (by rw [hps₂]; exact hlack) (by rw [hps₂]; exact hanc)
    rw [← List.append_cons] at hstep₃ heq
    have hstep := hstep₂.trans hstep₃
    refine ⟨st₃, free₃, leaves₃, rows₃, _, _, ?_, hstep, ⟨hstep.shape, ?_⟩, hentries,
      heq.trans hentries'⟩
    · rw [hdel, if_neg hdone, htail]
      have hrun₃' : (fixLeafUnderflowLatchedChecked stack n.pid above).run st₂ = some ((), st₃) := hrun₃
      simp [hrun₃']
    · rw [hstep.sameMeta.pageSize]
      rw [hps₂] at hfull
      intro m hm
      refine ⟨le_trans ?_ (hfull m hm).1, (hfull m hm).2⟩
      unfold minEntries
      split <;> omega

theorem bptreeDelete_present (h : TreeInv st free leaves rows) {ref : RowRef}
    (hmem : (key, ref) ∈ treeEntries leaves) :
    ∃ st' free' leaves' rows' l r, (bptreeDelete key).run st = some (0, st') ∧
      TreeStep st free leaves rows st' free' leaves' rows' ∧ TreeInv st' free' leaves' rows' ∧
      treeEntries leaves = l ++ (key, ref) :: r ∧ treeEntries leaves' = l ++ r := by
  obtain ⟨st', free', leaves', rows', l, r, hrun, hrest⟩ := bptreeDeleteChecked_present h hmem
  exact ⟨st', free', leaves', rows', l, r, refines_bptreeDeleteChecked key _ _ hrun, hrest⟩

/-- Every deletion comes to an end. -/
theorem TreeInv.exists_run_bptreeDeleteChecked (h : TreeInv st free leaves rows) (key : Nat) :
    ∃ r, (bptreeDeleteChecked key).run st = some r := by
  by_cases hmem : ∃ ref, (key, ref) ∈ treeEntries leaves
  · obtain ⟨ref, hmem⟩ := hmem
    obtain ⟨st', -, -, -, -, -, hrun, -⟩ := bptreeDeleteChecked_present h hmem
    exact ⟨_, hrun⟩
  · have hnone : ∀ e ∈ treeEntries leaves, e.1 ≠ key := by
      rintro ⟨k, ref⟩ he hk
      obtain rfl : k = key := hk
      exact hmem ⟨ref, he⟩
    obtain ⟨st', hrun, -⟩ := bptreeDeleteChecked_absent h hnone
    exact ⟨_, hrun⟩

end Delete

end MiniDb
