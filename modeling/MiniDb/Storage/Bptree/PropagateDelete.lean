import MiniDb.Storage.Bptree.Update

/-! # Deletion above the leaves

A node that has lost an entry borrows one from a sibling under the same parent or is merged with it.
Either way the kids of the two nodes stay the same list and only one entry of the parent changes
(`SiblingChange`). A merge takes an entry from the parent, so the repair goes on there:
`propagateDeleteChecked_spec` is the induction over the rows. -/

set_option autoImplicit false

namespace MiniDb

open Lib

/-! ## Two siblings and their parent -/

/-- The neighbours `mid` have become `mid'`, and their parent `q` has become `q'`. -/
structure SiblingChange (st : Pager) (free : List Nat) (mid : Row) (q : InnerNode) (st' : Pager)
    (free' : List Nat) (mid' : Row) (q' : InnerNode) : Prop where
  sameMeta : st.SameMeta st'
  root : st'.header.rootIndexPageId = st.header.rootIndexPageId
  freeList : st'.FreeList free'
  kids : mid'.flatMap InnerNode.kids = mid.flatMap InnerNode.kids
  pids : (mid'.map InnerNode.pid).Sublist (mid.map InnerNode.pid)
  pid : q'.pid = q.pid
  low : q'.low = q.low
  held : ∀ p, st'.Held free' p ↔
    st.Held free p ∧ p ∉ mid.map InnerNode.pid ∨ p ∈ mid'.map InnerNode.pid
  on : ∀ n ∈ mid', n.On (st'.pages n.pid)
  moved : ∀ n ∈ mid', ∀ c ∈ n.kids, (st'.pages c.2).parent = n.pid ∧
    (st'.pages c.2).SameBody (st.pages c.2)
  parentOn : q'.On (st'.pages q.pid)
  parent : ∀ p ∈ q.pid :: mid'.map InnerNode.pid, (st'.pages p).parent = (st.pages p).parent
  frame : ∀ p, st.Held free p → p ∉ mid.map InnerNode.pid →
    p ∉ (mid.flatMap InnerNode.kids).map Prod.snd → p ≠ q.pid → st'.pages p = st.pages p

section SiblingChange

variable {st st' : Pager} {free free' : List Nat} {hs ka kb : List (Nat × Nat)}
  {mid mid' a b a' b' : Row} {q q' : InnerNode} {rest : List Row}

/-- The row changes, and the rows above it stand over the new heads. -/
theorem SiblingChange.rowStep (h : SiblingChange st free mid q st' free' mid' q')
    (hup : Upper st.pages st.header.rootIndexPageId hs ((a ++ mid ++ b) :: (a' ++ q :: b') :: rest))
    (hnd : (hs.map Prod.snd ++ rowsPids ((a ++ mid ++ b) :: (a' ++ q :: b') :: rest)).Nodup)
    (hheld : ∀ p ∈ hs.map Prod.snd ++ rowsPids ((a ++ mid ++ b) :: (a' ++ q :: b') :: rest),
      st.Held free p)
    (ha : a.map InnerNode.head = a'.flatMap InnerNode.kids ++ ka)
    (hb : b.map InnerNode.head = kb ++ b'.flatMap InnerNode.kids)
    (hkids : q.kids = ka ++ mid.map InnerNode.head ++ kb)
    (hkids' : q'.kids = ka ++ mid'.map InnerNode.head ++ kb) :
    RowStep st free (a ++ mid ++ b) ((a' ++ q :: b') :: rest) st' free' hs (a ++ mid' ++ b) ∧
    Upper st'.pages st'.header.rootIndexPageId ((a ++ mid' ++ b).map InnerNode.head)
      ((a' ++ q' :: b') :: rest) := by
  obtain ⟨hrow, hrest⟩ := hup
  rw [rowsPids_cons] at hnd hheld
  have hndrows := (List.nodup_append.mp hnd).2.1
  have hmidkids : ∀ p ∈ (mid.flatMap InnerNode.kids).map Prod.snd, p ∈ hs.map Prod.snd := by
    intro p hp
    rw [← hrow.kids]
    simp only [List.flatMap_append, List.map_append, List.mem_append]
    exact .inl (.inr hp)
  have hmidpids : ∀ p ∈ mid'.map InnerNode.pid, p ∈ mid.map InnerNode.pid := h.pids.subset
  refine ⟨RowStep.replace h.sameMeta hrow ?_ (List.nodup_append.mp hndrows).1 ?_ ?_ ?_ h.held ?_ h.on
    h.moved ?_, ?_⟩
  · rw [← hrow.kids]
    simp [h.kids]
  · refine hnd.sublist ?_
    refine List.Sublist.append (List.Sublist.refl _) (List.Sublist.append ?_ (List.Sublist.refl _))
    simp only [List.map_append]
    exact List.Sublist.append (List.Sublist.append (List.Sublist.refl _) h.pids)
      (List.Sublist.refl _)
  · intro p hp
    refine ⟨hheld p (List.mem_append_left _ hp), fun hp' => ?_⟩
    exact (List.nodup_append.mp hnd).2.2 p hp p (List.mem_append_left _ hp') rfl
  · exact fun p hp => hheld p (List.mem_append_right _ (List.mem_append_left _ hp))
  · exact fun p hp => .inl (hmidpids p hp)
  · intro p hp hpmid hpkids hprest
    rw [h.kids] at hpkids
    refine h.frame p hp hpmid hpkids ?_
    rintro rfl
    exact hprest (by simp)
  · rw [h.root]
    have hsplit : ∀ m : Row, (a ++ m ++ b).map InnerNode.head = a'.flatMap InnerNode.kids ++ ka ++
        m.map InnerNode.head ++ (kb ++ b'.flatMap InnerNode.kids) := by
      intro m
      rw [List.map_append, List.map_append, ha, hb]
    rw [hsplit] at hrest ⊢
    -- pages of the rows other than the siblings and their parent are framed
    have hframe : ∀ p ∈ (a ++ mid ++ b).map InnerNode.pid ++ rowsPids ((a' ++ q :: b') :: rest),
        p ∉ mid.map InnerNode.pid → p ≠ q.pid → st'.pages p = st.pages p := by
      intro p hp hpmid hpq
      refine h.frame p (hheld p (List.mem_append_right _ hp)) hpmid (fun hk => ?_) hpq
      exact (List.nodup_append.mp hnd).2.2 p (hmidkids p hk) p hp rfl
    refine hrest.replace hkids hkids' h.pid h.low h.parentOn (h.parent _ (by simp)) ?_ ?_ ?_
    · intro c hc
      obtain ⟨n, hn, rfl⟩ := List.mem_map.mp hc
      have hmem : n.pid ∈ mid'.map InnerNode.pid := List.mem_map_of_mem hn
      obtain ⟨m, hm, heq⟩ := List.mem_map.mp (hmidpids _ hmem)
      rw [show n.head.2 = n.pid from rfl, h.parent _ (List.mem_cons_of_mem _ hmem), ← heq]
      refine hrest.1.parent q (by simp) m.head ?_
      rw [hkids]
      simp only [List.mem_append]
      exact .inl (.inr (List.mem_map_of_mem hm))
    · intro c hc
      have hc' : c ∈ a.map InnerNode.head ++ b.map InnerNode.head := by
        rwa [ha, hb]
      rw [← List.map_append] at hc'
      obtain ⟨n, hn, rfl⟩ := List.mem_map.mp hc'
      have hmem : n.pid ∈ (a ++ mid ++ b).map InnerNode.pid := List.mem_map_of_mem (by grind)
      rw [show n.head.2 = n.pid from rfl, hframe n.pid (List.mem_append_left _ hmem)]
      · have hndrow := (List.nodup_append.mp hndrows).1
        simp only [List.map_append, List.nodup_append] at hndrow
        grind
      · intro heq
        exact (List.nodup_append.mp hndrows).2.2 _ hmem q.pid (by simp) heq
    · intro p hp
      obtain ⟨hp', hpq⟩ := rowsPids_beside (List.nodup_append.mp hndrows).2.1 p hp
      refine hframe p (List.mem_append_right _ hp') (fun hmid => ?_) hpq
      refine (List.nodup_append.mp hndrows).2.2 p ?_ p hp' rfl
      simp only [List.map_append, List.mem_append]
      exact .inl (.inr hmid)

end SiblingChange

/-! ## Borrowing -/

/-- The situation of two siblings `l` and `r` under the parent `q`. -/
structure Siblings (st : Pager) (free : List Nat) (l r q : InnerNode) : Prop where
  pageSize : 4096 ≤ st.pageSize
  freeList : st.FreeList free
  on : ∀ n ∈ [l, r, q], n.On (st.pages n.pid)
  parent : ∀ n ∈ [l, r], ∀ c ∈ n.kids, (st.pages c.2).parent = n.pid
  isTree : ∀ c ∈ l.kids ++ r.kids, (st.pages c.2).IsTree
  nodup : ((l.kids ++ r.kids).map Prod.snd ++ [l.pid, r.pid, q.pid]).Nodup
  held : ∀ p ∈ (l.kids ++ r.kids).map Prod.snd ++ [l.pid, r.pid, q.pid], st.Held free p
  le : ∀ n ∈ [l, r, q], n.entries.length ≤ maxInternalKeys st.pageSize

section Borrow

variable {st st' : Pager} {free : List Nat} {l r q : InnerNode} {ka kb : List (Nat × Nat)}

/-- The page of a node. -/
def InnerNode.page (n : InnerNode) (parent : Nat) : InternalPage := ⟨parent, n.leftmost, n.entries⟩

theorem Siblings.page_eq (h : Siblings st free l r q) {n : InnerNode} (hn : n ∈ [l, r, q]) :
    st.pages n.pid = .internal (n.page (st.pages n.pid).parent) := (h.on n hn).eq

theorem Siblings.kid_ne (h : Siblings st free l r q) :
    ∀ c ∈ l.kids ++ r.kids, c.2 ≠ l.pid ∧ c.2 ≠ r.pid ∧ c.2 ≠ q.pid := by
  intro c hc
  have := (List.nodup_append.mp h.nodup).2.2 c.2 (List.mem_map_of_mem hc)
  exact ⟨this _ (by simp), this _ (by simp), this _ (by simp)⟩

theorem Siblings.pid_ne (h : Siblings st free l r q) :
    l.pid ≠ r.pid ∧ l.pid ≠ q.pid ∧ r.pid ≠ q.pid := by
  have := (List.nodup_append.mp h.nodup).2.1
  simpa [and_assoc] using this

/-- The page map after a borrowing: three nodes are rewritten and one kid has moved under the
first. -/
def borrowed (g : Nat → Page) (n s q : Nat) (n' s' q' : InternalPage) (moved : Nat) : Nat → Page :=
  reparented (Function.update (Function.update (Function.update g n (.internal n'))
    s (.internal s')) q (.internal q')) [moved] n

/-- The part that both borrowings of `fix_internal_underflow_latched` share. -/
theorem run_borrow (st : Pager) (n s q moved : Nat) {n' s' q' : InternalPage}
    (hps : 4096 ≤ st.pageSize)
    (hle : ∀ i ∈ [n', s', q'], i.entries.length ≤ maxInternalKeys st.pageSize)
    (hmoved : moved ∉ [n, s, q]) (htree : (st.pages moved).IsTree) :
    ∃ st', StateT.run (do
        writeInternal n n'
        writeInternal s s'
        writeInternal q q'
        pagerMarkDirty n
        pagerMarkDirty s
        pagerMarkDirty q
        updateChildParentPage moved n
        pagerUnpin n
        pagerUnlatchW s
        pagerUnpin q) st = some ((), st') ∧
      st.PagesTo (borrowed st.pages n s q n' s' q' moved) st' := by
  have hhdr : internalHeaderSize ≤ st.pageSize := by
    simp only [internalHeaderSize]
    omega
  simp only [List.mem_cons, List.not_mem_nil, or_false, not_or] at hmoved
  have hw₁ : (writeInternal n n').run st = some ((), _) :=
    run_writeInternal hhdr (hle n' (by simp))
  have hw₂ : (writeInternal s s').run (st.setPage n (.internal n')) = some ((), _) :=
    run_writeInternal hhdr (hle s' (by simp))
  have hw₃ : (writeInternal q q').run
      ((st.setPage n (.internal n')).setPage s (.internal s')) = some ((), _) :=
    run_writeInternal hhdr (hle q' (by simp))
  set st₁ := (((((st.setPage n (.internal n')).setPage s (.internal s')).setPage q
    (.internal q')).log (.markDirty n)).log (.markDirty s)).log (.markDirty q)
  have h₁ : st.PagesTo _ st₁ := ((Pager.PagesTo.refl.setPage.setPage.setPage.log).log).log
  obtain ⟨st₂, hrun₂, h₂⟩ := run_updateChildParentPage st₁ moved n (by
    rw [h₁.pages, Function.update_of_ne hmoved.2.2, Function.update_of_ne hmoved.2.1,
      Function.update_of_ne hmoved.1]
    exact htree)
  rw [h₁.pages] at h₂
  refine ⟨((st₂.log (.unpin n)).log (.unlatchW s)).log (.unpin q), ?_, (h₁.trans h₂).log.log.log⟩
  simp [hw₁, hw₂, hw₃, hrun₂, st₁]

theorem Siblings.symm (h : Siblings st free l r q) : Siblings st free r l q where
  pageSize := h.pageSize
  freeList := h.freeList
  on := fun n hn => h.on n (by simp at hn ⊢; tauto)
  parent := fun n hn => h.parent n (by simp at hn ⊢; tauto)
  isTree := fun c hc => h.isTree c (by simp at hc ⊢; tauto)
  nodup := by
    have := h.nodup
    refine (List.Perm.nodup_iff ?_).mp this
    simp only [List.map_append]
    exact (List.perm_append_comm).append (List.Perm.swap _ _ _)
  held := fun p hp => h.held p (by
    simp only [List.map_append, List.mem_append, List.mem_cons] at hp ⊢
    tauto)
  le := fun n hn => h.le n (by simp at hn ⊢; tauto)

/-- **A borrowing between two siblings.** The node `n` gets the kid `moved` from its sibling `s`. -/
theorem Siblings.borrowed {n s : InnerNode} (n' s' q' : InnerNode) (moved : Nat)
    (h : Siblings st free n s q)
    (hn : ∀ c ∈ n'.kids, c.2 = moved ∧ c ∈ s.kids ∨ c.2 ≠ moved ∧ c ∈ n.kids)
    (hs : ∀ c ∈ s'.kids, c.2 ≠ moved ∧ c ∈ s.kids) (hmoved : moved ∈ s.kids.map Prod.snd)
    (hpids : n'.pid = n.pid ∧ s'.pid = s.pid ∧ q'.pid = q.pid)
    (hto : st.PagesTo (borrowed st.pages n.pid s.pid q.pid (n'.page (st.pages n.pid).parent)
      (s'.page (st.pages s.pid).parent) (q'.page (st.pages q.pid).parent) moved) st') :
    (∀ k ∈ [n', s', q'], st'.pages k.pid = .internal (k.page (st.pages k.pid).parent)) ∧
    (∀ k ∈ [n', s'], ∀ c ∈ k.kids, (st'.pages c.2).parent = k.pid ∧
      (st'.pages c.2).SameBody (st.pages c.2)) ∧
    (∀ p, p ∉ [n.pid, s.pid, q.pid] → p ∉ (n.kids ++ s.kids).map Prod.snd →
      st'.pages p = st.pages p) := by
  obtain ⟨hnp, hsp, hqp⟩ := hpids
  obtain ⟨hns, hnq, hsq⟩ := h.pid_ne
  have hmne : moved ≠ n.pid ∧ moved ≠ s.pid ∧ moved ≠ q.pid := by
    obtain ⟨c, hc, rfl⟩ := List.mem_map.mp hmoved
    exact h.kid_ne c (List.mem_append_right _ hc)
  have hkid : ∀ c ∈ n.kids ++ s.kids, c.2 ≠ moved → st'.pages c.2 = st.pages c.2 := by
    intro c hc hcm
    obtain ⟨h₁, h₂, h₃⟩ := h.kid_ne c hc
    rw [hto.pages, MiniDb.borrowed, reparented_of_not_mem (by simpa using hcm),
      Function.update_of_ne h₃, Function.update_of_ne h₂, Function.update_of_ne h₁]
  refine ⟨?_, ?_, ?_⟩
  · intro k hk
    simp only [List.mem_cons, List.not_mem_nil, or_false] at hk
    rw [hto.pages, MiniDb.borrowed]
    rcases hk with rfl | rfl | rfl
    · rw [hnp, reparented_of_not_mem (by simpa using hmne.1.symm), Function.update_of_ne hnq,
        Function.update_of_ne hns, Function.update_self]
    · rw [hsp, reparented_of_not_mem (by simpa using hmne.2.1.symm), Function.update_of_ne hsq,
        Function.update_self]
    · rw [hqp, reparented_of_not_mem (by simpa using hmne.2.2.symm), Function.update_self]
  · have hunmoved : ∀ k ∈ [n, s], ∀ c ∈ k.kids, c.2 ≠ moved → (st'.pages c.2).parent = k.pid ∧
        (st'.pages c.2).SameBody (st.pages c.2) := by
      intro k hk c hc hcm
      have hc' : c ∈ n.kids ++ s.kids := by
        simp only [List.mem_cons, List.not_mem_nil, or_false] at hk
        rcases hk with rfl | rfl <;> simp [hc]
      rw [hkid c hc' hcm]
      exact ⟨h.parent k hk c hc, .refl⟩
    intro k hk c hc
    simp only [List.mem_cons, List.not_mem_nil, or_false] at hk
    rcases hk with rfl | rfl
    · rcases hn c hc with ⟨hcm, hcs⟩ | ⟨hcm, hcn⟩
      · have htree := h.isTree c (List.mem_append_right _ hcs)
        rw [hto.pages, MiniDb.borrowed, hnp, reparented_of_mem (by simpa using hcm),
          Function.update_of_ne (hcm ▸ hmne.2.2), Function.update_of_ne (hcm ▸ hmne.2.1),
          Function.update_of_ne (hcm ▸ hmne.1)]
        exact ⟨Page.parent_withParent htree, Page.withParent_sameBody⟩
      · rw [hnp]
        exact hunmoved n (by simp) c hcn hcm
    · rw [hsp]
      exact hunmoved s (by simp) c (hs c hc).2 (hs c hc).1
  · intro p hp hpk
    simp only [List.mem_cons, List.not_mem_nil, or_false, not_or] at hp
    have hpm : p ≠ moved := by
      rintro rfl
      exact hpk (by rw [List.map_append]; exact List.mem_append_right _ hmoved)
    rw [hto.pages, MiniDb.borrowed, reparented_of_not_mem (by simpa using hpm),
      Function.update_of_ne hp.2.2, Function.update_of_ne hp.2.1, Function.update_of_ne hp.1]

/-- Two siblings rewritten in place, with the kids redistributed between them. -/
theorem Siblings.change {l' r' q' : InnerNode} {g : Nat → Page} (h : Siblings st free l r q)
    (hto : st.PagesTo g st') (hkids : l'.kids ++ r'.kids = l.kids ++ r.kids)
    (hpids : l'.pid = l.pid ∧ r'.pid = r.pid ∧ q'.pid = q.pid) (hlow : q'.low = q.low)
    (hpages : ∀ k ∈ [l', r', q'], st'.pages k.pid = .internal (k.page (st.pages k.pid).parent))
    (hmoved : ∀ k ∈ [l', r'], ∀ c ∈ k.kids, (st'.pages c.2).parent = k.pid ∧
      (st'.pages c.2).SameBody (st.pages c.2))
    (hframe : ∀ p, p ∉ [l.pid, r.pid, q.pid] → p ∉ (l.kids ++ r.kids).map Prod.snd →
      st'.pages p = st.pages p) :
    SiblingChange st free [l, r] q st' free [l', r'] q' := by
  obtain ⟨hlp, hrp, hqp⟩ := hpids
  have hmap : [l', r'].map InnerNode.pid = [l, r].map InnerNode.pid := by simp [hlp, hrp]
  have hheld := h.held
  constructor
  case sameMeta => exact hto.sameMeta
  case root => rw [hto.header]
  case freeList =>
    refine hto.freeList h.freeList fun p hp => ?_
    have hnot : p ∉ (l.kids ++ r.kids).map Prod.snd ++ [l.pid, r.pid, q.pid] := fun hmem =>
      (hheld p hmem).not_mem hp
    rw [List.mem_append, not_or] at hnot
    rw [← hto.pages, hframe p hnot.2 hnot.1]
  case kids => simpa using hkids
  case pids => rw [hmap]
  case pid => exact hqp
  case low => exact hlow
  case held =>
    intro p
    have hheld' : p ∈ [l, r].map InnerNode.pid → st.Held free p := fun hp =>
      hheld p (List.mem_append_right _ (by simp at hp ⊢; tauto))
    rw [hto.held, hmap]
    tauto
  case on =>
    intro n hn
    have hn' : n ∈ [l', r', q'] := by
      simp only [List.mem_cons, List.not_mem_nil, or_false] at hn ⊢
      tauto
    exact ⟨_, hpages n hn'⟩
  case moved => exact hmoved
  case parentOn => exact hqp ▸ ⟨_, hpages q' (by simp)⟩
  case parent =>
    intro p hp
    obtain ⟨k, hk, rfl⟩ : ∃ k ∈ [l', r', q'], k.pid = p := by
      rw [← hqp] at hp
      simpa [eq_comm, or_comm, or_assoc, or_left_comm] using hp
    rw [hpages k hk]
    rfl
  case frame =>
    intro p _ hpl hpk hpq
    refine hframe p ?_ (by simpa using hpk)
    simp only [List.map_cons, List.map_nil, List.mem_cons, List.not_mem_nil, or_false] at hpl ⊢
    tauto

/-- The left node borrows the first kid of the right one. -/
theorem Siblings.borrowRight (q' : InnerNode) {f : Nat × Nat} {t : List (Nat × Nat)}
    (h : Siblings st free l r q) (hr : r.entries = f :: t) (hpid : q'.pid = q.pid)
    (hlow : q'.low = q.low)
    (hto : st.PagesTo (MiniDb.borrowed st.pages l.pid r.pid q.pid
      ⟨(st.pages l.pid).parent, l.leftmost, l.entries ++ [(r.low, r.leftmost)]⟩
      ⟨(st.pages r.pid).parent, f.2, t⟩ (q'.page (st.pages q.pid).parent) r.leftmost) st') :
    SiblingChange st free [l, r] q st' free
      [{ l with entries := l.entries ++ [(r.low, r.leftmost)] }, ⟨f.1, r.pid, f.2, t⟩] q' := by
  set l' : InnerNode := { l with entries := l.entries ++ [(r.low, r.leftmost)] }
  set r' : InnerNode := ⟨f.1, r.pid, f.2, t⟩
  have hkids : l'.kids ++ r'.kids = l.kids ++ r.kids := by simp [l', r', InnerNode.kids, hr]
  have hmoved : ∀ c ∈ l.kids ++ r'.kids, c.2 ≠ r.leftmost := by
    have hsplit : l.kids ++ r.kids = l.kids ++ (r.low, r.leftmost) :: r'.kids := by
      simp [r', InnerNode.kids, hr]
    have hnd := (List.nodup_append.mp h.nodup).1
    rw [hsplit] at hnd
    exact ne_of_nodup_map hnd
  obtain ⟨h₁, h₂, h₃⟩ := h.borrowed l' r' q' r.leftmost (by
      intro c hc
      simp only [l', InnerNode.kids, ← List.cons_append, List.mem_append, List.mem_singleton] at hc
      rcases hc with hc | rfl
      · exact .inr ⟨hmoved c (List.mem_append_left _ hc), hc⟩
      · exact .inl ⟨rfl, by simp [InnerNode.kids]⟩) (by
      intro c hc
      refine ⟨hmoved c (List.mem_append_right _ hc), ?_⟩
      rw [InnerNode.kids, hr]
      exact List.mem_cons_of_mem _ hc) (by simp [InnerNode.kids]) ⟨rfl, rfl, hpid⟩ hto
  exact h.change hto hkids ⟨rfl, rfl, hpid⟩ hlow h₁ h₂ h₃

/-- The right node borrows the last kid of the left one. -/
theorem Siblings.borrowLeft (q' : InnerNode) {i : List (Nat × Nat)} {z : Nat × Nat}
    (h : Siblings st free l r q) (hl : l.entries = i ++ [z]) (hpid : q'.pid = q.pid)
    (hlow : q'.low = q.low)
    (hto : st.PagesTo (MiniDb.borrowed st.pages r.pid l.pid q.pid
      ⟨(st.pages r.pid).parent, z.2, (r.low, r.leftmost) :: r.entries⟩
      ⟨(st.pages l.pid).parent, l.leftmost, i⟩ (q'.page (st.pages q.pid).parent) z.2) st') :
    SiblingChange st free [l, r] q st' free
      [{ l with entries := i }, ⟨z.1, r.pid, z.2, (r.low, r.leftmost) :: r.entries⟩] q' := by
  set l' : InnerNode := { l with entries := i }
  set r' : InnerNode := ⟨z.1, r.pid, z.2, (r.low, r.leftmost) :: r.entries⟩
  have hkids : l'.kids ++ r'.kids = l.kids ++ r.kids := by simp [l', r', InnerNode.kids, hl]
  have hmoved : ∀ c ∈ l'.kids ++ r.kids, c.2 ≠ z.2 := by
    have hsplit : l.kids ++ r.kids = l'.kids ++ z :: r.kids := by
      simp [l', InnerNode.kids, hl]
    have hnd := (List.nodup_append.mp h.nodup).1
    rw [hsplit] at hnd
    exact ne_of_nodup_map hnd
  have hzl : z ∈ l.kids := by simp [InnerNode.kids, hl]
  obtain ⟨h₁, h₂, h₃⟩ := h.symm.borrowed r' l' q' z.2 (by
      intro c hc
      rcases List.mem_cons.mp hc with rfl | hc
      · exact .inl ⟨rfl, hzl⟩
      · exact .inr ⟨hmoved c (List.mem_append_right _ hc), hc⟩) (by
      intro c hc
      refine ⟨hmoved c (List.mem_append_left _ hc), ?_⟩
      simp only [l', InnerNode.kids, hl, ← List.cons_append] at hc ⊢
      exact List.mem_append_left _ hc) (List.mem_map_of_mem hzl) ⟨rfl, rfl, hpid⟩ hto
  refine h.change hto hkids ⟨rfl, rfl, hpid⟩ hlow (fun k hk => h₁ k ?_) (fun k hk => h₂ k ?_)
    fun p hp hpk => h₃ p ?_ ?_
  · simp only [List.mem_cons, List.not_mem_nil, or_false] at hk ⊢
    tauto
  · simp only [List.mem_cons, List.not_mem_nil, or_false] at hk ⊢
    tauto
  · simp only [List.mem_cons, List.not_mem_nil, or_false] at hp ⊢
    tauto
  · rw [List.map_append, List.mem_append] at hpk ⊢
    tauto

end Borrow

/-! ## Merging -/

section Merge

variable {st st' : Pager} {free : List Nat} {l r q : InnerNode} {idx u v : Nat}

/-- The part that both merges of `fix_internal_underflow_latched` share: the right node moves into
the left one, the parent loses an entry and the page of the right node is freed. -/
theorem Siblings.run_merge (h : Siblings st free l r q) (idx u v : Nat)
    (hroom : l.entries.length + r.entries.length < maxInternalKeys st.pageSize) :
    ∃ st', StateT.run (do
        appendInternal l.pid (l.page (st.pages l.pid).parent) r.low
          (r.page (st.pages r.pid).parent)
        deleteEntryFromInternal q.pid (q.page (st.pages q.pid).parent) idx
        pagerMarkDirty q.pid
        pagerUnpin q.pid
        pagerUnpin u
        pagerUnlatchW v
        pagerFreePage r.pid) st = some ((), st') ∧
      st.SameMeta st' ∧ st'.header.rootIndexPageId = st.header.rootIndexPageId ∧
      st'.FreeList (r.pid :: free) ∧
      (∀ p, st'.Held (r.pid :: free) p ↔ st.Held free p ∧ p ≠ r.pid) ∧
      ∀ p, p ≠ r.pid → st'.pages p = Function.update
        (reparented (Function.update st.pages l.pid (.internal ⟨(st.pages l.pid).parent, l.leftmost,
          l.entries ++ (r.low, r.leftmost) :: r.entries⟩)) (r.kids.map Prod.snd) l.pid)
        q.pid (.internal ⟨(st.pages q.pid).parent, q.leftmost, q.entries.eraseIdx idx⟩) p := by
  have hhdr : internalHeaderSize ≤ st.pageSize := by
    have := h.pageSize
    simp only [internalHeaderSize]
    omega
  obtain ⟨hlr, hlq, hrq⟩ := h.pid_ne
  set merged : Page := .internal ⟨(st.pages l.pid).parent, l.leftmost,
    l.entries ++ (r.low, r.leftmost) :: r.entries⟩
  have hw₁ : (writeInternal l.pid ⟨(st.pages l.pid).parent, l.leftmost,
      l.entries ++ (r.low, r.leftmost) :: r.entries⟩).run st = some ((), st.setPage l.pid merged) :=
    run_writeInternal hhdr (by simp; omega)
  set st₁ := (st.setPage l.pid merged).log (.markDirty l.pid)
  have h₁ : st.PagesTo (Function.update st.pages l.pid merged) st₁ := Pager.PagesTo.refl.setPage.log
  have htree₁ : ∀ c ∈ r.kids, (st₁.pages c.2).IsTree := by
    intro c hc
    have hc' : c ∈ l.kids ++ r.kids := List.mem_append_right _ hc
    rw [h₁.pages, Function.update_of_ne (h.kid_ne c hc').1]
    exact h.isTree c hc'
  obtain ⟨st₂, hrun₂, h₂⟩ := run_updateChildParentPage st₁ r.leftmost l.pid
    (htree₁ (r.low, r.leftmost) (by simp [InnerNode.kids]))
  obtain ⟨st₃, hrun₃, h₃⟩ := run_forM_updateChildParentPage l.pid r.entries st₂
    (by
      intro c hc
      rw [h₂.pages, reparented_sameBody.isTree]
      exact htree₁ c (List.mem_cons_of_mem _ hc))
  have hkids : (r.low, r.leftmost).2 :: r.entries.map Prod.snd = r.kids.map Prod.snd := rfl
  rw [h₂.pages, reparented_reparented, h₁.pages, hkids] at h₃
  have hsize₃ : st₃.pageSize = st.pageSize := by rw [h₃.pageSize, h₂.pageSize, h₁.pageSize]
  set lower : Page := .internal ⟨(st.pages q.pid).parent, q.leftmost, q.entries.eraseIdx idx⟩
  have hw₄ : (writeInternal q.pid ⟨(st.pages q.pid).parent, q.leftmost,
      q.entries.eraseIdx idx⟩).run st₃ = some ((), st₃.setPage q.pid lower) :=
    run_writeInternal (by rw [hsize₃]; exact hhdr) (by
      rw [hsize₃]
      exact le_trans (List.length_eraseIdx_le _ _) (h.le q (by simp)))
  set st₄ := ((((st₃.setPage q.pid lower).log (.markDirty q.pid)).log (.unpin q.pid)).log
    (.unpin u)).log (.unlatchW v)
  have h₄ : st.PagesTo _ st₄ :=
    h₁.trans (h₂.trans (h₃.trans (Pager.PagesTo.refl.setPage.log.log.log).log))
  rw [h₃.pages] at h₄
  have hrheld : st.Held free r.pid := h.held r.pid (by simp)
  have hfree₄ : st₄.FreeList free := h₄.freeList h.freeList fun p hp => by
    have hnot : p ∉ (l.kids ++ r.kids).map Prod.snd ++ [l.pid, r.pid, q.pid] := fun hmem =>
      (h.held p hmem).not_mem hp
    simp only [List.map_append, List.mem_append, List.mem_cons, List.not_mem_nil, or_false,
      not_or] at hnot
    obtain ⟨⟨-, hk⟩, hl, -, hq⟩ := hnot
    rw [Function.update_of_ne hq, reparented_of_not_mem hk, Function.update_of_ne hl]
  obtain ⟨st₅, hrun₅, h₅⟩ := pagerFreePage_spec hfree₄ ((h₄.held r.pid).mpr hrheld)
  refine ⟨st₅, ?_, h₄.sameMeta.trans h₅.sameMeta, ?_, h₅.freeList, ?_, ?_⟩
  · simp only [appendInternal, deleteEntryFromInternal, InnerNode.page]
    simp [hw₁, hrun₂, hrun₃, hw₄, hrun₅, st₁, st₄]
  · rw [h₅.header, h₄.header]
  · intro p
    rw [h₅.held, h₄.held]
  · intro p hp
    rw [h₅.pages p hp, h₄.pages]

theorem Siblings.sameData (h : Siblings st free l r q) (hs : st.SameData st') :
    Siblings st' free l r q := by
  have hf := hs.freeList h.freeList
  have hh : ∀ p, st'.Held free p ↔ st.Held free p := hs.held
  obtain ⟨t, rfl⟩ := hs
  exact ⟨h.pageSize, hf, h.on, h.parent, h.isTree, h.nodup, fun p hp => (hh p).mpr (h.held p hp),
    h.le⟩

/-- Two siblings become one. -/
theorem Siblings.merge (q' : InnerNode) (h : Siblings st free l r q) (hpid : q'.pid = q.pid)
    (hlow : q'.low = q.low) (hmeta : st.SameMeta st')
    (hroot : st'.header.rootIndexPageId = st.header.rootIndexPageId)
    (hfree : st'.FreeList (r.pid :: free))
    (hheld : ∀ p, st'.Held (r.pid :: free) p ↔ st.Held free p ∧ p ≠ r.pid)
    (hpages : ∀ p, p ≠ r.pid → st'.pages p = Function.update
        (reparented (Function.update st.pages l.pid (.internal ⟨(st.pages l.pid).parent, l.leftmost,
          l.entries ++ (r.low, r.leftmost) :: r.entries⟩)) (r.kids.map Prod.snd) l.pid)
        q.pid (.internal (q'.page (st.pages q.pid).parent)) p) :
    SiblingChange st free [l, r] q st' (r.pid :: free)
      [{ l with entries := l.entries ++ (r.low, r.leftmost) :: r.entries }] q' := by
  set m : InnerNode := { l with entries := l.entries ++ (r.low, r.leftmost) :: r.entries }
  obtain ⟨hlr, hlq, hrq⟩ := h.pid_ne
  have hkids : m.kids = l.kids ++ r.kids := by simp [m, InnerNode.kids]
  have hl : l.pid ∉ r.kids.map Prod.snd := by
    intro hmem
    obtain ⟨c, hc, heq⟩ := List.mem_map.mp hmem
    exact (h.kid_ne c (List.mem_append_right _ hc)).1 heq
  have hpage_l : st'.pages l.pid = .internal (m.page (st.pages l.pid).parent) := by
    rw [hpages _ hlr, Function.update_of_ne hlq, reparented_of_not_mem hl, Function.update_self]
    rfl
  have hpage_q : st'.pages q.pid = .internal (q'.page (st.pages q.pid).parent) := by
    rw [hpages _ hrq.symm, Function.update_self]
  constructor
  case sameMeta => exact hmeta
  case root => exact hroot
  case freeList => exact hfree
  case kids => simpa using hkids
  case pids => simp [m]
  case pid => exact hpid
  case low => exact hlow
  case held =>
    intro p
    have hlheld := h.held l.pid (by simp)
    rw [hheld]
    simp only [List.map_cons, List.map_nil, List.mem_cons, List.not_mem_nil, or_false, m]
    grind
  case on =>
    intro n hn
    rw [List.mem_singleton] at hn
    subst hn
    exact ⟨_, hpage_l⟩
  case moved =>
    intro n hn c hc
    rw [List.mem_singleton] at hn
    subst hn
    rw [hkids] at hc
    obtain ⟨h₁, h₂, h₃⟩ := h.kid_ne c hc
    have htree := h.isTree c hc
    rw [hpages _ h₂, Function.update_of_ne h₃]
    by_cases hcr : c.2 ∈ r.kids.map Prod.snd
    · rw [reparented_of_mem hcr, Function.update_of_ne h₁]
      exact ⟨Page.parent_withParent htree, Page.withParent_sameBody⟩
    · rw [reparented_of_not_mem hcr, Function.update_of_ne h₁]
      rcases List.mem_append.mp hc with hcl | hcr'
      · exact ⟨h.parent l (by simp) c hcl, .refl⟩
      · exact absurd (List.mem_map_of_mem hcr') hcr
  case parentOn => exact ⟨_, hpage_q⟩
  case parent =>
    intro p hp
    simp only [List.map_cons, List.map_nil, List.mem_cons, List.not_mem_nil, or_false] at hp
    rcases hp with rfl | rfl
    · rw [hpage_q]
      rfl
    · show (st'.pages l.pid).parent = (st.pages l.pid).parent
      rw [hpage_l]
      rfl
  case frame =>
    intro p _ hpl hpk hpq
    simp only [List.map_cons, List.map_nil, List.mem_cons, List.not_mem_nil, or_false,
      not_or] at hpl
    have hpr : p ∉ r.kids.map Prod.snd := fun hmem => hpk (by
      simp only [List.flatMap_cons, List.flatMap_nil, List.append_nil, List.map_append]
      exact List.mem_append_right _ hmem)
    rw [hpages p hpl.2, Function.update_of_ne hpq, reparented_of_not_mem hpr,
      Function.update_of_ne hpl.1]

end Merge

/-! ## One row -/

/-- The rows are in order except for the occupancy of the neighbours `mid` in the lowest one. -/
structure RowsAround (st : Pager) (free : List Nat) (hs : List (Nat × Nat)) (a mid b : Row)
    (rest : List Row) : Prop where
  pageSize : 4096 ≤ st.pageSize
  freeList : st.FreeList free
  upper : Upper st.pages st.header.rootIndexPageId hs ((a ++ mid ++ b) :: rest)
  side : ∀ n ∈ a ++ b, n.Full st.pageSize rest
  occupied : Occupied st.pageSize rest
  nodup : (hs.map Prod.snd ++ rowsPids ((a ++ mid ++ b) :: rest)).Nodup
  held : ∀ q ∈ hs.map Prod.snd ++ rowsPids ((a ++ mid ++ b) :: rest), st.Held free q
  isTree : ∀ c ∈ hs, (st.pages c.2).IsTree

section Row

variable {st st' : Pager} {free free' : List Nat} {hs ka kb : List (Nat × Nat)}
  {a b a' b' mid mid' : Row} {p q q' l r : InnerNode} {rest : List Row}

theorem RowsAround.sameData (h : RowsAround st free hs a mid b rest) (hs' : st.SameData st') :
    RowsAround st' free hs a mid b rest := by
  have hf := hs'.freeList h.freeList
  have hh : ∀ p, st'.Held free p ↔ st.Held free p := hs'.held
  obtain ⟨t, rfl⟩ := hs'
  exact ⟨h.pageSize, hf, h.upper, h.side, h.occupied, h.nodup,
    fun q hq => (hh q).mpr (h.held q hq), h.isTree⟩

/-- Nodes with enough entries need no repair. -/
theorem RowsAround.done (h : RowsAround st free hs a mid b rest)
    (hfull : ∀ n ∈ mid, n.Full st.pageSize rest) :
    UpperStep st free ((a ++ mid ++ b) :: rest) st free hs ((a ++ mid ++ b) :: rest) := by
  refine UpperStep.refl h.freeList h.upper ⟨?_, h.occupied⟩ h.nodup
    fun q hq => h.held q (List.mem_append_right _ hq)
  intro n hn
  have := h.side n
  simp only [List.mem_append] at hn this
  rcases hn with (hn | hn) | hn
  exacts [this (.inl hn), hfull n hn, this (.inr hn)]

/-- A root without entries hands over to its only kid. -/
theorem RowsAround.shrink (h : RowsAround st free hs [] [p] [] [])
    (hempty : p.entries = []) (hmeta : st.SameMeta st')
    (hroot : st'.header.rootIndexPageId = p.leftmost) (hfree : st'.FreeList free')
    (hheld : ∀ q, st'.Held free' q ↔ st.Held free q ∧ q ≠ p.pid)
    (hpages : ∀ q, q ≠ p.pid → st'.pages q = reparented st.pages [p.leftmost] 0 q) :
    UpperStep st free [[p]] st' free' hs [] := by
  obtain ⟨hrow, htop, hpar⟩ := h.upper
  have hlow : p.low = 0 := by
    have := congrArg (fun l => l.map Prod.fst) htop
    simpa [InnerNode.head] using this
  have hhs : hs = [(0, p.leftmost)] := by
    rw [← hrow.kids]
    simp [InnerNode.kids, hlow, hempty]
  subst hhs
  have hne : p.leftmost ≠ p.pid := by
    have := h.nodup
    simp only [List.map_cons, List.map_nil, rowsPids_cons, rowsPids_nil, List.append_nil,
      List.nil_append, List.nodup_append, List.mem_singleton] at this
    exact this.2.2 _ rfl _ rfl
  have hkid : st'.pages p.leftmost = (st.pages p.leftmost).withParent 0 := by
    rw [hpages _ hne, reparented_of_mem (by simp)]
  constructor
  case sameMeta => exact hmeta
  case freeList => exact hfree
  case upper =>
    refine ⟨by rw [hroot], ?_⟩
    rw [hroot, hkid]
    exact Page.parent_withParent (h.isTree (0, p.leftmost) (by simp))
  case occupied => trivial
  case nodup => simp
  case held =>
    intro q
    rw [hheld]
    simp
  case fresh => simp
  case body =>
    intro q hq
    simp only [List.map_cons, List.map_nil, List.mem_singleton] at hq
    rw [hq, hkid]
    exact Page.withParent_sameBody
  case frame =>
    intro q _ hq hqp
    simp only [rowsPids_cons, rowsPids_nil, List.append_nil, List.map_cons, List.map_nil,
      List.mem_singleton] at hqp
    rw [hpages q hqp, reparented_of_not_mem (by simpa using hq)]

/-- Where the neighbours of a row with a row above it hang: under the node `q`. -/
structure Under (a mid b a' : Row) (q : InnerNode) (b' : Row) (ka kb : List (Nat × Nat)) :
    Prop where
  left : a.map InnerNode.head = a'.flatMap InnerNode.kids ++ ka
  right : b.map InnerNode.head = kb ++ b'.flatMap InnerNode.kids
  kids : q.kids = ka ++ mid.map InnerNode.head ++ kb

/-- Two neighbours under one parent are siblings. -/
theorem RowsAround.siblings (h : RowsAround st free hs a [l, r] b ((a' ++ q :: b') :: rest))
    (hle : ∀ n ∈ [l, r], n.entries.length ≤ maxInternalKeys st.pageSize) :
    Siblings st free l r q := by
  obtain ⟨hrow, hrest, -⟩ := h.upper
  have hkids : ∀ c ∈ l.kids ++ r.kids, c ∈ hs := by
    intro c hc
    rw [← hrow.kids]
    simp only [List.flatMap_append, List.flatMap_cons, List.flatMap_nil, List.append_nil,
      List.mem_append] at hc ⊢
    tauto
  have hsub : ((l.kids ++ r.kids).map Prod.snd ++ [l.pid, r.pid, q.pid]).Sublist
      (hs.map Prod.snd ++ rowsPids ((a ++ [l, r] ++ b) :: (a' ++ q :: b') :: rest)) := by
    refine List.Sublist.append (List.Sublist.map _ ?_) ?_
    · rw [← hrow.kids]
      simp only [List.flatMap_append, List.flatMap_cons, List.flatMap_nil, List.append_nil]
      exact (List.sublist_append_right _ _).trans (List.sublist_append_left _ _)
    · have h₁ : [l.pid, r.pid].Sublist ((a ++ [l, r] ++ b).map InnerNode.pid) := by
        simp only [List.map_append]
        exact (List.sublist_append_right _ _).trans (List.sublist_append_left _ _)
      have h₂ : [q.pid].Sublist (rowsPids ((a' ++ q :: b') :: rest)) := by simp
      exact h₁.append h₂
  constructor
  case pageSize => exact h.pageSize
  case freeList => exact h.freeList
  case on =>
    intro n hn
    simp only [List.mem_cons, List.not_mem_nil, or_false] at hn
    rcases hn with rfl | rfl | rfl
    exacts [hrow.on _ (by simp), hrow.on _ (by simp), hrest.on _ (by simp)]
  case parent =>
    intro n hn
    simp only [List.mem_cons, List.not_mem_nil, or_false] at hn
    exact hrow.parent n (by simp; tauto)
  case isTree => exact fun c hc => h.isTree c (hkids c hc)
  case nodup => exact h.nodup.sublist hsub
  case held => exact fun p hp => h.held p (hsub.subset hp)
  case le =>
    intro n hn
    simp only [List.mem_cons, List.not_mem_nil, or_false] at hn
    rcases hn with rfl | rfl | rfl
    exacts [hle _ (by simp), hle _ (by simp), (h.occupied.1 n (by simp)).2]

/-- What is left to do after siblings have changed: repair the rows from their parent on. -/
theorem RowsAround.step (h : RowsAround st free hs a mid b ((a' ++ q :: b') :: rest))
    (hu : Under a mid b a' q b' ka kb) (hu' : Under a mid' b a' q' b' ka kb)
    (hc : SiblingChange st free mid q st' free' mid' q')
    (hfull : ∀ n ∈ mid', minInternalKeys st.pageSize ≤ n.entries.length ∧
      n.entries.length ≤ maxInternalKeys st.pageSize) :
    RowsAround st' free' ((a ++ mid' ++ b).map InnerNode.head) a' [q'] b' rest ∧
    ∀ {st₂ : Pager} {free₂ : List Nat} {rows₂ : List Row},
      UpperStep st' free' ((a' ++ [q'] ++ b') :: rest) st₂ free₂
        ((a ++ mid' ++ b).map InnerNode.head) rows₂ →
      UpperStep st free ((a ++ mid ++ b) :: (a' ++ q :: b') :: rest) st₂ free₂ hs
        ((a ++ mid' ++ b) :: rows₂) := by
  obtain ⟨hstep, hup⟩ := hc.rowStep h.upper h.nodup h.held hu.left hu.right hu.kids hu'.kids
  have hpids : rowsPids ((a' ++ [q'] ++ b') :: rest) = rowsPids ((a' ++ q :: b') :: rest) := by
    simp [hc.pid]
  have hps : st'.pageSize = st.pageSize := hc.sameMeta.pageSize
  rw [List.append_cons a' q' b'] at hup
  refine ⟨?_, fun {st₂ free₂ rows₂} h₂ => ?_⟩
  · constructor
    case pageSize => rw [hps]; exact h.pageSize
    case freeList => exact hc.freeList
    case upper => exact hup
    case side =>
      rw [hps]
      exact fun n hn => h.occupied.1 n (by grind)
    case occupied =>
      rw [hps]
      exact h.occupied.2
    case nodup =>
      rw [map_snd_head, hpids]
      exact (List.nodup_append.mp hstep.nodup).2.1
    case held =>
      rw [map_snd_head, hpids]
      intro n hn
      refine (hstep.held n).mpr ?_
      rcases List.mem_append.mp hn with hn | hn
      · exact .inr hn
      · refine .inl ⟨h.held n (by rw [rowsPids_cons]; simp only [List.mem_append]; tauto), ?_⟩
        have hnd := (List.nodup_append.mp h.nodup).2.1
        rw [rowsPids_cons] at hnd
        exact fun hmem => (List.nodup_append.mp hnd).2.2 n hmem n hn rfl
    case isTree =>
      intro c hc'
      obtain ⟨n, hn, rfl⟩ := List.mem_map.mp hc'
      exact (hstep.rowOk.on n hn).isTree
  · refine hstep.cons hpids h₂ ?_
    intro n hn
    have hmin : minKeys st.pageSize rows₂ ≤ minInternalKeys st.pageSize := by
      have := minInternalKeys_ge h.pageSize
      unfold minKeys
      split <;> omega
    have hside := h.side n
    simp only [List.mem_append] at hn hside
    have hfull' : minInternalKeys st.pageSize ≤ n.entries.length ∧
        n.entries.length ≤ maxInternalKeys st.pageSize := by
      rcases hn with (hn | hn) | hn
      exacts [by simpa [InnerNode.Full, minKeys] using hside (.inl hn), hfull n hn,
        by simpa [InnerNode.Full, minKeys] using hside (.inr hn)]
    exact ⟨by omega, hfull'.2⟩

/-- The right neighbour is taken along. -/
theorem RowsAround.takeRight (h : RowsAround st free hs a [p] (r :: b) rest) :
    RowsAround st free hs a [p, r] b rest := by
  have happ : a ++ [p, r] ++ b = a ++ [p] ++ r :: b := by simp
  exact ⟨h.pageSize, h.freeList, happ ▸ h.upper, fun n hn => h.side n (by grind), h.occupied,
    happ ▸ h.nodup, happ ▸ h.held, h.isTree⟩

/-- The left neighbour is taken along. -/
theorem RowsAround.takeLeft (h : RowsAround st free hs (a ++ [l]) [p] b rest) :
    RowsAround st free hs a [l, p] b rest := by
  have happ : a ++ [l, p] ++ b = a ++ [l] ++ [p] ++ b := by simp
  exact ⟨h.pageSize, h.freeList, happ ▸ h.upper, fun n hn => h.side n (by grind), h.occupied,
    happ ▸ h.nodup, happ ▸ h.held, h.isTree⟩

/-- The right sibling of `p`, if there is one. -/
theorem Under.right_cases (hu : Under a [p] b a' q b' ka kb) :
    kb = [] ∨ ∃ r b₂ kb₂, b = r :: b₂ ∧ kb = r.head :: kb₂ ∧ Under a [p, r] b₂ a' q b' ka kb₂ := by
  cases kb with
  | nil => exact .inl rfl
  | cons y kb₂ =>
    obtain ⟨r, b₂, rfl, rfl, hb₂⟩ := List.map_eq_cons_iff.mp hu.right
    exact .inr ⟨r, b₂, kb₂, rfl, rfl, hu.left, hb₂, by simpa using hu.kids⟩

/-- The left sibling of `p`, if there is one. -/
theorem Under.left_cases (hu : Under a [p] b a' q b' ka kb) :
    ka = [] ∨ ∃ a₂ l ka₂, a = a₂ ++ [l] ∧ ka = ka₂ ++ [l.head] ∧
      Under a₂ [l, p] b a' q b' ka₂ kb := by
  obtain rfl | ⟨ka₂, z, rfl⟩ : ka = [] ∨ ∃ ka₂ z, ka = ka₂ ++ [z] := by
    rcases List.eq_nil_or_concat ka with hnil | ⟨ka₂, z, hcat⟩
    · exact .inl hnil
    · exact .inr ⟨ka₂, z, by simpa using hcat⟩
  · exact .inl rfl
  · have hleft := hu.left
    rw [← List.append_assoc] at hleft
    obtain ⟨a₂, t, rfl, ha₂, ht⟩ := List.map_eq_append_iff.mp hleft
    obtain ⟨l, rfl, rfl⟩ := List.map_eq_singleton_iff.mp ht
    exact .inr ⟨a₂, l, ka₂, rfl, rfl, ha₂, hu.right, by simpa using hu.kids⟩

end Row

/-! ## The steps of `fix_internal_underflow_latched` -/

section Fix

variable {st : Pager} {free : List Nat} {hs ka kb : List (Nat × Nat)}
  {a b a' b' : Row} {p q : InnerNode} {rest : List Row}

/-- Entries after a kid and before the next one. -/
theorem InnerNode.entries_get {n : InnerNode} {x y : Nat × Nat} (h : n.kids = ka ++ x :: y :: kb)
    (par : Nat) : (n.page par).entries[ka.length]? = some y := n.entry_of h

/-- The parent finds `p` among its kids. -/
theorem RowsAround.findChildIdx_eq (h : RowsAround st free hs a [p] b ((a' ++ q :: b') :: rest))
    (hu : Under a [p] b a' q b' ka kb) (par : Nat) :
    findChildIdx (q.page par) p.pid = some ka.length := by
  have hnd := (List.nodup_append.mp h.nodup).2.1
  rw [rowsPids_cons, ← map_snd_head] at hnd
  have hsub : q.kids.Sublist ((a ++ [p] ++ b).map InnerNode.head) := by
    rw [hu.kids, List.map_append, List.map_append, hu.left, hu.right]
    exact ((List.sublist_append_right _ _).append (List.Sublist.refl _)).append
      (List.sublist_append_left _ _)
  have hkids : q.kids = ka ++ p.head :: kb := by simpa using hu.kids
  have hndk := (List.nodup_append.mp hnd).1.sublist (hsub.map _)
  rw [hkids] at hndk
  exact q.findChildIdx_of hkids fun y hy => ne_of_nodup_map hndk y (List.mem_append_left _ hy)

/-- The outcome of trying to borrow: nothing was done, or the rows are repaired. -/
def Borrowed (st : Pager) (free : List Nat) (hs : List (Nat × Nat)) (rows : List Row)
    (m : PagerM Bool) (poor : Prop) : Prop :=
  (∃ st', m.run st = some (false, st') ∧ st.SameData st' ∧ poor) ∨
  ∃ st' rows', m.run st = some (true, st') ∧ UpperStep st free rows st' free hs rows'

theorem tryBorrowInternalRight_spec
    (h : RowsAround st free hs a [p] b ((a' ++ q :: b') :: rest))
    (hu : Under a [p] b a' q b' ka kb)
    (hlen : p.entries.length + 1 = minInternalKeys st.pageSize) :
    Borrowed st free hs ((a ++ [p] ++ b) :: (a' ++ q :: b') :: rest)
      (tryBorrowInternalRight q.pid p.pid ka.length (q.page (st.pages q.pid).parent)
        (p.page (st.pages p.pid).parent))
      (∀ r b₂ kb₂, b = r :: b₂ → kb = r.head :: kb₂ →
        r.entries.length ≤ minInternalKeys st.pageSize) := by
  have hmin := two_mul_minInternalKeys_le st.pageSize
  rcases hu.right_cases with rfl | ⟨r, b₂, kb₂, rfl, rfl, hu₂⟩
  · refine .inl ⟨st, ?_, .refl, by simp⟩
    have hlenq : (q.page (st.pages q.pid).parent).entries.length = ka.length := by
      have := congrArg List.length hu.kids
      simpa [InnerNode.kids, InnerNode.page] using this
    simp [tryBorrowInternalRight, hlenq]
  · have hsib := h.takeRight.siblings (by
      intro n hn
      simp only [List.mem_cons, List.not_mem_nil, or_false] at hn
      rcases hn with rfl | rfl
      · omega
      · exact (h.side n (by simp)).2)
    have hkids : q.kids = ka ++ p.head :: r.head :: kb₂ := by simpa using hu₂.kids
    have hget := q.entries_get hkids (st.pages q.pid).parent
    have hlt : ka.length < (q.page (st.pages q.pid).parent).entries.length := by
      rw [List.getElem?_eq_some_iff] at hget
      exact hget.1
    have hread : (readInternal r.pid).run ((st.log (.get r.pid)).log (.wlatch r.pid)) =
        some (r.page (st.pages r.pid).parent, (st.log (.get r.pid)).log (.wlatch r.pid)) :=
      run_readInternal (hsib.page_eq (by simp))
    by_cases hrich : minInternalKeys st.pageSize < r.entries.length
    · right
      obtain ⟨f, t, hft⟩ := List.exists_cons_of_length_pos (l := r.entries) (by omega)
      have hfirst : (r.page (st.pages r.pid).parent).entries[0]? = some f := by
        simp [InnerNode.page, hft]
      have herase : (r.page (st.pages r.pid).parent).entries.eraseIdx 0 = t := by
        simp [InnerNode.page, hft]
      set q' : InnerNode := { q with entries := q.entries.modify ka.length fun e => (f.1, e.2) }
      obtain ⟨hc₁, hc₂, hc₃⟩ := hsib.kid_ne (r.low, r.leftmost) (by simp [InnerNode.kids])
      have hlens : ∀ i ∈ [(⟨(st.pages p.pid).parent, p.leftmost,
          p.entries ++ [(r.low, r.leftmost)]⟩ : InternalPage), ⟨(st.pages r.pid).parent, f.2, t⟩,
          q'.page (st.pages q.pid).parent],
          i.entries.length ≤ maxInternalKeys st.pageSize := by
        have hlr := hsib.le r (by simp)
        have hlq := hsib.le q (by simp)
        have hrlen := congrArg List.length hft
        intro i hi
        simp only [List.mem_cons, List.not_mem_nil, or_false] at hi
        simp only [List.length_cons] at hrlen
        rcases hi with rfl | rfl | rfl
        · simp only [List.length_append, List.length_singleton]
          omega
        · simp only
          omega
        · simpa [InnerNode.page, q'] using hlq
      obtain ⟨st', hrun, hto⟩ := run_borrow ((st.log (.get r.pid)).log (.wlatch r.pid))
        p.pid r.pid q.pid r.leftmost h.pageSize hlens
        (by simpa using ⟨hc₁, hc₂, hc₃⟩) (hsib.isTree (r.low, r.leftmost) (by simp [InnerNode.kids]))
      have hto' : st.PagesTo _ st' := (Pager.PagesTo.refl.log.log).trans hto
      have hch := hsib.borrowRight q' hft rfl rfl hto'
      have hu₃ : Under a [{ p with entries := p.entries ++ [(r.low, r.leftmost)] },
          ⟨f.1, r.pid, f.2, t⟩] b₂ a' q' b' ka kb₂ :=
        ⟨hu₂.left, hu₂.right, by simpa [InnerNode.head] using
          show q'.kids = _ from q.kids_setKey hkids f.1⟩
      obtain ⟨hnext, hstep⟩ := h.takeRight.step hu₂ hu₃ hch (by
        have hrlen := congrArg List.length hft
        have hlr := hsib.le r (by simp)
        intro n hn
        simp only [List.mem_cons, List.not_mem_nil, or_false] at hn
        simp only [List.length_cons] at hrlen
        rcases hn with rfl | rfl
        · simp only [List.length_append, List.length_singleton]
          omega
        · simp only
          omega)
      have hdone := hnext.done (by
        have := h.occupied.1 q (by simp)
        intro n hn
        rw [List.mem_singleton] at hn
        rw [hn, hch.sameMeta.pageSize]
        simpa [InnerNode.Full, q'] using this)
      refine ⟨st', _, ?_, by simpa using hstep hdone⟩
      have hrich' : minInternalKeys st.pageSize < (r.page (st.pages r.pid).parent).entries.length :=
        hrich
      have hborrow : (borrowInternalRight q.pid p.pid r.pid ka.length r.low
          (q.page (st.pages q.pid).parent) (p.page (st.pages p.pid).parent)
          (r.page (st.pages r.pid).parent)).run ((st.log (.get r.pid)).log (.wlatch r.pid)) =
          some ((), st') := by
        simp only [borrowInternalRight, hfirst, herase]
        exact hrun
      simp only [tryBorrowInternalRight, if_pos hlt, hget]
      simp [InnerNode.head, hread, getPageSize, hrich', hborrow]
    · refine .inl ⟨((st.log (.get r.pid)).log (.wlatch r.pid)).log (.unlatchW r.pid), ?_,
        .trans .log (.trans .log .log), ?_⟩
      · have hrich' : ¬ minInternalKeys st.pageSize <
            (r.page (st.pages r.pid).parent).entries.length := hrich
        simp only [tryBorrowInternalRight, if_pos hlt, hget]
        simp [InnerNode.head, hread, getPageSize, hrich']
      · rintro r' b₃ kb₃ heq -
        obtain ⟨rfl, -⟩ := List.cons.inj heq
        omega

theorem tryBorrowInternalLeft_spec
    (h : RowsAround st free hs a [p] b ((a' ++ q :: b') :: rest))
    (hu : Under a [p] b a' q b' ka kb)
    (hlen : p.entries.length + 1 = minInternalKeys st.pageSize) :
    Borrowed st free hs ((a ++ [p] ++ b) :: (a' ++ q :: b') :: rest)
      (tryBorrowInternalLeft q.pid p.pid ka.length (q.page (st.pages q.pid).parent)
        (p.page (st.pages p.pid).parent))
      (∀ a₂ l ka₂, a = a₂ ++ [l] → ka = ka₂ ++ [l.head] →
        l.entries.length ≤ minInternalKeys st.pageSize) := by
  have hmin := two_mul_minInternalKeys_le st.pageSize
  rcases hu.left_cases with rfl | ⟨a₂, l, ka₂, rfl, rfl, hu₂⟩
  · exact .inl ⟨st, by simp [tryBorrowInternalLeft], .refl, by simp⟩
  · have hsib := h.takeLeft.siblings (by
      intro n hn
      simp only [List.mem_cons, List.not_mem_nil, or_false] at hn
      rcases hn with rfl | rfl
      · exact (h.side n (by simp)).2
      · omega)
    have hkids : q.kids = ka₂ ++ l.head :: p.head :: kb := by simpa using hu₂.kids
    have hget := q.entries_get hkids (st.pages q.pid).parent
    have hchild : (q.page (st.pages q.pid).parent).childAt ka₂.length = some l.pid :=
      q.childAt_of (st.pages q.pid).parent hkids
    have hread : (readInternal l.pid).run ((st.log (.get l.pid)).log (.wlatch l.pid)) =
        some (l.page (st.pages l.pid).parent, (st.log (.get l.pid)).log (.wlatch l.pid)) :=
      run_readInternal (hsib.page_eq (by simp))
    have hpos : (ka₂ ++ [l.head]).length > 0 := by simp
    have hpred : (ka₂ ++ [l.head]).length - 1 = ka₂.length := by simp
    by_cases hrich : minInternalKeys st.pageSize < l.entries.length
    · right
      obtain ⟨i, z, hiz⟩ : ∃ i z, l.entries = i ++ [z] := by
        have hne : l.entries ≠ [] := by
          rw [← List.length_pos_iff]
          omega
        exact ⟨_, _, (List.dropLast_append_getLast hne).symm⟩
      have hlast : (l.page (st.pages l.pid).parent).entries[
          (l.page (st.pages l.pid).parent).entries.length - 1]? = some z := by
        simp [InnerNode.page, hiz]
      have htake : (l.page (st.pages l.pid).parent).entries.take
          ((l.page (st.pages l.pid).parent).entries.length - 1) = i := by
        simp [InnerNode.page, hiz]
      set q' : InnerNode := { q with entries := q.entries.modify ka₂.length fun e => (z.1, e.2) }
      have hzl : z ∈ l.kids := by simp [InnerNode.kids, hiz]
      obtain ⟨hc₁, hc₂, hc₃⟩ := hsib.kid_ne z (List.mem_append_left _ hzl)
      have hlens : ∀ j ∈ [(⟨(st.pages p.pid).parent, z.2, (p.low, p.leftmost) :: p.entries⟩ :
          InternalPage), ⟨(st.pages l.pid).parent, l.leftmost, i⟩,
          q'.page (st.pages q.pid).parent],
          j.entries.length ≤ maxInternalKeys st.pageSize := by
        have hll := hsib.le l (by simp)
        have hlq := hsib.le q (by simp)
        have hllen := congrArg List.length hiz
        intro j hj
        simp only [List.mem_cons, List.not_mem_nil, or_false] at hj
        simp only [List.length_append, List.length_singleton] at hllen
        rcases hj with rfl | rfl | rfl
        · simp only [List.length_cons]
          omega
        · simp only
          omega
        · simpa [InnerNode.page, q'] using hlq
      obtain ⟨st', hrun, hto⟩ := run_borrow ((st.log (.get l.pid)).log (.wlatch l.pid))
        p.pid l.pid q.pid z.2 h.pageSize hlens
        (by simpa using ⟨hc₂, hc₁, hc₃⟩) (hsib.isTree z (List.mem_append_left _ hzl))
      have hto' : st.PagesTo _ st' := (Pager.PagesTo.refl.log.log).trans hto
      have hch := hsib.borrowLeft q' hiz rfl rfl hto'
      have hu₃ : Under a₂ [{ l with entries := i },
          ⟨z.1, p.pid, z.2, (p.low, p.leftmost) :: p.entries⟩] b a' q' b' ka₂ kb :=
        ⟨hu₂.left, hu₂.right, by simpa [InnerNode.head] using
          show q'.kids = _ from q.kids_setKey hkids z.1⟩
      obtain ⟨hnext, hstep⟩ := h.takeLeft.step hu₂ hu₃ hch (by
        have hllen := congrArg List.length hiz
        have hll := hsib.le l (by simp)
        intro n hn
        simp only [List.mem_cons, List.not_mem_nil, or_false] at hn
        simp only [List.length_append, List.length_singleton] at hllen
        rcases hn with rfl | rfl
        · simp only
          omega
        · simp only [List.length_cons]
          omega)
      have hdone := hnext.done (by
        have := h.occupied.1 q (by simp)
        intro n hn
        rw [List.mem_singleton] at hn
        rw [hn, hch.sameMeta.pageSize]
        simpa [InnerNode.Full, q'] using this)
      refine ⟨st', _, ?_, by simpa using hstep hdone⟩
      have hrich' : minInternalKeys st.pageSize < (l.page (st.pages l.pid).parent).entries.length :=
        hrich
      have hborrow : (borrowInternalLeft q.pid p.pid l.pid ka₂.length p.low
          (q.page (st.pages q.pid).parent) (p.page (st.pages p.pid).parent)
          (l.page (st.pages l.pid).parent)).run ((st.log (.get l.pid)).log (.wlatch l.pid)) =
          some ((), st') := by
        simp only [borrowInternalLeft, hlast, htake]
        exact hrun
      simp only [tryBorrowInternalLeft, if_pos hpos, hpred, hget, hchild]
      simp [InnerNode.head, hread, getPageSize, hrich', hborrow]
    · refine .inl ⟨((st.log (.get l.pid)).log (.wlatch l.pid)).log (.unlatchW l.pid), ?_,
        .trans .log (.trans .log .log), ?_⟩
      · have hrich' : ¬ minInternalKeys st.pageSize <
            (l.page (st.pages l.pid).parent).entries.length := hrich
        simp only [tryBorrowInternalLeft, if_pos hpos, hpred, hget, hchild]
        simp [hread, getPageSize, hrich']
      · rintro a₃ l' ka₃ heq -
        obtain ⟨-, heq⟩ := List.append_inj' heq rfl
        obtain ⟨rfl, -⟩ := List.cons.inj heq
        omega

/-- What a merge of the siblings `l` and `r` leaves to do: the parent has lost an entry. -/
def Merged (st : Pager) (free : List Nat) (hs : List (Nat × Nat)) (row a' : Row) (q : InnerNode)
    (b' : Row) (rest : List Row) (st' : Pager) : Prop :=
  ∃ free' hs' q', st'.pageSize = st.pageSize ∧ q'.head = q.head ∧
    q.entries.length = q'.entries.length + 1 ∧ RowsAround st' free' hs' a' [q'] b' rest ∧
    ∀ {st₂ : Pager} {free₂ : List Nat} {rows₂ : List Row},
      UpperStep st' free' ((a' ++ [q'] ++ b') :: rest) st₂ free₂ hs' rows₂ →
      ∃ row', UpperStep st free (row :: (a' ++ q :: b') :: rest) st₂ free₂ hs (row' :: rows₂)

/-- The two merges of `fix_internal_underflow_latched`. -/
theorem RowsAround.merge {l r : InnerNode} (u v : Nat) (st₁ : Pager)
    (h : RowsAround st free hs a [l, r] b ((a' ++ q :: b') :: rest))
    (hu : Under a [l, r] b a' q b' ka kb)
    (hlow : minInternalKeys st.pageSize ≤ l.entries.length + r.entries.length + 1)
    (hup : l.entries.length + r.entries.length < maxInternalKeys st.pageSize)
    (hs₁ : st.SameData st₁) :
    ∃ st', StateT.run (do
        appendInternal l.pid (l.page (st.pages l.pid).parent) r.low
          (r.page (st.pages r.pid).parent)
        deleteEntryFromInternal q.pid (q.page (st.pages q.pid).parent) ka.length
        pagerMarkDirty q.pid
        pagerUnpin q.pid
        pagerUnpin u
        pagerUnlatchW v
        pagerFreePage r.pid) st₁ = some ((), st') ∧
      Merged st free hs (a ++ [l, r] ++ b) a' q b' rest st' := by
  have hsib := h.siblings (by
    intro n hn
    simp only [List.mem_cons, List.not_mem_nil, or_false] at hn
    rcases hn with rfl | rfl <;> omega)
  have hkids : q.kids = ka ++ l.head :: r.head :: kb := by simpa using hu.kids
  obtain ⟨st', hrun, hmeta, hroot, hfree, hheld, hpages⟩ :=
    (hsib.sameData hs₁).run_merge ka.length u v
      (by rw [hs₁.pageSize]; exact hup)
  rw [hs₁.pages] at hrun hpages
  set q' : InnerNode := { q with entries := q.entries.eraseIdx ka.length }
  set m : InnerNode := { l with entries := l.entries ++ (r.low, r.leftmost) :: r.entries }
  have hch := hsib.merge q' rfl rfl (hs₁.pagesTo.sameMeta.trans hmeta)
    (by rw [hroot, hs₁.header]) hfree (fun p => by rw [hheld, hs₁.held]) hpages
  have hu' : Under a [m] b a' q' b' ka kb :=
    ⟨hu.left, hu.right, by simpa [InnerNode.head, m] using
      show q'.kids = _ from q.kids_eraseIdx hkids⟩
  obtain ⟨hnext, hstep⟩ := h.step hu hu' hch (by
    intro n hn
    rw [List.mem_singleton] at hn
    subst hn
    simp only [m, List.length_append, List.length_cons]
    omega)
  have hlen : q.entries.length = q'.entries.length + 1 := by
    have hlt : ka.length < q.entries.length := by
      have hget := q.entry_of hkids
      rw [List.getElem?_eq_some_iff] at hget
      exact hget.1
    rw [List.length_eraseIdx_of_lt hlt]
    omega
  refine ⟨st', hrun, r.pid :: free, _, q', ?_, rfl, hlen, hnext, fun h₂ => ⟨_, hstep h₂⟩⟩
  rw [hmeta.pageSize, hs₁.pageSize]

/-- A node without siblings to borrow from is merged with one of them. -/
theorem mergeInternal_spec
    (h : RowsAround st free hs a [p] b ((a' ++ q :: b') :: rest))
    (hu : Under a [p] b a' q b' ka kb)
    (hlen : p.entries.length + 1 = minInternalKeys st.pageSize)
    (hright : ∀ r b₂ kb₂, b = r :: b₂ → kb = r.head :: kb₂ →
      r.entries.length ≤ minInternalKeys st.pageSize)
    (hleft : ∀ a₂ l ka₂, a = a₂ ++ [l] → ka = ka₂ ++ [l.head] →
      l.entries.length ≤ minInternalKeys st.pageSize) :
    ∃ st', (mergeInternal q.pid p.pid ka.length (q.page (st.pages q.pid).parent)
        (p.page (st.pages p.pid).parent)).run st = some ((), st') ∧
      Merged st free hs (a ++ [p] ++ b) a' q b' rest st' := by
  have hmin := two_mul_minInternalKeys_le st.pageSize
  have hge := minInternalKeys_ge h.pageSize
  rcases hu.left_cases with rfl | ⟨a₂, l, ka₂, rfl, rfl, hu₂⟩
  · -- on the left edge of the parent: merge with the right sibling
    obtain rfl | ⟨r, b₂, kb₂, rfl, rfl, hu₂⟩ := hu.right_cases
    · -- the parent has at least one entry
      have hq := (h.occupied.1 q (by simp)).1
      have hqlen := congrArg List.length hu.kids
      have hpos : 1 ≤ minKeys st.pageSize rest := by
        unfold minKeys
        split <;> omega
      simp only [InnerNode.kids, List.length_cons, List.length_append, List.length_map,
        List.length_nil] at hqlen
      omega
    · have hrr := hright r b₂ kb₂ rfl rfl
      set st₁ := (st.log (.get r.pid)).log (.wlatch r.pid)
      have hfull := (h.side r (by simp)).1
      obtain ⟨st', hrun, hmerged⟩ := h.takeRight.merge p.pid r.pid st₁ hu₂
        (by omega) (by omega) (.trans .log .log)
      refine ⟨st', ?_, by simpa using hmerged⟩
      have hkids : q.kids = [] ++ p.head :: r.head :: kb₂ := by simpa using hu₂.kids
      have hget := q.entries_get hkids (st.pages q.pid).parent
      have hread : (readInternal r.pid).run st₁ = some (r.page (st.pages r.pid).parent, st₁) :=
        run_readInternal (h.upper.1.on r (by simp)).eq
      simp only [List.length_nil] at hget hrun
      simp only [mergeInternal, List.length_nil, lt_irrefl, if_false, hget]
      simp only [StateT.run_bind, run_pagerGetPageWlatch, Option.bind_eq_bind, Option.bind_some,
        InnerNode.head]
      rw [hread]
      exact hrun
  · -- merge with the left sibling
    have hll := hleft a₂ l ka₂ rfl rfl
    set st₁ := (st.log (.get l.pid)).log (.wlatch l.pid)
    obtain ⟨st', hrun, hmerged⟩ := h.takeLeft.merge p.pid l.pid st₁ hu₂
      (by omega) (by omega) (.trans .log .log)
    refine ⟨st', ?_, by simpa using hmerged⟩
    have hkids : q.kids = ka₂ ++ l.head :: p.head :: kb := by simpa using hu₂.kids
    have hget := q.entries_get hkids (st.pages q.pid).parent
    have hchild : (q.page (st.pages q.pid).parent).childAt ka₂.length = some l.pid :=
      q.childAt_of (st.pages q.pid).parent hkids
    have hread : (readInternal l.pid).run st₁ = some (l.page (st.pages l.pid).parent, st₁) :=
      run_readInternal (h.upper.1.on l (by simp)).eq
    have hpos : (ka₂ ++ [l.head]).length > 0 := by simp
    have hpred : (ka₂ ++ [l.head]).length - 1 = ka₂.length := by simp
    simp only [mergeInternal, if_pos hpos, hpred, hget, hchild]
    simp only [StateT.run_bind, run_pagerGetPageWlatch, Option.bind_eq_bind, Option.bind_some,
      InnerNode.head]
    rw [hread]
    exact hrun

end Fix

/-! ## All rows -/

/-- The root page is in the top row. -/
theorem Upper.root_mem {g : Nat → Page} {root : Nat} :
    ∀ {rows : List Row} {hs : List (Nat × Nat)}, Upper g root hs rows → rows ≠ [] →
      root ∈ rowsPids rows
  | [], _, _, hne => absurd rfl hne
  | [row], _, ⟨_, htop, _⟩, _ => by
    have hmem : (0, root) ∈ row.map InnerNode.head := by simp [htop]
    obtain ⟨n, hn, heq⟩ := List.mem_map.mp hmem
    have hpid : n.pid = root := congrArg Prod.snd heq
    simp only [rowsPids_cons, rowsPids_nil, List.append_nil]
    exact hpid ▸ List.mem_map_of_mem hn
  | row :: row' :: rest, _, ⟨_, hrest⟩, _ => by
    rw [rowsPids_cons]
    exact List.mem_append_right _ (hrest.root_mem (by simp))

/-- The root shrinks if it has run out of entries. -/
theorem shrinkRoot_spec {st : Pager} {free : List Nat} {hs : List (Nat × Nat)} {p : InnerNode}
    (h : RowsAround st free hs [] [p] [] []) (hle : p.entries.length ≤ maxInternalKeys st.pageSize) :
    ∃ st' free' rows', (shrinkRoot p.pid).run st = some ((), st') ∧
      UpperStep st free [[p]] st' free' hs rows' := by
  have hread : (readInternal p.pid).run (st.log (.get p.pid)) =
      some (p.page (st.pages p.pid).parent, st.log (.get p.pid)) :=
    run_readInternal (h.upper.1.on p (by simp)).eq
  by_cases hempty : p.entries = []
  · set st₁ := (st.log (.get p.pid)).log (.unpin p.pid)
    have hs₁ : st.SameData st₁ := .trans .log .log
    obtain ⟨st₂, hrun₂, hfr⟩ := pagerFreePage_spec (hs₁.freeList h.freeList)
      ((hs₁.held p.pid).mpr (h.held p.pid (by simp)))
    set st₃ := st₂.setHeader { st₂.header with rootIndexPageId := p.leftmost }
    have hkid : (p.low, p.leftmost) ∈ hs := by
      rw [← h.upper.1.kids]
      simp [InnerNode.kids]
    have hne : p.leftmost ≠ p.pid := by
      intro heq
      exact (List.nodup_append.mp h.nodup).2.2 p.leftmost (List.mem_map_of_mem hkid) p.pid (by simp)
        heq
    obtain ⟨st₄, hrun₄, hto⟩ := run_updateChildParentPage st₃ p.leftmost 0 (by
        show (st₂.pages p.leftmost).IsTree
        rw [hfr.pages _ hne]
        exact h.isTree _ hkid)
    have hheld₃ : ∀ q, st₃.Held (p.pid :: free) q ↔ st.Held free q ∧ q ≠ p.pid := fun q =>
      (hfr.held q).trans (by rw [hs₁.held])
    have hfree₄ : st₄.FreeList (p.pid :: free) := by
      refine hto.freeList (hfr.freeList.congr (fun _ _ => rfl) rfl rfl) fun q hq => ?_
      refine reparented_of_not_mem ?_
      rw [List.mem_singleton]
      rintro rfl
      have hheld := h.held p.leftmost (List.mem_append_left _ (List.mem_map_of_mem hkid))
      exact ((hheld₃ _).mpr ⟨hheld, hne⟩).not_mem hq
    refine ⟨st₄, p.pid :: free, [], ?_, h.shrink hempty ?_ ?_ hfree₄ ?_ ?_⟩
    · have hlen : (p.page (st.pages p.pid).parent).entries.length = 0 := by
        simp [InnerNode.page, hempty]
      simp only [shrinkRoot, StateT.run_bind, run_pagerGetPage, Option.bind_eq_bind,
        Option.bind_some, hread, hlen, if_true, run_pagerUnpin]
      rw [show (pagerFreePage p.pid).run ((st.log (.get p.pid)).log (.unpin p.pid)) = _ from hrun₂]
      exact hrun₄
    · exact hs₁.pagesTo.sameMeta.trans (hfr.sameMeta.trans (Pager.SameMeta.setRoot.trans
        hto.sameMeta))
    · rw [hto.header]
      rfl
    · exact fun q => (hto.held q).trans (hheld₃ q)
    · intro q hq
      rw [hto.pages]
      by_cases hql : q = p.leftmost
      · subst hql
        rw [reparented_of_mem (by simp), reparented_of_mem (by simp)]
        exact congrArg (·.withParent 0) (hfr.pages _ hq)
      · rw [reparented_of_not_mem (by simpa using hql), reparented_of_not_mem (by simpa using hql)]
        exact hfr.pages q hq
  · have hpos : 1 ≤ p.entries.length := List.length_pos_iff.mpr hempty
    have hdone := h.done (by
      intro n hn
      rw [List.mem_singleton] at hn
      subst hn
      exact ⟨hpos, hle⟩)
    refine ⟨(st.log (.get p.pid)).log (.unpin p.pid), free, _, ?_,
      hdone.sameData (.trans .log .log)⟩
    simp [shrinkRoot, hread, InnerNode.page, hempty]

/-- **`propagate_delete` repairs the rows above a merge**, and every node it repairs has a parent. -/
theorem propagateDeleteChecked_spec (stack : List Nat) :
    ∀ (parents : List Nat) {rest : List Row} {st : Pager} {free : List Nat}
      {hs : List (Nat × Nat)} {a b : Row} {p : InnerNode}, RowsAround st free hs a [p] b rest →
      p.entries.length ≤ maxInternalKeys st.pageSize →
      (rest ≠ [] → minInternalKeys st.pageSize ≤ p.entries.length + 1) →
      (minInternalKeys st.pageSize ≤ p.entries.length ∨ Ancestors (·.Safe st.pageSize false)
        (a.map InnerNode.head) p.head (b.map InnerNode.head) rest parents) →
      ∃ st' free' rows', (propagateDeleteChecked stack (p.pid :: parents)).run st = some ((), st') ∧
        UpperStep st free ((a ++ [p] ++ b) :: rest) st' free' hs rows' := by
  intro parents rest
  induction rest generalizing parents with
  | nil =>
    intro st free hs a b p h hle _ _
    obtain ⟨n, hrow, -, hroot⟩ := h.upper.single rfl
    obtain ⟨rfl, rfl, rfl⟩ : a = [] ∧ p = n ∧ b = [] := by
      cases a with
      | nil => simpa using hrow
      | cons y a => simp at hrow
    obtain ⟨st₁, free₁, rows', hrun₁, hup⟩ := shrinkRoot_spec h hle
    obtain ⟨st₂, hrun₂, hsame⟩ := run_lsReleaseAll stack st₁
    refine ⟨st₂, free₁, rows', ?_, hup.sameData hsame⟩
    simp [propagateDeleteChecked, rootId, ← hroot, hrun₁, hrun₂]
  | cons row rest ih =>
    intro st free hs a b p h hle hlack hanc
    have hnotroot : p.pid ≠ st.header.rootIndexPageId := by
      intro heq
      have hmem := h.upper.2.root_mem (by simp)
      rw [← heq] at hmem
      have hnd := (List.nodup_append.mp h.nodup).2.1
      rw [rowsPids_cons] at hnd
      exact (List.nodup_append.mp hnd).2.2 p.pid (by simp) p.pid hmem rfl
    have hread : (readInternal p.pid).run (st.log (.get p.pid)) =
        some (p.page (st.pages p.pid).parent, st.log (.get p.pid)) :=
      run_readInternal (h.upper.1.on p (by simp)).eq
    set st₁ := (st.log (.get p.pid)).log (.unpin p.pid)
    have hs₁ : st.SameData st₁ := .trans .log .log
    by_cases hfull : minInternalKeys st.pageSize ≤ p.entries.length
    · -- still at least half full
      obtain ⟨st₂, hrun₂, hs₂⟩ := run_lsReleaseAll stack st₁
      have hdone := h.done (by
        intro n hn
        rw [List.mem_singleton] at hn
        subst hn
        exact ⟨by simpa [minKeys] using hfull, hle⟩)
      refine ⟨st₂, free, _, ?_, hdone.sameData (hs₁.trans hs₂)⟩
      have hfull' : minInternalKeys st.pageSize ≤ (p.page (st.pages p.pid).parent).entries.length :=
        hfull
      simp [propagateDeleteChecked, rootId, hnotroot, hread, getPageSize, hfull', hrun₂, st₁]
    · -- `p` lacks one entry
      have hlen : p.entries.length + 1 = minInternalKeys st.pageSize := by
        have := hlack (by simp)
        omega
      rcases hanc with hmin | ⟨a', q, b', ka, kb, above', rfl, hkids, hha, hhb, rfl, hsafe⟩
      · exact absurd hmin hfull
      have hu : Under a [p] b a' q b' ka kb := ⟨hha, hhb, by simpa using hkids⟩
      have hlt : ¬ minInternalKeys st.pageSize ≤ (p.page (st.pages p.pid).parent).entries.length :=
        hfull
      -- the descent into `fix_internal_underflow_latched`
      set st₂ := st₁.log (.get q.pid)
      have hs₂ : st.SameData st₂ := hs₁.trans .log
      have h₂ := h.sameData hs₂
      have hidx := h.findChildIdx_eq hu (st.pages q.pid).parent
      have hfix : (propagateDeleteChecked stack (p.pid :: q.pid :: above')).run st = StateT.run (do
          if ← tryBorrowInternalRight q.pid p.pid ka.length (q.page (st.pages q.pid).parent)
              (p.page (st.pages p.pid).parent) then
            lsReleaseAll stack
          else if ← tryBorrowInternalLeft q.pid p.pid ka.length (q.page (st.pages q.pid).parent)
              (p.page (st.pages p.pid).parent) then
            lsReleaseAll stack
          else
            mergeInternal q.pid p.pid ka.length (q.page (st.pages q.pid).parent)
              (p.page (st.pages p.pid).parent)
            propagateDeleteChecked stack (q.pid :: above')) st₂ := by
        have hreadq : (readInternal q.pid).run st₂ =
            some (q.page (st.pages q.pid).parent, st₂) :=
          run_readInternal (h.upper.2.1.on q (by simp)).eq
        have hreadp : (readInternal p.pid).run st₂ =
            some (p.page (st.pages p.pid).parent, st₂) :=
          run_readInternal (h.upper.1.on p (by simp)).eq
        rw [propagateDeleteChecked]
        simp only [fixInternalUnderflowLatchedChecked, StateT.run_bind, run_rootId,
          Option.bind_eq_bind, Option.bind_some]
        rw [if_neg hnotroot]
        simp only [StateT.run_bind, run_pagerGetPage, Option.bind_eq_bind, Option.bind_some, hread,
          run_pagerUnpin, run_getPageSize, Pager.log_pageSize, hlt, ↓reduceIte]
        rw [show ((st.log (.get p.pid)).log (.unpin p.pid)).log (.get q.pid) = st₂ from rfl]
        simp only [hreadq, hreadp, Option.bind_some, hidx]
        rfl
      have hbr := tryBorrowInternalRight_spec h₂ hu (by rw [hs₂.pageSize]; exact hlen)
      rw [hs₂.pages] at hbr
      rcases hbr with ⟨st₃, hrun₃, hs₃, hright⟩ | ⟨st₃, rows', hrun₃, hup⟩
      swap
      · -- borrowed from the right
        obtain ⟨st₄, hrun₄, hs₄⟩ := run_lsReleaseAll stack st₃
        refine ⟨st₄, free, rows', ?_, UpperStep.ofSameData hs₂ (hup.sameData hs₄)⟩
        rw [hfix, StateT.run_bind, hrun₃]
        exact hrun₄
      have hs₃' := hs₂.trans hs₃
      have h₃ := h.sameData hs₃'
      have hbl := tryBorrowInternalLeft_spec h₃ hu (by rw [hs₃'.pageSize]; exact hlen)
      rw [hs₃'.pages] at hbl
      rcases hbl with ⟨st₄, hrun₄, hs₄, hleft⟩ | ⟨st₄, rows', hrun₄, hup⟩
      swap
      · -- borrowed from the left
        obtain ⟨st₅, hrun₅, hs₅⟩ := run_lsReleaseAll stack st₄
        refine ⟨st₅, free, rows', ?_, UpperStep.ofSameData hs₃' (hup.sameData hs₅)⟩
        rw [hfix]
        simp only [StateT.run_bind, hrun₃, Option.bind_eq_bind, Option.bind_some, hrun₄,
          Bool.false_eq_true, ↓reduceIte, hrun₅]
      -- merged, and the parent has lost an entry
      have hs₄' := hs₃'.trans hs₄
      have h₄ := h.sameData hs₄'
      rw [hs₃'.pageSize] at hleft
      rw [hs₂.pageSize] at hright
      have hmg := mergeInternal_spec h₄ hu (by rw [hs₄'.pageSize]; exact hlen)
        (by rw [hs₄'.pageSize]; exact hright) (by rw [hs₄'.pageSize]; exact hleft)
      rw [hs₄'.pages] at hmg
      obtain ⟨st₅, hrun₅, free₅, hs₅, q', hps₅, hhead, hqlen, hnext, hstep⟩ := hmg
      have hps : st₅.pageSize = st.pageSize := by rw [hps₅, hs₄'.pageSize]
      have hpid : q'.pid = q.pid := congrArg Prod.snd hhead
      have hqfull := h.occupied.1 q (by simp)
      obtain ⟨st₆, free₆, rows₆, hrun₆, hup₆⟩ := ih above' hnext
        (by rw [hps]; have := hqfull.2; omega)
        (fun hne => by
          have := hqfull.1
          simp only [minKeys, if_neg hne] at this
          rw [hps]
          omega)
        (by
          rw [hps, hhead]
          rcases hsafe with ⟨hsf, -⟩ | ⟨-, hanc'⟩
          · simp only [InnerNode.Safe, Bool.false_eq_true, if_false] at hsf
            exact .inl (by omega)
          · exact .inr hanc')
      obtain ⟨row', hup'⟩ := hstep hup₆
      refine ⟨st₆, free₆, row' :: rows₆, ?_, UpperStep.ofSameData hs₄' hup'⟩
      rw [hpid] at hrun₆
      rw [hfix]
      simp only [StateT.run_bind, hrun₃, Option.bind_eq_bind, Option.bind_some, hrun₄,
        Bool.false_eq_true, ↓reduceIte, hrun₅, hrun₆]

end MiniDb
