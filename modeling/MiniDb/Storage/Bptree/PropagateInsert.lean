import MiniDb.Storage.Bptree.Update

/-! # Insertion above the leaves

`propagate_insert` climbs the latch stack with a separator and a new right neighbour for the node it
comes from, until a parent has room or a new root is made. One round changes one row
(`PendingInsert.fit`, `PendingInsert.split`, `PendingInsert.grow`); `propagateInsertChecked_spec` is the
induction over the rows. -/

set_option autoImplicit false

namespace MiniDb

open Lib

section Propagate

variable {st : Pager} {free : List Nat} {k r : Nat}

/-- What `growRoot` leaves behind, unless there is no page for the new root. -/
theorem growRoot_spec (old k r : Nat) (hps : 4096 ≤ st.pageSize) (hfree : st.FreeList free)
    (htree : ∀ p ∈ [old, r], (st.pages p).IsTree) (hheld : ∀ p ∈ [old, r], st.Held free p) :
    (∃ st' free' new, (growRoot old k r).run st = some ((), st') ∧
      st.Extended free new st' free' ∧ st'.header.rootIndexPageId = new ∧
      st'.pages = reparented (Function.update st.pages new (.internal ⟨0, old, [(k, r)]⟩))
        [old, r] new) ∨
    (¬ st.HasRoom free 1 ∧ (growRoot old k r).run st = none) := by
  obtain ⟨new, st₁, free', hrun₁, hall⟩ | ⟨hroom, hnone⟩ := pagerAllocPage_spec hfree
  case inr => exact .inr ⟨hroom, by rw [growRoot, run_bind_none hnone]⟩
  left
  set page : Page := .internal ⟨0, old, [(k, r)]⟩
  have hne : ∀ p ∈ [old, r], p ≠ new := by
    rintro p hp rfl
    exact hall.not_held (hheld p hp)
  have hfit : 1 ≤ maxInternalKeys st.pageSize := by
    have := minInternalKeys_ge hps
    have := two_mul_minInternalKeys_le st.pageSize
    omega
  have hhdr : internalHeaderSize ≤ st.pageSize := by
    simp only [internalHeaderSize]
    omega
  set st₂ := (((st₁.log (.get new)).setPage new page).log (.markDirty new)).log (.unpin new)
  have h₂ : st₁.PagesTo (Function.update st.pages new page) st₂ := by
    have hto : st₁.PagesTo (Function.update st₁.pages new page) st₂ :=
      ((Pager.PagesTo.refl.log.setPage).log).log
    rwa [hall.pages, Function.update_idem] at hto
  have htree₂ : ∀ p ∈ [old, r], (st₂.pages p).IsTree := by
    intro p hp
    rw [h₂.pages, Function.update_of_ne (hne p hp)]
    exact htree p hp
  obtain ⟨st₃, hrun₃, h₃⟩ := run_updateChildParentPage st₂ old new (htree₂ old (by simp))
  obtain ⟨st₄, hrun₄, h₄⟩ := run_updateChildParentPage st₃ r new (by
    rw [h₃.pages, reparented_sameBody.isTree]
    exact htree₂ r (by simp))
  rw [h₃.pages, reparented_reparented, h₂.pages] at h₄
  refine ⟨st₄.setHeader { st₄.header with rootIndexPageId := new }, free', new, ?_, ?_, rfl,
    h₄.pages⟩
  · have hwrite : (writeInternal new ⟨0, old, [(k, r)]⟩).run (st₁.log (.get new)) =
        some ((), (st₁.log (.get new)).setPage new page) :=
      run_writeInternal (by simpa [hall.pageSize] using hhdr) (by simpa [hall.pageSize] using hfit)
    simp [growRoot, hrun₁, hwrite, hrun₃, hrun₄, st₂]
  · refine (hall.extended.pagesTo (h₂.trans (h₃.trans h₄)) fun p hp => ?_).setRoot
    rw [hall.held, not_or] at hp
    have hnot : p ∉ [old, r] := fun hmem => hp.1 (hheld p hmem)
    rw [reparented_of_not_mem hnot, hall.pages, Function.update_of_ne hp.2,
      Function.update_of_ne hp.2]

/-- What `splitInternal` leaves behind: the page `p` keeps `l₁`, the new page takes `l₂` with the
child of the promoted entry `m` leftmost. -/
theorem splitInternal_spec (st : Pager) (p : Nat) (iph : InternalPage) {idx : Nat}
    {l₁ l₂ : List (Nat × Nat)} {m : Nat × Nat} (hps : 4096 ≤ st.pageSize) (hfree : st.FreeList free)
    (hidx : internalFind iph.entries k = idx)
    (hlen : iph.entries.length ≤ maxInternalKeys st.pageSize)
    (htmp : insertAt iph.entries idx (k, r) = l₁ ++ m :: l₂)
    (hmid : l₁.length = (l₁ ++ m :: l₂).length / 2) (hp : st.Held free p)
    (hkids : ∀ c ∈ r :: m.2 :: l₂.map Prod.snd, (st.pages c).IsTree ∧ st.Held free c ∧ c ≠ p) :
    (∃ st' free' new, (splitInternal p iph k r).run st = some ((m.1, new), st') ∧
      st.Extended free new st' free' ∧
      st'.header.rootIndexPageId = st.header.rootIndexPageId ∧
      st'.pages = Function.update
        (reparented (Function.update (reparented st.pages [r] p) new
          (.internal ⟨iph.parentPageId, m.2, l₂⟩)) (m.2 :: l₂.map Prod.snd) new)
        p (.internal { iph with entries := l₁ })) ∨
    (¬ st.HasRoom free 1 ∧ (splitInternal p iph k r).run st = none) := by
  have hlen' : (l₁ ++ m :: l₂).length = iph.entries.length + 1 := by
    rw [← htmp]
    simp [insertAt]
    omega
  have hlens : l₁.length ≤ maxInternalKeys st.pageSize ∧ l₂.length ≤ maxInternalKeys st.pageSize := by
    simp only [List.length_append, List.length_cons] at hlen' hmid
    omega
  have hhdr : internalHeaderSize ≤ st.pageSize := by
    simp only [internalHeaderSize]
    omega
  -- the new kid moves under `p`
  obtain ⟨st₁, hrun₁, h₁⟩ := run_updateChildParentPage st r p (hkids r (by simp)).1
  have hfree₁ : st₁.FreeList free := h₁.freeList hfree fun q hq =>
    reparented_of_not_mem fun hmem => by
      rw [List.mem_singleton] at hmem
      subst hmem
      exact (hkids q (by simp)).2.1.not_mem hq
  have hpromote : (l₁ ++ m :: l₂)[(l₁ ++ m :: l₂).length / 2]? = some m := by
    rw [← hmid]
    simp
  -- the new page
  obtain ⟨new, st₂, free', hrun₂, hall⟩ | ⟨hroom, hnone⟩ := pagerAllocPage_spec hfree₁
  case inr =>
    refine .inr ⟨fun h => hroom (h₁.hasRoom.mpr h), ?_⟩
    rw [splitInternal, run_bind_of hrun₁]
    simp only [hidx, htmp, hpromote]
    exact run_bind_none hnone
  left
  have hnew : ¬ st.Held free new := fun h => hall.not_held ((h₁.held new).mpr h)
  set page : Page := .internal ⟨iph.parentPageId, m.2, l₂⟩
  set st₃ := ((st₂.log (.get new)).setPage new page).log (.markDirty new)
  have h₃ : st₂.PagesTo (Function.update (reparented st.pages [r] p) new page) st₃ := by
    have hto : st₂.PagesTo (Function.update st₂.pages new page) st₃ :=
      (Pager.PagesTo.refl.log.setPage).log
    rwa [hall.pages, Function.update_idem, h₁.pages] at hto
  have htree₃ : ∀ c ∈ m.2 :: l₂.map Prod.snd, (st₃.pages c).IsTree := by
    intro c hc
    obtain ⟨ht, hh, -⟩ := hkids c (List.mem_cons_of_mem _ hc)
    have hne : c ≠ new := by
      rintro rfl
      exact hnew hh
    rw [h₃.pages, Function.update_of_ne hne, reparented_sameBody.isTree]
    exact ht
  -- the moved kids
  obtain ⟨st₄, hrun₄, h₄⟩ := run_updateChildParentPage st₃ m.2 new (htree₃ m.2 (by simp))
  obtain ⟨st₅, hrun₅, h₅⟩ := run_forM_updateChildParentPage new l₂ st₄ (by
    intro c hc
    rw [h₄.pages, reparented_sameBody.isTree]
    exact htree₃ c.2 (List.mem_cons_of_mem _ (List.mem_map_of_mem hc)))
  rw [h₄.pages, reparented_reparented, h₃.pages] at h₅
  -- the lower half stays
  set lower : Page := .internal { iph with entries := l₁ }
  set st₆ := (((st₅.setPage p lower).log (.markDirty p)).log (.unpin p)).log (.unpin new)
  have h₆ : st₅.PagesTo (Function.update st₅.pages p lower) st₆ :=
    (((Pager.PagesTo.refl.setPage).log).log).log
  rw [h₅.pages] at h₆
  have hto : st₂.PagesTo _ st₆ := h₃.trans (h₄.trans (h₅.trans h₆))
  refine ⟨st₆, free', new, ?_, ?_, ?_, hto.pages⟩
  · have hsize₂ : st₂.pageSize = st.pageSize := by rw [hall.pageSize, h₁.pageSize]
    have hsize₅ : st₅.pageSize = st.pageSize := by
      rw [h₅.pageSize, h₄.pageSize, h₃.pageSize, hsize₂]
    have hwrite : (writeInternal new ⟨iph.parentPageId, m.2, l₂⟩).run (st₂.log (.get new)) =
        some ((), (st₂.log (.get new)).setPage new page) :=
      run_writeInternal (by simpa [hsize₂] using hhdr) (by simpa [hsize₂] using hlens.2)
    have hwrite' : (writeInternal p { iph with entries := l₁ }).run st₅ =
        some ((), st₅.setPage p lower) :=
      run_writeInternal (by simpa [hsize₅] using hhdr) (by simpa [hsize₅] using hlens.1)
    have htake : (l₁ ++ m :: l₂).take ((l₁ ++ m :: l₂).length / 2) = l₁ := by
      rw [← hmid]
      simp
    have hdrop : (l₁ ++ m :: l₂).drop ((l₁ ++ m :: l₂).length / 2 + 1) = l₂ := by
      rw [← hmid]
      simp [List.drop_append]
    simp only [splitInternal, hidx, htmp, hpromote, htake, hdrop]
    simp [hrun₁, hrun₂, hwrite, hrun₄, hrun₅, hwrite', st₃, st₆]
  · have hex := hall.extended.pagesTo hto fun q hq => ?_
    · exact ⟨h₁.sameMeta.trans hex.sameMeta, hex.freeList, hex.ne_zero, hnew,
        fun q => by rw [hex.held, h₁.held], fun n hroom => hex.room n (h₁.hasRoom.mpr hroom)⟩
    · rw [hall.held, h₁.held, not_or] at hq
      have hnot : q ∉ r :: m.2 :: l₂.map Prod.snd := fun hmem => hq.1 (hkids q hmem).2.1
      have hnot' : q ∉ m.2 :: l₂.map Prod.snd := fun hmem => hnot (List.mem_cons_of_mem _ hmem)
      have hqp : q ≠ p := fun h => hq.1 (h ▸ hp)
      rw [Function.update_of_ne hqp, reparented_of_not_mem hnot', Function.update_of_ne hq.2,
        hall.pages, Function.update_of_ne hq.2, h₁.pages]
  · rw [hto.header, hall.header, h₁.header]

/-! ### One row -/

/-- The situation of `propagate_insert`: `(k, r)` has been split off the head `x` and is still
missing from the rows above. -/
structure PendingInsert (st : Pager) (free : List Nat) (k r : Nat) (ha : List (Nat × Nat))
    (x : Nat × Nat) (hb : List (Nat × Nat)) (rows : List Row) : Prop where
  pageSize : 4096 ≤ st.pageSize
  freeList : st.FreeList free
  upper : Upper st.pages st.header.rootIndexPageId (ha ++ x :: hb) rows
  occupied : Occupied st.pageSize rows
  increasing : Increasing (ha ++ x :: (k, r) :: hb)
  nodup : ((ha ++ x :: (k, r) :: hb).map Prod.snd ++ rowsPids rows).Nodup
  held : ∀ q ∈ (ha ++ x :: (k, r) :: hb).map Prod.snd ++ rowsPids rows, st.Held free q
  isTree : ∀ c ∈ ha ++ x :: (k, r) :: hb, (st.pages c.2).IsTree

section Row

variable {ha hb ka kb : List (Nat × Nat)} {x : Nat × Nat} {a b : Row} {p : InnerNode}
  {rest : List Row} {st' : Pager} {free' : List Nat}

/-- The pages of the row below are none of the pages of the rows. -/
theorem PendingInsert.below {rows : List Row} (h : PendingInsert st free k r ha x hb rows) :
    ∀ q ∈ (ha ++ x :: (k, r) :: hb).map Prod.snd, st.Held free q ∧ q ∉ rowsPids rows :=
  fun q hq => ⟨h.held q (List.mem_append_left _ hq),
    fun hq' => (List.nodup_append.mp h.nodup).2.2 q hq q hq' rfl⟩

/-- The new kid is none of the old ones. -/
theorem PendingInsert.ne_new {rows : List Row} (h : PendingInsert st free k r ha x hb rows) :
    ∀ c ∈ ha ++ x :: hb, c.2 ≠ r := by
  have hsplit : ha ++ x :: (k, r) :: hb = (ha ++ [x]) ++ (k, r) :: hb := by simp
  have hnd := (List.nodup_append.mp h.nodup).1
  rw [hsplit] at hnd
  intro c hc
  exact ne_of_nodup_map hnd c (by simpa using hc)

/-- Above a split root stands a new root with the two halves. -/
theorem PendingInsert.grow {old new : Nat} (h : PendingInsert st free k r [] (0, old) [] [])
    (hext : st.Extended free new st' free') (hroot : st'.header.rootIndexPageId = new)
    (hpages : st'.pages = reparented (Function.update st.pages new
      (.internal ⟨0, old, [(k, r)]⟩)) [old, r] new) :
    UpperStep st free [] st' free' [(0, old), (k, r)] [[⟨0, new, old, [(k, r)]⟩]] := by
  have hheld : ∀ q ∈ [old, r], st.Held free q := fun q hq => h.held q (by simpa using hq)
  have hnew : new ∉ [old, r] := fun hmem => hext.not_held (hheld new hmem)
  have hpage : st'.pages new = .internal ⟨0, old, [(k, r)]⟩ := by
    rw [hpages, reparented_of_not_mem hnew, Function.update_self]
  have hkid : ∀ c ∈ [(0, old), (k, r)], st'.pages c.2 = (st.pages c.2).withParent new := by
    intro c hc
    have hmem : c.2 ∈ [old, r] := List.mem_map_of_mem (f := Prod.snd) hc
    have hne : c.2 ≠ new := fun heq => hnew (heq ▸ hmem)
    rw [hpages, reparented_of_mem hmem, Function.update_of_ne hne]
  constructor
  case sameMeta => exact hext.sameMeta
  case freeList => exact hext.freeList
  case upper =>
    refine ⟨⟨rfl, ?_, ?_⟩, by simp [InnerNode.head, hroot], ?_⟩
    · intro n hn
      rw [List.mem_singleton] at hn
      subst hn
      exact ⟨0, hpage⟩
    · intro n hn c hc
      rw [List.mem_singleton] at hn
      subst hn
      rw [hkid c hc]
      exact Page.parent_withParent (h.isTree c hc)
    · rw [hroot, hpage]
      rfl
  case occupied =>
    have := minInternalKeys_ge h.pageSize
    have := two_mul_minInternalKeys_le st.pageSize
    refine ⟨fun n hn => ?_, trivial⟩
    rw [List.mem_singleton] at hn
    subst hn
    simp only [InnerNode.Full, minKeys, if_true, List.length_singleton]
    omega
  case nodup =>
    have hnd : [old, r].Nodup := by simpa using h.nodup
    simp only [List.map_cons, List.map_nil, rowsPids_cons, rowsPids_nil, List.append_nil]
    exact List.nodup_append.mpr ⟨hnd, List.nodup_singleton _, fun q hq q' hq' heq =>
      hnew (by rw [List.mem_singleton] at hq'; rwa [← hq', ← heq])⟩
  case held =>
    intro q
    rw [hext.held]
    simp
  case fresh =>
    intro q hq
    simp only [rowsPids_cons, rowsPids_nil, List.map_cons, List.map_nil, List.append_nil,
      List.mem_singleton] at hq
    exact .inr (hq ▸ hext.not_held)
  case body =>
    intro q hq
    obtain ⟨c, hc, rfl⟩ := List.mem_map.mp hq
    rw [hkid c hc]
    exact Page.withParent_sameBody
  case frame =>
    intro q hq hbelow _
    rw [hpages, reparented_of_not_mem (by simpa using hbelow), Function.update_of_ne]
    rintro rfl
    exact hext.not_held hq

variable (h : PendingInsert st free k r (a.flatMap InnerNode.kids ++ ka) x
  (kb ++ b.flatMap InnerNode.kids) ((a ++ p :: b) :: rest)) (hkids : p.kids = ka ++ x :: kb)

include h hkids

/-- The parent takes the new kid next to `x`. -/
theorem PendingInsert.internalFind_eq : internalFind p.entries k = ka.length := by
  have hinc := h.increasing
  rw [Increasing, List.pairwise_append] at hinc
  refine p.internalFind_of hkids ?_ ?_
  · intro y hy
    refine le_of_lt ?_
    rcases List.mem_append.mp hy with hy | hy
    · exact hinc.2.2 y (List.mem_append_right _ hy) (k, r) (by simp)
    · rw [List.mem_singleton] at hy
      subst hy
      exact (List.pairwise_cons.mp hinc.2.1).1 (k, r) (by simp)
  · intro y hy
    exact (List.pairwise_cons.mp (List.pairwise_cons.mp hinc.2.1).2).1 y
      (List.mem_append_left _ hy)

/-- A parent with room takes the new kid. -/
theorem PendingInsert.fit (hto : st.PagesTo (reparented (Function.update st.pages p.pid
      (.internal ⟨(st.pages p.pid).parent, p.leftmost,
        insertAt p.entries ka.length (k, r)⟩)) [r] p.pid) st') :
    RowStep st free (a ++ p :: b) rest st' free
      (a.flatMap InnerNode.kids ++ ka ++ x :: (k, r) :: (kb ++ b.flatMap InnerNode.kids))
      (a ++ { p with entries := insertAt p.entries ka.length (k, r) } :: b) ∧
    UpperStep st' free rest st' free ((a ++ { p with
      entries := insertAt p.entries ka.length (k, r) } :: b).map InnerNode.head) rest := by
  set p' : InnerNode := { p with entries := insertAt p.entries ka.length (k, r) }
  have hkids' : p'.kids = ka ++ x :: (k, r) :: kb := p.kids_insertAt hkids
  have hpids : (a ++ [p'] ++ b).map InnerNode.pid = (a ++ [p] ++ b).map InnerNode.pid := by
    simp [p']
  have hrow := h.upper.1
  have hbelow := h.below
  rw [List.append_cons a p b] at hrow ⊢
  rw [List.append_cons a p' b]
  have hnd := h.nodup
  have hheld := h.held
  rw [rowsPids_cons, List.append_cons a p b] at hnd hheld hbelow
  have hpid : p.pid ∈ (a ++ [p] ++ b).map InnerNode.pid := by simp
  have hrp : r ≠ p.pid := fun heq => (hbelow r (by simp)).2 (by simp [heq])
  have hkid : ∀ c ∈ ka ++ x :: kb, st'.pages c.2 = st.pages c.2 := by
    intro c hc
    have hne : c.2 ≠ p.pid := fun heq =>
      (hbelow c.2 (List.mem_map_of_mem (by grind))).2 (by simp [heq])
    rw [hto.pages, reparented_of_not_mem (by simpa using h.ne_new c (by grind)),
      Function.update_of_ne hne]
  have hother : ∀ q ∈ (a ++ [p] ++ b).map InnerNode.pid ++ rowsPids rest, q ≠ p.pid →
      st'.pages q = st.pages q := by
    intro q hq hqp
    have hqr : q ≠ r := by
      rintro rfl
      exact (hbelow q (by simp)).2 hq
    rw [hto.pages, reparented_of_not_mem (by simpa using hqr), Function.update_of_ne hqp]
  have hpage : st'.pages p.pid = .internal ⟨(st.pages p.pid).parent, p'.leftmost, p'.entries⟩ := by
    rw [hto.pages, reparented_of_not_mem (by simpa using hrp.symm), Function.update_self]
  refine ⟨RowStep.replace hto.sameMeta hrow (by simp [hkids'])
    (List.nodup_append.mp (List.nodup_append.mp hnd).2.1).1 (by rwa [hpids]) ?_ ?_ ?_ ?_ ?_ ?_ ?_,
    ?_⟩
  · intro q hq
    exact ⟨(hbelow q hq).1, fun hq' => (hbelow q hq).2 (List.mem_append_left _ hq')⟩
  · intro q hq
    exact hheld q (List.mem_append_right _ (List.mem_append_left _ hq))
  · intro q
    have := hheld p.pid (List.mem_append_right _ (List.mem_append_left _ hpid))
    rw [hto.held]
    simp only [List.map_cons, List.map_nil, List.mem_singleton, p']
    grind
  · intro q hq
    exact .inl hq
  · intro n hn
    rw [List.mem_singleton] at hn
    subst hn
    exact ⟨_, hpage⟩
  · intro n hn c hc
    rw [List.mem_singleton] at hn
    subst hn
    rw [hkids'] at hc
    by_cases hcr : c.2 = r
    · rw [hcr, hto.pages, reparented_of_mem (by simp), Function.update_of_ne hrp]
      exact ⟨Page.parent_withParent (h.isTree (k, r) (by simp)), Page.withParent_sameBody⟩
    · have hc' : c ∈ ka ++ x :: kb := by grind
      rw [hkid c hc']
      exact ⟨hrow.parent p (by simp) c (by rwa [hkids]), .refl⟩
  · intro q hq hqp hqkids _
    have hqr : q ≠ r := by
      rintro rfl
      exact hqkids (by simp [hkids'])
    rw [hto.pages, reparented_of_not_mem (by simpa using hqr),
      Function.update_of_ne (by simpa using hqp)]
  · have hheads : (a ++ [p'] ++ b).map InnerNode.head = (a ++ p :: b).map InnerNode.head := by
      simp [p', InnerNode.head]
    have hndrows := (List.nodup_append.mp hnd).2.1
    rw [hheads]
    refine UpperStep.refl (hto.freeList h.freeList fun q hq => ?_) ?_ ?_ ?_ fun q hq => ?_
    · have hqr : q ≠ r := fun heq => (hheld r (by simp)).not_mem (heq ▸ hq)
      have hqp : q ≠ p.pid := fun heq => (hheld p.pid (by simp)).not_mem (heq ▸ hq)
      rw [reparented_of_not_mem (by simpa using hqr), Function.update_of_ne hqp]
    · rw [hto.header]
      refine h.upper.2.congr (fun q hq => ?_) fun q hq => ?_
      · rw [hother q (List.mem_append_right _ hq)]
        · exact .refl
        · rintro rfl
          exact (List.nodup_append.mp hndrows).2.2 p.pid hpid p.pid hq rfl
      · rw [map_snd_head, List.append_cons a p b] at hq
        by_cases hqp : q = p.pid
        · rw [hqp, hpage]
          rfl
        · rw [hother q hq hqp]
    · rw [hto.pageSize]
      exact h.occupied.2
    · rwa [map_snd_head, List.append_cons a p b]
    · exact (hto.held q).mpr (hheld q (by simp [hq]))

omit hkids in
/-- The kids of the parent, the new one included, are pages below it. -/
theorem PendingInsert.kid_held {c : Nat × Nat} (hc : c ∈ ka ++ x :: (k, r) :: kb) :
    st.Held free c.2 ∧ c.2 ∉ rowsPids ((a ++ p :: b) :: rest) :=
  h.below c.2 (List.mem_map_of_mem (by grind))

/-- The pager after the full parent `p` has taken the kid `r` and has been split: it keeps `l₁`, the
entries `l₂` are on the new page `new`, whose leftmost kid is that of `m`. -/
structure InnerSplit (st : Pager) (free : List Nat) (r : Nat) (p : InnerNode)
    (l₁ l₂ : List (Nat × Nat)) (m : Nat × Nat) (new : Nat) (st' : Pager) (free' : List Nat) :
    Prop where
  extended : st.Extended free new st' free'
  root : st'.header.rootIndexPageId = st.header.rootIndexPageId
  pages : st'.pages = Function.update
    (reparented (Function.update (reparented st.pages [r] p.pid) new
      (.internal ⟨(st.pages p.pid).parent, m.2, l₂⟩)) ((m :: l₂).map Prod.snd) new)
    p.pid (.internal ⟨(st.pages p.pid).parent, p.leftmost, l₁⟩)

section InnerSplit

variable {l₁ l₂ : List (Nat × Nat)} {m : Nat × Nat} {new q : Nat}
  (htmp : insertAt p.entries ka.length (k, r) = l₁ ++ m :: l₂)
  (hs : InnerSplit st free r p l₁ l₂ m new st' free')

omit h hkids in
theorem InnerSplit.ne_new (hs : InnerSplit st free r p l₁ l₂ m new st' free')
    (hq : st.Held free q) : q ≠ new := by
  rintro rfl
  exact hs.extended.not_held hq

omit h hkids in
theorem InnerSplit.page_lower (hs : InnerSplit st free r p l₁ l₂ m new st' free') :
    st'.pages p.pid = .internal ⟨(st.pages p.pid).parent, p.leftmost, l₁⟩ := by
  rw [hs.pages, Function.update_self]

omit h hkids in
/-- A page that is no moved kid has at most been made a kid of `p`. -/
theorem InnerSplit.page_other (hs : InnerSplit st free r p l₁ l₂ m new st' free')
    (hqp : q ≠ p.pid) (hnew : q ≠ new) (hmoved : q ∉ (m :: l₂).map Prod.snd) :
    st'.pages q = reparented st.pages [r] p.pid q := by
  rw [hs.pages, Function.update_of_ne hqp, reparented_of_not_mem hmoved,
    Function.update_of_ne hnew]

include htmp

omit h in
/-- The two halves share the kids. -/
theorem kids_split : ((p.low, p.leftmost) :: l₁) ++ m :: l₂ = ka ++ x :: (k, r) :: kb := by
  rw [← p.kids_insertAt hkids, htmp]
  rfl

theorem PendingInsert.kept_held {c : Nat × Nat} (hc : c ∈ (p.low, p.leftmost) :: l₁) :
    st.Held free c.2 ∧ c.2 ≠ p.pid := by
  obtain ⟨hheld, hnot⟩ := h.kid_held (kids_split hkids htmp ▸ List.mem_append_left _ hc)
  exact ⟨hheld, fun heq => hnot (by simp [heq])⟩

theorem PendingInsert.moved_held {c : Nat × Nat} (hc : c ∈ m :: l₂) :
    st.Held free c.2 ∧ c.2 ≠ p.pid := by
  obtain ⟨hheld, hnot⟩ := h.kid_held (kids_split hkids htmp ▸ List.mem_append_right _ hc)
  exact ⟨hheld, fun heq => hnot (by simp [heq])⟩

/-- No kid is in both halves. -/
theorem PendingInsert.kept_notMem {c : Nat × Nat} (hc : c ∈ (p.low, p.leftmost) :: l₁) :
    c.2 ∉ (m :: l₂).map Prod.snd := by
  have hndk : ((((p.low, p.leftmost) :: l₁) ++ m :: l₂).map Prod.snd).Nodup := by
    rw [kids_split hkids htmp]
    have hsub : (ka ++ x :: (k, r) :: kb).Sublist (a.flatMap InnerNode.kids ++ ka ++ x ::
        (k, r) :: (kb ++ b.flatMap InnerNode.kids)) := by
      rw [List.append_assoc]
      exact List.Sublist.trans (by simp) (List.sublist_append_right _ _)
    exact (List.nodup_append.mp h.nodup).1.sublist (hsub.map _)
  rw [List.map_append, List.nodup_append] at hndk
  exact fun hmem => hndk.2.2 _ (List.mem_map_of_mem hc) _ hmem rfl

theorem PendingInsert.run_splitInternal (hocc : p.entries.length ≤ maxInternalKeys st.pageSize)
    (hmid : l₁.length = (l₁ ++ m :: l₂).length / 2) :
    (∃ st' free' new, (splitInternal p.pid ⟨(st.pages p.pid).parent, p.leftmost, p.entries⟩ k
        r).run (st.log (.get p.pid)) = some ((m.1, new), st') ∧
      InnerSplit st free r p l₁ l₂ m new st' free') ∨
    (¬ st.HasRoom free 1 ∧ (splitInternal p.pid ⟨(st.pages p.pid).parent, p.leftmost, p.entries⟩ k
        r).run (st.log (.get p.pid)) = none) := by
  have hkid : ∀ q ∈ r :: m.2 :: l₂.map Prod.snd,
      (st.pages q).IsTree ∧ st.Held free q ∧ q ≠ p.pid := by
    intro q hq
    obtain ⟨c, hc, rfl⟩ : ∃ c ∈ ka ++ x :: (k, r) :: kb, c.2 = q := by
      obtain rfl | hq := List.mem_cons.mp hq
      · exact ⟨(k, q), by simp, rfl⟩
      · obtain ⟨c, hc, rfl⟩ := List.mem_map.mp (show q ∈ (m :: l₂).map Prod.snd from hq)
        exact ⟨c, kids_split hkids htmp ▸ List.mem_append_right _ hc, rfl⟩
    obtain ⟨hheld, hnot⟩ := h.kid_held hc
    exact ⟨h.isTree c (by grind), hheld, fun heq => hnot (by simp [heq])⟩
  obtain ⟨st₁, free₁, new, hrun, hext, hroot, hpages⟩ | hfull := splitInternal_spec
    (st.log (.get p.pid)) p.pid ⟨(st.pages p.pid).parent, p.leftmost, p.entries⟩ h.pageSize
    (Pager.SameData.log.freeList h.freeList) (h.internalFind_eq hkids) hocc htmp hmid
    (h.held p.pid (by simp)) hkid
  · exact .inl ⟨st₁, free₁, new, hrun, Pager.SameData.log.extended hext, hroot, hpages⟩
  · exact .inr hfull

omit hkids in
/-- Both halves are at least half full, and the other nodes have not changed. -/
theorem PendingInsert.full_split {rest' : List Row} (hne : rest' ≠ [])
    (hlen : p.entries.length = maxInternalKeys st.pageSize)
    (hmid : l₁.length = (l₁ ++ m :: l₂).length / 2) :
    ∀ n ∈ a ++ { p with entries := l₁ } :: ⟨m.1, new, m.2, l₂⟩ :: b,
      n.Full st.pageSize rest' := by
  have hhalf : minKeys st.pageSize rest' = maxInternalKeys st.pageSize / 2 := by
    simp [minKeys, hne, minInternalKeys]
  have hmax := minInternalKeys_ge h.pageSize
  have hmax₂ := two_mul_minInternalKeys_le st.pageSize
  have hlens : l₁.length + (l₂.length + 1) = p.entries.length + 1 := by
    have := congrArg List.length htmp
    simp only [insertAt, List.length_append, List.length_cons, List.length_take,
      List.length_drop] at this
    omega
  rw [List.length_append, List.length_cons, hlens] at hmid
  have hside : ∀ n ∈ a ++ b, n.Full st.pageSize rest' := by
    intro n hn
    have hmem : n ∈ a ++ p :: b := by grind
    refine (h.occupied.1 n hmem).mono (fun heq => ?_) h.pageSize
    obtain ⟨root, hroot, -⟩ := h.upper.single heq
    have hone := congrArg List.length hroot
    have hpos := List.length_pos_of_mem hn
    simp only [List.length_append, List.length_cons, List.length_nil] at hone hpos
    omega
  intro n hn
  simp only [List.mem_append, List.mem_cons] at hn
  obtain hn | rfl | rfl | hn := hn
  · exact hside n (List.mem_append_left _ hn)
  · exact ⟨by rw [hhalf]; show _ ≤ l₁.length; omega, by show l₁.length ≤ _; omega⟩
  · exact ⟨by rw [hhalf]; show _ ≤ l₂.length; omega, by show l₂.length ≤ _; omega⟩
  · exact hside n (List.mem_append_right _ hn)

include hs

theorem InnerSplit.page_upper :
    st'.pages new = .internal ⟨(st.pages p.pid).parent, m.2, l₂⟩ := by
  have hp : st.Held free p.pid := h.held p.pid (by simp)
  rw [hs.pages, Function.update_of_ne (hs.ne_new hp).symm, reparented_of_not_mem,
    Function.update_self]
  intro hmem
  obtain ⟨c, hc, heq⟩ := List.mem_map.mp hmem
  exact hs.ne_new (h.moved_held hkids htmp hc).1 heq

/-- A moved kid has the new page for its parent and is otherwise as it was. -/
theorem InnerSplit.kid_moved {c : Nat × Nat} (hc : c ∈ m :: l₂) :
    (st'.pages c.2).parent = new ∧ (st'.pages c.2).SameBody (st.pages c.2) := by
  obtain ⟨hheld, hcp⟩ := h.moved_held hkids htmp hc
  have htree : (st.pages c.2).IsTree := by
    have hc' : c ∈ ka ++ x :: (k, r) :: kb := kids_split hkids htmp ▸ List.mem_append_right _ hc
    exact h.isTree c (by grind)
  rw [hs.pages, Function.update_of_ne hcp, reparented_of_mem (List.mem_map_of_mem hc),
    Function.update_of_ne (hs.ne_new hheld)]
  refine ⟨Page.parent_withParent ?_, Page.withParent_sameBody.trans reparented_sameBody⟩
  rwa [reparented_sameBody.isTree]

/-- The other kids stay with `p`, which the new one joins if it is one of them. -/
theorem InnerSplit.kid_kept {c : Nat × Nat} (hc : c ∈ (p.low, p.leftmost) :: l₁) :
    (st'.pages c.2).parent = p.pid ∧ (st'.pages c.2).SameBody (st.pages c.2) := by
  obtain ⟨hheld, hcp⟩ := h.kept_held hkids htmp hc
  have hc' : c ∈ ka ++ x :: (k, r) :: kb := kids_split hkids htmp ▸ List.mem_append_left _ hc
  rw [hs.page_other hcp (hs.ne_new hheld) (h.kept_notMem hkids htmp hc)]
  refine ⟨?_, reparented_sameBody⟩
  by_cases hcr : c.2 = r
  · rw [hcr, reparented_of_mem (by simp)]
    exact Page.parent_withParent (h.isTree (k, r) (by simp))
  · rw [reparented_of_not_mem (by simpa using hcr)]
    exact h.upper.1.parent p (by simp) c (by rw [hkids]; grind)

/-- The pages of the rows, up to `p` itself, have not changed. -/
theorem InnerSplit.page_row (hq : q ∈ rowsPids ((a ++ p :: b) :: rest)) (hqp : q ≠ p.pid) :
    st'.pages q = st.pages q := by
  have hnot : ∀ c ∈ ka ++ x :: (k, r) :: kb, c.2 ≠ q := fun c hc heq =>
    (h.kid_held hc).2 (heq ▸ hq)
  have hnotmoved : q ∉ (m :: l₂).map Prod.snd := by
    intro hmem
    obtain ⟨c, hc, heq⟩ := List.mem_map.mp hmem
    exact hnot c (kids_split hkids htmp ▸ List.mem_append_right _ hc) heq
  have hqr : q ≠ r := fun heq => hnot (k, r) (by simp) heq.symm
  rw [hs.page_other hqp (hs.ne_new (h.held q (List.mem_append_right _ hq))) hnotmoved,
    reparented_of_not_mem (by simpa using hqr)]

omit hkids htmp in
theorem InnerSplit.nodup : ((a.flatMap InnerNode.kids ++ ka ++ x :: (k, r) ::
    (kb ++ b.flatMap InnerNode.kids)).map Prod.snd ++
    ((a ++ [{ p with entries := l₁ }, ⟨m.1, new, m.2, l₂⟩] ++ b).map InnerNode.pid ++
      rowsPids rest)).Nodup := by
  have hnd := h.nodup
  rw [rowsPids_cons] at hnd
  set kids := (a.flatMap InnerNode.kids ++ ka ++ x :: (k, r) ::
    (kb ++ b.flatMap InnerNode.kids)).map Prod.snd with hkidsdef
  have hsplit : kids ++ ((a ++ [{ p with entries := l₁ }, ⟨m.1, new, m.2, l₂⟩] ++ b).map
      InnerNode.pid ++ rowsPids rest) = (kids ++ (a ++ [p]).map InnerNode.pid) ++
      new :: (b.map InnerNode.pid ++ rowsPids rest) := by simp
  have hjoin : (kids ++ (a ++ [p]).map InnerNode.pid) ++ (b.map InnerNode.pid ++ rowsPids rest) =
      kids ++ ((a ++ p :: b).map InnerNode.pid ++ rowsPids rest) := by simp
  rw [hsplit, List.nodup_middle, List.nodup_cons, hjoin]
  exact ⟨fun hmem => hs.ne_new (h.held new hmem) rfl, hnd⟩

/-- The row after a split. -/
theorem InnerSplit.rowStep : RowStep st free (a ++ p :: b) rest st' free'
    (a.flatMap InnerNode.kids ++ ka ++ x :: (k, r) :: (kb ++ b.flatMap InnerNode.kids))
    (a ++ { p with entries := l₁ } :: ⟨m.1, new, m.2, l₂⟩ :: b) := by
  have hrow := h.upper.1
  have hbelow := h.below
  have hnd := h.nodup
  have hheld := h.held
  have hkids' := kids_split hkids htmp
  have happ : a ++ { p with entries := l₁ } :: ⟨m.1, new, m.2, l₂⟩ :: b =
      a ++ [{ p with entries := l₁ }, ⟨m.1, new, m.2, l₂⟩] ++ b := by simp
  rw [rowsPids_cons, List.append_cons a p b] at hnd hheld hbelow
  rw [List.append_cons a p b] at hrow ⊢
  rw [happ]
  refine RowStep.replace hs.extended.sameMeta hrow ?_
    (List.nodup_append.mp (List.nodup_append.mp hnd).2.1).1 (hs.nodup h) ?_ ?_ ?_ ?_ ?_
    ?_ ?_
  · have := congrArg (fun l => a.flatMap InnerNode.kids ++ l ++ b.flatMap InnerNode.kids) hkids'
    simpa [InnerNode.kids] using this
  · intro q hq
    exact ⟨(hbelow q hq).1, fun hq' => (hbelow q hq).2 (List.mem_append_left _ hq')⟩
  · intro q hq
    exact hheld q (List.mem_append_right _ (List.mem_append_left _ hq))
  · intro q
    have hp : st.Held free p.pid := h.held p.pid (by simp)
    rw [hs.extended.held]
    simp only [List.map_cons, List.map_nil, List.mem_cons, List.not_mem_nil]
    grind
  · intro q hq
    simp only [List.map_cons, List.map_nil, List.mem_cons, List.not_mem_nil, or_false] at hq
    obtain rfl | rfl := hq
    · exact .inl (by simp)
    · exact .inr hs.extended.not_held
  · intro n hn
    simp only [List.mem_cons, List.not_mem_nil, or_false] at hn
    obtain rfl | rfl := hn
    · exact ⟨_, hs.page_lower⟩
    · exact ⟨_, hs.page_upper h hkids htmp⟩
  · intro n hn c hc
    simp only [List.mem_cons, List.not_mem_nil, or_false] at hn
    obtain rfl | rfl := hn
    · exact hs.kid_kept h hkids htmp hc
    · exact hs.kid_moved h hkids htmp hc
  · intro q hq hqp hqkids _
    have hqmoved : q ∉ (m :: l₂).map Prod.snd := fun hmem =>
      hqkids (by simp [InnerNode.kids] at hmem ⊢; tauto)
    rw [hs.page_other (by simpa using hqp) (hs.ne_new hq) hqmoved, reparented_of_not_mem]
    rw [List.mem_singleton]
    rintro rfl
    have : (k, q) ∈ (p.low, p.leftmost) :: l₁ ++ m :: l₂ := by simp [hkids']
    exact hqkids (List.mem_map_of_mem (f := Prod.snd) (a := (k, q))
      (by simpa [InnerNode.kids, Prod.ext_iff] using this))

/-- The row above a split one has the promoted entry still to take in. -/
theorem InnerSplit.pendingInsert :
    PendingInsert st' free' m.1 new (a.map InnerNode.head) p.head (b.map InnerNode.head) rest := by
  have hstep := hs.rowStep h hkids htmp
  have hrow := hstep.rowOk
  have hheld := h.held
  rw [rowsPids_cons] at hheld
  have hpids : (a.map InnerNode.head ++ p.head :: (m.1, new) :: b.map InnerNode.head).map Prod.snd =
      (a ++ { p with entries := l₁ } :: ⟨m.1, new, m.2, l₂⟩ :: b).map InnerNode.pid := by
    simp [InnerNode.head, Function.comp_def]
  constructor
  case pageSize => rw [hs.extended.sameMeta.pageSize]; exact h.pageSize
  case freeList => exact hs.extended.freeList
  case upper =>
    have hheads : (a ++ p :: b).map InnerNode.head =
        a.map InnerNode.head ++ p.head :: b.map InnerNode.head := by simp
    rw [hs.root, ← hheads]
    refine h.upper.2.congr (fun q hq => ?_) fun q hq => ?_
    · rw [hs.page_row h hkids htmp (by rw [rowsPids_cons]; exact List.mem_append_right _ hq)]
      · exact .refl
      · rintro rfl
        have hnd := (List.nodup_append.mp h.nodup).2.1
        rw [rowsPids_cons] at hnd
        exact (List.nodup_append.mp hnd).2.2 p.pid (by simp) p.pid hq rfl
    · rw [map_snd_head] at hq
      by_cases hqp : q = p.pid
      · rw [hqp, hs.page_lower]
        rfl
      · rw [hs.page_row h hkids htmp hq hqp]
  case occupied => rw [hs.extended.sameMeta.pageSize]; exact h.occupied.2
  case increasing =>
    have hinc : Increasing ((a ++ { p with entries := l₁ } :: ⟨m.1, new, m.2, l₂⟩ :: b).flatMap
        InnerNode.kids) := by
      rw [hrow.kids]
      exact h.increasing
    simpa [InnerNode.head] using hinc.heads
  case nodup =>
    rw [hpids]
    exact (List.nodup_append.mp hstep.nodup).2.1
  case held =>
    intro q hq
    rw [hpids, List.mem_append] at hq
    obtain hq | hq := hq
    · rw [hs.extended.held]
      simp only [List.map_append, List.map_cons, List.mem_append, List.mem_cons] at hq hheld
      grind
    · exact (hs.extended.held q).mpr (.inl (hheld q (by simp [hq])))
  case isTree =>
    intro c hc
    have hc' : c ∈ (a ++ { p with entries := l₁ } :: ⟨m.1, new, m.2, l₂⟩ :: b).map
        InnerNode.head := by
      simpa [InnerNode.head] using hc
    obtain ⟨n, hn, rfl⟩ := List.mem_map.mp hc'
    exact (hrow.on n hn).isTree

end InnerSplit

end Row

/-! ### All rows -/

/-- **`propagate_insert` repairs the rows above a split**, and only the root gets a new root above
it. It allocates at most one page for each row and one for the root; without them it does not come
back. -/
theorem propagateInsertChecked_spec (stack : List Nat) :
    ∀ {rows : List Row} {st : Pager} {free : List Nat} {k r : Nat} {ha hb : List (Nat × Nat)}
      {x : Nat × Nat} {above : List Nat}, PendingInsert st free k r ha x hb rows →
      Ancestors (·.Safe st.pageSize true) ha x hb rows above →
      (∃ st' free' rows', (propagateInsertChecked stack k r x.2 above).run st = some ((), st') ∧
        rows' ≠ [] ∧ UpperStep st free rows st' free' (ha ++ x :: (k, r) :: hb) rows') ∨
      (¬ st.HasRoom free (rows.length + 1) ∧
        (propagateInsertChecked stack k r x.2 above).run st = none ∧
        (propagateInsert stack k r x.2 above).run st = none) := by
  intro rows
  induction rows with
  | nil =>
    rintro st free k r ha hb x above h rfl
    obtain ⟨rfl, rfl, rfl⟩ : ha = [] ∧ x = (0, st.header.rootIndexPageId) ∧ hb = [] := by
      have := h.upper.1
      cases ha with
      | nil => simpa [eq_comm] using this
      | cons y ha => simp at this
    set old := st.header.rootIndexPageId
    obtain ⟨st₁, free₁, new, hrun₁, hext, hroot, hpages⟩ | ⟨hfull, hnone⟩ := growRoot_spec old k r
      h.pageSize h.freeList (fun q hq => by
        simp only [List.mem_cons, List.not_mem_nil, or_false] at hq
        rcases hq with rfl | rfl
        · exact h.isTree (0, old) (by simp)
        · exact h.isTree (k, q) (by simp)) (fun q hq => h.held q (by simpa using hq))
    case inr =>
      refine .inr ⟨hfull, ?_, ?_⟩
      · simp [propagateInsertChecked, old, hnone]
      · rw [propagateInsert, run_bind_none hnone]
    left
    obtain ⟨st', hrun', hsame⟩ := run_lsReleaseAll stack st₁
    refine ⟨st', free₁, [[⟨0, new, old, [(k, r)]⟩]], ?_, by simp, UpperStep.sameData ?_ hsame⟩
    · simp [propagateInsertChecked, old, hrun₁, hrun']
    · exact h.grow hext hroot hpages
  | cons row rest ih =>
    rintro st free k r ha hb x above h ⟨a, p, b, ka, kb, above', rfl, hkids, rfl, rfl, rfl, hsafe⟩
    have hp := (h.upper.1.on p (by simp)).eq
    have hfind := h.internalFind_eq hkids
    have hocc := h.occupied.1 p (by simp)
    have hhdr : internalHeaderSize ≤ st.pageSize := by
      have := h.pageSize
      simp only [internalHeaderSize]
      omega
    have hread : (readInternal p.pid).run (st.log (.get p.pid)) =
        some (⟨(st.pages p.pid).parent, p.leftmost, p.entries⟩, st.log (.get p.pid)) :=
      run_readInternal hp
    by_cases hroom : p.Safe st.pageSize true
    · -- the parent has room
      have hlt : p.entries.length < maxInternalKeys st.pageSize := by simpa [InnerNode.Safe] using hroom
      set p' : InnerNode := { p with entries := insertAt p.entries ka.length (k, r) }
      set page : Page := .internal ⟨(st.pages p.pid).parent, p.leftmost, p'.entries⟩
      have hlen' : p'.entries.length = p.entries.length + 1 := by
        simp [p', insertAt]
        omega
      have hwrite : (writeInternal p.pid ⟨(st.pages p.pid).parent, p.leftmost, p'.entries⟩).run
          (st.log (.get p.pid)) = some ((), (st.log (.get p.pid)).setPage p.pid page) :=
        run_writeInternal hhdr (by simp only [Pager.log_pageSize]; omega)
      set st₁ := (((st.log (.get p.pid)).setPage p.pid page).log (.markDirty p.pid)).log (.unpin p.pid)
      have h₁ : st.PagesTo (Function.update st.pages p.pid page) st₁ :=
        ((Pager.PagesTo.refl.log.setPage).log).log
      obtain ⟨st₂, hrun₂, h₂⟩ := run_updateChildParentPage st₁ r p.pid (by
        have hrp : r ≠ p.pid := fun heq => (h.below r (by simp)).2 (by simp [heq])
        rw [h₁.pages, Function.update_of_ne hrp]
        exact h.isTree (k, r) (by simp))
      rw [h₁.pages] at h₂
      obtain ⟨st₃, hrun₃, hsame⟩ := run_lsReleaseAll stack st₂
      refine .inl ⟨st₃, free, (a ++ p' :: b) :: rest, ?_, by simp, UpperStep.sameData ?_ hsame⟩
      · simp [propagateInsertChecked, hread, getPageSize, hlt, hfind, hwrite, hrun₂, hrun₃, st₁, p']
      · obtain ⟨hstep, hrest⟩ := h.fit hkids (h₁.trans h₂)
        refine hstep.cons rfl hrest ?_
        intro n hn
        by_cases hnp : n = p'
        · subst hnp
          have := hocc.1
          exact ⟨by omega, by omega⟩
        · exact h.occupied.1 n (by grind)
    · -- the parent is split
      have hmax : p.entries.length = maxInternalKeys st.pageSize := by
        simp only [InnerNode.Safe, if_true] at hroom
        have := hocc.2
        omega
      obtain ⟨l₁, m, l₂, htmp, hmid⟩ :=
        exists_half (show 0 < (insertAt p.entries ka.length (k, r)).length by
          simp only [insertAt, List.length_append, List.length_cons]
          omega)
      obtain ⟨st₁, free₁, new, hrun₁, hs⟩ | ⟨hfull, hnone⟩ :=
        h.run_splitInternal hkids htmp hocc.2 hmid
      case inr =>
        refine .inr ⟨fun hroom => hfull (hroom.mono (by omega)), ?_, ?_⟩
        · simp [propagateInsertChecked, hread, getPageSize, hmax, hnone]
        · simp [propagateInsert, hread, getPageSize, hmax, hnone]
      have hstep := hs.rowStep h hkids htmp
      have hpend := hs.pendingInsert h hkids htmp
      obtain ⟨hsafe, -⟩ | ⟨-, hanc'⟩ := hsafe
      · exact absurd hsafe hroom
      rw [← hs.extended.sameMeta.pageSize] at hanc'
      obtain ⟨st', free', rest', hrun', hne, hup⟩ | ⟨hfull, hnone, hnone'⟩ := ih hpend hanc'
      case inr =>
        refine .inr ⟨fun hroom => hfull (hs.extended.room _ hroom), ?_, ?_⟩
        · simpa [propagateInsertChecked, hread, getPageSize, hmax, hrun₁, InnerNode.head] using hnone
        · simpa [propagateInsert, hread, getPageSize, hmax, hrun₁, InnerNode.head] using hnone'
      refine .inl ⟨st', free', _ :: rest', ?_, List.cons_ne_nil _ _, hstep.cons rfl ?_ ?_⟩
      · simpa [propagateInsertChecked, hread, getPageSize, hmax, hrun₁, InnerNode.head] using hrun'
      · simpa [InnerNode.head] using hup
      · exact h.full_split htmp hne hmax hmid

end Propagate

end MiniDb
