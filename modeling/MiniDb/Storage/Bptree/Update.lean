import MiniDb.Storage.Bptree.Descent

/-! # Updates of single pages

What the small writers of `bptree.c` do to the page map, and `UpperStep`, the relation between the
state before and after the rows above some row have been repaired. Insertion and deletion both
prove one such step for their upward propagation. -/

set_option autoImplicit false

namespace MiniDb

open Lib

/-! ## Reparenting -/

/-- The page map after the parent field of the pages in `cs` has been set to `parent`. -/
def reparented (g : Nat → Page) (cs : List Nat) (parent : Nat) : Nat → Page :=
  fun p => if p ∈ cs then (g p).withParent parent else g p

section Reparented

variable {g : Nat → Page} {cs : List Nat} {c p parent : Nat}

theorem reparented_of_mem (h : p ∈ cs) : reparented g cs parent p = (g p).withParent parent :=
  if_pos h

theorem reparented_of_not_mem (h : p ∉ cs) : reparented g cs parent p = g p := if_neg h

@[simp] theorem reparented_nil : reparented g [] parent = g := by
  funext p
  simp [reparented]

theorem reparented_sameBody : (reparented g cs parent p).SameBody (g p) := by
  unfold reparented
  split
  · exact Page.withParent_sameBody
  · exact Page.SameBody.refl

theorem reparented_reparented :
    reparented (reparented g [c] parent) cs parent = reparented g (c :: cs) parent := by
  funext p
  by_cases h1 : p = c <;> by_cases h2 : p ∈ cs <;> simp [reparented, h1, h2]

end Reparented

/-- `st'` is `st` with the page map `g`. -/
def Pager.PagesTo (st : Pager) (g : Nat → Page) (st' : Pager) : Prop :=
  ∃ t, st' = { st with pages := g, trace := t }

section PagesTo

variable {st st' st'' : Pager} {g g' : Nat → Page} {pid parent : Nat} {free : List Nat}

theorem Pager.PagesTo.pages (h : st.PagesTo g st') : st'.pages = g := by
  obtain ⟨t, rfl⟩ := h
  rfl

theorem Pager.PagesTo.header (h : st.PagesTo g st') : st'.header = st.header := by
  obtain ⟨t, rfl⟩ := h
  rfl

theorem Pager.PagesTo.pageSize (h : st.PagesTo g st') : st'.pageSize = st.pageSize := by
  obtain ⟨t, rfl⟩ := h
  rfl

theorem Pager.PagesTo.trans (h : st.PagesTo g st') (h' : st'.PagesTo g' st'') :
    st.PagesTo g' st'' := by
  obtain ⟨t, rfl⟩ := h
  obtain ⟨t', rfl⟩ := h'
  exact ⟨t', rfl⟩

theorem Pager.SameData.pagesTo (h : st.SameData st') : st.PagesTo st.pages st' := h

theorem Pager.PagesTo.log {e : PagerEvent} (h : st.PagesTo g st') : st.PagesTo g (st'.log e) := by
  obtain ⟨t, rfl⟩ := h
  exact ⟨_, rfl⟩

theorem Pager.PagesTo.setPage {page : Page} (h : st.PagesTo g st') :
    st.PagesTo (Function.update g pid page) (st'.setPage pid page) := by
  obtain ⟨t, rfl⟩ := h
  exact ⟨_, rfl⟩

theorem Pager.PagesTo.refl : st.PagesTo st.pages st := ⟨st.trace, rfl⟩

theorem Pager.PagesTo.held (h : st.PagesTo g st') (p : Nat) : st'.Held free p ↔ st.Held free p :=
  Pager.Held.congr (by rw [h.header])

theorem Pager.PagesTo.hasRoom {n : Nat} (h : st.PagesTo g st') :
    st'.HasRoom free n ↔ st.HasRoom free n := by
  rw [Pager.HasRoom, Pager.HasRoom, h.header]

theorem Pager.PagesTo.freeList (h : st.PagesTo g st') (hf : st.FreeList free)
    (hg : ∀ p ∈ free, g p = st.pages p) : st'.FreeList free :=
  hf.congr (by rw [h.pages]; exact hg) (by rw [h.header]) (by rw [h.header])

theorem reparented_singleton :
    Function.update g pid ((g pid).withParent parent) = reparented g [pid] parent := by
  funext p
  by_cases h : p = pid
  · subst h
    simp [reparented]
  · simp [reparented, h]

theorem run_setParent (h : (st.pages pid).IsTree) : (setParent pid parent).run st =
    some ((), st.setPage pid ((st.pages pid).withParent parent)) := by
  cases hp : st.pages pid with
  | leaf l => simp [setParent, hp, Page.withParent]
  | internal i => simp [setParent, hp, Page.withParent]
  | _ => simp [hp, Page.IsTree] at h

theorem run_updateChildParentPage (st : Pager) (pid parent : Nat)
    (h : (st.pages pid).IsTree) :
    ∃ st', (updateChildParentPage pid parent).run st = some ((), st') ∧
      st.PagesTo (reparented st.pages [pid] parent) st' := by
  have hrun : (setParent pid parent).run (st.log (.get pid)) = some ((), _) := run_setParent h
  refine ⟨_, by simp [updateChildParentPage, hrun]; rfl, ?_⟩
  rw [← reparented_singleton]
  exact ((Pager.PagesTo.refl.log.setPage).log).log

theorem run_forM_updateChildParentPage (parent : Nat) (cs : List (Nat × Nat)) :
    ∀ st : Pager, (∀ c ∈ cs, (st.pages c.2).IsTree) →
      ∃ st', (forM cs fun e => updateChildParentPage e.2 parent).run st = some ((), st') ∧
        st.PagesTo (reparented st.pages (cs.map Prod.snd) parent) st' := by
  induction cs with
  | nil =>
    intro st _
    exact ⟨st, rfl, by simpa using Pager.PagesTo.refl⟩
  | cons c cs ih =>
    intro st htree
    obtain ⟨st₁, hrun₁, h₁⟩ := run_updateChildParentPage st c.2 parent (htree c (by simp))
    obtain ⟨st₂, hrun₂, h₂⟩ := ih st₁ fun d hd => by
      rw [h₁.pages, reparented_sameBody.isTree]
      exact htree d (List.mem_cons_of_mem _ hd)
    refine ⟨st₂, by simpa [hrun₁] using hrun₂, ?_⟩
    rw [h₁.pages, reparented_reparented] at h₂
    exact h₁.trans h₂

end PagesTo

/-! ## What stays -/

/-- Everything a tree operation leaves alone besides pages: only the root pointer and the allocation
fields of the header move, and no id of a page is given back. -/
structure Pager.SameMeta (st st' : Pager) : Prop where
  pageSize : st'.pageSize = st.pageSize
  lastHeapPageId : st'.lastHeapPageId = st.lastHeapPageId
  heapMayHaveFreeSlots : st'.heapMayHaveFreeSlots = st.heapMayHaveFreeSlots
  nextPageId_le : st.header.nextPageId ≤ st'.header.nextPageId
  header : st'.header = { st.header with
    rootIndexPageId := st'.header.rootIndexPageId
    freePageHead := st'.header.freePageHead
    nextPageId := st'.header.nextPageId }

section SameMeta

variable {st st' st'' : Pager} {free free' : List Nat} {pid : Nat} {g : Nat → Page}

theorem Pager.SameMeta.refl : st.SameMeta st := ⟨rfl, rfl, rfl, le_refl _, rfl⟩

theorem Pager.SameMeta.trans (h : st.SameMeta st') (h' : st'.SameMeta st'') : st.SameMeta st'' where
  pageSize := h'.pageSize.trans h.pageSize
  lastHeapPageId := h'.lastHeapPageId.trans h.lastHeapPageId
  heapMayHaveFreeSlots := h'.heapMayHaveFreeSlots.trans h.heapMayHaveFreeSlots
  nextPageId_le := h.nextPageId_le.trans h'.nextPageId_le
  header := by rw [h'.header, h.header]

theorem Pager.PagesTo.sameMeta (h : st.PagesTo g st') : st.SameMeta st' := by
  obtain ⟨t, rfl⟩ := h
  exact ⟨rfl, rfl, rfl, le_refl _, rfl⟩

theorem Allocated.sameMeta (h : Allocated st free pid st' free') : st.SameMeta st' where
  pageSize := h.pageSize
  lastHeapPageId := h.lastHeapPageId
  heapMayHaveFreeSlots := h.heapMayHaveFreeSlots
  nextPageId_le := h.nextPageId_le
  header := by rw [h.header]

theorem Freed.sameMeta (h : Freed st free pid st' free') : st.SameMeta st' where
  pageSize := h.pageSize
  lastHeapPageId := h.lastHeapPageId
  heapMayHaveFreeSlots := h.heapMayHaveFreeSlots
  nextPageId_le := by rw [h.header]
  header := by rw [h.header]

theorem Pager.SameMeta.setRoot : st.SameMeta (st.setHeader { st.header with
    rootIndexPageId := pid }) := ⟨rfl, rfl, rfl, le_refl _, rfl⟩

end SameMeta

/-! ## Steps that allocate one page -/

/-- `st'` holds one page more than `st`, namely `new`. -/
structure Pager.Extended (st : Pager) (free : List Nat) (new : Nat) (st' : Pager)
    (free' : List Nat) : Prop where
  sameMeta : st.SameMeta st'
  freeList : st'.FreeList free'
  ne_zero : new ≠ 0
  not_held : ¬ st.Held free new
  held : ∀ p, st'.Held free' p ↔ st.Held free p ∨ p = new
  room : ∀ n, st.HasRoom free (n + 1) → st'.HasRoom free' n

section Extended

variable {st st' st'' : Pager} {free free' : List Nat} {new : Nat} {g : Nat → Page}

theorem Allocated.extended (h : Allocated st free new st' free') : st.Extended free new st' free' :=
  ⟨h.sameMeta, h.freeList, h.ne_zero, h.not_held, h.held, h.room⟩

theorem Pager.Extended.pagesTo (h : st.Extended free new st' free') (hp : st'.PagesTo g st'')
    (hg : ∀ p, ¬ st'.Held free' p → g p = st'.pages p) : st.Extended free new st'' free' where
  sameMeta := h.sameMeta.trans hp.sameMeta
  freeList := hp.freeList h.freeList fun p hp => hg p fun hheld => hheld.not_mem hp
  ne_zero := h.ne_zero
  not_held := h.not_held
  held := fun p => (hp.held p).trans (h.held p)
  room := fun n hroom => hp.hasRoom.mpr (h.room n hroom)

theorem Pager.Extended.setRoot (h : st.Extended free new st' free') {root : Nat} :
    st.Extended free new (st'.setHeader { st'.header with rootIndexPageId := root }) free' where
  sameMeta := h.sameMeta.trans .setRoot
  freeList := h.freeList.congr (fun _ _ => rfl) rfl rfl
  ne_zero := h.ne_zero
  not_held := h.not_held
  held := h.held
  room := h.room

theorem Pager.SameData.extended (h : st.SameData st') (hext : st'.Extended free new st'' free') :
    st.Extended free new st'' free' where
  sameMeta := h.pagesTo.sameMeta.trans hext.sameMeta
  freeList := hext.freeList
  ne_zero := hext.ne_zero
  not_held := fun hh => hext.not_held ((h.held new).mpr hh)
  held := fun p => by rw [hext.held, h.held]
  room := fun n hroom => hext.room n (h.pagesTo.hasRoom.mpr hroom)

end Extended

/-! ## Repairs of the upper rows -/

/-- **One upward repair.** From a state whose rows above were `rows`, a state has been reached in
which `rows'` stand over the heads `hs'`. Pages of the row below keep their bodies, pages that are
neither below nor in the rows are untouched, and ownership changes by the rows' own pages. -/
structure UpperStep (st : Pager) (free : List Nat) (rows : List Row) (st' : Pager)
    (free' : List Nat) (hs' : List (Nat × Nat)) (rows' : List Row) : Prop where
  sameMeta : st.SameMeta st'
  freeList : st'.FreeList free'
  upper : Upper st'.pages st'.header.rootIndexPageId hs' rows'
  occupied : Occupied st.pageSize rows'
  nodup : (hs'.map Prod.snd ++ rowsPids rows').Nodup
  held : ∀ p, st'.Held free' p ↔ st.Held free p ∧ p ∉ rowsPids rows ∨ p ∈ rowsPids rows'
  fresh : ∀ p ∈ rowsPids rows', p ∈ rowsPids rows ∨ ¬ st.Held free p
  body : ∀ p ∈ hs'.map Prod.snd, (st'.pages p).SameBody (st.pages p)
  frame : ∀ p, st.Held free p → p ∉ hs'.map Prod.snd → p ∉ rowsPids rows →
    st'.pages p = st.pages p

/-- **The change of one row** that an upward repair starts with: `row` has become `row'` over the
heads `hs'`. The row above may have been changed with it, so its pages are not framed. -/
structure RowStep (st : Pager) (free : List Nat) (row : Row) (rest : List Row) (st' : Pager)
    (free' : List Nat) (hs' : List (Nat × Nat)) (row' : Row) : Prop where
  sameMeta : st.SameMeta st'
  rowOk : RowOk st'.pages hs' row'
  nodup : (hs'.map Prod.snd ++ (row'.map InnerNode.pid ++ rowsPids rest)).Nodup
  below : ∀ p ∈ hs'.map Prod.snd, st.Held free p ∧ p ∉ row.map InnerNode.pid
  held : ∀ p, st'.Held free' p ↔
    st.Held free p ∧ p ∉ row.map InnerNode.pid ∨ p ∈ row'.map InnerNode.pid
  fresh : ∀ p ∈ row'.map InnerNode.pid, p ∈ row.map InnerNode.pid ∨ ¬ st.Held free p
  body : ∀ p ∈ hs'.map Prod.snd, (st'.pages p).SameBody (st.pages p)
  frame : ∀ p, st.Held free p → p ∉ hs'.map Prod.snd → p ∉ row.map InnerNode.pid →
    p ∉ rowsPids rest → st'.pages p = st.pages p

section UpperStep

variable {st st₁ st' : Pager} {free free₁ free' : List Nat} {rows rows' rest rest₁ rest' : List Row}
  {row row' : Row} {hs hs' : List (Nat × Nat)} {n : InnerNode}

theorem InnerNode.Full.mono (h : n.Full st.pageSize rest) (hne : rest = [] → rest' = [])
    (hps : 4096 ≤ st.pageSize) : n.Full st.pageSize rest' := by
  refine ⟨le_trans ?_ h.1, h.2⟩
  have := minInternalKeys_ge hps
  unfold minKeys
  split <;> split <;> first | omega | simp_all

/-- Nothing to repair. -/
theorem UpperStep.refl (hfree : st.FreeList free)
    (hup : Upper st.pages st.header.rootIndexPageId hs rows) (hocc : Occupied st.pageSize rows)
    (hnd : (hs.map Prod.snd ++ rowsPids rows).Nodup) (hheld : ∀ p ∈ rowsPids rows, st.Held free p) :
    UpperStep st free rows st free hs rows where
  sameMeta := .refl
  freeList := hfree
  upper := hup
  occupied := hocc
  nodup := hnd
  held := fun p => by
    have := hheld p
    tauto
  fresh := fun _ hp => .inl hp
  body := fun _ _ => .refl
  frame := fun _ _ _ _ => rfl

/-- Recorded events do not disturb a repair. -/
theorem UpperStep.sameData (h : UpperStep st free rows st₁ free' hs' rows') (hs : st₁.SameData st') :
    UpperStep st free rows st' free' hs' rows' := by
  have hf := hs.freeList h.freeList
  have hmeta := h.sameMeta.trans hs.pagesTo.sameMeta
  have hheld : ∀ p, st'.Held free' p ↔ st₁.Held free' p := hs.held
  obtain ⟨t, rfl⟩ := hs
  exact ⟨hmeta, hf, h.upper, h.occupied, h.nodup, fun p => (hheld p).trans (h.held p), h.fresh,
    h.body, h.frame⟩

/-- The row step in which the neighbours `mid` are replaced by `mid'`. -/
theorem RowStep.replace {a mid mid' b : Row} (hmeta : st.SameMeta st')
    (hrow : RowOk st.pages hs (a ++ mid ++ b))
    (hkids : (a ++ mid' ++ b).flatMap InnerNode.kids = hs')
    (hndrow : ((a ++ mid ++ b).map InnerNode.pid).Nodup)
    (hnd : (hs'.map Prod.snd ++ ((a ++ mid' ++ b).map InnerNode.pid ++ rowsPids rest)).Nodup)
    (hbelow : ∀ q ∈ hs'.map Prod.snd, st.Held free q ∧ q ∉ (a ++ mid ++ b).map InnerNode.pid)
    (hrowHeld : ∀ q ∈ (a ++ mid ++ b).map InnerNode.pid, st.Held free q)
    (hheld : ∀ q, st'.Held free' q ↔
      st.Held free q ∧ q ∉ mid.map InnerNode.pid ∨ q ∈ mid'.map InnerNode.pid)
    (hfresh : ∀ q ∈ mid'.map InnerNode.pid, q ∈ mid.map InnerNode.pid ∨ ¬ st.Held free q)
    (hon : ∀ n ∈ mid', n.On (st'.pages n.pid))
    (hmoved : ∀ n ∈ mid', ∀ c ∈ n.kids, (st'.pages c.2).parent = n.pid ∧
      (st'.pages c.2).SameBody (st.pages c.2))
    (hframe : ∀ q, st.Held free q → q ∉ mid.map InnerNode.pid →
      q ∉ (mid'.flatMap InnerNode.kids).map Prod.snd → q ∉ rowsPids rest →
      st'.pages q = st.pages q) :
    RowStep st free (a ++ mid ++ b) rest st' free' hs' (a ++ mid' ++ b) := by
  obtain ⟨hndkids, hnd', hdisj⟩ := List.nodup_append.mp hnd
  have hbelow' : ∀ q ∈ hs'.map Prod.snd,
      q ∉ (a ++ mid' ++ b).map InnerNode.pid ∧ q ∉ rowsPids rest := by
    intro q hq
    exact ⟨fun h => hdisj q hq q (List.mem_append_left _ h) rfl,
      fun h => hdisj q hq q (List.mem_append_right _ h) rfl⟩
  have hmidkid : ∀ q ∈ (mid'.flatMap InnerNode.kids).map Prod.snd, q ∈ hs'.map Prod.snd := by
    intro q hq
    rw [← hkids]
    simp only [List.flatMap_append, List.map_append, List.mem_append]
    exact .inl (.inr hq)
  -- nodes and kids beside the replaced ones are framed
  have hside : ∀ n ∈ a ++ b, st'.pages n.pid = st.pages n.pid := by
    intro n hn
    have hmem : n.pid ∈ (a ++ mid ++ b).map InnerNode.pid := List.mem_map_of_mem (by grind)
    have hmem' : n.pid ∈ (a ++ mid' ++ b).map InnerNode.pid := List.mem_map_of_mem (by grind)
    refine hframe _ (hrowHeld _ hmem) ?_ (fun h => (hbelow' _ (hmidkid _ h)).1 hmem') ?_
    · simp only [List.map_append, List.nodup_append] at hndrow
      grind
    · exact fun h => (List.nodup_append.mp hnd').2.2 _ hmem' _ h rfl
  have hkid : ∀ n ∈ a ++ b, ∀ c ∈ n.kids, st'.pages c.2 = st.pages c.2 := by
    intro n hn c hc
    have hmem : c.2 ∈ hs'.map Prod.snd := by
      rw [← hkids]
      exact List.mem_map_of_mem (List.mem_flatMap.mpr ⟨n, by grind, hc⟩)
    refine hframe _ (hbelow _ hmem).1 ?_ ?_ (hbelow' _ hmem).2
    · have := (hbelow _ hmem).2
      simp only [List.map_append, List.mem_append] at this
      grind
    · have hc' : c.2 ∈ ((a ++ b).flatMap InnerNode.kids).map Prod.snd :=
        List.mem_map_of_mem (List.mem_flatMap.mpr ⟨n, hn, hc⟩)
      rw [← hkids] at hndkids
      simp only [List.flatMap_append, List.map_append, List.nodup_append, List.mem_append] at hndkids hc'
      grind
  constructor
  case sameMeta => exact hmeta
  case rowOk =>
    refine hrow.replace hkids ?_ hon fun n hn c hc => (hmoved n hn c hc).1
    intro n hn
    refine ⟨?_, fun c hc => by rw [hkid n hn c hc]⟩
    rw [hside n hn]
    exact .refl
  case nodup => exact hnd
  case below => exact hbelow
  case held =>
    intro q
    have := hrowHeld q
    simp only [List.map_append, List.mem_append, List.nodup_append] at hndrow hnd' this ⊢
    rw [hheld]
    grind
  case fresh =>
    intro q hq
    simp only [List.map_append, List.mem_append] at hq ⊢
    have := hfresh q
    tauto
  case body =>
    intro q hq
    obtain ⟨c, hc, rfl⟩ := List.mem_map.mp hq
    rw [← hkids] at hc
    obtain ⟨n, hn, hc⟩ := List.mem_flatMap.mp hc
    by_cases hmid : n ∈ mid'
    · exact (hmoved n hmid c hc).2
    · rw [hkid n (by grind) c hc]
      exact .refl
  case frame =>
    intro q hq hbelowq hqrow hqrest
    refine hframe q hq ?_ (fun h => hbelowq (hmidkid q h)) hqrest
    simp only [List.map_append, List.mem_append] at hqrow
    tauto

theorem UpperStep.ofSameData (hs : st.SameData st₁) (h : UpperStep st₁ free rows st' free' hs' rows') :
    UpperStep st free rows st' free' hs' rows' := by
  have hmeta := hs.pagesTo.sameMeta.trans h.sameMeta
  have hheld : ∀ p, st₁.Held free p ↔ st.Held free p := hs.held
  obtain ⟨t, rfl⟩ := hs
  exact ⟨hmeta, h.freeList, h.upper, h.occupied, h.nodup,
    fun p => by rw [h.held, hheld], fun p hp => by rw [← hheld]; exact h.fresh p hp, h.body,
    fun p hp => h.frame p ((hheld p).mpr hp)⟩

/-- A changed row followed by a repair of the rows above it is a repair. -/
theorem RowStep.cons (h : RowStep st free row rest st₁ free₁ hs' row')
    (hpids : rowsPids rest₁ = rowsPids rest)
    (hstep : UpperStep st₁ free₁ rest₁ st' free' (row'.map InnerNode.head) rest')
    (hfull : ∀ n ∈ row', n.Full st.pageSize rest') :
    UpperStep st free (row :: rest) st' free' hs' (row' :: rest') := by
  obtain ⟨-, hnd', hdisj⟩ := List.nodup_append.mp h.nodup
  have hstep_nd := hstep.nodup
  rw [map_snd_head] at hstep_nd
  -- the row below is disjoint from everything the repair touches
  have hbelow : ∀ p ∈ hs'.map Prod.snd, p ∉ row'.map InnerNode.pid ∧ p ∉ rowsPids rest := by
    intro p hp
    exact ⟨fun hp' => hdisj p hp p (List.mem_append_left _ hp') rfl,
      fun hp' => hdisj p hp p (List.mem_append_right _ hp') rfl⟩
  have hheld₁ : ∀ p ∈ hs'.map Prod.snd, st₁.Held free₁ p := fun p hp =>
    (h.held p).mpr (.inl (h.below p hp))
  have hframe : ∀ p ∈ hs'.map Prod.snd, st'.pages p = st₁.pages p := by
    intro p hp
    refine hstep.frame p (hheld₁ p hp) ?_ ?_
    · rw [map_snd_head]
      exact (hbelow p hp).1
    · rw [hpids]
      exact (hbelow p hp).2
  constructor
  case sameMeta => exact h.sameMeta.trans hstep.sameMeta
  case freeList => exact hstep.freeList
  case upper =>
    refine ⟨h.rowOk.congr ?_ ?_, hstep.upper⟩
    · intro n hn
      exact hstep.body _ (by rw [map_snd_head]; exact List.mem_map_of_mem hn)
    · intro c hc
      rw [hframe _ (List.mem_map_of_mem hc)]
  case occupied =>
    refine ⟨hfull, ?_⟩
    rw [← h.sameMeta.pageSize]
    exact hstep.occupied
  case nodup =>
    refine List.nodup_append.mpr ⟨(List.nodup_append.mp h.nodup).1, hstep_nd, ?_⟩
    rintro p hp q hq rfl
    rcases List.mem_append.mp hq with hq | hq
    · exact (hbelow p hp).1 hq
    · rcases hstep.fresh p hq with hq | hq
      · exact (hbelow p hp).2 (hpids ▸ hq)
      · exact hq (hheld₁ p hp)
  case held =>
    intro p
    have hdisj' : p ∈ row'.map InnerNode.pid → p ∉ rowsPids rest := fun h1 h2 =>
      (List.nodup_append.mp hnd').2.2 p h1 p h2 rfl
    rw [hstep.held, h.held, hpids, rowsPids_cons, rowsPids_cons, List.mem_append, List.mem_append]
    tauto
  case fresh =>
    intro p hp
    rw [rowsPids_cons, List.mem_append] at hp ⊢
    rcases hp with hp | hp
    · rcases h.fresh p hp with hp | hp
      · exact .inl (.inl hp)
      · exact .inr hp
    · rcases hstep.fresh p hp with hp | hp
      · exact .inl (.inr (hpids ▸ hp))
      · rw [h.held] at hp
        tauto
  case body =>
    intro p hp
    rw [hframe p hp]
    exact h.body p hp
  case frame =>
    intro p hp hbelow' hpids'
    rw [rowsPids_cons, List.mem_append, not_or] at hpids'
    have hrow' : p ∉ row'.map InnerNode.pid := fun hmem => by
      rcases h.fresh p hmem with hmem | hmem
      · exact hpids'.1 hmem
      · exact hmem hp
    rw [hstep.frame p ((h.held p).mpr (.inl ⟨hp, hpids'.1⟩)) (by rwa [map_snd_head])
      (by rw [hpids]; exact hpids'.2)]
    exact h.frame p hp hbelow' hpids'.1 hpids'.2

end UpperStep

end MiniDb
