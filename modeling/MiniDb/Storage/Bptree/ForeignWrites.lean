import MiniDb.Storage.Bptree.LeafMerge

/-! # Writes to pages of others

A page is foreign to a call that has not write-latched it and may not write it otherwise. Here are
the programs of `bptree.c` that write one: the sibling pointer of a leaf two places on, the parent
fields of the children that an internal node hands over, and a page that is freed after its latch
has been dropped. -/

set_option autoImplicit false

namespace MiniDb

open Lib

/-- The page is neither write-latched nor one of the fresh ones. -/
def Foreign (fresh : Set Nat) (L : Ledger) (p : Nat) : Prop := .wlatch p ∉ L ∧ p ∉ fresh

/-- Every run writes a foreign page, and what comes before is in order but for the latches. -/
abbrev WritesForeign {α : Type} (fresh : Set Nat) (m : PagerM α) (L : Ledger) : Prop :=
  AlwaysMeets Pager.trace (LedgerStep Set.univ) (WritesUnlatched fresh) m L

/-- The run between the states does. -/
abbrev WroteForeign (fresh : Set Nat) (st : Pager) (L : Ledger) (st' : Pager) : Prop :=
  MeetsBad (WritesUnlatched fresh) st L st'

section

variable {fresh : Set Nat} {L : Ledger} {p pid : Nat}

@[simp] theorem foreign_pin : Foreign fresh (.pin pid ::ₘ L) p ↔ Foreign fresh L p := by
  simp [Foreign]

@[simp] theorem foreign_wlatch :
    Foreign fresh (.wlatch pid ::ₘ L) p ↔ p ≠ pid ∧ Foreign fresh L p := by
  simp [Foreign, and_assoc]

/-! ## One page -/

theorem writesForeign_writePage {page : Page} (h : Foreign fresh L pid) :
    WritesForeign fresh (writePage pid page) L := by
  intro st a st' hrun
  obtain rfl := run_modify_eq_some.mp hrun
  exact .event rfl ⟨pid, rfl, h.1, h.2⟩

theorem writesForeign_writeLeaf {l : LeafPage} (h : Foreign fresh L pid) :
    WritesForeign fresh (writeLeaf pid l) L :=
  records_get.meets fun _ => pays_guard.meets fun _ => writesForeign_writePage h

theorem writesForeign_setParent {parent : Nat} (h : Foreign fresh L pid) :
    WritesForeign fresh (setParent pid parent) L := by
  apply pays_readPage.meets
  intro page
  split
  · exact writesForeign_writePage h
  · exact writesForeign_writePage h
  · intro st a st' hrun
    cases hrun

/-- `update_child_parent_page` has a pin on the child, and nothing else. -/
theorem writesForeign_updateChildParentPage {parent : Nat} (h : Foreign fresh L pid) :
    WritesForeign fresh (updateChildParentPage pid parent) L := by
  apply pays_pagerGetPage.meets
  intro _
  apply (writesForeign_setParent (foreign_pin.mpr h)).bind
  intro _
  exact (@pays_pagerMarkDirty ∅ 0 pid).extends.bind fun _ => (@pays_pagerUnpin ∅ _ 0 pid rfl).extends

/-- So has the redirection of a prev pointer. -/
theorem writesForeign_setPrevLeaf {prev : Nat} (h : Foreign fresh L pid) (hne : pid ≠ 0) :
    WritesForeign fresh (setPrevLeaf pid prev) L := by
  unfold setPrevLeaf
  rw [if_pos hne]
  apply pays_pagerGetPage.meets
  intro _
  apply pays_readLeaf.meets
  intro rlph
  apply (writesForeign_writeLeaf (foreign_pin.mpr h)).bind
  intro _
  exact (@pays_pagerMarkDirty ∅ 0 pid).extends.bind fun _ => (@pays_pagerUnpin ∅ _ 0 pid rfl).extends

theorem writesForeign_pagerFreePage (h : Foreign fresh L pid) :
    WritesForeign fresh (pagerFreePage pid) L := by
  apply pays_pagerGetPage.meets
  intro _
  apply records_get.meets
  intro st
  apply (writesForeign_writePage (foreign_pin.mpr h)).bind
  intro _
  apply (@pays_pagerMarkDirty ∅ 0 pid).extends.bind
  intro _
  exact (@pays_pagerUnpin ∅ _ 0 pid rfl).extends.bind fun _ => keeps_modify fun _ => List.suffix_refl _

end

/-! ## Splitting -/

section Split

variable {fresh : Set Nat} {L : Ledger} {leafPid key parentPid curKey curRight : Nat}
  {lph : LeafPage} {ref : RowRef} {iph : InternalPage}

/-- The leaf after the one that is split is only pinned. -/
theorem writesForeign_splitLeaf (h : Foreign fresh L lph.nextLeafPageId)
    (hne : lph.nextLeafPageId ≠ 0) : WritesForeign fresh (splitLeaf leafPid lph key ref) L := by
  unfold splitLeaf
  dsimp only
  split
  · apply (balanced_pagerAllocPage L).meets
    intro newPid
    apply pays_pagerGetPage.meets
    intro _
    apply (pays_writeLeaf may).meets
    intro _
    apply pays_pagerMarkDirty.meets
    intro _
    apply (writesForeign_setPrevLeaf (foreign_pin.mpr h) hne).bind
    intro _
    apply (@pays_writeLeaf Set.univ 0 _ _ may).extends.bind
    intro _
    apply (@pays_pagerMarkDirty ∅ 0 _).extends.bind
    intro _
    exact (@pays_pagerUnpin ∅ _ 0 _ rfl).extends.bind fun _ => keeps_pure
  · intro st a st' hrun
    cases hrun

/-- A node that is split hands the children in its upper half over to the new page. -/
theorem writesForeign_splitInternal {e : Nat × Nat}
    (he : e ∈ (insertAt iph.entries (internalFind iph.entries curKey) (curKey, curRight)).drop
      ((insertAt iph.entries (internalFind iph.entries curKey) (curKey, curRight)).length / 2 + 1))
    (h : Foreign fresh L e.2) :
    WritesForeign fresh (splitInternal parentPid iph curKey curRight) L := by
  apply (pays_updateChildParentPage may).meets
  intro _
  dsimp only
  split
  · apply (balanced_pagerAllocPage L).meets
    intro newPid
    apply pays_pagerGetPage.meets
    intro _
    apply (pays_writeInternal may).meets
    intro _
    apply pays_pagerMarkDirty.meets
    intro _
    apply (pays_updateChildParentPage may).meets
    intro _
    apply (alwaysMeets_forM he (fun _ _ => pays_updateChildParentPage may)
      (writesForeign_updateChildParentPage (foreign_pin.mpr h))).bind
    intro _
    apply (@pays_writeInternal Set.univ 0 _ _ may).extends.bind
    intro _
    apply (@pays_pagerMarkDirty ∅ 0 _).extends.bind
    intro _
    apply (@pays_pagerUnpin ∅ _ 0 _ rfl).extends.bind
    intro _
    exact (@pays_pagerUnpin ∅ _ 0 _ rfl).extends.bind fun _ => keeps_pure
  · intro st a st' hrun
    cases hrun

end Split

/-! ## Merging leaves -/

section Leaves

variable {fresh : Set Nat} {L : Ledger} {parentPid leafPid leftPid rightPid unlatch sepIdx : Nat}
  {iph : InternalPage} {left right : LeafPage} {st st' : Pager}

/-- The leaf after the two that are merged is only pinned. -/
theorem writesForeign_mergeLeaf_next (h : Foreign fresh L right.nextLeafPageId)
    (hne : right.nextLeafPageId ≠ 0) :
    WritesForeign fresh (mergeLeaf parentPid leftPid rightPid unlatch sepIdx iph left right)
      (.wlatch unlatch ::ₘ .pin parentPid ::ₘ L) := by
  apply (pays_writeLeaf may).meets
  intro _
  apply pays_pagerMarkDirty.meets
  intro _
  apply (pays_pagerUnlatchW rfl).meets
  intro _
  apply (writesForeign_setPrevLeaf (foreign_pin.mpr h) hne).bind
  intro _
  apply (@pays_writeInternal Set.univ 0 _ _ may).extends.bind
  intro _
  apply (@pays_pagerMarkDirty ∅ 0 _).extends.bind
  intro _
  apply (@pays_pagerUnpin ∅ _ 0 _ rfl).extends.bind
  intro _
  exact (@pays_pagerFreePage Set.univ 0 _ may).extends

/-- A right sibling is freed after its latch has been dropped. -/
theorem writesForeign_mergeLeaf_right (h : Foreign fresh L rightPid) :
    WritesForeign fresh (mergeLeaf parentPid leftPid rightPid unlatch sepIdx iph left right)
      (.wlatch unlatch ::ₘ .pin parentPid ::ₘ L) := by
  apply (pays_writeLeaf may).meets
  intro _
  apply pays_pagerMarkDirty.meets
  intro _
  apply (pays_pagerUnlatchW rfl).meets
  intro _
  apply (pays_setPrevLeaf (.inr (Set.mem_univ _))).meets
  intro _
  apply (pays_writeInternal may).meets
  intro _
  apply pays_pagerMarkDirty.meets
  intro _
  exact (pays_pagerUnpin rfl).meets fun _ => writesForeign_pagerFreePage h

/-- On the left edge of its parent a leaf is merged with its right sibling. -/
theorem writesForeign_mergeLeaves_edge
    (h : ∀ e, iph.entries[0]? = some e → Foreign fresh L e.2) :
    WritesForeign fresh (mergeLeaves parentPid leafPid 0 iph) (.pin parentPid ::ₘ L) := by
  unfold mergeLeaves
  rw [if_neg (lt_irrefl 0)]
  split
  · rename_i sep rsibPid hget
    apply pays_readLeaf.meets
    intro lph
    apply pays_pagerGetPageWlatch.meets
    intro _
    apply pays_readLeaf.meets
    intro rlph
    exact writesForeign_mergeLeaf_right (h _ hget)
  · intro st a st' hrun
    cases hrun

/-- Elsewhere the leaf after it loses its left neighbour. -/
theorem wroteForeign_mergeLeaves {childIdx : Nat} {lph : LeafPage} (hpos : 0 < childIdx)
    (hpage : st.pages leafPid = .leaf lph) (hne : lph.nextLeafPageId ≠ 0)
    (h : Foreign fresh L lph.nextLeafPageId)
    (hrun : (mergeLeaves parentPid leafPid childIdx iph).run st = some ((), st')) :
    WroteForeign fresh st (.pin parentPid ::ₘ L) st' := by
  unfold mergeLeaves at hrun
  rw [if_pos hpos] at hrun
  split at hrun
  · obtain ⟨_, st₁, hlatch, hrun⟩ := run_bind_eq_some.mp hrun
    have hpaid := @pays_pagerGetPageWlatch Set.univ (.pin parentPid ::ₘ L) _ _ _ _ hlatch
    obtain rfl := run_modify_eq_some.mp hlatch
    obtain ⟨llph, st₂, hread, hrun⟩ := run_bind_eq_some.mp hrun
    obtain ⟨-, rfl⟩ := run_readLeaf_eq_some.mp hread
    obtain ⟨lph', st₃, hread', hrun⟩ := run_bind_eq_some.mp hrun
    obtain ⟨hpage', rfl⟩ := run_readLeaf_eq_some.mp hread'
    obtain rfl := Page.leaf.inj (hpage.symm.trans hpage')
    exact hpaid.meets (writesForeign_mergeLeaf_next h hne _ _ _ hrun)
  · cases hrun

end Leaves

/-! ## The children of internal nodes -/

section Internal

variable {fresh : Set Nat} {L : Ledger} {parentPid nodePid childIdx : Nat}
  {iph niph : InternalPage} {st st' : Pager}

/-- Whatever node hands over a child has to write the parent field of a foreign page. -/
def KidsForeign (fresh : Set Nat) (L : Ledger) (g : Nat → Page) (iph : InternalPage) : Prop :=
  ∀ p ∈ (Page.internal iph).children, ∀ c ∈ (g p).children,
    c ∉ (Page.internal iph).children ∧ Foreign fresh L c

theorem childAt_mem_children {idx c : Nat} (h : iph.childAt idx = some c) :
    c ∈ (Page.internal iph).children := by
  cases idx with
  | zero => exact Option.some.inj h ▸ List.mem_cons_self
  | succ i =>
    obtain ⟨e, he, rfl⟩ := Option.map_eq_some_iff.mp h
    exact List.mem_cons_of_mem _ (List.mem_map_of_mem (List.mem_of_getElem? he))

/-- Below a latched sibling. -/
theorem KidsForeign.foreign {p sibPid c : Nat} (h : KidsForeign fresh L st.pages iph)
    (hp : p ∈ (Page.internal iph).children) (hsib : sibPid ∈ (Page.internal iph).children)
    (hc : c ∈ (st.pages p).children) :
    Foreign fresh (.wlatch sibPid ::ₘ L) c := by
  obtain ⟨hnot, hforeign⟩ := h p hp c hc
  rw [foreign_wlatch]
  exact ⟨fun heq => hnot (heq ▸ hsib), hforeign⟩

theorem writesForeign_borrowInternalRight {rsibPid sepIdx sep : Nat} {riph : InternalPage}
    (h : Foreign fresh L riph.leftmostChildPageId) :
    WritesForeign fresh (borrowInternalRight parentPid nodePid rsibPid sepIdx sep iph niph riph)
      L := by
  unfold borrowInternalRight
  split
  · apply (pays_writeInternal may).meets
    intro _
    apply (pays_writeInternal may).meets
    intro _
    apply (pays_writeInternal may).meets
    intro _
    apply pays_pagerMarkDirty.meets
    intro _
    apply pays_pagerMarkDirty.meets
    intro _
    apply pays_pagerMarkDirty.meets
    intro _
    apply (writesForeign_updateChildParentPage h).bind
    intro _
    apply (@pays_pagerUnpin ∅ _ 0 _ rfl).extends.bind
    intro _
    apply (@pays_pagerUnlatchW ∅ _ 0 _ rfl).extends.bind
    intro _
    exact (@pays_pagerUnpin ∅ _ 0 _ rfl).extends
  · intro st a st' hrun
    cases hrun

theorem writesForeign_borrowInternalLeft {lsibPid sepIdx sep : Nat} {liph : InternalPage}
    (h : ∀ e ∈ liph.entries, Foreign fresh L e.2) :
    WritesForeign fresh (borrowInternalLeft parentPid nodePid lsibPid sepIdx sep iph niph liph)
      L := by
  unfold borrowInternalLeft
  split
  · rename_i borrowed hget
    apply (pays_writeInternal may).meets
    intro _
    apply (pays_writeInternal may).meets
    intro _
    apply (pays_writeInternal may).meets
    intro _
    apply pays_pagerMarkDirty.meets
    intro _
    apply pays_pagerMarkDirty.meets
    intro _
    apply pays_pagerMarkDirty.meets
    intro _
    apply (writesForeign_updateChildParentPage (h _ (List.mem_of_getElem? hget))).bind
    intro _
    apply (@pays_pagerUnpin ∅ _ 0 _ rfl).extends.bind
    intro _
    apply (@pays_pagerUnlatchW ∅ _ 0 _ rfl).extends.bind
    intro _
    exact (@pays_pagerUnpin ∅ _ 0 _ rfl).extends
  · intro st a st' hrun
    cases hrun

theorem writesForeign_appendInternal {leftPid sep : Nat} {left right : InternalPage}
    (h : Foreign fresh L right.leftmostChildPageId) :
    WritesForeign fresh (appendInternal leftPid left sep right) L := by
  apply (pays_writeInternal may).meets
  intro _
  apply pays_pagerMarkDirty.meets
  intro _
  apply (writesForeign_updateChildParentPage h).bind
  intro _
  have hcopy : Pays Set.univ (right.entries.forM fun e => updateChildParentPage e.2 leftPid) 0
      fun _ => 0 := records_forM fun _ _ => pays_updateChildParentPage may
  exact hcopy.extends

/-- Asking the right sibling writes a foreign page, or the sibling has nothing to lend. -/
theorem tryBorrowInternalRight_wroteForeign {done : Bool} (h : KidsForeign fresh L st.pages iph)
    (hrun : (tryBorrowInternalRight parentPid nodePid childIdx iph niph).run st =
      some (done, st')) :
    done = true ∧ WroteForeign fresh st L st' ∨
      done = false ∧ st.SameData st' ∧ Paid Set.univ st L st' L := by
  unfold tryBorrowInternalRight at hrun
  split at hrun
  · split at hrun
    · rename_i sep rsibPid hget
      have hchild : iph.childAt (childIdx + 1) = some rsibPid := by
        rw [InternalPage.childAt, hget]
        rfl
      have hsib := childAt_mem_children hchild
      obtain ⟨_, st₁, hlatch, hrun⟩ := run_bind_eq_some.mp hrun
      have hpaid := @pays_pagerGetPageWlatch Set.univ L _ _ _ _ hlatch
      obtain rfl := run_modify_eq_some.mp hlatch
      obtain ⟨riph, st₂, hread, hrun⟩ := run_bind_eq_some.mp hrun
      obtain ⟨hpage, rfl⟩ := run_readInternal_eq_some.mp hread
      rw [run_bind_of run_getPageSize] at hrun
      split at hrun
      · obtain ⟨_, st₃, hborrow, hrun⟩ := run_bind_eq_some.mp hrun
        obtain ⟨rfl, rfl⟩ := run_pure_eq_some.mp hrun
        refine .inl ⟨rfl, hpaid.meets (writesForeign_borrowInternalRight (h.foreign hsib hsib ?_)
          _ _ _ hborrow)⟩
        have hpage : st.pages rsibPid = .internal riph := hpage
        rw [hpage]
        exact List.mem_cons_self
      · obtain ⟨_, st₃, hunlatch, hrun⟩ := run_bind_eq_some.mp hrun
        have hback := hpaid.trans (pays_pagerUnlatchW rfl _ _ _ hunlatch)
        obtain rfl := run_modify_eq_some.mp hunlatch
        obtain ⟨rfl, rfl⟩ := run_pure_eq_some.mp hrun
        exact .inr ⟨rfl, .trans .log (.trans .log .log), hback⟩
    · cases hrun
  · obtain ⟨rfl, rfl⟩ := run_pure_eq_some.mp hrun
    exact .inr ⟨rfl, .refl, .refl⟩

/-- So does asking the left one. -/
theorem tryBorrowInternalLeft_wroteForeign {done : Bool} (h : KidsForeign fresh L st.pages iph)
    (hrun : (tryBorrowInternalLeft parentPid nodePid childIdx iph niph).run st =
      some (done, st')) :
    done = true ∧ WroteForeign fresh st L st' ∨
      done = false ∧ st.SameData st' ∧ Paid Set.univ st L st' L := by
  unfold tryBorrowInternalLeft at hrun
  split at hrun
  · split at hrun
    · split at hrun
      · rename_i lsibPid hchild
        have hsib := childAt_mem_children hchild
        obtain ⟨_, st₁, hlatch, hrun⟩ := run_bind_eq_some.mp hrun
        have hpaid := @pays_pagerGetPageWlatch Set.univ L _ _ _ _ hlatch
        obtain rfl := run_modify_eq_some.mp hlatch
        obtain ⟨liph, st₂, hread, hrun⟩ := run_bind_eq_some.mp hrun
        obtain ⟨hpage, rfl⟩ := run_readInternal_eq_some.mp hread
        rw [run_bind_of run_getPageSize] at hrun
        split at hrun
        · obtain ⟨_, st₃, hborrow, hrun⟩ := run_bind_eq_some.mp hrun
          obtain ⟨rfl, rfl⟩ := run_pure_eq_some.mp hrun
          refine .inl ⟨rfl, hpaid.meets (writesForeign_borrowInternalLeft (fun e he =>
            h.foreign hsib hsib ?_) _ _ _ hborrow)⟩
          have hpage : st.pages lsibPid = .internal liph := hpage
          rw [hpage]
          exact List.mem_cons_of_mem _ (List.mem_map_of_mem he)
        · obtain ⟨_, st₃, hunlatch, hrun⟩ := run_bind_eq_some.mp hrun
          have hback := hpaid.trans (pays_pagerUnlatchW rfl _ _ _ hunlatch)
          obtain rfl := run_modify_eq_some.mp hunlatch
          obtain ⟨rfl, rfl⟩ := run_pure_eq_some.mp hrun
          exact .inr ⟨rfl, .trans .log (.trans .log .log), hback⟩
      · cases hrun
    · cases hrun
  · obtain ⟨rfl, rfl⟩ := run_pure_eq_some.mp hrun
    exact .inr ⟨rfl, .refl, .refl⟩

/-- A merge always does. -/
theorem mergeInternal_wroteForeign (h : KidsForeign fresh L st.pages iph)
    (hnode : nodePid ∈ (Page.internal iph).children) (hpage : st.pages nodePid = .internal niph)
    (hrun : (mergeInternal parentPid nodePid childIdx iph niph).run st = some ((), st')) :
    WroteForeign fresh st L st' := by
  -- what follows the copy, in both merges
  have hfinish : ∀ sibPid freePid idx, Keeps (fun st st' => st.trace <:+ st'.trace) (do
      deleteEntryFromInternal parentPid iph idx
      pagerMarkDirty parentPid
      pagerUnpin parentPid
      pagerUnpin nodePid
      pagerUnlatchW sibPid
      pagerFreePage freePid) := by
    intro sibPid freePid idx
    apply (@pays_writeInternal Set.univ 0 _ _ may).extends.bind
    intro _
    apply (@pays_pagerMarkDirty ∅ 0 _).extends.bind
    intro _
    apply (@pays_pagerUnpin ∅ _ 0 _ rfl).extends.bind
    intro _
    apply (@pays_pagerUnpin ∅ _ 0 _ rfl).extends.bind
    intro _
    apply (@pays_pagerUnlatchW ∅ _ 0 _ rfl).extends.bind
    intro _
    exact (@pays_pagerFreePage Set.univ 0 _ may).extends
  unfold mergeInternal at hrun
  split at hrun
  · split at hrun
    · split at hrun
      · rename_i lsibPid hchild
        obtain ⟨_, st₁, hlatch, hrun⟩ := run_bind_eq_some.mp hrun
        have hpaid := @pays_pagerGetPageWlatch Set.univ L _ _ _ _ hlatch
        obtain rfl := run_modify_eq_some.mp hlatch
        obtain ⟨liph, st₂, hread, hrun⟩ := run_bind_eq_some.mp hrun
        obtain ⟨-, rfl⟩ := run_readInternal_eq_some.mp hread
        refine hpaid.meets (((writesForeign_appendInternal (h.foreign hnode
          (childAt_mem_children hchild) ?_)).bind fun _ => hfinish _ _ _) _ _ _ hrun)
        rw [hpage]
        exact List.mem_cons_self
      · cases hrun
    · cases hrun
  · split at hrun
    · rename_i sep rsibPid hget
      have hchild : iph.childAt 1 = some rsibPid := by
        rw [InternalPage.childAt, hget]
        rfl
      have hsib := childAt_mem_children hchild
      obtain ⟨_, st₁, hlatch, hrun⟩ := run_bind_eq_some.mp hrun
      have hpaid := @pays_pagerGetPageWlatch Set.univ L _ _ _ _ hlatch
      obtain rfl := run_modify_eq_some.mp hlatch
      obtain ⟨riph, st₂, hread, hrun⟩ := run_bind_eq_some.mp hrun
      obtain ⟨hpage', rfl⟩ := run_readInternal_eq_some.mp hread
      refine hpaid.meets (((writesForeign_appendInternal (h.foreign hsib hsib ?_)).bind
        fun _ => hfinish _ _ _) _ _ _ hrun)
      have hpage' : st.pages rsibPid = .internal riph := hpage'
      rw [hpage']
      exact List.mem_cons_self
    · cases hrun

end Internal

end MiniDb
