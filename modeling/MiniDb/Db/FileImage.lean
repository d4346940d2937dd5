import MiniDb.Db.Reach
import MiniDb.Sql.Explain
import MiniDb.Storage.FileFormat

/-! # The file of a database

Whatever SQL texts do, the header and every page of the database keep within the fields of
`page_format.h`: counts, page ids, slot ids and keys are inside their widths, entry arrays inside
their pages, column names inside their 32 bytes. So a file that holds the bytes of a database is
read as this database. What the code does not check are its page ids, which must stay below 2^32. -/

set_option autoImplicit false

namespace MiniDb

open Lib

/-! ## Links -/

section Links

variable {g : Nat → Page} {head root : Nat} {free : List Nat} {chain : HeapChain}
  {hs : List (Nat × Nat)} {rows : List Row}

/-- Where the links of a free list lead. -/
theorem FreeChain.next_mem (h : FreeChain g head free) : (head = 0 ∨ head ∈ free) ∧
    ∀ p ∈ free, ∀ next, g p = .free next → next = 0 ∨ next ∈ free := by
  induction free generalizing head with
  | nil => exact ⟨.inl h, by simp⟩
  | cons q free ih =>
    obtain ⟨rfl, -, next, hpage, hrest⟩ := h
    obtain ⟨hnext, hmem⟩ := ih hrest
    refine ⟨.inr (by simp), ?_⟩
    intro p hp next' hpage'
    rcases List.mem_cons.mp hp with rfl | hp
    · obtain rfl : next = next' := Page.free.inj (hpage.symm.trans hpage')
      exact hnext.imp_right (List.mem_cons_of_mem _)
    · exact (hmem p hp next' hpage').imp_right (List.mem_cons_of_mem _)

/-- Where the links of the heap lead. -/
theorem HeapLinks.next_mem (h : HeapLinks head chain) : (head = 0 ∨ head ∈ chain.pids) ∧
    ∀ n ∈ chain, n.2.nextHeapPageId = 0 ∨ n.2.nextHeapPageId ∈ chain.pids := by
  induction chain generalizing head with
  | nil => exact ⟨.inl h, by simp⟩
  | cons m chain ih =>
    obtain ⟨rfl, hrest⟩ := h
    obtain ⟨hnext, hmem⟩ := ih hrest
    refine ⟨.inr (by simp [HeapChain.pids]), ?_⟩
    intro n hn
    rcases List.mem_cons.mp hn with rfl | hn
    · exact hnext.imp_right (List.mem_cons_of_mem _)
    · exact (hmem n hn).imp_right (List.mem_cons_of_mem _)

/-- Where the links between leaves lead. -/
theorem doublyLinked_mem {next prev : Nat → Nat} {l : List Nat} (h : DoublyLinked 0 next prev l)
    {p : Nat} (hp : p ∈ l) (hne : p ≠ 0) :
    (next p = 0 ∨ next p ∈ l) ∧ (prev p = 0 ∨ prev p ∈ l) := by
  obtain ⟨a, b, rfl⟩ := List.append_of_mem hp
  rw [h.next_eq hne, h.prev_eq hne]
  constructor
  · cases b with
    | nil => exact .inl rfl
    | cons q b => exact .inr (by simp)
  · cases hlast : a.getLast? with
    | none => exact .inl rfl
    | some q => exact .inr (List.mem_append_left _ (List.mem_of_getLast? hlast))

/-- Where the parent fields of the tree lead. -/
theorem Upper.parent_mem (h : Upper g root hs rows) : ∀ p ∈ hs.map Prod.snd ++ rowsPids rows,
    (g p).parent = 0 ∨ (g p).parent ∈ rowsPids rows := by
  induction rows generalizing hs with
  | nil =>
    obtain ⟨rfl, htop⟩ := h
    intro p hp
    obtain rfl : p = root := by simpa using hp
    exact .inl htop
  | cons row rest ih =>
    obtain ⟨hrow, hrest⟩ := h
    intro p hp
    rw [rowsPids_cons] at hp ⊢
    rcases List.mem_append.mp hp with hp | hp
    · obtain ⟨c, hc, rfl⟩ := List.mem_map.mp hp
      rw [← hrow.kids] at hc
      obtain ⟨n, hn, hkid⟩ := List.mem_flatMap.mp hc
      rw [hrow.parent n hn c hkid]
      exact .inr (List.mem_append_left _ (List.mem_map_of_mem hn))
    · rw [← map_snd_head] at hp
      exact (ih hrest p hp).imp_right (List.mem_append_right _)

/-- The kids of an internal node are nodes of the tree, and their low keys those of leaves. -/
theorem Upper.kids_mem (h : Upper g root hs rows) : ∀ row ∈ rows, ∀ n ∈ row, ∀ c ∈ n.kids,
    c.1 ∈ hs.map Prod.fst ∧ c.2 ∈ hs.map Prod.snd ++ rowsPids rows := by
  induction rows generalizing hs with
  | nil => simp
  | cons row rest ih =>
    obtain ⟨hrow, hrest⟩ := h
    intro row' hrow' n hn c hc
    rcases List.mem_cons.mp hrow' with rfl | hrow'
    · have hmem : c ∈ hs := hrow.kids ▸ List.mem_flatMap.mpr ⟨n, hn, hc⟩
      exact ⟨List.mem_map_of_mem hmem, List.mem_append_left _ (List.mem_map_of_mem hmem)⟩
    · obtain ⟨hlow, hpid⟩ := ih hrest row' hrow' n hn c hc
      constructor
      · rw [← hrow.kids]
        exact heads_sublist.mem hlow
      · rw [map_snd_head] at hpid
        rw [rowsPids_cons]
        exact List.mem_append_right _ hpid

theorem Occupied.length_le {pageSize : Nat} (h : Occupied pageSize rows) :
    ∀ row ∈ rows, ∀ n ∈ row, n.entries.length ≤ maxInternalKeys pageSize := by
  induction rows with
  | nil => simp
  | cons row rest ih =>
    intro row' hrow' n hn
    rcases List.mem_cons.mp hrow' with rfl | hrow'
    · exact (h.1 n hn).2
    · exact ih h.2 row' hrow' n hn

end Links

/-! ## Heap pages -/

section Heap

variable {hph k : HeapPage} {slots slots' : List Slot} {pageSize rowSize pid i head : Nat}
  {free : List Nat} {read read' : Nat → List UInt8}

theorem liveRows_same (hs : List.Forall₂ Slot.Same slots slots')
    (hread : ∀ s ∈ slots, read' s.offset = read s.offset) :
    liveRows pid read' i slots' = liveRows pid read i slots := by
  induction hs generalizing i with
  | nil => rfl
  | @cons s t slots slots' hst _ ih =>
    have hrest : ∀ j, liveRows pid read' j slots' = liveRows pid read j slots := fun j =>
      ih fun u hu => hread u (List.mem_cons_of_mem _ hu)
    simp only [liveRows, hst.status, hst.offset, hread s (by simp), hrest]

/-- Heap pages that mean the same have the same rows: these lie behind the directory. -/
theorem HeapPage.Layout.rows_same (h : hph.Layout pageSize rowSize free) (hs : hph.Same k) :
    k.rows pid rowSize = hph.rows pid rowSize := by
  rw [HeapPage.rows, HeapPage.rows]
  apply liveRows_same hs.slots
  intro s hslot
  obtain ⟨j, hj⟩ := List.mem_iff_getElem?.mp hslot
  have hle : hph.directoryEnd ≤ s.offset := (h.inside hj).1
  rw [slice, slice, ← Nat.add_sub_of_le hle, ← List.drop_drop, hs.data, List.drop_drop]

/-- The links between free slots are slot ids, or `SLOT_NONE`. -/
theorem FreeSlots.next_lt (h : FreeSlots slots head free) (hlen : slots.length < 65536) :
    head < 65536 ∧ ∀ i ∈ free, ∀ s, slots[i]? = some s → s.nextFree < 65536 := by
  induction free generalizing head with
  | nil =>
    obtain rfl : head = slotNone := h
    exact ⟨by decide, by simp⟩
  | cons j free ih =>
    obtain ⟨rfl, t, ht, hrest⟩ := h
    obtain ⟨hnext, hmem⟩ := ih hrest
    refine ⟨(List.getElem?_eq_some_iff.mp ht).1.trans hlen, ?_⟩
    intro i hi s hs
    rcases List.mem_cons.mp hi with rfl | hi
    · obtain rfl : t = s := Option.some.inj (ht.symm.trans hs)
      exact hnext
    · exact hmem i hi s hs

theorem HeapPage.Layout.storable (h : hph.Layout pageSize rowSize free) (hps : pageSize < 65536)
    (hnext : hph.nextHeapPageId < 2 ^ 32) : hph.Storable pageSize := by
  have hfits := h.fits
  have hcount : hph.slots.length < 65536 := (h.lt_slotNone hps).trans (by decide)
  obtain ⟨hhead, hfree⟩ := h.chain.next_lt hcount
  constructor
  · exact hnext
  · exact hhead
  · rw [h.space]
    omega
  · exact hcount
  · intro s hs
    obtain ⟨j, hj⟩ := List.mem_iff_getElem?.mp hs
    refine ⟨?_, fun hstatus => hfree j ((h.free_iff j s hj).mp hstatus) s hj⟩
    have hin := (h.inside hj).2
    omega
  · exact h.length
  · rw [HeapPage.directoryEnd]
    omega

/-- An empty page can be stored whatever the page size. -/
theorem storable_blank (hps : heapHeaderSize ≤ pageSize) :
    (⟨0, slotNone, 0, [], List.replicate pageSize 0⟩ : HeapPage).Storable pageSize where
  nextHeapPageId := by simp
  freeSlotHead := by simp [slotNone]
  freeSpaceOffset := by simp
  count := by simp
  slots := by simp
  length := List.length_replicate
  directory := by simpa [HeapPage.directoryEnd] using hps

end Heap

/-! ## All pages -/

section Pages

variable {st : Pager} {free : List Nat} {leaves : List LeafNode} {rows : List Row} {rowSize p : Nat}
  {entries : List (Nat × RowRef)} {chain : HeapChain}

theorem lt_of_link {pids : List Nat} (hpos : 0 < st.header.nextPageId)
    (hheld : ∀ q ∈ pids, st.Held free q) (hp : p = 0 ∨ p ∈ pids) : p < st.header.nextPageId := by
  rcases hp with rfl | hp
  · exact hpos
  · exact (hheld p hp).2.1

/-- A parent field is the id of an internal page of the tree, or 0. -/
theorem TreeInv.parent_lt (h : TreeInv st free leaves rows) (hp : p ∈ treePids leaves rows) :
    (st.pages p).parent < st.header.nextPageId := by
  have hparent := h.upper.parent_mem p (by rwa [map_snd_leaf_head])
  refine lt_of_link h.freeList.pos (fun q hq => h.held q (List.mem_append_right _ hq)) hparent

theorem TreeInv.leaf_storable (h : TreeInv st free leaves rows) (hwidth : st.pageSize < 2 ^ 32)
    (hpages : st.header.nextPageId < 2 ^ 32) {n : LeafNode} (hn : n ∈ leaves)
    (hrefs : ∀ e ∈ n.entries, e.2.pageId < 2 ^ 32 ∧ e.2.slotId < 65536) :
    (st.pages n.pid).Storable st.pageSize := by
  have hpid : n.pid ∈ leaves.map LeafNode.pid := List.mem_map_of_mem hn
  have hmem : n.pid ∈ treePids leaves rows := List.mem_append_left _ hpid
  obtain ⟨hnext, hprev⟩ := doublyLinked_mem h.chain hpid (h.held n.pid hmem).1
  have hlink : ∀ q, q = 0 ∨ q ∈ leaves.map LeafNode.pid → q < 2 ^ 32 := fun q hq =>
    (lt_of_link h.freeList.pos (fun r hr => h.held r (List.mem_append_left _ hr)) hq).trans hpages
  have hfull := maxLeafKeys_fits h.pageSize
  have hcount := Nat.mul_le_mul_right leafEntrySize (h.leafOcc n hn).2
  rw [(h.leafOn n hn).eq]
  constructor
  · exact (h.parent_lt hmem).trans hpages
  · exact hlink _ hnext
  · exact hlink _ hprev
  · show n.entries.length < 2 ^ 32
    simp only [leafHeaderSize, leafEntrySize] at hfull hcount
    omega
  · intro e he
    exact ⟨h.order.lt n hn e he, hrefs e he⟩
  · exact (Nat.add_le_add_left hcount _).trans hfull

theorem TreeInv.inner_storable (h : TreeInv st free leaves rows) (hwidth : st.pageSize < 2 ^ 32)
    (hpages : st.header.nextPageId < 2 ^ 32) {row : Row} (hrow : row ∈ rows) {n : InnerNode}
    (hn : n ∈ row) : (st.pages n.pid).Storable st.pageSize := by
  have hmem : n.pid ∈ treePids leaves rows :=
    List.mem_append_right _ (List.mem_flatMap.mpr ⟨row, hrow, List.mem_map_of_mem hn⟩)
  have hkid : ∀ c ∈ n.kids, c.1 < 2 ^ 64 ∧ c.2 < 2 ^ 32 := by
    intro c hc
    obtain ⟨hlow, hpid⟩ := h.upper.kids_mem row hrow n hn c hc
    rw [map_snd_leaf_head] at hpid
    refine ⟨?_, (h.held c.2 hpid).2.1.trans hpages⟩
    rw [List.map_map] at hlow
    obtain ⟨m, hm, heq⟩ := List.mem_map.mp hlow
    rw [← heq]
    exact h.order.low_lt m hm
  have hfull := maxInternalKeys_fits h.pageSize
  have hcount := Nat.mul_le_mul_right internalEntrySize (h.occupied.length_le row hrow n hn)
  rw [(h.upper.on_mem row hrow n hn).eq]
  constructor
  · exact (h.parent_lt hmem).trans hpages
  · exact (hkid (n.low, n.leftmost) (List.mem_cons_self ..)).2
  · show n.entries.length < 2 ^ 32
    simp only [internalHeaderSize, internalEntrySize] at hfull hcount
    omega
  · intro e he
    exact hkid e (List.mem_cons_of_mem _ he)
  · exact (Nat.add_le_add_left hcount _).trans hfull

/-- The heap is empty, or its rows and their offsets fit. -/
theorem DbInv.heap_storable (h : DbInv st entries chain) (hpages : st.header.nextPageId < 2 ^ 32)
    {n : Nat × HeapPage} (hn : n ∈ chain) : n.2.Storable st.pageSize := by
  obtain ⟨free, leaves, rows, hat, -⟩ := h.stored
  rcases h.room with hfit | ⟨pid, rfl⟩
  · obtain ⟨slots, hlayout⟩ := hat.heap.layout n hn
    have hnext := lt_of_link hat.heap.freeList.pos hat.heap.held (hat.heap.links.next_mem.2 n hn)
    exact hlayout.storable hfit.small (hnext.trans hpages)
  · obtain rfl := List.mem_singleton.mp hn
    have hle := h.pageSize.le
    refine storable_blank ?_
    simp only [heapHeaderSize]
    omega

/-- The references of the index fit their fields. -/
theorem DbInv.ref_lt (h : DbInv st entries chain) (hpages : st.header.nextPageId < 2 ^ 32)
    {e : Nat × RowRef} (he : e ∈ entries) : e.2.pageId < 2 ^ 32 ∧ e.2.slotId < 65536 := by
  have hentry : (e.1, e.2) ∈ entries := he
  obtain ⟨hph, hmem, hslot⟩ := h.isPlace hentry
  have hcount := (h.heap_storable hpages hmem).count
  obtain ⟨free, leaves, rows, hat, -⟩ := h.stored
  have hheld := hat.heap.held e.2.pageId (List.mem_map_of_mem (f := Prod.fst) hmem)
  exact ⟨hheld.2.1.trans hpages, hslot.trans hcount⟩

/-- **Every page of the file fits its structure.** -/
theorem DbInv.page_storable (h : DbInv st entries chain) (hwidth : st.pageSize < 2 ^ 32)
    (hpages : st.header.nextPageId < 2 ^ 32) (hne : p ≠ 0) (hlt : p < st.header.nextPageId) :
    (st.pages p).Storable st.pageSize := by
  obtain ⟨free, leaves, rows, hat, hentries⟩ := h.stored
  have hle := h.pageSize.le
  by_cases hfree : p ∈ free
  · obtain ⟨next, hpage⟩ := hat.tree.freeList.chain.page hfree
    have hnext : next < st.header.nextPageId := by
      rcases hat.tree.freeList.chain.next_mem.2 p hfree next hpage with rfl | hmem
      · exact hat.tree.freeList.pos
      · exact hat.tree.freeList.lt next hmem
    rw [hpage]
    exact ⟨by omega, hnext.trans hpages⟩
  -- a page in use belongs to the tree or to the heap
  rcases hat.owned p ⟨hne, hlt, hfree⟩ with htree | hheap
  · rcases List.mem_append.mp htree with hleaf | hinner
    · obtain ⟨n, hn, rfl⟩ := List.mem_map.mp hleaf
      refine hat.tree.leaf_storable hwidth hpages hn fun e he => h.ref_lt hpages ?_
      rw [← hentries]
      exact List.mem_flatMap.mpr ⟨n, hn, he⟩
    · obtain ⟨row, hrow, hmem⟩ := List.mem_flatMap.mp hinner
      obtain ⟨n, hn, rfl⟩ := List.mem_map.mp hmem
      exact hat.tree.inner_storable hwidth hpages hrow hn
  · obtain ⟨n, hn, rfl⟩ := List.mem_map.mp hheap
    rw [hat.heap.pages n hn]
    exact h.heap_storable hpages hn

end Pages

/-! ## Columns -/

/-- A parsed column that the header can hold. -/
structure ColumnDef.Storable (cd : ColumnDef) : Prop where
  name : cd.name.length < 32
  noNul : 0 ∉ cd.name
  size : cd.size < 65536

/-- The columns of a header that it can hold. -/
structure ColumnsStorable (hdr : DbHeader) : Prop where
  length : hdr.columns.length ≤ maxColumns
  columns : ∀ c ∈ hdr.columns, c.Storable

section Texts

variable {p q l rest : CString} {cd : ColumnDef}

theorem skipWs_suffix (p : CString) : skipWs p <:+ p := List.dropWhile_suffix _

theorem spanUpTo_suffix (ok : UInt8 → Bool) (n : Nat) (p : CString) : (spanUpTo ok n p).2 <:+ p :=
  ⟨_, spanUpTo_append ok n p⟩

theorem afterItem_suffix (p : CString) : afterItem p <:+ p := by
  rw [afterItem]
  split
  · exact (List.tail_suffix _).trans (skipWs_suffix p)
  · exact skipWs_suffix p

theorem varcharSize_suffix (p : CString) : (varcharSize p).2 <:+ p := by
  rw [varcharSize]
  have hopen : (skipWs p).tail.dropWhile (· != ch ')') <:+ p :=
    (List.dropWhile_suffix _).trans ((List.tail_suffix _).trans (skipWs_suffix p))
  split
  · dsimp only
    split
    · exact (List.tail_suffix _).trans hopen
    · exact hopen
  · exact skipWs_suffix p

/-- A column is read from the front of its text. -/
theorem parseColumn_suffix (h : parseColumn q = .ok (cd, rest)) : rest <:+ q := by
  have hspan : (columnTypeSpan q).2 <:+ q :=
    (spanUpTo_suffix _ _ _).trans ((skipWs_suffix _).trans (spanUpTo_suffix _ _ _))
  unfold parseColumn at h
  simp only [readInto_name, ParseM.ok_bind, ParseM.pure_eq, ParseM.throw_eq] at h
  split at h
  · cases h
    exact hspan
  split at h
  · cases h
    exact hspan
  split at h
  · cases h
    exact (varcharSize_suffix _).trans hspan
  · cases h

theorem columnList_suffix (h : columnList p = some l) : l <:+ p := by
  rw [columnList] at h
  dsimp only at h
  split at h
  · split at h
    · split at h
      · obtain rfl := Option.some.inj h
        exact (List.tail_suffix _).trans ((skipWs_suffix _).trans ((spanUpTo_suffix _ _ _).trans
          ((skipWs_suffix _).trans ((skipWs_suffix _).trans ((List.drop_suffix _ _).trans
          ((skipWs_suffix _).trans (List.drop_suffix _ _)))))))
      · cases h
    · cases h
  · cases h

/-- What is read of a text without a NUL fits the header. -/
theorem parseColumn_storable (hnul : 0 ∉ q) (h : parseColumn q = .ok (cd, rest)) : cd.Storable := by
  obtain ⟨hname, hlength⟩ := parseColumn_ok h
  rw [columnName] at hname
  refine ⟨?_, ?_, ?_⟩
  · rw [hname]
    exact Nat.lt_succ_of_le (length_spanUpTo_le ..)
  · intro hmem
    rw [hname] at hmem
    refine hnul ?_
    rw [← spanUpTo_append (fun c => !isspace c && c != ch ',' && c != ch ')') 31 q]
    exact List.mem_append_left _ hmem
  · cases hw : writtenLength q with
    | some w =>
      rw [hw] at hlength
      rw [hlength.2, toU16]
      omega
    | none =>
      rw [hw] at hlength
      have hsound := hlength.2
      rw [ColumnDef.Sound, ColumnMeta.Sound] at hsound
      have hsize : cd.toMeta.size = cd.size := rfl
      split at hsound <;> omega

/-- So does a list of columns. -/
theorem firstItems_storable (n : Nat) (hnul : 0 ∉ p) :
    ∀ cd ∈ firstItems parseColumn n p, cd.Storable := by
  induction n generalizing p with
  | zero => simp [firstItems]
  | succ n ih =>
    rw [firstItems]
    split
    · have hskip : 0 ∉ skipWs p := fun hmem => hnul ((skipWs_suffix p).mem hmem)
      split
      · rename_i cd rest hread
        have hafter : afterItem rest <:+ skipWs p :=
          (afterItem_suffix rest).trans (parseColumn_suffix hread)
        exact List.forall_mem_cons.mpr
          ⟨parseColumn_storable hskip hread, ih fun hmem => hskip (hafter.mem hmem)⟩
      · simp
    · simp

theorem parse_storable {text : CString} {stmt : Statement} (hparse : parse text = .ok stmt)
    (htype : stmt.type = .createTable) : ∀ cd ∈ stmt.colDefs, cd.Storable := by
  obtain ⟨l, hl, hdefs⟩ := parse_createTable hparse htype
  rw [hdefs]
  refine firstItems_storable maxColumns fun hmem => ?_
  exact mem_commandText ((columnList_suffix hl).mem hmem) rfl

end Texts

section Columns

variable {st st' : Pager} {entries : List (Nat × RowRef)} {chain : HeapChain} {env : ExecEnv}
  {stmt : Statement} {res : ExecResult} {sql : CString} {pageSize off : Nat} {hdr : DbHeader}

theorem layoutFrom_offset_lt (hoff : off < 65536) (cols : List ColumnMeta) :
    ∀ c ∈ (layoutFrom off cols).1, c.offset < 65536 := by
  induction cols generalizing off with
  | nil => simp [layoutFrom]
  | cons c cols ih =>
    rw [layoutFrom]
    refine List.forall_mem_cons.mpr ⟨hoff, ih ?_⟩
    unfold u16
    omega

/-- The columns that a CREATE TABLE installs. -/
theorem columnsStorable_installed (hlen : stmt.userDefs.length < maxColumns)
    (hdefs : ∀ cd ∈ stmt.colDefs, cd.Storable) : ColumnsStorable (stmt.installed hdr) := by
  have hcols : ∀ c ∈ stmt.tableColumns, c.name.length < 32 ∧ 0 ∉ c.name ∧ c.size < 65536 := by
    intro c hc
    rcases List.mem_cons.mp hc with rfl | hc
    · decide
    · obtain ⟨cd, hcd, rfl⟩ := List.mem_map.mp hc
      have hs := hdefs cd (List.mem_of_mem_filter hcd)
      exact ⟨hs.name, hs.noNul, hs.size⟩
  have hall : ∀ c ∈ (stmt.installed hdr).columns,
      c.name.length < 32 ∧ 0 ∉ c.name ∧ c.size < 65536 :=
    (installed_forall (P := fun c => c.name.length < 32 ∧ 0 ∉ c.name ∧ c.size < 65536)
      fun c => Iff.rfl).mpr hcols
  constructor
  · have hbare : (stmt.installed hdr).columns.map (·.bare) = stmt.tableColumns.map (·.bare) :=
      installed_bare
    have hcount := congrArg List.length hbare
    rw [List.length_map, List.length_map, Statement.tableColumns, List.length_cons,
      List.length_map] at hcount
    omega
  · intro c hc
    obtain ⟨hname, hnul, hsize⟩ := hall c hc
    exact ⟨hname, hnul, hsize, layoutFrom_offset_lt (by decide) _ c hc⟩

theorem ColumnsStorable.congr (h : ColumnsStorable st.header)
    (hcols : st'.header.columns = st.header.columns) : ColumnsStorable st'.header :=
  ⟨hcols ▸ h.length, hcols ▸ h.columns⟩

theorem ColumnsStorable.readOnly {m : PagerM ExecResult} (h : ColumnsStorable st.header)
    (hm : ReadOnly m) (hrun : m.run st = some (res, st')) : ColumnsStorable st'.header :=
  h.congr (hm st res st' hrun).sameTable.columns

theorem ColumnsStorable.rowsStep (h : ColumnsStorable st.header)
    (hs : RowsStep st entries chain res st') : ColumnsStorable st'.header := by
  obtain ⟨entries', chain', -, hkept, -⟩ := hs.inv
  exact h.congr hkept.schema.columns

theorem ColumnsStorable.dropTable (h : ColumnsStorable st.header)
    (hrun : (execDropTable stmt).run st = some (res, st')) : ColumnsStorable st'.header := by
  rw [execDropTable, run_bind_get] at hrun
  dsimp only at hrun
  split at hrun
  · obtain ⟨rfl, rfl⟩ := run_pure_eq_some.mp hrun
    exact h
  obtain ⟨u, st₁, -, hrun⟩ := run_bind_eq_some.mp hrun
  obtain ⟨heap, st₂, -, hrun⟩ := run_bind_eq_some.mp hrun
  obtain ⟨root, st₃, -, hrun⟩ := run_bind_eq_some.mp hrun
  obtain ⟨v, st₄, hmod, hdone⟩ := run_bind_eq_some.mp hrun
  obtain rfl := run_modify_eq_some.mp hmod
  obtain ⟨rfl, rfl⟩ := run_pure_eq_some.mp hdone
  exact ⟨Nat.zero_le _, by simp⟩

/-- Every statement leaves columns that the header can hold. -/
theorem execute_columnsStorable (h : DbInv st entries chain) (hcols : ColumnsStorable st.header)
    (hdefs : stmt.type = .createTable → ∀ cd ∈ stmt.colDefs, cd.Storable)
    (hrun : (execute env stmt).run st = some (res, st')) : ColumnsStorable st'.header := by
  rw [execute] at hrun
  split at hrun
  · exact hcols.readOnly readOnly_execExplain hrun
  rename_i htype
  split at hrun
  · rename_i hplan
    rcases execCreateTable_cases hrun with ⟨-, -, rfl⟩ | ⟨-, -, hlen, rfl⟩
    · exact hcols
    · exact columnsStorable_installed hlen (hdefs (planByType_createTable hplan htype))
  · exact hcols.rowsStep (execInsert_rows h hrun).1
  · exact hcols.readOnly readOnly_execIndexLookup hrun
  · exact hcols.readOnly readOnly_execIndexRangeScan hrun
  · split at hrun
    · exact hcols.rowsStep (execDeleteScan_rows h hrun)
    · exact hcols.rowsStep (execUpdateScan_rows h hrun)
    · exact hcols.readOnly readOnly_execTableScan hrun
  · exact hcols.rowsStep (execIndexDelete_rows h hrun)
  · exact hcols.rowsStep (execIndexUpdate_rows h hrun)
  · exact hcols.dropTable hrun

/-- So does every text, and so every run of texts. -/
theorem DbReach.columnsStorable (hps : IsPageSize pageSize) (h : DbReach pageSize st) :
    ColumnsStorable st.header := by
  induction h with
  | start => exact ⟨Nat.zero_le _, by simp [pagerOpenCreate]⟩
  | @run st st' env sql res hreach hrun ih =>
    obtain ⟨entries, chain, hinv, -⟩ := DbReach.inv hps hreach
    rw [dbExecute] at hrun
    split at hrun
    · rename_i stmt hparse
      rw [dbRun] at hrun
      split at hrun
      · exact execute_columnsStorable hinv ih (parse_storable hparse) hrun
      · split at hrun
        · exact execute_columnsStorable hinv ih (parse_storable hparse) hrun
        · obtain ⟨rfl, rfl⟩ := run_pure_eq_some.mp hrun
          exact ih
    · obtain ⟨rfl, rfl⟩ := run_pure_eq_some.mp hrun
      exact ih
    · cases hrun

end Columns

/-! ## The file -/

/-- The file holds the bytes of the header and of every page of the database. Behind the bytes of a
page that mean something there may be anything. -/
structure FileImage (st : Pager) (file : Nat → List UInt8) : Prop where
  header : file 0 = padTo st.pageSize (st.header.bytes st.pageSize)
  pages : ∀ p, p ≠ 0 → p < st.header.nextPageId → (st.pages p).Image st.pageSize (file p)

/-- The bytes of a page are read as a page that means the same; rows are the same, each in its
place. -/
def ReadBack (st : Pager) (file : Nat → List UInt8) (p : Nat) : Prop :=
  ∃ page, decodePage (file p) = some page ∧ (st.pages p).Same page ∧
    ∀ hph k, st.pages p = .heap hph → page = .heap k →
      k.rows p st.header.rowSize = hph.rows p st.header.rowSize

section File

variable {st : Pager} {entries : List (Nat × RowRef)} {chain : HeapChain} {pageSize p : Nat}
  {file : Nat → List UInt8}

/-- The root is a page of the tree. -/
theorem Upper.root_mem_pids {g : Nat → Page} {root : Nat} {hs : List (Nat × Nat)} {rows : List Row}
    (h : Upper g root hs rows) : root ∈ hs.map Prod.snd ++ rowsPids rows := by
  cases rows with
  | nil =>
    obtain ⟨rfl, -⟩ := h
    simp
  | cons row rest => exact List.mem_append_right _ (h.root_mem (by simp))

/-- There are at most as many ids in use as have been given out. -/
theorem DbInv.length_le (h : DbInv st entries chain) : entries.length ≤ st.header.nextId := by
  have hnodup : (entries.map Prod.fst).Nodup :=
    List.pairwise_map.mpr (h.stored.sorted.imp fun hlt => ne_of_lt hlt)
  have hsub : entries.map Prod.fst ⊆ List.range st.header.nextId := by
    intro key hkey
    obtain ⟨e, he, rfl⟩ := List.mem_map.mp hkey
    exact List.mem_range.mpr (h.keys e he).2
  have hle := (hnodup.subperm hsub).length_le
  rwa [List.length_map, List.length_range] at hle

/-- **The header fits its structure.** -/
theorem DbInv.header_storable (h : DbInv st entries chain) (hcols : ColumnsStorable st.header)
    (hpages : st.header.nextPageId < 2 ^ 32) : st.header.Storable := by
  obtain ⟨free, leaves, rows, hat, -⟩ := h.stored
  have hpos := hat.tree.freeList.pos
  constructor
  · have hroot := hat.tree.upper.root_mem_pids
    rw [map_snd_leaf_head] at hroot
    exact (hat.tree.held _ hroot).2.1.trans hpages
  · exact (lt_of_link hpos hat.heap.held hat.heap.links.next_mem.1).trans hpages
  · exact hpages
  · rcases hat.tree.freeList.chain.next_mem.1 with hzero | hmem
    · rw [hzero]
      exact Nat.two_pow_pos 32
    · exact (hat.tree.freeList.lt _ hmem).trans hpages
  · exact h.nextId_lt
  · rw [h.rowCount]
    exact h.length_le.trans_lt h.nextId_lt
  · exact h.rowSize
  · exact hcols.length
  · exact hcols.columns

/-- A page is read back, and a heap page with its rows. -/
theorem DbInv.readBack (h : DbInv st entries chain) (hwidth : st.pageSize < 2 ^ 32)
    (hpages : st.header.nextPageId < 2 ^ 32) (hfile : FileImage st file) (hne : p ≠ 0)
    (hlt : p < st.header.nextPageId) : ReadBack st file p := by
  obtain ⟨page, hread, hsame⟩ :=
    (h.page_storable hwidth hpages hne hlt).decodePage (hfile.pages p hne hlt)
  refine ⟨page, hread, hsame, ?_⟩
  intro hph k hpage hk
  rw [hpage, hk] at hsame
  obtain ⟨free, leaves, rows, hat, -⟩ := h.stored
  -- a heap page is neither on the free list nor a page of the tree, so it has a layout
  have hfree : p ∉ free := by
    intro hmem
    obtain ⟨next, hnext⟩ := hat.tree.freeList.chain.page hmem
    rw [hpage] at hnext
    cases hnext
  rcases hat.owned p ⟨hne, hlt, hfree⟩ with htree | hheap
  · have hkind := hat.tree.isTree htree
    rw [hpage] at hkind
    exact hkind.elim
  · obtain ⟨n, hn, rfl⟩ := List.mem_map.mp hheap
    obtain rfl : n.2 = hph := Page.heap.inj ((hat.heap.pages n hn).symm.trans hpage)
    obtain ⟨slots, hlayout⟩ := hat.heap.layout n hn
    exact hlayout.rows_same hsame

/-- The bytes of a database, with zeros behind. -/
def imageOf (st : Pager) (p : Nat) : List UInt8 :=
  padTo st.pageSize (if p = 0 then st.header.bytes st.pageSize else (st.pages p).bytes)

theorem DbInv.fileImage (h : DbInv st entries chain) (hwidth : st.pageSize < 2 ^ 32)
    (hpages : st.header.nextPageId < 2 ^ 32) : FileImage st (imageOf st) := by
  refine ⟨rfl, fun p hne hlt => ?_⟩
  have hlen := (h.page_storable hwidth hpages hne hlt).length_le
  rw [imageOf, if_neg hne]
  exact ⟨length_padTo hlen, _, padTo_eq hlen⟩

/-- **Every database has a file, and its file is read as the database.** Whatever texts have been
run, the bytes of the header and of the pages fit the file; and from a file with these bytes
`pager_open` reads the same header, and every page is read with the same contents. -/
theorem file_holds_database (hps : IsPageSize pageSize) (hwidth : pageSize < 2 ^ 32)
    (h : DbReach pageSize st) (hpages : st.header.nextPageId < 2 ^ 32) :
    FileImage st (imageOf st) ∧ ∀ file, FileImage st file →
      openHeader (file 0) = some (pageSize, st.header) ∧
      ∀ p, p ≠ 0 → p < st.header.nextPageId → ReadBack st file p := by
  obtain ⟨entries, chain, hinv, rfl⟩ := DbReach.inv hps h
  have hheader := hinv.header_storable (DbReach.columnsStorable hps h) hpages
  refine ⟨hinv.fileImage hwidth hpages, fun file hfile => ⟨?_, fun p hne hlt => ?_⟩⟩
  · have hle := hps.le
    rw [hfile.header]
    refine openHeader_bytes hheader hwidth ?_
    rw [length_bytes_header hheader]
    omega
  · exact hinv.readBack hwidth hpages hfile hne hlt

/-- The table with two rows. -/
theorem file_holds_database_twoRowTable :
    FileImage twoRowTable (imageOf twoRowTable) ∧ ∀ file, FileImage twoRowTable file →
      openHeader (file 0) = some (4096, twoRowTable.header) ∧
      ∀ p, p ≠ 0 → p < twoRowTable.header.nextPageId → ReadBack twoRowTable file p := by
  have hpages : twoRowTable.header.nextPageId < 2 ^ 32 := by
    decide +kernel
  exact file_holds_database ⟨12, le_refl _, rfl⟩ (by decide) dbReach_twoRowTable hpages

end File

end MiniDb
