import MiniDb.Lib.Preorder
import MiniDb.Storage.Bptree.Structure

/-! # The debug output of the index

`bptree_print` walks the whole tree and prints a line for each page, `bptree_height` follows the
leftmost children to a leaf. Both take no latches. What they show of a tree is its pages in preorder
and the number of its rows. -/

set_option autoImplicit false

namespace MiniDb

open Lib

/-! ## The code -/

/-- The part of a line after its indentation: the kind of a page, its id, the number of its keys
and the first five of them. -/
def nodeText (kind : String) (pid : Nat) (keys : List Nat) : String :=
  "[" ++ kind ++ " page=" ++ toString pid ++ "] keys=" ++ toString keys.length ++ ":" ++
    String.join ((keys.take 5).map fun key => " " ++ toString key) ++
    (if keys.length > 5 then " ..." else "") ++ "\n"

/-- The indentation of a line. -/
def indentation (depth : Nat) : String := String.join (List.replicate depth "  ")

/-- What `print_node` prints for a page before it goes on to the children. A page that is neither a
leaf nor an internal node gets its indentation only. -/
def nodeLine (pid depth : Nat) : Page → String
  | .leaf lph => indentation depth ++ nodeText "LEAF" pid (lph.entries.map Prod.fst)
  | .internal iph => indentation depth ++ nodeText "INTERNAL" pid (iph.entries.map Prod.fst)
  | _ => indentation depth

/-- `print_node`: the lines, in the order in which they are printed. A recursion deeper than there
are pages never ends. -/
def printNode : Nat → Nat → Nat → PagerM (List String)
  | 0, _, _ => failure
  | fuel + 1, pid, depth => do
    pagerGetPage pid
    let page ← readPage pid
    let line := nodeLine pid depth page
    match page with
    | .internal _ =>
      pagerUnpin pid
      pagerGetPage pid
      let iph ← readInternal pid
      let first ← printNode fuel iph.leftmostChildPageId (depth + 1)
      let rest ← iph.entries.mapM fun entry => printNode fuel entry.2 (depth + 1)
      pagerUnpin pid
      return line :: (first ++ rest.flatten)
    | _ =>
      pagerUnpin pid
      return [line]

/-- `bptree_print`. -/
def bptreePrint : PagerM (List String) := do
  let root ← rootId
  let lines ← printNode (← get).header.nextPageId root 1
  return ("B+ Tree (root: page " ++ toString root ++ ")\n") :: lines

/-- The loop of `bptree_height`. A descent longer than there are pages never ends. -/
def bptreeHeightLoop : Nat → Nat → Nat → PagerM Nat
  | 0, _, _ => failure
  | fuel + 1, pid, h => do
    pagerGetPage pid
    match ← readPage pid with
    | .leaf _ =>
      pagerUnpin pid
      return h + 1
    | .internal iph =>
      pagerUnpin pid
      bptreeHeightLoop fuel iph.leftmostChildPageId (h + 1)
    | _ => failure

/-- `bptree_height`. -/
def bptreeHeight : PagerM Nat := do
  let pid ← rootId
  bptreeHeightLoop (← get).header.nextPageId pid 0

/-! ## What it shows -/

/-- The children of the pages of a file. -/
def childrenIn (g : Nat → Page) (p : Nat) : List Nat := (g p).children

section Walk

variable {st : Pager} {g : Nat → Page} {root p q d k fuel h : Nat} {hs : List (Nat × Nat)}
  {rows : List Row}

theorem mem_level_iff : q ∈ level (childrenIn g) k p ↔ Below g p k q := by
  induction k generalizing q with
  | zero =>
    constructor
    · intro hq
      obtain rfl : q = p := List.mem_singleton.mp hq
      exact .here
    · intro hq
      cases hq
      exact List.mem_singleton.mpr rfl
  | succ k ih =>
    rw [mem_level_succ]
    constructor
    · intro hq
      obtain ⟨r, hr, hq⟩ := hq
      exact (ih.mp hr).child hq
    · intro hq
      cases hq with
      | child hr hc => exact ⟨_, ih.mpr hr, hc⟩

/-- A path from a child is a longer path from its parent. -/
theorem Below.cons {c : Nat} (hc : c ∈ (g p).children) (h : Below g c k q) :
    Below g p (k + 1) q := by
  induction h with
  | here => exact .child .here hc
  | child _ hq ih => exact ih.child hq

/-- The level of a row has the pages of the row, from left to right. -/
theorem Upper.level_eq (h : Upper g root hs rows) :
    level (childrenIn g) rows.length root = hs.map Prod.snd := by
  induction rows generalizing hs with
  | nil =>
    obtain ⟨rfl, -⟩ := h
    rfl
  | cons row rest ih =>
    obtain ⟨hrow, hrest⟩ := h
    rw [List.length_cons, level_succ, ih hrest, map_snd_head, ← hrow.kids, List.map_flatMap,
      List.flatMap_map]
    exact List.flatMap_congr fun n hn => (hrow.on n hn).children

/-- The line of a page at a depth. -/
def lineOf (g : Nat → Page) (n : Nat × Nat) : String := nodeLine n.2 n.1 (g n.2)

/-- All paths from the page end in leaves, after `k` steps. -/
def LeavesAt (g : Nat → Page) (k p : Nat) : Prop :=
  ∀ j q, Below g p j q → (g q).IsTree ∧ ((g q).IsLeaf ↔ j = k)

theorem LeavesAt.leaf (h : LeavesAt g 0 p) : ∃ l, g p = .leaf l := by
  have hleaf := (h 0 p .here).2.mpr rfl
  cases hp : g p with
  | leaf l => exact ⟨l, rfl⟩
  | _ =>
    rw [hp] at hleaf
    exact hleaf.elim

theorem LeavesAt.internal (h : LeavesAt g (k + 1) p) :
    ∃ i, g p = .internal i ∧ ∀ c ∈ (g p).children, LeavesAt g k c := by
  obtain ⟨htree, hleaf⟩ := h 0 p .here
  have hbelow : ∀ c ∈ (g p).children, LeavesAt g k c := by
    intro c hc j q hq
    obtain ⟨hq₁, hq₂⟩ := h (j + 1) q (hq.cons hc)
    exact ⟨hq₁, hq₂.trans Nat.succ_inj⟩
  cases hp : g p with
  | internal i => exact ⟨i, rfl, hp ▸ hbelow⟩
  | leaf l =>
    rw [hp] at hleaf
    exact absurd (hleaf.mp trivial) (Nat.succ_ne_zero k).symm
  | _ =>
    rw [hp] at htree
    exact htree.elim

theorem Below.trans {r i : Nat} (h : Below g p k q) (h' : Below g q i r) : Below g p (k + i) r := by
  induction h' with
  | here => exact h
  | child _ hc ih => exact ih.child hc

/-- A path from the page is no longer than the way to the leaves, and where it ends the leaves are
as far away as the rest. -/
theorem LeavesAt.below {j : Nat} (h : LeavesAt g k p) (hq : Below g p j q) :
    j ≤ k ∧ LeavesAt g (k - j) q := by
  have hle : j ≤ k := by
    induction k generalizing p j with
    | zero =>
      -- a leaf has no children
      obtain ⟨l, hl⟩ := h.leaf
      rcases hq.head with ⟨rfl, -⟩ | ⟨d', c, -, hc, -⟩
      · exact le_rfl
      · rw [hl] at hc
        cases hc
    | succ k ih =>
      obtain ⟨i, -, hbelow⟩ := h.internal
      rcases hq.head with ⟨rfl, -⟩ | ⟨d', c, rfl, hc, hrest⟩
      · exact Nat.zero_le _
      · exact Nat.succ_le_succ (ih (hbelow c hc) hrest)
  refine ⟨hle, fun i r hr => ?_⟩
  obtain ⟨htree, hleaf⟩ := h (j + i) r (hq.trans hr)
  exact ⟨htree, hleaf.trans (by omega)⟩

theorem LeavesAt.exists_below (h : LeavesAt g k p) : ∃ q, Below g p k q := by
  induction k generalizing p with
  | zero => exact ⟨p, .here⟩
  | succ k ih =>
    obtain ⟨i, hi, hbelow⟩ := h.internal
    have hleft : i.leftmostChildPageId ∈ (g p).children := by
      rw [hi]
      exact List.mem_cons_self
    obtain ⟨q, hq⟩ := ih (hbelow _ hleft)
    exact ⟨q, hq.cons hleft⟩

/-- A page below another is at one depth. -/
theorem LeavesAt.depth_unique {i j : Nat} (h : LeavesAt g k p) (hi : Below g p i q)
    (hj : Below g p j q) : i = j := by
  obtain ⟨hik, hqi⟩ := h.below hi
  obtain ⟨hjk, hqj⟩ := h.below hj
  obtain ⟨r, hr⟩ := hqi.exists_below
  have : k - i = k - j := (hqj _ r hr).2.mp ((hqi _ r hr).2.mpr rfl)
  omega

/-- `print_node` prints the pages below a page in preorder. -/
theorem run_printNode (hfuel : k < fuel) (hp : LeavesAt g k p) (hst : st.pages = g) :
    ∃ st', (printNode fuel p d).run st =
      some ((preorder (childrenIn g) k d p).map (lineOf g), st') ∧ st.SameData st' := by
  obtain ⟨fuel, rfl⟩ : ∃ n, fuel = n + 1 := ⟨fuel - 1, by omega⟩
  induction k generalizing fuel p d st with
  | zero =>
    obtain ⟨l, hl⟩ := hp.leaf
    refine ⟨(st.log (.get p)).log (.unpin p), ?_, Pager.SameData.log.trans .log⟩
    rw [printNode, run_bind_of run_pagerGetPage, run_bind_of run_readPage, Pager.log_pages, hst, hl]
    show some ([nodeLine p d (.leaf l)], _) = some ([lineOf g (d, p)], _)
    rw [lineOf, hl]
  | succ k ih =>
    obtain ⟨i, hi, hbelow⟩ := hp.internal
    obtain ⟨fuel, rfl⟩ : ∃ n, fuel = n + 1 := ⟨fuel - 1, by omega⟩
    have hkids : childrenIn g p = i.leftmostChildPageId :: i.entries.map Prod.snd := by
      rw [childrenIn, hi]
      rfl
    -- the pages stay as they are from one child to the next
    have hchild : ∀ c ∈ childrenIn g p, ∀ s, st.SameData s → ∃ s', (printNode (fuel + 1) c
        (d + 1)).run s = some ((preorder (childrenIn g) k (d + 1) c).map (lineOf g), s') ∧
        st.SameData s' := by
      intro c hc s hs
      obtain ⟨s', hrun, hs'⟩ := ih (d := d + 1) (hbelow c hc) (hs.pages.trans hst) fuel
        (by omega)
      exact ⟨s', hrun, hs.trans hs'⟩
    have hst₃ : st.SameData (((st.log (.get p)).log (.unpin p)).log (.get p)) :=
      (Pager.SameData.log.trans .log).trans .log
    obtain ⟨st₄, hfirst, hst₄⟩ := hchild i.leftmostChildPageId (by rw [hkids]; simp) _ hst₃
    obtain ⟨st₅, hrest, hst₅⟩ := run_mapM
      (f := fun entry : Nat × Nat => printNode (fuel + 1) entry.2 (d + 1))
      (g := fun entry => (preorder (childrenIn g) k (d + 1) entry.2).map (lineOf g))
      (l := i.entries)
      (fun entry hentry s hs =>
        hchild entry.2 (by rw [hkids]; exact .tail _ (List.mem_map_of_mem hentry)) s hs) hst₄
    refine ⟨st₅.log (.unpin p), ?_, hst₅.trans .log⟩
    have hi₃ : (((st.log (.get p)).log (.unpin p)).log (.get p)).pages p = .internal i :=
      (congrFun hst p).trans hi
    rw [printNode, run_bind_of run_pagerGetPage, run_bind_of run_readPage, Pager.log_pages, hst, hi]
    simp only
    rw [run_bind_of run_pagerUnpin, run_bind_of run_pagerGetPage, run_bind_of (run_readInternal hi₃),
      run_bind_of hfirst, run_bind_of hrest, run_bind_of run_pagerUnpin, preorder, hkids,
      List.map_cons, List.flatMap_cons, List.map_append, List.flatMap_map, List.map_flatMap, lineOf,
      hi, List.flatMap_def]
    rfl

/-- `bptree_height` counts the rows. -/
theorem run_bptreeHeightLoop (hfuel : k < fuel) (hp : LeavesAt g k p) (hst : st.pages = g) :
    ∃ st', (bptreeHeightLoop fuel p h).run st = some (h + k + 1, st') ∧ st.SameData st' := by
  obtain ⟨fuel, rfl⟩ : ∃ n, fuel = n + 1 := ⟨fuel - 1, by omega⟩
  induction k generalizing fuel p h st with
  | zero =>
    obtain ⟨l, hl⟩ := hp.leaf
    refine ⟨(st.log (.get p)).log (.unpin p), ?_, Pager.SameData.log.trans .log⟩
    rw [bptreeHeightLoop, run_bind_of run_pagerGetPage, run_bind_of run_readPage, Pager.log_pages,
      hst, hl]
    rfl
  | succ k ih =>
    obtain ⟨i, hi, hbelow⟩ := hp.internal
    obtain ⟨fuel, rfl⟩ : ∃ n, fuel = n + 1 := ⟨fuel - 1, by omega⟩
    have hleft : i.leftmostChildPageId ∈ (g p).children := by
      rw [hi]
      exact List.mem_cons_self
    have hst₂ : ((st.log (.get p)).log (.unpin p)).pages = g := hst
    obtain ⟨st', hrun, hst'⟩ := ih (h := h + 1) (hbelow _ hleft) hst₂ fuel (by omega)
    refine ⟨st', ?_, (Pager.SameData.log.trans .log).trans hst'⟩
    rw [bptreeHeightLoop, run_bind_of run_pagerGetPage, run_bind_of run_readPage, Pager.log_pages,
      hst, hi]
    simp only
    rw [run_bind_of run_pagerUnpin, hrun, show h + 1 + k = h + (k + 1) by omega]

end Walk

/-! ## The output for a tree -/

/-- A list of pages with depths that shows an index of this height, in the order in which
`bptree_print` indents them: the root has depth 1. -/
structure ShowsIndex (st : Pager) (nodes : List (Nat × Nat)) (height : Nat) (keys : List Nat) :
    Prop where
  /-- parents before their children, children from left to right -/
  walk : ∃ k, height = k + 1 ∧
    nodes = preorder (childrenIn st.pages) k 1 st.header.rootIndexPageId
  /-- every page of the index is shown, at its depth -/
  mem : ∀ j p, (j + 1, p) ∈ nodes ↔ Below st.pages st.header.rootIndexPageId j p
  pos : ∀ n ∈ nodes, 1 ≤ n.1
  /-- and none of them twice -/
  once : (nodes.map Prod.snd).Nodup
  /-- the pages shown at the depth `height` are the leaves -/
  leaves : ∀ n ∈ nodes, (st.pages n.2).IsLeaf ↔ n.1 = height
  /-- and their keys, read from top to bottom, are the keys of the index -/
  keys : (atDepth nodes height).flatMap (fun p => (st.pages p).keys) = keys

section Output

variable {st : Pager} {free : List Nat} {leaves : List LeafNode} {rows : List Row}

theorem TreeInv.leavesAt (h : TreeInv st free leaves rows) :
    LeavesAt st.pages rows.length st.header.rootIndexPageId := by
  obtain ⟨height, hdepth⟩ := h.structInv.depth
  obtain ⟨c, t, hheads⟩ := h.upper.first_low
  -- some leaf is as deep as there are rows
  have hc : c ∈ (leaves.map LeafNode.head).map Prod.snd := by simp [hheads]
  have hbelow := h.upper.below_iff.mpr hc
  have hleaf : (st.pages c).IsLeaf := by
    rw [map_snd_leaf_head] at hc
    obtain ⟨n, hn, rfl⟩ := List.mem_map.mp hc
    rw [(h.leafOn n hn).eq]
    trivial
  obtain rfl := (hdepth _ c hbelow).2.mp hleaf
  exact hdepth

theorem TreeInv.level_leaves (h : TreeInv st free leaves rows) :
    level (childrenIn st.pages) rows.length st.header.rootIndexPageId =
      leaves.map LeafNode.pid := by
  rw [h.upper.level_eq, map_snd_leaf_head]

/-- No page is reached twice, neither on one level nor on two. -/
theorem TreeInv.level_nodup (h : TreeInv st free leaves rows) {j : Nat} (hj : j ≤ rows.length) :
    (level (childrenIn st.pages) j st.header.rootIndexPageId).Nodup := by
  rcases Nat.lt_or_eq_of_le hj with hlt | rfl
  · -- the row at this depth
    obtain ⟨row, rest, hrows, hrest⟩ : ∃ row rest,
        rows = rows.take (rows.length - j - 1) ++ row :: rest ∧ rest.length = j := by
      have hi : rows.length - j - 1 < rows.length := by omega
      refine ⟨rows[rows.length - j - 1], rows.drop (rows.length - j), ?_, ?_⟩
      · conv_lhs => rw [← List.take_append_drop (rows.length - j - 1) rows,
          List.drop_eq_getElem_cons hi, show rows.length - j - 1 + 1 = rows.length - j by omega]
      · rw [List.length_drop]
        omega
    obtain ⟨hs', -, htop⟩ := Upper.drop (hrows ▸ h.upper)
    rw [← hrest, htop.level_eq, map_snd_head]
    have hnd := (List.nodup_append.mp h.nodup).2.1
    rw [hrows, rowsPids, List.flatMap_append, List.flatMap_cons] at hnd
    exact (List.nodup_append.mp (List.nodup_append.mp hnd).2.1).1
  · rw [h.level_leaves]
    exact (List.nodup_append.mp h.nodup).1

/-- A walk through the index, starting at depth 1, shows it. -/
theorem TreeInv.showsIndex (h : TreeInv st free leaves rows) :
    ShowsIndex st (preorder (childrenIn st.pages) rows.length 1 st.header.rootIndexPageId)
      (rows.length + 1) ((treeEntries leaves).map Prod.fst) := by
  have hat := h.leavesAt
  have hmem : ∀ j p, (j + 1, p) ∈
      preorder (childrenIn st.pages) rows.length 1 st.header.rootIndexPageId ↔
        Below st.pages st.header.rootIndexPageId j p := by
    intro j p
    rw [mem_preorder]
    constructor
    · intro hp
      obtain ⟨i, -, hij, hp⟩ := hp
      obtain rfl : j = i := by omega
      exact mem_level_iff.mp hp
    · intro hp
      exact ⟨j, (hat.below hp).1, by omega, mem_level_iff.mpr hp⟩
  have hpos : ∀ n ∈ preorder (childrenIn st.pages) rows.length 1 st.header.rootIndexPageId,
      1 ≤ n.1 := fun n hn => (depth_of_mem_preorder hn).1
  refine ⟨⟨_, rfl, rfl⟩, hmem, hpos, ?_, ?_, ?_⟩
  · apply preorder_nodup
    · intro j hj
      exact h.level_nodup hj
    · intro i _ j _ q hi hj
      exact hat.depth_unique (mem_level_iff.mp hi) (mem_level_iff.mp hj)
  · intro n hn
    obtain ⟨j, hj⟩ : ∃ j, n.1 = j + 1 := ⟨n.1 - 1, by have := hpos n hn; omega⟩
    have hbelow := (hmem j n.2).mp (by rw [← hj]; exact hn)
    rw [hj, Nat.succ_inj]
    exact (hat j n.2 hbelow).2
  · rw [Nat.add_comm, atDepth_preorder le_rfl, h.level_leaves, treeEntries, List.map_flatMap,
      List.flatMap_map]
    exact List.flatMap_congr fun n hn => (h.leafOn n hn).keys

/-- `bptree_print` prints a title and a line for each page of the index. -/
theorem TreeInv.run_bptreePrint (h : TreeInv st free leaves rows) :
    ∃ st', bptreePrint.run st =
      some (("B+ Tree (root: page " ++ toString st.header.rootIndexPageId ++ ")\n") ::
        (preorder (childrenIn st.pages) rows.length 1 st.header.rootIndexPageId).map
          (lineOf st.pages), st') ∧ st.SameData st' := by
  obtain ⟨st', hrun, hst'⟩ := run_printNode (d := 1) h.rows_lt_nextPageId h.leavesAt rfl
  refine ⟨st', ?_, hst'⟩
  rw [bptreePrint, run_bind_of run_rootId, run_bind_get, run_bind_of hrun]
  rfl

theorem TreeInv.run_bptreeHeight (h : TreeInv st free leaves rows) :
    ∃ st', bptreeHeight.run st = some (rows.length + 1, st') ∧ st.SameData st' := by
  obtain ⟨st', hrun, hst'⟩ := run_bptreeHeightLoop (h := 0) h.rows_lt_nextPageId h.leavesAt rfl
  refine ⟨st', ?_, hst'⟩
  rw [bptreeHeight, run_bind_of run_rootId, run_bind_get, hrun, Nat.zero_add]

end Output

end MiniDb
