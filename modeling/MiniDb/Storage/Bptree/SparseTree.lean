import MiniDb.Storage.Bptree.LeafUnderflow

/-! # The smallest tree of three levels

A root with two children, every other node with as few entries as it may have. The deletion of any
key repairs the tree up to the root; here it is the smallest key. -/

set_option autoImplicit false

namespace MiniDb

open Lib

/-- The entries of a leaf. -/
def sparseFill : Nat := minLeafKeys 4096

/-- The children of a node below the root. -/
def sparseFan : Nat := minInternalKeys 4096 + 1

theorem sparseFill_eq : sparseFill = 145 := by decide

theorem sparseFan_eq : sparseFan = 171 := by decide

/-- Leaf `j` holds the keys from `145 * j` on. -/
def sparseLeaf (j : Nat) : LeafNode :=
  { low := j * sparseFill
    pid := 5 + j
    entries := (List.range sparseFill).map fun i => (j * sparseFill + i, ⟨1, 0⟩) }

def sparseLeaves : List LeafNode := (List.range (sparseFan + sparseFan)).map sparseLeaf

/-- The low key and the page of leaf `j`. -/
def sparseHead (j : Nat) : Nat × Nat := (j * sparseFill, 5 + j)

/-- Node `k` stands over the leaves from `171 * k` on. -/
def sparseInner (k : Nat) : InnerNode :=
  { low := k * sparseFan * sparseFill
    pid := 3 + k
    leftmost := 5 + k * sparseFan
    entries := (List.range (sparseFan - 1)).map fun i => sparseHead (k * sparseFan + (i + 1)) }

def sparseRoot : InnerNode :=
  { low := 0, pid := 2, leftmost := 3, entries := [(sparseFan * sparseFill, 4)] }

def sparseRows : List Row := [[sparseInner 0, sparseInner 1], [sparseRoot]]

/-- Page 1 is the empty heap page, 2 the root, 3 and 4 the nodes below it, and then the leaves. -/
def sparsePage (pid : Nat) : Page :=
  if pid = 2 then .internal ⟨0, sparseRoot.leftmost, sparseRoot.entries⟩
  else if pid = 3 ∨ pid = 4 then
    .internal ⟨2, (sparseInner (pid - 3)).leftmost, (sparseInner (pid - 3)).entries⟩
  else if 5 ≤ pid ∧ pid < 5 + (sparseFan + sparseFan) then
    .leaf
      { parentPageId := 3 + (pid - 5) / sparseFan
        nextLeafPageId := if pid + 1 < 5 + (sparseFan + sparseFan) then pid + 1 else 0
        prevLeafPageId := if pid = 5 then 0 else pid - 1
        entries := (sparseLeaf (pid - 5)).entries }
  else (pagerOpenCreate 4096).pages pid

def sparseTree : Pager :=
  { pagerOpenCreate 4096 with
    header := { (pagerOpenCreate 4096).header with nextPageId := 5 + (sparseFan + sparseFan) }
    pages := sparsePage }

section

variable {j k : Nat}

theorem sparsePage_leaf (hj : j < sparseFan + sparseFan) :
    sparsePage (5 + j) = .leaf
      { parentPageId := 3 + j / sparseFan
        nextLeafPageId := if j + 1 < sparseFan + sparseFan then 5 + (j + 1) else 0
        prevLeafPageId := if j = 0 then 0 else 4 + j
        entries := (sparseLeaf j).entries } := by
  rw [sparsePage, if_neg (by omega), if_neg (by omega), if_pos ⟨by omega, by omega⟩]
  rw [show 5 + j - 5 = j by omega, show 5 + j - 1 = 4 + j by omega]
  simp only [Nat.add_assoc, Nat.add_lt_add_iff_left, Nat.add_eq_left]

theorem sparsePage_inner (hk : k < 2) :
    sparsePage (3 + k) = .internal ⟨2, (sparseInner k).leftmost, (sparseInner k).entries⟩ := by
  rw [sparsePage, if_neg (by omega), if_pos (by omega), show 3 + k - 3 = k by omega]

theorem sparseInner_kids (k : Nat) :
    (sparseInner k).kids = (List.range sparseFan).map fun i => sparseHead (k * sparseFan + i) := by
  have hfan : sparseFan = sparseFan - 1 + 1 := by
    rw [sparseFan_eq]
  conv_rhs => rw [hfan, List.range_succ_eq_map, List.map_cons, List.map_map]
  rw [← hfan]
  rfl

theorem sparseLeaves_heads :
    sparseLeaves.map LeafNode.head = (List.range (sparseFan + sparseFan)).map sparseHead := by
  rw [sparseLeaves, List.map_map]
  rfl

theorem sparseLeaves_pids :
    sparseLeaves.map LeafNode.pid = (List.range (sparseFan + sparseFan)).map (5 + ·) := by
  rw [sparseLeaves, List.map_map]
  rfl

theorem mem_sparseLeaves {n : LeafNode} (h : n ∈ sparseLeaves) :
    ∃ j < sparseFan + sparseFan, n = sparseLeaf j := by
  obtain ⟨j, hj, rfl⟩ := List.mem_map.mp h
  exact ⟨j, List.mem_range.mp hj, rfl⟩

theorem sparseLeaf_on (hj : j < sparseFan + sparseFan) :
    (sparseLeaf j).On (sparsePage (sparseLeaf j).pid) :=
  ⟨_, _, _, sparsePage_leaf hj⟩

/-- Leaves in a row, from leaf `j` on. -/
theorem seg_sparseLeaves (m : Nat) (h : j + m = sparseFan + sparseFan) :
    Seg 0 (fun p => (sparsePage p).nextLeaf) (fun p => (sparsePage p).prevLeaf)
      (if j = 0 then 0 else 4 + j) ((List.range' j m).map (5 + ·)) 0 := by
  induction m generalizing j with
  | zero =>
    rw [List.range'_zero, List.map_nil, seg_nil]
    refine ⟨fun hne => ?_, fun hne => absurd rfl hne⟩
    obtain ⟨i, rfl⟩ : ∃ i, j = i + 1 := ⟨j - 1, by rw [sparseFan_eq] at h; omega⟩
    rw [if_neg (Nat.succ_ne_zero i), show 4 + (i + 1) = 5 + i by omega]
    show (sparsePage (5 + i)).nextLeaf = 0
    rw [sparsePage_leaf (by omega)]
    exact if_neg (by omega)
  | succ m ih =>
    rw [List.range'_succ, List.map_cons, seg_cons]
    have hrest := ih (j := j + 1) (by omega)
    rw [if_neg (Nat.succ_ne_zero j), show 4 + (j + 1) = 5 + j by omega] at hrest
    refine ⟨⟨fun hne => ?_, fun _ => ?_⟩, hrest⟩
    · obtain ⟨i, rfl⟩ : ∃ i, j = i + 1 := ⟨j - 1, by
        have : j ≠ 0 := fun h0 => hne (if_pos h0)
        omega⟩
      rw [if_neg (Nat.succ_ne_zero i), show 4 + (i + 1) = 5 + i by omega]
      show (sparsePage (5 + i)).nextLeaf = 5 + (i + 1)
      rw [sparsePage_leaf (by omega)]
      exact if_pos (by omega)
    · show (sparsePage (5 + j)).prevLeaf = _
      rw [sparsePage_leaf (by omega)]
      rfl

end

theorem upper_sparseTree : Upper sparsePage 2 (sparseLeaves.map LeafNode.head) sparseRows := by
  have hinner : ∀ {P : InnerNode → Prop}, P (sparseInner 0) → P (sparseInner 1) →
      ∀ n ∈ [sparseInner 0, sparseInner 1], P n := by
    intro P h0 h1 n hn
    rcases List.mem_cons.mp hn with rfl | hn
    · exact h0
    · rw [List.mem_singleton.mp hn]
      exact h1
  -- the children of a node are leaves that name it
  have hparent : ∀ k < 2, ∀ c ∈ (sparseInner k).kids,
      (sparsePage c.2).parent = (sparseInner k).pid := by
    intro k hk c hc
    rw [sparseInner_kids] at hc
    obtain ⟨i, hi, rfl⟩ := List.mem_map.mp hc
    rw [List.mem_range] at hi
    have hj : k * sparseFan + i < sparseFan + sparseFan := by
      rw [sparseFan_eq] at hi ⊢
      omega
    show (sparsePage (5 + (k * sparseFan + i))).parent = 3 + k
    rw [sparsePage_leaf hj]
    show 3 + (k * sparseFan + i) / sparseFan = 3 + k
    rw [sparseFan_eq] at hi ⊢
    omega
  refine ⟨⟨?_, ?_, ?_⟩, ⟨rfl, ?_, ?_⟩, rfl, rfl⟩
  · rw [sparseLeaves_heads, List.range_add, List.map_append, List.map_map]
    simp only [List.flatMap_cons, List.flatMap_nil, List.append_nil, sparseInner_kids,
      Nat.zero_mul, Nat.zero_add, Nat.one_mul]
    rfl
  · exact hinner ⟨2, sparsePage_inner (by omega)⟩ ⟨2, sparsePage_inner (by omega)⟩
  · exact hinner (hparent 0 (by omega)) (hparent 1 (by omega))
  · intro n hn
    rw [List.mem_singleton.mp hn]
    exact ⟨0, rfl⟩
  · intro n hn c hc
    rw [List.mem_singleton.mp hn] at hc ⊢
    rcases List.mem_cons.mp hc with rfl | hc
    · rfl
    · rw [List.mem_singleton.mp hc]
      rfl

theorem order_sparseTree : LeafOrder sparseLeaves where
  pairwise := by
    rw [sparseLeaves, List.pairwise_map]
    refine List.pairwise_lt_range.imp ?_
    intro i j hij
    refine ⟨?_, fun e he => ?_⟩
    · show i * sparseFill < j * sparseFill
      rw [sparseFill_eq]
      omega
    · obtain ⟨m, hm, rfl⟩ := List.mem_map.mp he
      rw [List.mem_range] at hm
      show i * sparseFill + m < j * sparseFill
      rw [sparseFill_eq] at hm ⊢
      omega
  sorted := by
    intro n hn
    obtain ⟨j, -, rfl⟩ := mem_sparseLeaves hn
    rw [sparseLeaf, List.pairwise_map]
    refine List.pairwise_lt_range.imp ?_
    intro i m him
    show j * sparseFill + i < j * sparseFill + m
    omega
  low_le := by
    intro n hn e he
    obtain ⟨j, -, rfl⟩ := mem_sparseLeaves hn
    obtain ⟨m, -, rfl⟩ := List.mem_map.mp he
    exact Nat.le_add_right _ _
  low_lt := by
    intro n hn
    obtain ⟨j, hj, rfl⟩ := mem_sparseLeaves hn
    show j * sparseFill < 2 ^ 64
    rw [sparseFan_eq] at hj
    rw [sparseFill_eq]
    omega
  lt := by
    intro n hn e he
    obtain ⟨j, hj, rfl⟩ := mem_sparseLeaves hn
    obtain ⟨m, hm, rfl⟩ := List.mem_map.mp he
    rw [List.mem_range] at hm
    show j * sparseFill + m < 2 ^ 64
    rw [sparseFan_eq] at hj
    rw [sparseFill_eq] at hm ⊢
    omega

theorem mem_treePids_sparseTree {p : Nat} (h : p ∈ treePids sparseLeaves sparseRows) :
    p = 3 ∨ p = 4 ∨ p = 2 ∨ ∃ j < sparseFan + sparseFan, p = 5 + j := by
  rw [treePids, sparseLeaves_pids, List.mem_append] at h
  rcases h with h | h
  · obtain ⟨j, hj, rfl⟩ := List.mem_map.mp h
    exact .inr (.inr (.inr ⟨j, List.mem_range.mp hj, rfl⟩))
  · have hrows : p ∈ [3, 4, 2] := h
    simp only [List.mem_cons, List.not_mem_nil, or_false] at hrows
    tauto

theorem occupied_sparseTree : Occupied 4096 sparseRows := by
  have hlen : ∀ k, (sparseInner k).entries.length = minInternalKeys 4096 := by
    intro k
    rw [sparseInner, List.length_map, List.length_range, sparseFan, Nat.add_sub_cancel]
  have hmax : minInternalKeys 4096 ≤ maxInternalKeys 4096 := by decide
  refine ⟨?_, ?_, trivial⟩
  · intro n hn
    obtain ⟨k, rfl⟩ : ∃ k, n = sparseInner k := by
      rcases List.mem_cons.mp hn with rfl | hn
      · exact ⟨0, rfl⟩
      · exact ⟨1, List.mem_singleton.mp hn⟩
    rw [InnerNode.Full, hlen, minKeys, if_neg (List.cons_ne_nil _ _)]
    exact ⟨le_refl _, hmax⟩
  · intro n hn
    rw [List.mem_singleton.mp hn]
    exact ⟨le_refl 1, by decide⟩

theorem nodup_sparseTree : (treePids sparseLeaves sparseRows).Nodup := by
  rw [treePids, sparseLeaves_pids, List.nodup_append]
  refine ⟨?_, by decide, ?_⟩
  · exact List.nodup_range.map fun i j h => Nat.add_left_cancel h
  · intro p hp q hq
    obtain ⟨j, -, rfl⟩ := List.mem_map.mp hp
    have hrows : q ∈ [3, 4, 2] := hq
    simp only [List.mem_cons, List.not_mem_nil, or_false] at hrows
    omega

theorem treeInv_sparseTree : TreeInv sparseTree [] sparseLeaves sparseRows where
  pageSize := le_refl 4096
  freeList := ⟨rfl, List.nodup_nil, by simp, Nat.succ_pos _⟩
  upper := upper_sparseTree
  occupied := occupied_sparseTree
  leafOn := by
    intro n hn
    obtain ⟨j, hj, rfl⟩ := mem_sparseLeaves hn
    exact sparseLeaf_on hj
  chain := by
    have hseg := seg_sparseLeaves (j := 0) (sparseFan + sparseFan) (Nat.zero_add _)
    rw [if_pos rfl, ← List.range_eq_range', ← sparseLeaves_pids] at hseg
    exact hseg
  order := order_sparseTree
  nodup := nodup_sparseTree
  held := by
    intro p hp
    show p ≠ 0 ∧ p < 5 + (sparseFan + sparseFan) ∧ p ∉ []
    have hcases := mem_treePids_sparseTree hp
    refine ⟨?_, ?_, List.not_mem_nil⟩
    · omega
    · omega
  leafOcc := by
    intro n hn
    obtain ⟨j, -, rfl⟩ := mem_sparseLeaves hn
    have hlen : (sparseLeaf j).entries.length = minLeafKeys 4096 := by
      rw [sparseLeaf, List.length_map, List.length_range, sparseFill]
    have hrows : sparseRows ≠ [] := List.cons_ne_nil _ _
    rw [hlen, minEntries, if_neg hrows]
    exact ⟨le_refl _, show minLeafKeys 4096 ≤ maxLeafKeys 4096 by decide⟩

/-! ## The deletion of the smallest key -/

/-- The leaf of the smallest key and its parent. -/
theorem leavesUnder_sparseTree : ∃ b kb,
    LeafFor 0 sparseLeaves [] (sparseLeaf 0) b ∧
    LeavesUnder [] [sparseLeaf 0] b [] (sparseInner 0) [sparseInner 1] [] kb := by
  obtain ⟨m, hm⟩ : ∃ m, sparseFan = m + 1 := ⟨minInternalKeys 4096, rfl⟩
  have hsum : sparseFan + sparseFan = (m + sparseFan) + 1 := by omega
  have hleaves : sparseLeaves =
      sparseLeaf 0 :: (List.range (m + sparseFan)).map fun j => sparseLeaf (j + 1) := by
    rw [sparseLeaves, hsum, List.range_succ_eq_map, List.map_cons, List.map_map]
    rfl
  refine ⟨_, (List.range m).map fun i => sparseHead (i + 1), ⟨hleaves, ?_⟩, ?_⟩
  · refine ⟨by rw [hleaves]; rfl, ?_, ?_⟩
    · intro y hy
      rw [List.map_nil, List.nil_append, List.mem_singleton] at hy
      rw [hy]
      show 0 * sparseFill ≤ 0
      omega
    · intro y hy
      rw [List.map_map] at hy
      obtain ⟨j, -, rfl⟩ := List.mem_map.mp hy
      show 0 < (j + 1) * sparseFill
      rw [sparseFill_eq]
      omega
  · refine ⟨rfl, ?_, ?_⟩
    · rw [List.map_map, List.range_add, List.map_append, List.map_map, List.flatMap_singleton,
        sparseInner_kids]
      congr 1
      refine List.map_congr_left fun i _ => ?_
      show sparseHead (m + i + 1) = sparseHead (1 * sparseFan + i)
      rw [show m + i + 1 = 1 * sparseFan + i by omega]
    · rw [sparseInner_kids, hm, List.range_succ_eq_map, List.map_cons, List.map_map]
      simp only [Nat.zero_mul, Nat.zero_add]
      rfl

/-- It merges two leaves below a node that has no entry to spare. -/
theorem mergesLeaf_sparseTree : ∃ lph iph, MergesLeaf sparseTree 0 5 lph iph 0 ∧
    lph.parentPageId = 3 ∧ iph.entries.length = minInternalKeys 4096 := by
  obtain ⟨b, kb, hn, hu⟩ := leavesUnder_sparseTree
  have hunder := treeInv_sparseTree.leafUnder hn hu
  have hfill : ∀ j, (sparseLeaf j).entries.length = minLeafKeys 4096 := by
    intro j
    rw [sparseLeaf, List.length_map, List.length_range, sparseFill]
  have hfan : sparseFan = 171 := sparseFan_eq
  have hone : 1 < sparseFan + sparseFan := by omega
  refine ⟨_, _, ⟨hunder, ⟨⟨1, 0⟩, ?_⟩, le_of_eq (hfill 0), ?_, fun h => absurd h (Nat.lt_irrefl 0)⟩,
    ?_, ?_⟩
  · refine List.mem_map.mpr ⟨0, List.mem_range.mpr (by rw [sparseFill_eq]; omega), ?_⟩
    rw [Nat.zero_mul]
  · rintro ⟨sibPid, lph, hchild, hpage, hrich⟩
    have hget : (sparseInner 0).entries[0]? = some (sparseHead 1) := by
      rw [sparseInner, List.getElem?_map, List.getElem?_range (by omega)]
      show some (sparseHead (0 * sparseFan + (0 + 1))) = _
      rw [Nat.zero_mul]
    have hsib : some (sparseHead 1).2 = some sibPid := by
      rw [← hchild]
      show _ = ((sparseInner 0).entries[0]?).map Prod.snd
      rw [hget]
      rfl
    obtain rfl := Option.some.inj hsib
    have hleaf : sparseTree.pages (sparseHead 1).2 = .leaf _ := sparsePage_leaf hone
    rw [hleaf] at hpage
    obtain rfl := Page.leaf.inj hpage
    have hlen := hfill 1
    have hrich' : minLeafKeys 4096 < (sparseLeaf 1).entries.length := hrich
    omega
  · show (sparsePage (5 + 0)).parent = 3
    rw [sparsePage_leaf (by omega)]
    show 3 + 0 / sparseFan = 3
    rw [Nat.zero_div]
  · show (sparseInner 0).entries.length = _
    rw [sparseInner, List.length_map, List.length_range, sparseFan, Nat.add_sub_cancel]

theorem run_bptreeDelete_sparseTree : ∃ st', (bptreeDelete 0).run sparseTree = some (0, st') := by
  have hentry : (0, ⟨1, 0⟩) ∈ (sparseLeaf 0).entries := by
    refine List.mem_map.mpr ⟨0, List.mem_range.mpr (by rw [sparseFill_eq]; omega), ?_⟩
    rw [Nat.zero_mul]
  have hleaf : sparseLeaf 0 ∈ sparseLeaves :=
    List.mem_map_of_mem (List.mem_range.mpr (by rw [sparseFan_eq]; omega))
  obtain ⟨st', -, -, -, -, -, hrun, -⟩ := bptreeDelete_present treeInv_sparseTree
    (List.mem_flatMap.mpr ⟨_, hleaf, hentry⟩)
  exact ⟨st', hrun⟩

end MiniDb
