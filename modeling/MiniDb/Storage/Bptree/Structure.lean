import MiniDb.Storage.Bptree.Refinement

/-! # The structure of a reachable tree

What the pages of a tree look like to a reader who follows child pointers from the root, with no
mention of rows or low keys. `StructInv` collects it: order inside nodes and around separators, one
depth for all leaves, occupancy, parent pointers and the leaf chain. It follows from `TreeInv`
(`TreeInv.structInv`), so it holds in every state that calls from the empty tree reach. -/

set_option autoImplicit false

namespace MiniDb

open Lib

/-! ## Following child pointers -/

/-- The children of a page, from left to right. -/
def Page.children : Page → List Nat
  | .internal i => i.leftmostChildPageId :: i.entries.map Prod.snd
  | _ => []

/-- The keys of a page. -/
def Page.keys : Page → List Nat
  | .leaf l => l.entries.map Prod.fst
  | .internal i => i.entries.map Prod.fst
  | _ => []

/-- `Below g p d q`: `d` child pointers lead from `p` to `q`. -/
inductive Below (g : Nat → Page) (p : Nat) : Nat → Nat → Prop
  | here : Below g p 0 p
  | child {d q c : Nat} (h : Below g p d q) (hc : c ∈ (g q).children) : Below g p (d + 1) c

/-- The page is a leaf. -/
def Page.IsLeaf : Page → Prop
  | .leaf _ => True
  | _ => False

/-- The pages in the subtree of child `j` of `i` hold keys between the separators beside `j`. -/
def InternalPage.Separates (g : Nat → Page) (i : InternalPage) : Prop :=
  ∀ j c, i.childAt j = some c → ∀ d q, Below g c d q → ∀ k ∈ (g q).keys,
    (∀ m sep, j = m + 1 → i.entries[m]? = some sep → sep.1 ≤ k) ∧
    (∀ sep, i.entries[j]? = some sep → k < sep.1)

/-- The occupancy of a page: no more entries than fit, and half as many unless it is the root. -/
def Page.Occupied (pageSize : Nat) (isRoot : Prop) : Page → Prop
  | .leaf l => l.entries.length ≤ maxLeafKeys pageSize ∧
      (¬ isRoot → minLeafKeys pageSize ≤ l.entries.length)
  | .internal i => i.entries.length ≤ maxInternalKeys pageSize ∧
      (¬ isRoot → minInternalKeys pageSize ≤ i.entries.length)
  | _ => False

/-- **The structural invariant**, for the pages below the root. -/
structure StructInv (g : Nat → Page) (root pageSize : Nat) : Prop where
  /-- keys are strictly increasing inside every node -/
  sorted : ∀ d p, Below g root d p → (g p).keys.Pairwise (· < ·)
  /-- every key in a child lies between its two separators -/
  separated : ∀ d p i, Below g root d p → g p = .internal i → i.Separates g
  /-- all leaves are at the same depth, and only leaves end a path -/
  depth : ∃ height, ∀ d p, Below g root d p → (g p).IsTree ∧ ((g p).IsLeaf ↔ d = height)
  /-- every node has between its minimal and maximal number of entries -/
  occupied : ∀ d p, Below g root d p → (g p).Occupied pageSize (p = root)
  /-- the root has no parent -/
  root_parent : (g root).parent = 0
  /-- every child's parent field names its parent -/
  parent : ∀ d p, Below g root d p → ∀ c ∈ (g p).children, (g c).parent = p
  /-- the leaves, in key order, form one doubly linked list -/
  chain : ∃ leaves : List Nat, leaves.Nodup ∧
    (∀ p, p ∈ leaves ↔ (g p).IsLeaf ∧ ∃ d, Below g root d p) ∧
    (leaves.flatMap fun p => (g p).keys).Pairwise (· < ·) ∧
    DoublyLinked 0 (fun p => (g p).nextLeaf) (fun p => (g p).prevLeaf) leaves

section Below

variable {g : Nat → Page} {p q c root d : Nat} {hs : List (Nat × Nat)} {rows : List Row}

/-- A path that is not empty starts with a child. -/
theorem Below.head (h : Below g p d q) :
    (d = 0 ∧ q = p) ∨ ∃ d' c, d = d' + 1 ∧ c ∈ (g p).children ∧ Below g c d' q := by
  induction h with
  | here => exact .inl ⟨rfl, rfl⟩
  | child h hc ih =>
    rcases ih with ⟨rfl, rfl⟩ | ⟨d', c', rfl, hc', h'⟩
    · exact .inr ⟨0, _, rfl, hc, .here⟩
    · exact .inr ⟨d' + 1, c', rfl, hc', h'.child hc⟩

theorem InnerNode.On.children {n : InnerNode} {pg : Page} (h : n.On pg) :
    pg.children = n.kids.map Prod.snd := by
  obtain ⟨par, rfl⟩ := h
  rfl

theorem InnerNode.On.keys {n : InnerNode} {pg : Page} (h : n.On pg) :
    pg.keys = n.entries.map Prod.fst := by
  obtain ⟨par, rfl⟩ := h
  rfl

theorem LeafNode.On.children {n : LeafNode} {pg : Page} (h : n.On pg) : pg.children = [] := by
  obtain ⟨par, next, prev, rfl⟩ := h
  rfl

theorem LeafNode.On.keys {n : LeafNode} {pg : Page} (h : n.On pg) :
    pg.keys = n.entries.map Prod.fst := by
  obtain ⟨par, next, prev, rfl⟩ := h
  rfl

/-- The pages as deep as there are rows above a row are the pages of that row. -/
theorem Upper.below_iff (h : Upper g root hs rows) :
    Below g root rows.length q ↔ q ∈ hs.map Prod.snd := by
  induction rows generalizing hs q with
  | nil =>
    obtain ⟨rfl, -⟩ := h
    constructor
    · rintro ⟨⟩
      simp
    · intro hq
      obtain rfl : q = root := by simpa using hq
      exact .here
  | cons row rest ih =>
    obtain ⟨hrow, hrest⟩ := h
    have hpids : ∀ p, Below g root rest.length p ↔ ∃ n ∈ row, n.pid = p := by
      intro p
      rw [ih hrest, map_snd_head, List.mem_map]
    constructor
    · intro hq
      obtain ⟨hp, hc⟩ : ∃ p, Below g root rest.length p ∧ q ∈ (g p).children := by
        cases hq with
        | child hp hc => exact ⟨_, hp, hc⟩
      obtain ⟨n, hn, rfl⟩ := (hpids _).mp hc.1
      rw [(hrow.on n hn).children] at hc
      rw [← hrow.kids]
      obtain ⟨x, hx, rfl⟩ := List.mem_map.mp hc.2
      exact List.mem_map_of_mem (List.mem_flatMap.mpr ⟨n, hn, hx⟩)
    · intro hq
      rw [← hrow.kids] at hq
      obtain ⟨x, hx, rfl⟩ := List.mem_map.mp hq
      obtain ⟨n, hn, hxn⟩ := List.mem_flatMap.mp hx
      refine .child ((hpids n.pid).mpr ⟨n, hn, rfl⟩) ?_
      rw [(hrow.on n hn).children]
      exact List.mem_map_of_mem hxn

/-- A page less deep than the bottom row belongs to a row above. -/
theorem Upper.below_cases (h : Upper g root hs rows) (hq : Below g root d q)
    (hd : d < rows.length) :
    ∃ pre row rest n, rows = pre ++ row :: rest ∧ n ∈ row ∧ n.pid = q ∧ rest.length = d := by
  induction rows generalizing hs with
  | nil => simp at hd
  | cons row rest ih =>
    obtain ⟨hrow, hrest⟩ := h
    rcases Nat.lt_succ_iff_lt_or_eq.mp hd with hd | rfl
    · obtain ⟨pre, row', rest', n, rfl, hn⟩ := ih hrest hd
      exact ⟨row :: pre, row', rest', n, rfl, hn⟩
    · obtain ⟨n, hn, rfl⟩ : ∃ n ∈ row, n.pid = q := by
        simpa only [map_snd_head, List.mem_map] using hrest.below_iff.mp hq
      exact ⟨[], row, rest, n, rfl, hn, rfl, rfl⟩

theorem Upper.root_parent (h : Upper g root hs rows) : (g root).parent = 0 := by
  induction rows generalizing hs with
  | nil => exact h.2
  | cons row rest ih => exact ih h.2

/-- The rows from one row upwards. -/
theorem Upper.drop {pre rest : List Row} {row : Row} (h : Upper g root hs (pre ++ row :: rest)) :
    ∃ hs', RowOk g hs' row ∧ Upper g root (row.map InnerNode.head) rest := by
  induction pre generalizing hs with
  | nil => exact ⟨hs, h⟩
  | cons row' pre ih => exact ih h.2

end Below

/-! ## Separators -/

section Separators

variable {g : Nat → Page} {root : Nat} {hs : List (Nat × Nat)} {rows : List Row}

/-- The pages below each head hold keys from its low key up to the next low key. -/
def Bounded (g : Nat → Page) (hs : List (Nat × Nat)) : Prop :=
  ∀ a x b, hs = a ++ x :: b → ∀ d q, Below g x.2 d q → ∀ k ∈ (g q).keys,
    x.1 ≤ k ∧ ∀ y ∈ b, k < y.1

theorem LeafOrder.bounded {leaves : List LeafNode} (h : LeafOrder leaves)
    (hon : ∀ n ∈ leaves, n.On (g n.pid)) : Bounded g (leaves.map LeafNode.head) := by
  intro a x b hs d q hq k hk
  obtain ⟨a, nb, rfl, rfl, hnb⟩ := List.map_eq_append_iff.mp hs
  obtain ⟨n, b, rfl, rfl, rfl⟩ := List.map_eq_cons_iff.mp hnb
  have hn := hon n (by simp)
  rcases hq.head with ⟨-, rfl⟩ | ⟨d', c, -, hc, -⟩
  · rw [LeafNode.head, hn.keys] at hk
    obtain ⟨e, he, rfl⟩ := List.mem_map.mp hk
    refine ⟨h.low_le n (by simp) e he, fun y hy => ?_⟩
    obtain ⟨m, hm, rfl⟩ := List.mem_map.mp hy
    rw [List.append_cons] at h
    exact (h.bound n (by simp) m hm).2 e he
  · rw [LeafNode.head, hn.children] at hc
    cases hc

/-- The bounds climb to the row above. -/
theorem Bounded.up {row : Row} (hinc : Increasing hs) (hrow : RowOk g hs row) (h : Bounded g hs) :
    Bounded g (row.map InnerNode.head) := by
  intro a x b heq d q hq k hk
  obtain ⟨a, nb, rfl, rfl, hnb⟩ := List.map_eq_append_iff.mp heq
  obtain ⟨n, b, rfl, rfl, rfl⟩ := List.map_eq_cons_iff.mp hnb
  have hn := hrow.on n (by simp)
  have hkids : hs = a.flatMap InnerNode.kids ++ (n.kids ++ b.flatMap InnerNode.kids) := by
    rw [← hrow.kids]
    simp
  -- the low key of a later node is the low key of its first kid
  have hnext : ∀ y ∈ b.map InnerNode.head, ∃ z ∈ b.flatMap InnerNode.kids, z.1 = y.1 := by
    intro y hy
    obtain ⟨m, hm, rfl⟩ := List.mem_map.mp hy
    exact ⟨(m.low, m.leftmost), List.mem_flatMap.mpr ⟨m, hm, by simp [InnerNode.kids]⟩, rfl⟩
  rw [Increasing, hkids, List.pairwise_append, List.pairwise_append] at hinc
  obtain ⟨-, ⟨hown, -, hlater⟩, -⟩ := hinc
  have hlow : ∀ z ∈ n.kids, n.low ≤ z.1 := by
    intro z hz
    rcases List.mem_cons.mp hz with rfl | hz
    · exact le_refl _
    · exact le_of_lt ((List.pairwise_cons.mp hown).1 z hz)
  rcases hq.head with ⟨-, rfl⟩ | ⟨d', c, -, hc, hq'⟩
  · rw [InnerNode.head, hn.keys] at hk
    obtain ⟨e, he, rfl⟩ := List.mem_map.mp hk
    have hkid : e ∈ n.kids := List.mem_cons_of_mem _ he
    refine ⟨hlow e hkid, fun y hy => ?_⟩
    obtain ⟨z, hz, hzy⟩ := hnext y hy
    rw [← hzy]
    exact hlater e hkid z hz
  · rw [InnerNode.head, hn.children] at hc
    obtain ⟨x, hx, rfl⟩ := List.mem_map.mp hc
    obtain ⟨ka, kb, hsplit⟩ := List.append_of_mem hx
    obtain ⟨hge, hlt⟩ := h (a.flatMap InnerNode.kids ++ ka) x (kb ++ b.flatMap InnerNode.kids)
      (by rw [hkids, hsplit]; simp) d' q hq' k hk
    refine ⟨le_trans (hlow x hx) hge, fun y hy => ?_⟩
    obtain ⟨z, hz, hzy⟩ := hnext y hy
    rw [← hzy]
    exact hlt z (List.mem_append_right _ hz)

/-- Where the bounds hold of a row, the nodes above separate their children. -/
theorem Bounded.separates {row : Row} (h : Bounded g hs) (hrow : RowOk g hs row) {n : InnerNode}
    (hn : n ∈ row) (par : Nat) :
    InternalPage.Separates g ⟨par, n.leftmost, n.entries⟩ := by
  intro j c hc d q hq k hk
  rw [InnerNode.childAt_eq, Option.map_eq_some_iff] at hc
  obtain ⟨x, hx, rfl⟩ := hc
  obtain ⟨a, b, rfl⟩ := List.append_of_mem hn
  obtain ⟨hj, hget⟩ := List.getElem?_eq_some_iff.mp hx
  have hsplit : n.kids = n.kids.take j ++ x :: n.kids.drop (j + 1) := by
    rw [← hget, ← List.drop_eq_getElem_cons hj, List.take_append_drop]
  obtain ⟨hge, hlt⟩ := h (a.flatMap InnerNode.kids ++ n.kids.take j) x
    (n.kids.drop (j + 1) ++ b.flatMap InnerNode.kids)
    (by
      rw [← hrow.kids, List.flatMap_append, List.flatMap_cons]
      nth_rewrite 1 [hsplit]
      simp) d q hq k hk
  refine ⟨?_, fun sep hsep => hlt sep (List.mem_append_left _ ?_)⟩
  · rintro m sep rfl hsep
    have : n.kids[m + 1]? = some sep := hsep
    rw [hx, Option.some.injEq] at this
    exact this ▸ hge
  · have : (n.kids.drop (j + 1))[0]? = some sep := by
      rw [List.getElem?_drop]
      exact hsep
    exact List.mem_of_getElem? this

/-- Every internal node of the tree separates its children. -/
theorem Upper.separates (h : Upper g root hs rows) (hinc : Increasing hs) (hb : Bounded g hs) :
    ∀ row ∈ rows, ∀ n ∈ row, ∀ par,
      InternalPage.Separates g ⟨par, n.leftmost, n.entries⟩ := by
  induction rows generalizing hs with
  | nil => simp
  | cons row rest ih =>
    obtain ⟨hrow, hrest⟩ := h
    intro row' hrow'
    rcases List.mem_cons.mp hrow' with rfl | hrow'
    · exact fun n hn par => hb.separates hrow hn par
    · have hinc' : Increasing (row.map InnerNode.head) := by
        rw [← hrow.kids] at hinc
        exact hinc.heads
      exact ih hrest hinc' (hb.up hinc hrow) row' hrow'

/-- The page of an internal node. -/
theorem Upper.on_mem (h : Upper g root hs rows) : ∀ row ∈ rows, ∀ n ∈ row, n.On (g n.pid) := by
  induction rows generalizing hs with
  | nil => simp
  | cons row rest ih =>
    intro row' hrow' n hn
    rcases List.mem_cons.mp hrow' with rfl | hrow'
    · exact h.1.on n hn
    · exact ih h.2 row' hrow' n hn

/-- The kids of every node are in order. -/
theorem Upper.kids_increasing (h : Upper g root hs rows) (hinc : Increasing hs) :
    ∀ row ∈ rows, ∀ n ∈ row, Increasing n.kids := by
  induction rows generalizing hs with
  | nil => simp
  | cons row rest ih =>
    obtain ⟨hrow, hrest⟩ := h
    rw [← hrow.kids] at hinc
    intro row' hrow' n hn
    rcases List.mem_cons.mp hrow' with rfl | hrow'
    · exact hinc.kids hn
    · exact ih hrest hinc.heads row' hrow' n hn

end Separators

/-! ## From the rows to the pages -/

section StructInv

variable {st : Pager} {free : List Nat} {leaves : List LeafNode} {rows : List Row}

theorem Occupied.drop {pageSize : Nat} {pre rest : List Row} {row : Row}
    (h : Occupied pageSize (pre ++ row :: rest)) : ∀ n ∈ row, n.Full pageSize rest := by
  induction pre with
  | nil => exact h.1
  | cons row' pre ih => exact ih h.2

/-- A page below the root is a leaf of the tree or a node of some row. -/
theorem TreeInv.below_cases (h : TreeInv st free leaves rows) {d p : Nat}
    (hp : Below st.pages st.header.rootIndexPageId d p) :
    (d = rows.length ∧ ∃ n ∈ leaves, n.pid = p) ∨
      ∃ pre row rest n, rows = pre ++ row :: rest ∧ n ∈ row ∧ n.pid = p ∧ rest.length = d := by
  rcases lt_trichotomy d rows.length with hd | rfl | hd
  · exact .inr (h.upper.below_cases hp hd)
  · refine .inl ⟨rfl, ?_⟩
    simpa only [map_snd_leaf_head, List.mem_map] using h.upper.below_iff.mp hp
  · -- nothing is below a leaf
    exfalso
    induction hp with
    | here => omega
    | @child d q c hq hc ih =>
      rcases Nat.lt_succ_iff_lt_or_eq.mp hd with hd | hd
      · exact ih hd
      · subst hd
        obtain ⟨n, hn, rfl⟩ : ∃ n ∈ leaves, n.pid = q := by
          simpa only [map_snd_leaf_head, List.mem_map] using h.upper.below_iff.mp hq
        rw [(h.leafOn n hn).children] at hc
        cases hc

/-- The pages of the tree are the pages below the root. -/
theorem TreeInv.mem_treePids_iff (h : TreeInv st free leaves rows) {p : Nat} :
    p ∈ treePids leaves rows ↔ ∃ d, Below st.pages st.header.rootIndexPageId d p := by
  constructor
  · intro hp
    rcases List.mem_append.mp hp with hleaf | hinner
    · obtain ⟨n, hn, rfl⟩ := List.mem_map.mp hleaf
      exact ⟨rows.length, h.upper.below_iff.mpr (by simpa using ⟨n, hn, rfl⟩)⟩
    · obtain ⟨row, hrow, hin⟩ := List.mem_flatMap.mp hinner
      obtain ⟨n, hn, rfl⟩ := List.mem_map.mp hin
      obtain ⟨pre, rest, rfl⟩ := List.append_of_mem hrow
      obtain ⟨hs', -, htop⟩ := Upper.drop h.upper
      exact ⟨rest.length, htop.below_iff.mpr (by simpa using ⟨n, hn, rfl⟩)⟩
  · rintro ⟨d, hp⟩
    rcases h.below_cases hp with ⟨-, n, hn, rfl⟩ | ⟨pre, row, rest, n, hrows, hn, rfl, -⟩
    · exact List.mem_append_left _ (List.mem_map_of_mem hn)
    · refine List.mem_append_right _ (List.mem_flatMap.mpr ⟨row, ?_, List.mem_map_of_mem hn⟩)
      rw [hrows]
      simp

theorem TreeInv.structInv (h : TreeInv st free leaves rows) :
    StructInv st.pages st.header.rootIndexPageId st.pageSize := by
  have hinc := h.order.increasing
  have hleaf : ∀ n ∈ leaves, (st.pages n.pid).IsLeaf := by
    intro n hn
    rw [(h.leafOn n hn).eq]
    trivial
  -- an internal node with the rows around it
  have hinner : ∀ {pre row rest n}, rows = pre ++ row :: rest → n ∈ row →
      n.On (st.pages n.pid) ∧ (∀ c ∈ n.kids, (st.pages c.2).parent = n.pid) := by
    intro pre row rest n hrows hn
    obtain ⟨hs', hrow, -⟩ := Upper.drop (hrows ▸ h.upper)
    exact ⟨hrow.on n hn, hrow.parent n hn⟩
  constructor
  case sorted =>
    intro d p hp
    rcases h.below_cases hp with ⟨-, n, hn, rfl⟩ | ⟨pre, row, rest, n, hrows, hn, rfl, -⟩
    · rw [(h.leafOn n hn).keys]
      exact List.pairwise_map.mpr (h.order.sorted n hn)
    · rw [(hinner hrows hn).1.keys]
      have := h.upper.kids_increasing hinc row (by simp [hrows]) n hn
      exact List.pairwise_map.mpr (List.pairwise_cons.mp this).2
  case separated =>
    intro d p i hp hi
    rcases h.below_cases hp with ⟨-, n, hn, rfl⟩ | ⟨pre, row, rest, n, hrows, hn, rfl, -⟩
    · have := hleaf n hn
      rw [hi] at this
      exact this.elim
    · obtain ⟨par, hpage⟩ := (hinner hrows hn).1
      rw [hpage, Page.internal.injEq] at hi
      subst hi
      exact h.upper.separates hinc (h.order.bounded h.leafOn) row (by simp [hrows]) n hn par
  case depth =>
    refine ⟨rows.length, fun d p hp => ?_⟩
    rcases h.below_cases hp with ⟨hd, n, hn, rfl⟩ | ⟨pre, row, rest, n, hrows, hn, rfl, hd⟩
    · exact ⟨(h.leafOn n hn).isTree, fun _ => hd, fun _ => hleaf n hn⟩
    · have hon := (hinner hrows hn).1
      refine ⟨hon.isTree, fun hl => ?_, fun hd' => ?_⟩
      · rw [hon.eq] at hl
        exact hl.elim
      · rw [hrows, List.length_append, List.length_cons] at hd'
        omega
  case occupied =>
    intro d p hp
    rcases h.below_cases hp with ⟨-, n, hn, rfl⟩ | ⟨pre, row, rest, n, hrows, hn, rfl, -⟩
    · rw [(h.leafOn n hn).eq]
      obtain ⟨hmin, hmax⟩ := h.leafOcc n hn
      refine ⟨hmax, fun hne => ?_⟩
      by_cases hr : rows = []
      · subst hr
        have : n.head ∈ [(0, st.header.rootIndexPageId)] := h.upper.1 ▸ List.mem_map_of_mem hn
        rw [List.mem_singleton] at this
        exact absurd (congrArg Prod.snd this) hne
      · simpa [minEntries, hr] using hmin
    · rw [(hinner hrows hn).1.eq]
      obtain ⟨hmin, hmax⟩ := Occupied.drop (hrows ▸ h.occupied) n hn
      refine ⟨hmax, fun hne => ?_⟩
      by_cases hr : rest = []
      · subst hr
        obtain ⟨hs', -, htop⟩ := Upper.drop (hrows ▸ h.upper)
        have : n.head ∈ [(0, st.header.rootIndexPageId)] := htop.1 ▸ List.mem_map_of_mem hn
        rw [List.mem_singleton] at this
        exact absurd (congrArg Prod.snd this) hne
      · simpa [minKeys, hr] using hmin
  case root_parent =>
    exact h.upper.root_parent
  case parent =>
    intro d p hp c hc
    rcases h.below_cases hp with ⟨-, n, hn, rfl⟩ | ⟨pre, row, rest, n, hrows, hn, rfl, -⟩
    · rw [(h.leafOn n hn).children] at hc
      cases hc
    · obtain ⟨hon, hpar⟩ := hinner hrows hn
      rw [hon.children] at hc
      obtain ⟨x, hx, rfl⟩ := List.mem_map.mp hc
      exact hpar x hx
  case chain =>
    refine ⟨leaves.map LeafNode.pid, (List.nodup_append.mp h.nodup).1, ?_, ?_, h.chain⟩
    · intro p
      constructor
      · intro hp
        obtain ⟨n, hn, rfl⟩ := List.mem_map.mp hp
        exact ⟨hleaf n hn, rows.length, h.upper.below_iff.mpr (by simpa using ⟨n, hn, rfl⟩)⟩
      · rintro ⟨hl, d, hp⟩
        rcases h.below_cases hp with ⟨-, n, hn, rfl⟩ | ⟨pre, row, rest, n, hrows, hn, rfl, -⟩
        · exact List.mem_map_of_mem hn
        · rw [(hinner hrows hn).1.eq] at hl
          exact hl.elim
    · have hkeys : ((leaves.map LeafNode.pid).flatMap fun p => (st.pages p).keys) =
          (treeEntries leaves).map Prod.fst := by
        rw [treeEntries, List.map_flatMap, List.flatMap_map]
        exact List.flatMap_congr fun n hn => (h.leafOn n hn).keys
      rw [hkeys]
      exact List.pairwise_map.mpr h.order.entries_sorted

theorem TreeInv.isTree (h : TreeInv st free leaves rows) {p : Nat}
    (hp : p ∈ treePids leaves rows) : (st.pages p).IsTree := by
  obtain ⟨d, hbelow⟩ := h.mem_treePids_iff.mp hp
  obtain ⟨height, hdepth⟩ := h.structInv.depth
  exact (hdepth d p hbelow).1

end StructInv

/-- **Every reachable tree is well formed.** Any sequence of insertions, deletions and searches that
comes to its end from the empty root leaves the structural invariant; and it comes to its end, so
without writing past a page, unless a key is inserted beyond the capacity. -/
theorem bptree_structInv {pageSize : Nat} (h : 4096 ≤ pageSize) (calls : List TreeCall) :
    (∀ replies st', (runAll TreeCall.exec calls).run (pagerOpenCreate pageSize) =
        some (replies, st') → StructInv st'.pages st'.header.rootIndexPageId pageSize) ∧
    (AllowedAll (TreeCall.HasRoom pageSize) TreeCall.next calls (fun _ => none) →
      ∃ replies st', (runAll TreeCall.exec calls).run (pagerOpenCreate pageSize) =
        some (replies, st')) := by
  constructor
  · intro replies st' hrun
    obtain ⟨-, free, leaves, rows, hinv, hps, -⟩ := treeCalls_represents h hrun
    exact hps ▸ hinv.structInv
  · intro hroom
    obtain ⟨replies, st', hrun, -⟩ :=
      treeCall_simulates.runAll calls (represents_create h) hroom
    exact ⟨replies, st', hrun⟩

theorem bptree_structInv_reuse :
    ∃ replies st', (runAll TreeCall.exec [.insert 7 ⟨1, 0⟩, .insert 9 ⟨1, 1⟩, .delete 7]).run
        (pagerOpenCreate 4096) = some (replies, st') ∧
      StructInv st'.pages st'.header.rootIndexPageId 4096 := by
  have hempty : KeyMap.AtMost (fun _ => none) 0 := ⟨[], Nat.le_refl 0, fun _ hne => absurd rfl hne⟩
  obtain ⟨hinv, hreturns⟩ := bptree_structInv (le_refl 4096)
    [.insert 7 ⟨1, 0⟩, .insert 9 ⟨1, 1⟩, .delete 7]
  obtain ⟨replies, st', hrun⟩ := hreturns (hasRoom_of_length hempty (by decide))
  exact ⟨replies, st', hrun, hinv replies st' hrun⟩

end MiniDb
