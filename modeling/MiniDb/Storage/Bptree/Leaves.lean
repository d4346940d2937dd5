import MiniDb.Storage.Bptree.Update

/-! # Changes of the leaves

The row of leaves differs from the rows above it: its pages hold the entries and are chained. Here
are what a key's position in a leaf is, when the order of the leaves survives a replacement of some
of them, and `TreeStep`, the relation between the whole tree before and after an operation. -/

set_option autoImplicit false

namespace MiniDb

open Lib

/-! ## A key in a leaf -/

/-- The entries of a leaf around a key: `l` below it, `r` not below it. -/
structure LeafSplit (key : Nat) (entries l r : List (Nat × RowRef)) : Prop where
  eq : entries = l ++ r
  find : leafFind entries key = l.length
  lt : ∀ e ∈ l, e.1 < key
  ge : ∀ e ∈ r, key ≤ e.1

theorem exists_leafSplit {entries : List (Nat × RowRef)}
    (hs : entries.Pairwise fun a b => a.1 < b.1) (key : Nat) :
    ∃ l r, LeafSplit key entries l r := by
  obtain ⟨l, r, heq, hfind, hl, hr⟩ := partitionPoint_spec (partitioned_lt (f := Prod.fst) hs key)
  exact ⟨l, r, heq, hfind, fun e he => by simpa using hl e he, fun e he => by simpa using hr e he⟩

/-- A key above all entries goes to the end. -/
theorem leafFind_last {entries : List (Nat × RowRef)} {key : Nat} (h : ∀ e ∈ entries, e.1 < key) :
    leafFind entries key = entries.length := by
  have hfind : leafFind (entries ++ []) key = entries.length :=
    partitionPoint_append (fun e he => by simpa using h e he) (by simp)
  simpa using hfind

/-- A key below all entries goes to the front. -/
theorem leafFind_first {entries : List (Nat × RowRef)} {key : Nat} (h : ∀ e ∈ entries, key ≤ e.1) :
    leafFind entries key = 0 :=
  show leafFind ([] ++ entries) key = [].length from
    partitionPoint_append (by simp) (fun e he => by simpa using h e he)

section LeafSplit

variable {key : Nat} {entries l r : List (Nat × RowRef)}

/-- The source's equality test at the found position. -/
theorem LeafSplit.any_iff (h : LeafSplit key entries l r) :
    (entries[leafFind entries key]?).any (·.1 == key) = true ↔
      ∃ ref r', r = (key, ref) :: r' := by
  have hget : entries[leafFind entries key]? = r.head? := by
    rw [h.find, h.eq]
    cases r <;> simp
  rw [hget]
  cases r with
  | nil => simp
  | cons e r => exact ⟨fun heq => ⟨e.2, r, by simp at heq; simp [← heq]⟩, fun ⟨ref, r', heq⟩ => by
      simp [(List.cons.inj heq).1]⟩

/-- A key that is in the leaf is the first one not below it. -/
theorem LeafSplit.mem_iff (h : LeafSplit key entries l r)
    (hs : entries.Pairwise fun a b => a.1 < b.1) {ref : RowRef} :
    (key, ref) ∈ entries ↔ ∃ r', r = (key, ref) :: r' := by
  refine ⟨fun hmem => ?_, fun ⟨r', hr⟩ => by simp [h.eq, hr]⟩
  rw [h.eq] at hmem hs
  rcases List.mem_append.mp hmem with hmem | hmem
  · exact absurd (h.lt _ hmem) (lt_irrefl key)
  · cases r with
    | nil => simp at hmem
    | cons e r' =>
      rcases List.mem_cons.mp hmem with rfl | hmem
      · exact ⟨r', rfl⟩
      · have h₁ := (List.pairwise_cons.mp (List.pairwise_append.mp hs).2.1).1 _ hmem
        have h₂ := h.ge e (by simp)
        simp only at h₁
        omega

/-- A key that is not in the leaf is strictly between its neighbours. -/
theorem LeafSplit.gt (h : LeafSplit key entries l r) (hne : ∀ e ∈ entries, e.1 ≠ key) :
    ∀ e ∈ r, key < e.1 := fun e he =>
  lt_of_le_of_ne (h.ge e he) fun heq => hne e (by rw [h.eq]; simp [he]) heq.symm

/-- Inserting a new key keeps a leaf sorted. -/
theorem LeafSplit.sorted_insert (h : LeafSplit key entries l r)
    (hs : entries.Pairwise fun a b => a.1 < b.1) (hne : ∀ e ∈ entries, e.1 ≠ key) (ref : RowRef) :
    (l ++ (key, ref) :: r).Pairwise fun a b => a.1 < b.1 := by
  rw [h.eq, List.pairwise_append] at hs
  refine List.pairwise_append.mpr ⟨hs.1, List.pairwise_cons.mpr ⟨h.gt hne, hs.2.1⟩, ?_⟩
  intro a ha b hb
  rcases List.mem_cons.mp hb with rfl | hb
  · exact h.lt a ha
  · exact hs.2.2 a ha b hb

end LeafSplit

/-! ## Order -/

section Order

variable {a b mid mid' : List LeafNode} {leaves : List LeafNode}

/-- The leaves to the right bound those to their left. -/
theorem LeafOrder.bound (h : LeafOrder (a ++ b)) :
    ∀ n ∈ a, ∀ m ∈ b, n.low < m.low ∧ ∀ e ∈ n.entries, e.1 < m.low :=
  (List.pairwise_append.mp h.pairwise).2.2

/-- Some of the leaves in order are in order. -/
theorem LeafOrder.sublist (h : LeafOrder leaves) (hs : mid.Sublist leaves) : LeafOrder mid where
  pairwise := h.pairwise.sublist hs
  sorted := fun n hn => h.sorted n (hs.subset hn)
  low_le := fun n hn => h.low_le n (hs.subset hn)
  low_lt := fun n hn => h.low_lt n (hs.subset hn)
  lt := fun n hn => h.lt n (hs.subset hn)

/-- The order of the leaves survives a replacement of the neighbours `mid` by ordered leaves `mid'`
that start no lower and are bounded by the leaves to the right. -/
theorem LeafOrder.replace (h : LeafOrder (a ++ mid ++ b)) (hmid : LeafOrder mid')
    (hlow : ∀ n ∈ mid', ∃ m ∈ mid, m.low ≤ n.low)
    (hup : ∀ n ∈ mid', ∀ m ∈ b, n.low < m.low ∧ ∀ e ∈ n.entries, e.1 < m.low) :
    LeafOrder (a ++ mid' ++ b) := by
  have ha : LeafOrder a := h.sublist (by simp)
  have hb : LeafOrder b := h.sublist (by simp)
  have hab : ∀ n ∈ a, ∀ m ∈ mid' ++ b, n.low < m.low ∧ ∀ e ∈ n.entries, e.1 < m.low := by
    intro n hn m hm
    rw [List.append_assoc] at h
    rcases List.mem_append.mp hm with hm | hm
    · obtain ⟨m₀, hm₀, hle⟩ := hlow m hm
      obtain ⟨h₁, h₂⟩ := h.bound n hn m₀ (List.mem_append_left _ hm₀)
      exact ⟨lt_of_lt_of_le h₁ hle, fun e he => lt_of_lt_of_le (h₂ e he) hle⟩
    · exact h.bound n hn m (List.mem_append_right _ hm)
  have hall : ∀ n ∈ a ++ mid' ++ b, n ∈ a ∨ n ∈ mid' ∨ n ∈ b := by
    intro n hn
    simpa [or_assoc] using hn
  constructor
  case pairwise =>
    rw [List.append_assoc]
    exact List.pairwise_append.mpr ⟨ha.pairwise, List.pairwise_append.mpr
      ⟨hmid.pairwise, hb.pairwise, hup⟩, hab⟩
  case sorted =>
    intro n hn
    rcases hall n hn with hn | hn | hn
    exacts [ha.sorted n hn, hmid.sorted n hn, hb.sorted n hn]
  case low_le =>
    intro n hn
    rcases hall n hn with hn | hn | hn
    exacts [ha.low_le n hn, hmid.low_le n hn, hb.low_le n hn]
  case low_lt =>
    intro n hn
    rcases hall n hn with hn | hn | hn
    exacts [ha.low_lt n hn, hmid.low_lt n hn, hb.low_lt n hn]
  case lt =>
    intro n hn
    rcases hall n hn with hn | hn | hn
    exacts [ha.lt n hn, hmid.lt n hn, hb.lt n hn]

theorem leafOrder_singleton {n : LeafNode} (hs : n.entries.Pairwise fun a b => a.1 < b.1)
    (hle : ∀ e ∈ n.entries, n.low ≤ e.1) (hlow : n.low < 2 ^ 64)
    (hlt : ∀ e ∈ n.entries, e.1 < 2 ^ 64) : LeafOrder [n] where
  pairwise := List.pairwise_singleton _ _
  sorted := fun _ hm => List.mem_singleton.mp hm ▸ hs
  low_le := fun _ hm => List.mem_singleton.mp hm ▸ hle
  low_lt := fun _ hm => List.mem_singleton.mp hm ▸ hlow
  lt := fun _ hm => List.mem_singleton.mp hm ▸ hlt

/-- Entries cut before `m` make two ordered leaves with `m`'s key between them. -/
theorem leafOrder_cut {low pid pid' : Nat} {l r : List (Nat × RowRef)} {m : Nat × RowRef}
    (h : LeafOrder [⟨low, pid, l ++ m :: r⟩]) (hl : l ≠ []) :
    LeafOrder [⟨low, pid, l⟩, ⟨m.1, pid', m :: r⟩] := by
  have hs := h.sorted _ (List.mem_singleton_self _)
  have hle := h.low_le _ (List.mem_singleton_self _)
  have hlt := h.lt _ (List.mem_singleton_self _)
  simp only [List.pairwise_append, List.pairwise_cons, List.mem_cons, List.mem_append] at hs hle hlt
  obtain ⟨hs₁, hs₂, hs₃⟩ := hs
  have hlm : ∀ e ∈ l, e.1 < m.1 := fun e he => hs₃ e he m (.inl rfl)
  have hlow : low < m.1 := by
    obtain ⟨e, t, rfl⟩ := List.exists_cons_of_ne_nil hl
    exact lt_of_le_of_lt (hle e (by simp)) (hlm e (by simp))
  constructor
  case pairwise => simpa using ⟨hlow, fun a b hab => hlm (a, b) hab⟩
  case sorted => simpa using ⟨hs₁, fun a b hab => hs₂.1 (a, b) hab, hs₂.2⟩
  case low_le =>
    simp only [List.mem_cons, List.not_mem_nil, or_false, forall_eq_or_imp, forall_eq, le_refl,
      true_and]
    exact ⟨fun e he => hle e (.inl he), fun e he => le_of_lt (hs₂.1 e he)⟩
  case low_lt =>
    simpa using ⟨h.low_lt _ (List.mem_singleton_self _), hlt m (.inr (.inl rfl))⟩
  case lt =>
    simp only [List.mem_cons, List.not_mem_nil, or_false, forall_eq_or_imp, forall_eq]
    exact ⟨fun e he => hlt e (.inl he), hlt m (.inr (.inl rfl)), fun e he => hlt e (.inr (.inr he))⟩

/-- A leaf is cut in two within its row. -/
theorem LeafOrder.cut {low pid : Nat} {l r : List (Nat × RowRef)} {m : Nat × RowRef}
    (h : LeafOrder (a ++ [⟨low, pid, l ++ m :: r⟩] ++ b)) (hl : l ≠ []) (pid' : Nat) :
    LeafOrder (a ++ [⟨low, pid, l⟩, ⟨m.1, pid', m :: r⟩] ++ b) := by
  have hn : (⟨low, pid, l ++ m :: r⟩ : LeafNode) ∈ a ++ [⟨low, pid, l ++ m :: r⟩] ++ b := by simp
  refine h.replace (leafOrder_cut (h.sublist (by simp)) hl) ?_ ?_
  · intro k hk
    simp only [List.mem_cons, List.not_mem_nil, or_false] at hk
    refine ⟨_, List.mem_singleton_self _, ?_⟩
    rcases hk with rfl | rfl
    · exact le_refl _
    · exact h.low_le _ hn m (by simp)
  · intro k hk u hu
    obtain ⟨hlow, hent⟩ := h.bound _ (List.mem_append_right _ (List.mem_singleton_self _)) u hu
    simp only [List.mem_cons, List.not_mem_nil, or_false] at hk
    rcases hk with rfl | rfl
    · exact ⟨hlow, fun e he => hent e (List.mem_append_left _ he)⟩
    · exact ⟨hent m (by simp), fun e he => hent e (List.mem_append_right _ he)⟩

/-- Two neighbouring leaves are joined within their row. -/
theorem LeafOrder.join {l r : LeafNode} (h : LeafOrder (a ++ [l, r] ++ b)) :
    LeafOrder (a ++ [{ l with entries := l.entries ++ r.entries }] ++ b) := by
  have hl : l ∈ a ++ [l, r] ++ b := by simp
  have hr : r ∈ a ++ [l, r] ++ b := by simp
  obtain ⟨hlow, hlr⟩ : l.low < r.low ∧ ∀ e ∈ l.entries, e.1 < r.low := by
    have hp := h.pairwise
    rw [List.append_assoc] at hp
    have := (List.pairwise_append.mp hp).2.1
    simp only [List.cons_append, List.nil_append, List.pairwise_cons, List.mem_cons] at this
    exact this.1 r (.inl rfl)
  refine h.replace (leafOrder_singleton ?_ ?_ (h.low_lt l hl) ?_) ?_ ?_
  · refine List.pairwise_append.mpr ⟨h.sorted l hl, h.sorted r hr, fun e he f hf => ?_⟩
    exact lt_of_lt_of_le (hlr e he) (h.low_le r hr f hf)
  · intro e he
    rcases List.mem_append.mp he with he | he
    · exact h.low_le l hl e he
    · exact le_trans (le_of_lt hlow) (h.low_le r hr e he)
  · intro e he
    rcases List.mem_append.mp he with he | he
    exacts [h.lt l hl e he, h.lt r hr e he]
  · intro k hk
    rw [List.mem_singleton] at hk
    exact ⟨l, by simp, by rw [hk]⟩
  · intro k hk u hu
    obtain ⟨h₁, h₂⟩ := h.bound l (by simp) u hu
    obtain ⟨-, h₃⟩ := h.bound r (by simp) u hu
    rw [List.mem_singleton] at hk
    subst hk
    refine ⟨h₁, fun e he => ?_⟩
    rcases List.mem_append.mp he with he | he
    exacts [h₂ e he, h₃ e he]

end Order

section LeafFor

variable {key : Nat} {a b leaves : List LeafNode} {n : LeafNode}

theorem LeafFor.low_le (h : LeafFor key leaves a n b) : n.low ≤ key :=
  h.located.le n.head (by simp)

theorem LeafFor.lt_low (h : LeafFor key leaves a n b) : ∀ m ∈ b, key < m.low := fun m hm =>
  h.located.gt m.head (List.mem_map_of_mem hm)

/-- A key of the tree is in the leaf responsible for it. -/
theorem LeafFor.mem_iff (h : LeafFor key leaves a n b) (ho : LeafOrder leaves) {ref : RowRef} :
    (key, ref) ∈ treeEntries leaves ↔ (key, ref) ∈ n.entries := by
  rw [h.eq] at ho ⊢
  refine ⟨fun hkey => ?_, fun hmem => List.mem_flatMap.mpr ⟨n, by simp, hmem⟩⟩
  obtain ⟨m, hm, hmem⟩ := List.mem_flatMap.mp hkey
  rcases List.mem_append.mp hm with hm | hm
  · have h₁ := (ho.bound m hm n (by simp)).2 _ hmem
    have h₂ := h.low_le
    simp only at h₁
    omega
  · rcases List.mem_cons.mp hm with rfl | hm
    · exact hmem
    · have h₁ := h.lt_low m hm
      have h₂ := ho.low_le m (by simp [hm]) _ hmem
      simp only at h₂
      omega

/-- The order of the leaves after the entries of the leaf responsible for a key have changed around
that key. -/
theorem LeafFor.order_entries (h : LeafFor key leaves a n b) (ho : LeafOrder leaves)
    (entries : List (Nat × RowRef)) (hs : entries.Pairwise fun a b => a.1 < b.1)
    (hkey : key < 2 ^ 64) (hmem : ∀ e ∈ entries, e ∈ n.entries ∨ e.1 = key) :
    LeafOrder (a ++ [{ n with entries := entries }] ++ b) := by
  rw [h.eq, List.append_cons] at ho
  have hn : n ∈ a ++ [n] ++ b := by simp
  refine ho.replace (leafOrder_singleton hs ?_ (ho.low_lt n hn) ?_) ?_ ?_
  · intro e he
    rcases hmem e he with he | rfl
    · exact ho.low_le n hn e he
    · exact h.low_le
  · intro e he
    rcases hmem e he with he | rfl
    · exact ho.lt n hn e he
    · exact hkey
  · intro m hm
    rw [List.mem_singleton] at hm
    exact ⟨n, by simp, by rw [hm]⟩
  · intro k hk m hm
    rw [List.mem_singleton] at hk
    subst hk
    obtain ⟨h₁, h₂⟩ := ho.bound n (by simp) m hm
    refine ⟨h₁, fun e he => ?_⟩
    rcases hmem e he with he | rfl
    · exact h₂ e he
    · exact h.lt_low m hm

end LeafFor

/-! ## Pages of the leaves -/

def Page.withPrev : Page → Nat → Page
  | .leaf l, p => .leaf { l with prevLeafPageId := p }
  | pg, _ => pg

/-- The page map after the leaf `pid`, if there is one, has been given another prev pointer. -/
def prevSet (g : Nat → Page) (pid prev : Nat) : Nat → Page :=
  if pid = 0 then g else Function.update g pid ((g pid).withPrev prev)

section PrevSet

variable {g : Nat → Page} {pid prev p : Nat} {st : Pager} {l : LeafPage}

theorem prevSet_of_ne (h : p ≠ pid) : prevSet g pid prev p = g p := by
  unfold prevSet
  split
  · rfl
  · rw [Function.update_of_ne h]

theorem prevSet_self (h : pid ≠ 0) : prevSet g pid prev pid = (g pid).withPrev prev := by
  simp [prevSet, h]

/-- Nothing but prev pointers change. -/
theorem prevSet_fields : (prevSet g pid prev p).parent = (g p).parent ∧
    (prevSet g pid prev p).nextLeaf = (g p).nextLeaf ∧
    ∀ n : LeafNode, n.On (g p) → n.On (prevSet g pid prev p) := by
  unfold prevSet
  split
  · exact ⟨rfl, rfl, fun n hn => hn⟩
  · by_cases hp : p = pid
    · subst hp
      rw [Function.update_self]
      cases hg : g p with
      | leaf l =>
        refine ⟨rfl, rfl, fun n hn => ?_⟩
        obtain ⟨par, next, prev', heq⟩ := hn
        exact ⟨par, next, prev, by rw [Page.leaf.inj heq]; rfl⟩
      | _ => exact ⟨rfl, rfl, fun n hn => hn⟩
    · rw [Function.update_of_ne hp]
      exact ⟨rfl, rfl, fun n hn => hn⟩

theorem prevSet_prevLeaf {n : LeafNode} (h0 : pid ≠ 0) (hn : n.On (g pid)) :
    (prevSet g pid prev pid).prevLeaf = prev := by
  rw [prevSet_self h0, hn.eq]
  rfl

/-- The redirected leaf has kept its parent, next pointer and entries. -/
theorem run_setPrevLeaf (st : Pager) (pid prev : Nat) (hps : 4096 ≤ st.pageSize)
    (h : pid ≠ 0 → ∃ l, st.pages pid = .leaf l ∧ l.entries.length ≤ maxLeafKeys st.pageSize) :
    ∃ st', (setPrevLeaf pid prev).run st = some ((), st') ∧
      st.PagesTo (prevSet st.pages pid prev) st' := by
  by_cases h0 : pid = 0
  · exact ⟨st, by simp [setPrevLeaf, h0], by simpa [prevSet, h0] using Pager.PagesTo.refl⟩
  · obtain ⟨l, hl, hlen⟩ := h h0
    have hread : (readLeaf pid).run (st.log (.get pid)) = some (l, st.log (.get pid)) :=
      run_readLeaf hl
    have hwrite : (writeLeaf pid { l with prevLeafPageId := prev }).run (st.log (.get pid)) =
        some ((), _) :=
      run_writeLeaf (by simp only [leafHeaderSize, Pager.log_pageSize]; omega) hlen
    refine ⟨_, by simp [setPrevLeaf, h0, hread, hwrite]; rfl, ?_⟩
    rw [prevSet, if_neg h0, hl]
    exact (Pager.PagesTo.refl.log.setPage.log).log

end PrevSet

/-! ## Steps of the whole tree -/

/-- **A step of the tree**: from `leaves` and `rows` to `leaves'` and `rows'`, with every page
outside the tree left alone. -/
structure TreeStep (st : Pager) (free : List Nat) (leaves : List LeafNode) (rows : List Row)
    (st' : Pager) (free' : List Nat) (leaves' : List LeafNode) (rows' : List Row) : Prop where
  sameMeta : st.SameMeta st'
  shape : TreeShape st' free' leaves' rows'
  held : ∀ p, st'.Held free' p ↔
    st.Held free p ∧ p ∉ treePids leaves rows ∨ p ∈ treePids leaves' rows'
  fresh : ∀ p ∈ treePids leaves' rows', p ∈ treePids leaves rows ∨ ¬ st.Held free p
  frame : ∀ p, st.Held free p → p ∉ treePids leaves rows → st'.pages p = st.pages p

/-- **The change of the leaves** a step starts with. The rows above may have been changed with
them, so their pages are not framed. -/
structure LeafStep (st : Pager) (free : List Nat) (leaves : List LeafNode) (rows : List Row)
    (st' : Pager) (free' : List Nat) (leaves' : List LeafNode) : Prop where
  sameMeta : st.SameMeta st'
  leafOn : ∀ n ∈ leaves', n.On (st'.pages n.pid)
  chain : DoublyLinked 0 (fun p => (st'.pages p).nextLeaf) (fun p => (st'.pages p).prevLeaf)
    (leaves'.map LeafNode.pid)
  nodup : (treePids leaves' rows).Nodup
  held : ∀ p, st'.Held free' p ↔
    st.Held free p ∧ p ∉ leaves.map LeafNode.pid ∨ p ∈ leaves'.map LeafNode.pid
  fresh : ∀ p ∈ leaves'.map LeafNode.pid, p ∈ leaves.map LeafNode.pid ∨ ¬ st.Held free p
  frame : ∀ p, st.Held free p → p ∉ leaves.map LeafNode.pid → p ∉ rowsPids rows →
    st'.pages p = st.pages p

section TreeStep

variable {st st₁ st₂ st' : Pager} {free free₁ free₂ free' : List Nat}
  {leaves leaves₁ leaves₂ leaves' : List LeafNode} {rows rows₁ rows₂ rows' : List Row}

theorem TreeStep.refl (h : TreeShape st free leaves rows) :
    TreeStep st free leaves rows st free leaves rows where
  sameMeta := .refl
  shape := h
  held := fun p => by
    have := h.held p
    tauto
  fresh := fun _ hp => .inl hp
  frame := fun _ _ _ => rfl

theorem TreeStep.trans (h : TreeStep st free leaves rows st₁ free₁ leaves₁ rows₁)
    (h' : TreeStep st₁ free₁ leaves₁ rows₁ st₂ free₂ leaves₂ rows₂) :
    TreeStep st free leaves rows st₂ free₂ leaves₂ rows₂ where
  sameMeta := h.sameMeta.trans h'.sameMeta
  shape := h'.shape
  held := fun p => by
    have := h.fresh p
    rw [h'.held, h.held]
    tauto
  fresh := fun p hp => by
    have h₁ := h.fresh p
    have h₂ := h'.fresh p hp
    rw [h.held] at h₂
    tauto
  frame := fun p hp hout => by
    have hout₁ : p ∉ treePids leaves₁ rows₁ := fun hmem => by
      have := h.fresh p hmem
      tauto
    rw [h'.frame p ((h.held p).mpr (.inl ⟨hp, hout⟩)) hout₁, h.frame p hp hout]

theorem TreeStep.sameData (h : TreeStep st free leaves rows st₁ free₁ leaves₁ rows₁)
    (hs : st₁.SameData st') : TreeStep st free leaves rows st' free₁ leaves₁ rows₁ where
  sameMeta := h.sameMeta.trans hs.pagesTo.sameMeta
  shape := h.shape.sameData hs
  held := fun p => (hs.held p).trans (h.held p)
  fresh := h.fresh
  frame := fun p hp hout => by rw [hs.pages, h.frame p hp hout]

/-- Changed leaves followed by a repair of the rows above them are a step of the tree. -/
theorem LeafStep.tree (h : LeafStep st free leaves rows st₁ free₁ leaves')
    (hold : TreeShape st free leaves rows) (horder : LeafOrder leaves')
    (hpids : rowsPids rows₁ = rowsPids rows)
    (hstep : UpperStep st₁ free₁ rows₁ st' free' (leaves'.map LeafNode.head) rows') :
    TreeStep st free leaves rows st' free' leaves' rows' := by
  have hbody : ∀ n ∈ leaves', (st'.pages n.pid).SameBody (st₁.pages n.pid) := by
    intro n hn
    exact hstep.body _ (by rw [map_snd_leaf_head]; exact List.mem_map_of_mem hn)
  have hnd' : (treePids leaves' rows').Nodup := by
    have := hstep.nodup
    rwa [map_snd_leaf_head] at this
  have hdisj : ∀ p ∈ leaves'.map LeafNode.pid, p ∉ rowsPids rows := fun p hp hp' =>
    (List.nodup_append.mp h.nodup).2.2 p hp p hp' rfl
  have hheld : ∀ p, st'.Held free' p ↔
      st.Held free p ∧ p ∉ treePids leaves rows ∨ p ∈ treePids leaves' rows' := by
    intro p
    have := hdisj p
    rw [hstep.held, h.held, hpids, treePids, treePids, List.mem_append, List.mem_append]
    tauto
  constructor
  case sameMeta => exact h.sameMeta.trans hstep.sameMeta
  case shape =>
    have hps : st'.pageSize = st.pageSize := hstep.sameMeta.pageSize.trans h.sameMeta.pageSize
    refine ⟨by rw [hps]; exact hold.pageSize, hstep.freeList, hstep.upper, ?_, ?_, ?_, horder, hnd',
      fun p hp => (hheld p).mpr (.inr hp)⟩
    · rw [hps, ← h.sameMeta.pageSize]
      exact hstep.occupied
    · exact fun n hn => (h.leafOn n hn).congr (hbody n hn)
    · refine h.chain.congr ?_ ?_
      · intro p hp
        obtain ⟨n, hn, rfl⟩ := List.mem_map.mp hp
        exact (hbody n hn).nextLeaf
      · intro p hp
        obtain ⟨n, hn, rfl⟩ := List.mem_map.mp hp
        exact (hbody n hn).prevLeaf
  case held => exact hheld
  case fresh =>
    intro p hp
    rw [treePids, List.mem_append] at hp ⊢
    rcases hp with hp | hp
    · have := h.fresh p hp
      tauto
    · have := hstep.fresh p hp
      rw [hpids, h.held] at this
      tauto
  case frame =>
    intro p hp hout
    rw [treePids, List.mem_append, not_or] at hout
    have hout' : p ∉ leaves'.map LeafNode.pid := fun hmem => by
      have := h.fresh p hmem
      tauto
    rw [hstep.frame p ((h.held p).mpr (.inl ⟨hp, hout.1⟩)) (by rwa [map_snd_leaf_head])
      (by rw [hpids]; exact hout.2)]
    exact h.frame p hp hout.1 hout.2

/-- Entries of a leaf are rewritten in place. -/
theorem TreeShape.setEntries {a b : List LeafNode} {n : LeafNode} {entries : List (Nat × RowRef)}
    (h : TreeShape st free (a ++ n :: b) rows)
    (hto : st.PagesTo (Function.update st.pages n.pid (.leaf ⟨(st.pages n.pid).parent,
      (st.pages n.pid).nextLeaf, (st.pages n.pid).prevLeaf, entries⟩)) st')
    (horder : LeafOrder (a ++ { n with entries := entries } :: b)) :
    TreeStep st free (a ++ n :: b) rows st' free (a ++ { n with entries := entries } :: b) rows := by
  set n' : LeafNode := { n with entries := entries }
  set g := st.pages
  have hpids : (a ++ n' :: b).map LeafNode.pid = (a ++ n :: b).map LeafNode.pid := by simp [n']
  have hheads : (a ++ n' :: b).map LeafNode.head = (a ++ n :: b).map LeafNode.head := by
    simp [n', LeafNode.head]
  have hmem : n.pid ∈ (a ++ n :: b).map LeafNode.pid := by simp
  have hself : st'.pages n.pid = .leaf ⟨(g n.pid).parent, (g n.pid).nextLeaf, (g n.pid).prevLeaf,
      entries⟩ := by
    rw [hto.pages, Function.update_self]
  have hother : ∀ p, p ≠ n.pid → st'.pages p = g p := fun p hp => by
    rw [hto.pages, Function.update_of_ne hp]
  have hfields : ∀ p, (st'.pages p).parent = (g p).parent ∧
      (st'.pages p).nextLeaf = (g p).nextLeaf ∧ (st'.pages p).prevLeaf = (g p).prevLeaf := by
    intro p
    by_cases hp : p = n.pid
    · rw [hp, hself]
      exact ⟨rfl, rfl, rfl⟩
    · rw [hother p hp]
      exact ⟨rfl, rfl, rfl⟩
  have hnd := h.nodup
  have hheld := h.held
  have hstep : LeafStep st free (a ++ n :: b) rows st' free (a ++ n' :: b) := by
    constructor
    case sameMeta => exact hto.sameMeta
    case leafOn =>
      intro m hm
      by_cases hmn : m = n'
      · subst hmn
        exact ⟨_, _, _, hself⟩
      · have hm' : m ∈ a ++ b := by grind
        rw [hother m.pid (ne_of_nodup_map (List.nodup_append.mp hnd).1 m hm')]
        exact h.leafOn m (by grind)
    case chain =>
      rw [hpids]
      exact h.chain.congr (fun p _ => (hfields p).2.1) fun p _ => (hfields p).2.2
    case nodup => rwa [treePids, hpids]
    case held =>
      intro p
      have := hheld p
      rw [hto.held, hpids]
      rw [treePids, List.mem_append] at this
      tauto
    case fresh =>
      intro p hp
      exact .inl (hpids ▸ hp)
    case frame =>
      intro p _ hp _
      exact hother p fun heq => hp (heq ▸ hmem)
  refine hstep.tree h horder rfl ?_
  rw [hheads]
  refine UpperStep.refl ?_ ?_ ?_ ?_ ?_
  · refine hto.freeList h.freeList fun p hp => Function.update_of_ne ?_ _ _
    rintro rfl
    exact (hheld n.pid (List.mem_append_left _ hmem)).not_mem hp
  · rw [hto.header]
    refine h.upper.congr (fun p hp => ?_) fun p _ => (hfields p).1
    rw [hother p]
    · exact .refl
    · rintro rfl
      exact (List.nodup_append.mp hnd).2.2 n.pid hmem n.pid hp rfl
  · rw [hto.pageSize]
    exact h.occupied
  · rwa [map_snd_leaf_head]
  · exact fun p hp => (hto.held p).mpr (hheld p (List.mem_append_right _ hp))

/-- The leaf right of `n` by its page. -/
theorem TreeShape.nextLeaf_eq {a b : List LeafNode} {n : LeafNode}
    (h : TreeShape st free (a ++ n :: b) rows) :
    (st.pages n.pid).nextLeaf = (b.map LeafNode.pid).head?.getD 0 := by
  have hchain := h.chain
  rw [List.map_append, List.map_cons] at hchain
  exact hchain.next_eq (h.held n.pid (by simp [treePids])).ne_zero

/-- The next pointer of a leaf is null or leads to the next leaf. -/
theorem TreeShape.nextLeaf_cases {a b : List LeafNode} {n : LeafNode}
    (h : TreeShape st free (a ++ n :: b) rows) :
    b = [] ∧ (st.pages n.pid).nextLeaf = 0 ∨
      ∃ m b', b = m :: b' ∧ (st.pages n.pid).nextLeaf = m.pid ∧ m.pid ≠ 0 := by
  have heq := h.nextLeaf_eq
  cases b with
  | nil => exact .inl ⟨rfl, heq⟩
  | cons m b' => exact .inr ⟨m, b', rfl, heq, (h.held m.pid (by simp [treePids])).ne_zero⟩

/-- The next pointer of a leaf leads to a leaf behind it. -/
theorem TreeShape.exists_nextLeaf {a b : List LeafNode} {n : LeafNode}
    (h : TreeShape st free (a ++ n :: b) rows) (h0 : (st.pages n.pid).nextLeaf ≠ 0) :
    ∃ m ∈ b, m.pid = (st.pages n.pid).nextLeaf := by
  obtain ⟨-, heq⟩ | ⟨m, b', rfl, heq, -⟩ := h.nextLeaf_cases
  · exact absurd heq h0
  · exact ⟨m, List.mem_cons_self, heq.symm⟩

theorem TreeShape.held_nextLeaf {a b : List LeafNode} {n : LeafNode}
    (h : TreeShape st free (a ++ n :: b) rows) (h0 : (st.pages n.pid).nextLeaf ≠ 0) :
    st.Held free (st.pages n.pid).nextLeaf := by
  obtain ⟨m, hm, heq⟩ := h.exists_nextLeaf h0
  rw [← heq]
  exact h.held m.pid (List.mem_append_left _ (List.mem_map_of_mem (by simp [hm])))

/-- The leaf right of `n` is none of the others. -/
theorem TreeShape.nextLeaf_notMem {a b : List LeafNode} {n : LeafNode}
    (h : TreeShape st free (a ++ n :: b) rows) :
    (st.pages n.pid).nextLeaf ∉ a.map LeafNode.pid ++ (b.map LeafNode.pid).tail := by
  rcases h.nextLeaf_cases with ⟨rfl, heq⟩ | ⟨m, b', rfl, heq, -⟩
  · rw [heq]
    intro h0
    have hmem : 0 ∈ treePids (a ++ [n]) rows := by
      simp only [treePids, List.map_append, List.mem_append]
      exact .inl (.inl (by simpa using h0))
    exact (h.held 0 hmem).ne_zero rfl
  · rw [heq]
    have hnd := (List.nodup_append.mp h.nodup).1
    have hsplit : a ++ n :: m :: b' = (a ++ [n]) ++ m :: b' := by simp
    rw [hsplit] at hnd
    intro hmem
    have hmem' : m.pid ∈ (a ++ b').map LeafNode.pid := by simpa using hmem
    obtain ⟨k, hk, heq⟩ := List.mem_map.mp hmem'
    exact ne_of_nodup_map hnd k (by simp at hk ⊢; tauto) heq

end TreeStep

end MiniDb
