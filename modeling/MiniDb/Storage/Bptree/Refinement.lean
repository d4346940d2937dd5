import MiniDb.Lib.Simulation
import MiniDb.Storage.Bptree.Capacity
import MiniDb.Storage.Bptree.Delete
import MiniDb.Storage.Bptree.Insert

/-! # The tree is a map

A program that uses the tree makes calls of `bptree_insert`, `bptree_delete` and `bptree_search`.
What it should see is a finite map from 64-bit keys to row references (`KeyMap`). The pages of a
tree *represent* a map when its bindings are the entries of the leaves; every call then answers as
the map does and leaves pages that represent the new map. -/

set_option autoImplicit false

namespace MiniDb

open Lib

/-! ## Search -/

section Search

variable {st : Pager} {free : List Nat} {leaves : List LeafNode} {rows : List Row}

/-- The entries of the tree are in strictly increasing order of their keys. -/
theorem LeafOrder.entries_sorted (h : LeafOrder leaves) :
    (treeEntries leaves).Pairwise fun a b => a.1 < b.1 := by
  rw [treeEntries, List.pairwise_flatMap]
  refine ⟨h.sorted, (List.Pairwise.and_mem.mp h.pairwise).imp ?_⟩
  rintro a b ⟨-, hb, -, hab⟩ x hx y hy
  exact lt_of_lt_of_le (hab x hx) (h.low_le b hb y hy)

/-- No key occurs twice. -/
theorem LeafOrder.keys_nodup (h : LeafOrder leaves) :
    ((treeEntries leaves).map Prod.fst).Nodup :=
  List.pairwise_map.mpr (h.entries_sorted.imp fun hlt => ne_of_lt hlt)

/-- `bptree_search` finds the entry of the key, if there is one. -/
theorem bptreeSearch_spec (h : TreeInv st free leaves rows) (key : Nat) :
    ∃ res st', (bptreeSearch key).run st = some (res, st') ∧ st.SameData st' ∧
      ∀ ref, res = some ref ↔ (key, ref) ∈ treeEntries leaves := by
  obtain ⟨a, n, b, hn⟩ := h.exists_leafFor key
  have hmem : n ∈ leaves := hn.mem
  obtain ⟨st₁, hsame₁, hrun₁⟩ := h.findLeafRlatch hn
  have hread : (readLeaf n.pid).run st₁ = some (⟨(st.pages n.pid).parent,
      (st.pages n.pid).nextLeaf, (st.pages n.pid).prevLeaf, n.entries⟩, st₁) :=
    run_readLeaf (by rw [hsame₁.pages]; exact (h.leafOn n hmem).eq)
  have hsorted := h.order.sorted n hmem
  obtain ⟨l, r, hsplit⟩ := exists_leafSplit hsorted key
  have hget : n.entries[leafFind n.entries key]? = r.head? := by
    rw [hsplit.find, hsplit.eq]
    cases r <;> simp
  refine ⟨_, _, by simp [bptreeSearch, hrun₁, hread]; exact ⟨rfl, rfl⟩, hsame₁.trans .log, ?_⟩
  intro ref
  rw [hn.mem_iff h.order, hsplit.mem_iff hsorted, hget]
  cases r with
  | nil => simp
  | cons e r' =>
    simp only [List.head?_cons, Option.filter_some, List.cons.injEq, exists_and_left, exists_eq',
      and_true]
    by_cases he : e.1 = key
    · subst he
      simp [Prod.ext_iff]
    · simp [he, Prod.ext_iff]

end Search

/-! ## The file just created -/

/-- The empty tree: one empty leaf as root. -/
theorem treeInv_create {pageSize : Nat} (h : 4096 ≤ pageSize) :
    TreeInv (pagerOpenCreate pageSize) [] [⟨0, 2, []⟩] [] where
  pageSize := h
  freeList := ⟨rfl, List.nodup_nil, by simp, Nat.succ_pos _⟩
  upper := ⟨rfl, rfl⟩
  occupied := trivial
  leafOn := by
    intro n hn
    rw [List.mem_singleton] at hn
    subst hn
    exact ⟨0, 0, 0, rfl⟩
  chain := by simp [DoublyLinked, Link, pagerOpenCreate, Page.nextLeaf, Page.prevLeaf]
  order := leafOrder_singleton (by simp) (by simp) (by simp) (by simp)
  nodup := by simp [treePids]
  held := by simp [treePids, Pager.Held, pagerOpenCreate]
  leafOcc := by simp [minEntries]

/-! ## Calls -/

/-- A call of the tree's interface. -/
inductive TreeCall where
  | insert (key : UInt64) (ref : RowRef)
  | delete (key : UInt64)
  | search (key : UInt64)
  deriving DecidableEq, Repr

/-- What a call returns: a status, or the outcome of a search. -/
inductive TreeReply where
  | status (rc : Int)
  | found (ref : Option RowRef)
  deriving DecidableEq, Repr

/-- The call as `bptree.c` executes it. -/
def TreeCall.exec : TreeCall → PagerM TreeReply
  | .insert key ref => do return .status (← bptreeInsert key.toNat ref)
  | .delete key => do return .status (← bptreeDelete key.toNat)
  | .search key => do return .found (← bptreeSearch key.toNat)

/-- What the tree is for: a map from keys to row references. -/
abbrev KeyMap := UInt64 → Option RowRef

/-- What the map answers. -/
def TreeCall.reply : TreeCall → KeyMap → TreeReply
  | .insert key _, m => .status (if (m key).isSome then -1 else 0)
  | .delete key, m => .status (if (m key).isSome then 0 else -1)
  | .search key, m => .found (m key)

/-- What the call makes of the map: a present key is not bound again, an absent one not removed. -/
def TreeCall.next : TreeCall → KeyMap → KeyMap
  | .insert key ref, m => if (m key).isSome then m else Function.update m key (some ref)
  | .delete key, m => if (m key).isSome then Function.update m key none else m
  | .search _, m => m

/-- The pages, of the given size, hold a tree whose entries are the bindings of `m`, and besides it
only the heap page that the file was created with is in use. -/
def Represents (pageSize : Nat) (st : Pager) (m : KeyMap) : Prop :=
  ∃ free leaves rows, TreeInv st free leaves rows ∧ st.pageSize = pageSize ∧
    (∀ p, st.Held free p → p = 1 ∨ p ∈ treePids leaves rows) ∧
    ∀ key ref, m key = some ref ↔ (key.toNat, ref) ∈ treeEntries leaves

/-- The map binds no more keys than there are in some list of this length. -/
def KeyMap.AtMost (m : KeyMap) (n : Nat) : Prop :=
  ∃ keys : List UInt64, keys.length ≤ n ∧ ∀ key, m key ≠ none → key ∈ keys

/-- There are page ids for what the call may add. -/
def TreeCall.HasRoom (pageSize : Nat) : TreeCall → KeyMap → Prop
  | .insert _ _, m => m.AtMost (treeCapacity pageSize)
  | .delete _, _ => True
  | .search _, _ => True

section Represents

variable {st st' : Pager} {m : KeyMap} {pageSize : Nat}

theorem represents_create (h : 4096 ≤ pageSize) :
    Represents pageSize (pagerOpenCreate pageSize) fun _ => none := by
  refine ⟨_, _, _, treeInv_create h, rfl, ?_, by simp [treeEntries]⟩
  rintro p ⟨hzero, hlt, -⟩
  have hlt : p < 3 := hlt
  have hcases : p = 1 ∨ p = 2 := by omega
  simpa [treePids] using hcases

/-- A map of few keys is held by few entries. -/
theorem KeyMap.AtMost.length_le {leaves : List LeafNode} {n : Nat} (h : m.AtMost n)
    (horder : LeafOrder leaves)
    (hmap : ∀ key ref, m key = some ref ↔ (key.toNat, ref) ∈ treeEntries leaves) :
    (treeEntries leaves).length ≤ n := by
  obtain ⟨keys, hlen, hkeys⟩ := h
  have hsub : (treeEntries leaves).map Prod.fst ⊆ keys.map UInt64.toNat := by
    intro k hk
    obtain ⟨⟨key, ref⟩, he, rfl⟩ := List.mem_map.mp hk
    obtain ⟨n, hn, hen⟩ := List.mem_flatMap.mp he
    have hlt : key < 2 ^ 64 := horder.lt n hn _ hen
    have htoNat : (UInt64.ofNat key).toNat = key := UInt64.toNat_ofNat_of_lt' hlt
    have hbound : m (UInt64.ofNat key) = some ref := (hmap _ ref).mpr (by rwa [htoNat])
    exact List.mem_map.mpr ⟨_, hkeys _ (by simp [hbound]), htoNat⟩
  have hle := (List.subperm_of_subset horder.keys_nodup hsub).length_le
  rw [List.length_map, List.length_map] at hle
  omega

/-- A step of the tree takes nothing into use but pages of the tree. -/
theorem TreeStep.owned {free free' : List Nat} {leaves leaves' : List LeafNode}
    {rows rows' : List Row} (hs : TreeStep st free leaves rows st' free' leaves' rows')
    (h : ∀ p, st.Held free p → p = 1 ∨ p ∈ treePids leaves rows) :
    ∀ p, st'.Held free' p → p = 1 ∨ p ∈ treePids leaves' rows' := by
  intro p hp
  rcases (hs.held p).mp hp with ⟨hheld, hout⟩ | hnew
  · exact .inl ((h p hheld).resolve_right hout)
  · exact .inr hnew

theorem bptreeInsert_map (h : Represents pageSize st m) (key : UInt64) (ref : RowRef) :
    (∃ st', (TreeCall.insert key ref).exec.run st = some ((TreeCall.insert key ref).reply m, st') ∧
      Represents pageSize st' ((TreeCall.insert key ref).next m)) ∨
    (¬ (TreeCall.insert key ref).HasRoom pageSize m ∧
      (TreeCall.insert key ref).exec.run st = none) := by
  obtain ⟨free, leaves, rows, hinv, rfl, howned, hmap⟩ := h
  cases hm : m key with
  | some ref' =>
    obtain ⟨st', hrun, hsame⟩ := bptreeInsert_dup hinv ref ((hmap key ref').mp hm)
    left
    refine ⟨st', by simp [TreeCall.exec, TreeCall.reply, hm, hrun], free, leaves, rows,
      hinv.sameData hsame, hsame.pageSize, fun p hp => howned p ((hsame.held p).mp hp), ?_⟩
    simpa [TreeCall.next, hm] using hmap
  | none =>
    have hnew : ∀ e ∈ treeEntries leaves, e.1 ≠ key.toNat := by
      rintro ⟨k, r⟩ he rfl
      rw [(hmap key r).mpr he] at hm
      cases hm
    obtain ⟨st', free', leaves', rows', l, r, hrun, hstep, hinv', heq, heq'⟩ | ⟨hfull, hnone⟩ :=
      bptreeInsert_new hinv ref key.toNat_lt hnew
    case inr =>
      refine .inr ⟨fun hroom => hfull (hinv.hasRoom howned (hroom.length_le hinv.order hmap)), ?_⟩
      rw [TreeCall.exec, run_bind_none hnone]
    left
    refine ⟨st', by simp [TreeCall.exec, TreeCall.reply, hm, hrun], free', leaves', rows', hinv',
      hstep.sameMeta.pageSize, hstep.owned howned, ?_⟩
    intro key' ref'
    have hold := hmap key' ref'
    rw [heq] at hold hnew
    rw [heq']
    simp only [TreeCall.next, hm, Option.isSome_none, Bool.false_eq_true, if_false,
      Function.update_apply]
    by_cases hk : key' = key
    · subst hk
      have hno : (key'.toNat, ref') ∉ l ++ r := fun hmem => hnew _ hmem rfl
      simp only [List.mem_append, not_or] at hno
      simp [hno, eq_comm]
    · have hk' : key'.toNat ≠ key.toNat := fun h => hk (UInt64.toNat_inj.mp h)
      simp [hk, hk', hold]

theorem bptreeDelete_map (h : Represents pageSize st m) (key : UInt64) :
    ∃ st', (TreeCall.delete key).exec.run st = some ((TreeCall.delete key).reply m, st') ∧
      Represents pageSize st' ((TreeCall.delete key).next m) := by
  obtain ⟨free, leaves, rows, hinv, hps, howned, hmap⟩ := h
  cases hm : m key with
  | none =>
    have hnone : ∀ e ∈ treeEntries leaves, e.1 ≠ key.toNat := by
      rintro ⟨k, r⟩ he rfl
      rw [(hmap key r).mpr he] at hm
      cases hm
    obtain ⟨st', hrun, hsame⟩ := bptreeDelete_absent hinv hnone
    refine ⟨st', by simp [TreeCall.exec, TreeCall.reply, hm, hrun], free, leaves, rows,
      hinv.sameData hsame, hsame.pageSize.trans hps,
      fun p hp => howned p ((hsame.held p).mp hp), ?_⟩
    simpa [TreeCall.next, hm] using hmap
  | some ref =>
    obtain ⟨st', free', leaves', rows', l, r, hrun, hstep, hinv', heq, heq'⟩ :=
      bptreeDelete_present hinv ((hmap key ref).mp hm)
    refine ⟨st', by simp [TreeCall.exec, TreeCall.reply, hm, hrun], free', leaves', rows', hinv',
      hstep.sameMeta.pageSize.trans hps, hstep.owned howned, ?_⟩
    intro key' ref'
    have hold := hmap key' ref'
    have hne : ∀ e ∈ l ++ r, e.1 ≠ key.toNat :=
      ne_of_nodup_map (x := (key.toNat, ref)) (heq ▸ hinv.order.keys_nodup)
    rw [heq] at hold
    rw [heq']
    simp only [TreeCall.next, hm, Option.isSome_some, if_true, Function.update_apply]
    by_cases hk : key' = key
    · subst hk
      have hno : (key'.toNat, ref') ∉ l ++ r := fun hmem => hne _ hmem rfl
      simpa using hno
    · have hk' : key'.toNat ≠ key.toNat := fun h => hk (UInt64.toNat_inj.mp h)
      simp [hk, hk', hold]

theorem bptreeSearch_map (h : Represents pageSize st m) (key : UInt64) :
    ∃ st', (TreeCall.search key).exec.run st = some ((TreeCall.search key).reply m, st') ∧
      Represents pageSize st' ((TreeCall.search key).next m) := by
  obtain ⟨free, leaves, rows, hinv, hps, howned, hmap⟩ := h
  obtain ⟨res, st', hrun, hsame, hres⟩ := bptreeSearch_spec hinv key.toNat
  have heq : res = m key := Option.ext fun ref => (hres ref).trans (hmap key ref).symm
  exact ⟨st', by simp [TreeCall.exec, TreeCall.reply, hrun, heq], free, leaves, rows,
    hinv.sameData hsame, hsame.pageSize.trans hps, fun p hp => howned p ((hsame.held p).mp hp),
    hmap⟩

/-- **Every call of the tree's interface does what the map does**, unless page ids run out. -/
theorem treeCall_map (h : Represents pageSize st m) (c : TreeCall) :
    (∃ st', c.exec.run st = some (c.reply m, st') ∧ Represents pageSize st' (c.next m)) ∨
    (¬ c.HasRoom pageSize m ∧ c.exec.run st = none) := by
  cases c with
  | insert key ref => exact bptreeInsert_map h key ref
  | delete key => exact .inl (bptreeDelete_map h key)
  | search key => exact .inl (bptreeSearch_map h key)

theorem treeCall_simulates : Simulates (Represents pageSize) (TreeCall.HasRoom pageSize)
    (fun c m r => r = c.reply m) TreeCall.next TreeCall.exec := by
  intro c st m h hroom
  obtain ⟨st', hrun, h'⟩ | ⟨hfull, -⟩ := treeCall_map h c
  · exact ⟨_, st', hrun, rfl, h'⟩
  · exact absurd hroom hfull

theorem treeCall_conforms : Conforms (Represents pageSize) (fun c m r => r = TreeCall.reply c m)
    TreeCall.next TreeCall.exec := by
  intro c st m r st' h hrun
  obtain ⟨st'', hrun', h'⟩ | ⟨-, hnone⟩ := treeCall_map h c
  · obtain ⟨rfl, rfl⟩ := Prod.mk.inj (Option.some.inj (hrun.symm.trans hrun'))
    exact ⟨rfl, h'⟩
  · rw [hnone] at hrun
    cases hrun

/-- What sequences of calls lead to from the empty root. -/
theorem treeCalls_represents (h : 4096 ≤ pageSize) {calls : List TreeCall} {rs : List TreeReply}
    (hrun : (runAll TreeCall.exec calls).run (pagerOpenCreate pageSize) = some (rs, st)) :
    RightAll (fun c m r => r = TreeCall.reply c m) TreeCall.next calls (fun _ => none) rs ∧
      Represents pageSize st (calls.foldl (fun m c => c.next m) fun _ => none) :=
  treeCall_conforms.runAll calls (represents_create h) hrun

/-- A call binds at most one key more. -/
theorem KeyMap.AtMost.next {n : Nat} (h : m.AtMost n) (c : TreeCall) :
    KeyMap.AtMost (c.next m) (n + 1) := by
  obtain ⟨keys, hlen, hkeys⟩ := h
  have hsame : KeyMap.AtMost m (n + 1) := ⟨keys, by omega, hkeys⟩
  cases c with
  | insert key ref =>
    rw [TreeCall.next]
    split
    · exact hsame
    · refine ⟨key :: keys, by simpa using hlen, fun key' hne => ?_⟩
      by_cases heq : key' = key
      · exact heq ▸ List.mem_cons_self
      · rw [Function.update_of_ne heq] at hne
        exact List.mem_cons_of_mem _ (hkeys key' hne)
  | delete key =>
    rw [TreeCall.next]
    split
    · refine ⟨keys, by omega, fun key' hne => hkeys key' ?_⟩
      by_cases heq : key' = key
      · rw [heq, Function.update_self] at hne
        exact absurd rfl hne
      · rwa [Function.update_of_ne heq] at hne
    · exact hsame
  | search key => exact hsame

/-- Sequences of no more calls than there are keys in a tree always have room. -/
theorem hasRoom_of_length {calls : List TreeCall} {n : Nat} (h : m.AtMost n)
    (hlen : n + calls.length ≤ treeCapacity pageSize) :
    AllowedAll (TreeCall.HasRoom pageSize) TreeCall.next calls m := by
  induction calls generalizing m n with
  | nil => trivial
  | cons c calls ih =>
    rw [List.length_cons] at hlen
    refine ⟨?_, ih (h.next c) (by omega)⟩
    obtain ⟨keys, hkeys, hall⟩ := h
    cases c with
    | insert key ref => exact ⟨keys, by omega, hall⟩
    | delete key => trivial
    | search key => trivial

end Represents

/-- **The tree refines a map.** In every sequence of calls from the empty root that comes to its end,
each call returns what the map returns; and every sequence does come to its end in which no key is
inserted into a map of more than `treeCapacity` keys. -/
theorem bptree_refines_map {pageSize : Nat} (h : 4096 ≤ pageSize) (calls : List TreeCall) :
    (∀ rs st', (runAll TreeCall.exec calls).run (pagerOpenCreate pageSize) = some (rs, st') →
      RightAll (fun c m r => r = TreeCall.reply c m) TreeCall.next calls (fun _ => none) rs) ∧
    (AllowedAll (TreeCall.HasRoom pageSize) TreeCall.next calls (fun _ => none) →
      ∃ rs st', (runAll TreeCall.exec calls).run (pagerOpenCreate pageSize) = some (rs, st')) := by
  constructor
  · intro rs st' hrun
    exact (treeCalls_represents h hrun).1
  · intro hroom
    obtain ⟨rs, st', hrun, -⟩ := treeCall_simulates.runAll calls (represents_create h) hroom
    exact ⟨rs, st', hrun⟩

/-- Short sequences come to their end. -/
theorem exists_treeCalls_run {pageSize : Nat} (h : 4096 ≤ pageSize) {calls : List TreeCall}
    (hlen : calls.length ≤ treeCapacity pageSize) :
    ∃ rs st', (runAll TreeCall.exec calls).run (pagerOpenCreate pageSize) = some (rs, st') := by
  have hempty : KeyMap.AtMost (fun _ => none) 0 := ⟨[], Nat.le_refl 0, fun _ hne => absurd rfl hne⟩
  obtain ⟨rs, st', hrun, -⟩ := treeCall_simulates.runAll calls (represents_create h)
    (hasRoom_of_length hempty (by omega))
  exact ⟨rs, st', hrun⟩

theorem bptree_refines_map_reuse :
    ∃ rs st', (runAll TreeCall.exec [.insert 7 ⟨1, 0⟩, .insert 7 ⟨1, 1⟩, .search 7, .delete 7,
        .delete 7, .search 7]).run (pagerOpenCreate 4096) = some (rs, st') ∧
      rs = [.status 0, .status (-1), .found (some ⟨1, 0⟩), .status 0, .status (-1),
        .found none] := by
  have hpage : 4096 ≤ 4096 := le_refl _
  have hempty : KeyMap.AtMost (fun _ => none) 0 := ⟨[], Nat.le_refl 0, fun _ hne => absurd rfl hne⟩
  obtain ⟨hright, hreturns⟩ := bptree_refines_map hpage
    [.insert 7 ⟨1, 0⟩, .insert 7 ⟨1, 1⟩, .search 7, .delete 7, .delete 7, .search 7]
  obtain ⟨rs, st', hrun⟩ := hreturns (hasRoom_of_length hempty (by decide))
  obtain ⟨_, _, rfl, rfl, _, _, rfl, rfl, _, _, rfl, rfl, _, _, rfl, rfl, _, _, rfl, rfl, _, _, rfl,
    rfl, rfl⟩ := hright rs st' hrun
  exact ⟨_, st', hrun, rfl⟩

end MiniDb
