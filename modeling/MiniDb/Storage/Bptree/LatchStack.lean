import MiniDb.Storage.Bptree.Refinement
import MiniDb.Storage.Bptree.SparseTree

/-! # Early latch release

What `find_leaf_wlatch` leaves latched, said of the pages: the lower end of the path from the root
to the leaf of the key, cut above the last safe page (`LatchStack`). It is enough: no page is
dropped from the stack, and neither insertion nor deletion runs off its upper end
(`latchRelease_sound`). -/

set_option autoImplicit false

namespace MiniDb

open Lib

/-- The pages from `pid` down to a leaf by the children that are responsible for `key`, the leaf
last. -/
inductive DescentPath (g : Nat → Page) (key : Nat) : Nat → List Nat → Prop
  | leaf {pid : Nat} {lph : LeafPage} (h : g pid = .leaf lph) : DescentPath g key pid [pid]
  | internal {pid childPid : Nat} {iph : InternalPage} {path : List Nat} (h : g pid = .internal iph)
      (hchild : iph.childAt (internalFind iph.entries key) = some childPid)
      (hpath : DescentPath g key childPid path) : DescentPath g key pid (pid :: path)

/-- What a descent for `key` leaves on the latch stack, the leaf first. -/
structure LatchStack (st : Pager) (key : Nat) (isInsert : Bool) (leafPid : Nat)
    (stack : List Nat) : Prop where
  /-- it is the lower end of the path to the leaf, which has room on the stack as a whole -/
  path : ∃ front, DescentPath st.pages key st.header.rootIndexPageId (front ++ stack.reverse) ∧
    (front ++ stack.reverse).length ≤ maxTreeDepth
  leaf : stack.head? = some leafPid
  /-- the uppermost page is the root or safe -/
  first : ∀ p ∈ stack.getLast?, p = st.header.rootIndexPageId ∨
    safeNode st.pageSize isInsert (st.pages p) = some true
  /-- the pages below it are not safe -/
  others : ∀ p ∈ stack.dropLast, safeNode st.pageSize isInsert (st.pages p) = some false

section Path

variable {g : Nat → Page} {root key : Nat} {hs ha hb ka kb : List (Nat × Nat)} {rows rest : List Row}
  {a b : Row} {p : InnerNode} {x : Nat × Nat} {path above : List Nat}

/-- A node on the descent goes on to the located kid. -/
theorem InnerNode.On.descentPath (hon : p.On (g p.pid)) (hloc : Located key p.kids ka x kb)
    (hpath : DescentPath g key x.2 path) : DescentPath g key p.pid (p.pid :: path) := by
  refine .internal hon.eq ?_ hpath
  rw [p.internalFind_of hloc.eq hloc.le hloc.gt]
  exact p.childAt_of _ hloc.eq

/-- The path to a located page begins at the root. -/
theorem Upper.descentPath (h : Upper g root hs rows) (hloc : Located key hs ha x hb)
    (hpath : DescentPath g key x.2 path) :
    ∃ front, front.length = rows.length ∧ DescentPath g key root (front ++ path) := by
  induction rows generalizing hs ha hb x path with
  | nil =>
    obtain ⟨rfl, -⟩ := h
    obtain ⟨rfl, rfl, rfl⟩ := hloc.singleton
    exact ⟨[], rfl, hpath⟩
  | cons row rest ih =>
    obtain ⟨hrow, hrest⟩ := h
    obtain ⟨a, p, b, ka, kb, rfl, hkids, rfl, rfl⟩ := exists_parent hrow.kids hloc.eq
    rw [← hrow.kids] at hloc
    obtain ⟨hlocp, hlock⟩ := hloc.above hkids
    obtain ⟨front, hlen, hfront⟩ := ih hrest hlocp
      ((hrow.on p (by simp)).descentPath hlock hpath)
    refine ⟨front ++ [p.pid], by simp [hlen], ?_⟩
    rw [← List.append_cons]
    exact hfront

/-- The ancestors on the stack are the lower end of the path to them. -/
theorem Ancestors.descentPath {safe : InnerNode → Prop} (hanc : Ancestors safe ha x hb rows above)
    (h : Upper g root hs rows) (hloc : Located key hs ha x hb) (hpath : DescentPath g key x.2 path) :
    ∃ front, front.length + above.length = rows.length ∧
      DescentPath g key root (front ++ above.reverse ++ path) := by
  induction rows generalizing hs ha hb x path above with
  | nil =>
    obtain rfl : above = [] := hanc
    obtain ⟨front, hlen, hfront⟩ := h.descentPath hloc hpath
    exact ⟨front, hlen, by simpa using hfront⟩
  | cons row rest ih =>
    obtain ⟨hrow, hrest⟩ := h
    obtain ⟨a, p, b, ka, kb, above', rfl, hkids, rfl, rfl, rfl, hcut⟩ := hanc
    rw [← hrow.kids] at hloc
    obtain ⟨hlocp, hlock⟩ := hloc.above hkids
    have hpathp := (hrow.on p (by simp)).descentPath hlock hpath
    rcases hcut with ⟨-, rfl⟩ | ⟨-, hanc'⟩
    · obtain ⟨front, hlen, hfront⟩ := hrest.descentPath hlocp hpathp
      exact ⟨front, by simp [hlen], by simpa using hfront⟩
    · obtain ⟨front, hlen, hfront⟩ := ih hanc' hrest hlocp hpathp
      exact ⟨front, by simp only [List.length_cons]; omega, by simpa using hfront⟩

/-- The walk up ends at the root or at a safe page, and passes no safe page before. -/
theorem Ancestors.cut {pageSize : Nat} {isInsert : Bool}
    (hanc : Ancestors (·.Safe pageSize isInsert) ha x hb rows above) (h : Upper g root hs rows)
    (hx : x ∈ hs) :
    (above = [] → x.2 = root) ∧
    (∀ q ∈ above.getLast?, q = root ∨ safeNode pageSize isInsert (g q) = some true) ∧
    ∀ q ∈ above.dropLast, safeNode pageSize isInsert (g q) = some false := by
  induction rows generalizing hs ha hb x above with
  | nil =>
    obtain rfl : above = [] := hanc
    obtain ⟨rfl, -⟩ := h
    rw [List.mem_singleton] at hx
    exact ⟨fun _ => by rw [hx], by simp, by simp⟩
  | cons row rest ih =>
    obtain ⟨hrow, hrest⟩ := h
    obtain ⟨a, p, b, ka, kb, above', rfl, hkids, rfl, rfl, rfl, hcut⟩ := hanc
    have hp : p ∈ a ++ p :: b := by simp
    have hsafe := (hrow.on p hp).safeNode pageSize isInsert
    refine ⟨nofun, ?_⟩
    rcases hcut with ⟨hs, rfl⟩ | ⟨hs, hanc'⟩
    · refine ⟨?_, by simp⟩
      intro q hq
      obtain rfl : p.pid = q := by simpa using hq
      rw [hsafe, decide_eq_true hs]
      exact .inr rfl
    · obtain ⟨hnil, hlast, hfront⟩ := ih hanc' hrest (List.mem_map_of_mem hp)
      cases above' with
      | nil =>
        refine ⟨?_, by simp⟩
        intro q hq
        obtain rfl : p.pid = q := by simpa using hq
        exact .inl (hnil rfl)
      | cons p' above' =>
        refine ⟨by simpa using hlast, ?_⟩
        intro q hq
        rcases List.mem_cons.mp hq with rfl | hq
        · rw [hsafe, decide_eq_false hs]
        · exact hfront q hq

end Path

section Stack

variable {st : Pager} {free : List Nat} {leaves : List LeafNode} {rows : List Row}

/-- `find_leaf_wlatch` leaves the lower end of the path on the stack, and drops no page on the
way. -/
theorem findLeafWlatch_latchStack (h : TreeInv st free leaves rows) (key : Nat)
    (isInsert : Bool) :
    ∃ leafPid stack st', (findLeafWlatch key isInsert).run st = some ((leafPid, stack), st') ∧
      (findLeafWlatchChecked key isInsert).run st = some ((leafPid, stack), st') ∧
      LatchStack st key isInsert leafPid stack := by
  obtain ⟨a, n, b, hn⟩ := h.exists_leafFor key
  obtain ⟨st', above, -, hrun, hanc⟩ := h.findLeafWlatchChecked hn isInsert
  have hmem : n ∈ leaves := hn.mem
  have hon := h.leafOn n hmem
  have hsafe := hon.safeNode st.pageSize isInsert
  have hleaf : DescentPath st.pages key n.head.2 [n.pid] := .leaf hon.eq
  have hdepth := h.depth
  refine ⟨n.pid, _, st', refines_findLeafWlatchChecked key isInsert _ _ hrun, hrun, ?_⟩
  by_cases hs : n.Safe st.pageSize isInsert
  · rw [if_pos hs]
    obtain ⟨front, hlen, hfront⟩ := h.upper.descentPath hn.located hleaf
    refine ⟨⟨front, hfront, ?_⟩, rfl, ?_, by simp⟩
    · simp only [List.reverse_singleton, List.length_append, List.length_singleton]
      omega
    · intro q hq
      obtain rfl : n.pid = q := by simpa using hq
      rw [hsafe, decide_eq_true hs]
      exact .inr rfl
  · rw [if_neg hs]
    obtain ⟨front, hlen, hfront⟩ := hanc.descentPath h.upper hn.located hleaf
    obtain ⟨hnil, hlast, hothers⟩ := hanc.cut h.upper (List.mem_map_of_mem hmem)
    refine ⟨⟨front, by simpa using hfront, ?_⟩, rfl, ?_, ?_⟩
    · simp only [List.reverse_cons, List.length_append, List.length_reverse, List.length_singleton]
      omega
    · intro q hq
      cases above with
      | nil =>
        obtain rfl : n.pid = q := by simpa using hq
        exact .inl (hnil rfl)
      | cons p above => exact hlast q (by simpa using hq)
    · intro q hq
      cases above with
      | nil => simp at hq
      | cons p above =>
        rcases List.mem_cons.mp hq with rfl | hq
        · rw [hsafe, decide_eq_false hs]
        · exact hothers q hq

/-- **The early release of latches is sound**: what both descents leave latched is the lower end of
the path, and insertion and deletion do the same as where none of the exits for a stack that ends
too early is there. An insertion comes back when there is a page for each level and one more. -/
theorem latchRelease_sound (h : TreeInv st free leaves rows) (key : UInt64) :
    (∀ isInsert, ∃ leafPid stack st',
      (findLeafWlatch key.toNat isInsert).run st = some ((leafPid, stack), st') ∧
      (findLeafWlatchChecked key.toNat isInsert).run st = some ((leafPid, stack), st') ∧
      LatchStack st key.toNat isInsert leafPid stack) ∧
    (∀ ref, (bptreeInsert key.toNat ref).run st = (bptreeInsertChecked key.toNat ref).run st ∧
      (st.HasRoom free (rows.length + 2) → ∃ r, (bptreeInsert key.toNat ref).run st = some r)) ∧
    ∃ r, (bptreeDelete key.toNat).run st = some r ∧
      (bptreeDeleteChecked key.toNat).run st = some r := by
  refine ⟨findLeafWlatch_latchStack h key.toNat, ?_, ?_⟩
  · intro ref
    exact h.bptreeInsertChecked_eq ref key.toNat_lt
  · obtain ⟨r, hrun⟩ := h.exists_run_bptreeDeleteChecked key.toNat
    exact ⟨r, refines_bptreeDeleteChecked _ _ _ hrun, hrun⟩

/-- The descent for a deletion in the sparse tree keeps all three levels latched, the one for an
insertion only the leaf; and the deletion, which repairs every level, takes none of the exits. -/
theorem latchRelease_sound_sparseTree :
    LatchStack sparseTree 0 false 5 [5, 3, 2] ∧ LatchStack sparseTree 0 true 5 [5] ∧
    ∃ r, (bptreeDelete 0).run sparseTree = some r ∧ (bptreeDeleteChecked 0).run sparseTree = some r := by
  obtain ⟨hstack, -, hdelete⟩ := latchRelease_sound treeInv_sparseTree 0
  refine ⟨?_, ?_, hdelete⟩
  · obtain ⟨leafPid, stack, st', hrun, -, hlatched⟩ := hstack false
    have hresult : ((findLeafWlatch 0 false).run sparseTree).map (·.1) = some (5, [5, 3, 2]) := by
      decide +kernel
    rw [show (findLeafWlatch 0 false).run sparseTree = _ from hrun] at hresult
    obtain ⟨rfl, rfl⟩ := Prod.mk.inj (Option.some.inj hresult)
    exact hlatched
  · obtain ⟨leafPid, stack, st', hrun, -, hlatched⟩ := hstack true
    have hresult : ((findLeafWlatch 0 true).run sparseTree).map (·.1) = some (5, [5]) := by
      decide +kernel
    rw [show (findLeafWlatch 0 true).run sparseTree = _ from hrun] at hresult
    obtain ⟨rfl, rfl⟩ := Prod.mk.inj (Option.some.inj hresult)
    exact hlatched

end Stack

end MiniDb
