import MiniDb.Lib.BoundedHeap
import MiniDb.Sql.Executor.Sort

/-! # The first rows under a limit

The rows that `topk_scan_cb` keeps are a heap in its buffer, with the last of them in the order of
the comparison at the root, and they are the first of all the rows that have come. -/

set_option autoImplicit false

namespace MiniDb

open Lib

section TopK

variable {κ : Type} [LinearOrder κ] {cmp : RowValues → RowValues → Option Int}
  {key : RowValues → κ} {P : RowValues → Prop} {rows seen : List RowValues}
  {values a b : RowValues} {idx i j worst limit : Nat}

theorem swapRowBlocks_eq (hi : rows[i]? = some a) (hj : rows[j]? = some b) :
    swapRowBlocks rows i j = some (swapAt rows i j) := by
  rw [swapAt_eq hi hj, swapRowBlocks, hi, hj]
  rfl

/-- The last row goes up to its place. -/
theorem topkSiftUp_spec (hcmp : ComparesBy cmp key P) (fuel : Nat) (hrows : ∀ a ∈ rows, P a)
    (h : UpOrdered key rows idx) (hidx : idx < rows.length) (hfuel : idx < fuel) :
    ∃ rows', topkSiftUp cmp fuel rows idx = some rows' ∧ HeapOrdered key rows' ∧
      rows'.Perm rows := by
  induction fuel generalizing rows idx with
  | zero => omega
  | succ fuel ih =>
    rw [topkSiftUp]
    by_cases hpos : 0 < idx
    · have hup := parent_lt hpos
      have ha : rows[idx]? = some rows[idx] := List.getElem?_eq_getElem hidx
      have hlt : parent idx < rows.length := by omega
      have hb : rows[parent idx]? = some rows[parent idx] := List.getElem?_eq_getElem hlt
      obtain ⟨d, hd, -, hmore⟩ :=
        hcmp _ _ (hrows _ (List.getElem_mem hidx)) (hrows _ (List.getElem_mem hlt))
      rw [if_pos hpos, show (idx - 1) / 2 = parent idx from rfl]
      simp only [ha, hb, Option.bind_eq_bind, Option.bind_some, hd]
      by_cases hle : d ≤ 0
      · refine ⟨rows, if_pos hle, h.done fun _ c d' hc hd' => ?_, List.Perm.refl rows⟩
        rw [ha] at hc
        rw [hb] at hd'
        rw [← Option.some.inj hc, ← Option.some.inj hd']
        exact not_lt.mp fun hlt => absurd (hmore.mpr hlt) (by omega)
      · rw [if_neg hle, swapRowBlocks_eq ha hb, Option.bind_some]
        have hperm := swapAt_perm rows idx (parent idx)
        obtain ⟨rows', hrun, hheap, hperm'⟩ := ih
          (fun a ha => hrows a (hperm.mem_iff.mp ha))
          (h.swap hpos ha hb (le_of_lt (hmore.mp (by omega))))
          (by rw [hperm.length_eq]; exact hlt) (by omega)
        exact ⟨rows', hrun, hheap, hperm'.trans hperm⟩
    · exact ⟨rows, if_neg hpos, h.done fun hp => absurd hp hpos, List.Perm.refl rows⟩

/-- The worse of two rows, if there are two. -/
theorem worseOf_spec (hcmp : ComparesBy cmp key P) (hrows : ∀ a ∈ rows, P a)
    (hworst : worst < rows.length) (child : Nat) :
    ∃ w, worseOf cmp rows child worst = some w ∧ (w = worst ∨ w = child) ∧ w < rows.length ∧
      BelowAt key rows child w ∧ BelowAt key rows worst w := by
  have hself : ∀ n, BelowAt key rows n n := by
    intro n c d hc hd
    rw [hc] at hd
    rw [Option.some.inj hd]
  rw [worseOf]
  by_cases hchild : child < rows.length
  · have ha : rows[child]? = some rows[child] := List.getElem?_eq_getElem hchild
    have hb : rows[worst]? = some rows[worst] := List.getElem?_eq_getElem hworst
    obtain ⟨d, hd, -, hmore⟩ :=
      hcmp _ _ (hrows _ (List.getElem_mem hchild)) (hrows _ (List.getElem_mem hworst))
    rw [if_pos hchild]
    simp only [ha, hb, Option.bind_eq_bind, Option.bind_some, hd]
    by_cases hpos : d > 0
    · refine ⟨child, if_pos hpos, .inr rfl, hchild, hself child, fun c e hc he => ?_⟩
      rw [hb] at hc
      rw [ha] at he
      rw [← Option.some.inj hc, ← Option.some.inj he]
      exact le_of_lt (hmore.mp hpos)
    · refine ⟨worst, if_neg hpos, .inl rfl, hworst, fun c e hc he => ?_, hself worst⟩
      rw [ha] at hc
      rw [hb] at he
      rw [← Option.some.inj hc, ← Option.some.inj he]
      exact not_lt.mp fun hlt => hpos (hmore.mpr hlt)
  · refine ⟨worst, if_neg hchild, .inl rfl, hworst, fun c e hc => ?_, hself worst⟩
    rw [List.getElem?_eq_none (by omega)] at hc
    cases hc

/-- The row at the root goes down to its place. -/
theorem topkSiftDown_spec (hcmp : ComparesBy cmp key P) (fuel : Nat) (hrows : ∀ a ∈ rows, P a)
    (h : DownOrdered key rows idx) (hidx : idx < rows.length) (hfuel : rows.length - idx < fuel) :
    ∃ rows', topkSiftDown cmp fuel rows idx = some rows' ∧ HeapOrdered key rows' ∧
      rows'.Perm rows := by
  induction fuel generalizing rows idx with
  | zero => omega
  | succ fuel ih =>
    obtain ⟨w₁, hrun₁, hw₁, hlt₁, hleft₁, hself₁⟩ :=
      worseOf_spec hcmp hrows hidx (idx * 2 + 1)
    obtain ⟨w, hrun, hw, hlt, hright, hworst⟩ :=
      worseOf_spec hcmp hrows hlt₁ (idx * 2 + 1 + 1)
    have ha : rows[idx]? = some rows[idx] := List.getElem?_eq_getElem hidx
    have hb : rows[w]? = some rows[w] := List.getElem?_eq_getElem hlt
    have hb₁ : rows[w₁]? = some rows[w₁] := List.getElem?_eq_getElem hlt₁
    -- the last choice is above the element and both of its children
    have hmax : ∀ n, 0 < n → parent n = idx → BelowAt key rows n w := by
      intro n hn hpar c d hc hd
      rcases (parent_eq_iff hn).mp hpar with rfl | rfl
      · exact le_trans (hleft₁ c _ hc hb₁) (hworst _ d hb₁ hd)
      · exact hright c d hc hd
    have hidxw : BelowAt key rows idx w := fun c d hc hd =>
      le_trans (hself₁ c _ hc hb₁) (hworst _ d hb₁ hd)
    rw [topkSiftDown]
    simp only [hrun₁, hrun, Option.bind_eq_bind, Option.bind_some]
    by_cases heq : w = idx
    · subst heq
      exact ⟨rows, if_pos rfl, h.done hmax, List.Perm.refl rows⟩
    · have hchild : w = idx * 2 + 1 ∨ w = idx * 2 + 1 + 1 := by omega
      have hpos : 0 < w := by omega
      rw [if_neg heq, swapRowBlocks_eq ha hb, Option.bind_some]
      have hperm := swapAt_perm rows idx w
      obtain ⟨rows', hrun', hheap, hperm'⟩ := ih (fun a ha => hrows a (hperm.mem_iff.mp ha))
        (h.swap hpos ((parent_eq_iff hpos).mpr hchild) ha hb (hidxw _ _ ha hb) hmax)
        (by rw [hperm.length_eq]; exact hlt) (by rw [hperm.length_eq]; omega)
      exact ⟨rows', hrun', hheap, hperm'.trans hperm⟩

/-- **One row more**: the buffer holds the first of the rows, as a heap. -/
theorem topkPush_spec (hcmp : ComparesBy cmp key P) (hrows : ∀ a ∈ rows, P a) (hvalues : P values)
    (hheap : HeapOrdered key rows) (h : KeepsLeast key limit seen rows) (hlimit : 1 ≤ limit) :
    ∃ rows', topkPush cmp limit rows values = some rows' ∧ HeapOrdered key rows' ∧
      KeepsLeast key limit (seen ++ [values]) rows' := by
  rw [topkPush]
  by_cases hlt : rows.length < limit
  · rw [if_pos hlt]
    have hall : ∀ a ∈ rows ++ [values], P a := by
      intro a ha
      rcases List.mem_append.mp ha with ha | ha
      · exact hrows a ha
      · exact List.mem_singleton.mp ha ▸ hvalues
    obtain ⟨rows', hrun, hheap', hperm⟩ := topkSiftUp_spec hcmp (rows.length + 1) hall
      (hheap.append values) (by simp) (by omega)
    exact ⟨rows', hrun, hheap', (h.add hlt values).perm hperm⟩
  · rw [if_neg hlt]
    obtain ⟨top, others, rfl⟩ := List.exists_cons_of_length_pos (show 0 < rows.length by omega)
    have htop : ∀ a ∈ top :: others, key a ≤ key top := by
      intro a ha
      obtain ⟨n, hn⟩ := List.mem_iff_getElem?.mp ha
      exact hheap.root n a top hn rfl
    obtain ⟨d, hd, hless, -⟩ := hcmp values top hvalues (hrows top List.mem_cons_self)
    simp only [List.getElem?_cons_zero, Option.bind_eq_bind, Option.bind_some, hd]
    by_cases hneg : d < 0
    · rw [if_pos hneg]
      have hall : ∀ a ∈ values :: others, P a := by
        intro a ha
        rcases List.mem_cons.mp ha with rfl | ha
        · exact hvalues
        · exact hrows a (List.mem_cons_of_mem top ha)
      obtain ⟨rows', hrun, hheap', hperm⟩ := topkSiftDown_spec hcmp ((top :: others).length + 1)
        hall (hheap.setRoot values) (by simp) (by simp)
      have hkeep : KeepsLeast key limit (seen ++ [values]) (values :: others) := by
        apply h.replace
        · rw [List.length_cons] at hlt
          omega
        · exact fun a ha => htop a (List.mem_cons_of_mem top ha)
        · exact le_of_lt (hless.mp hneg)
      exact ⟨rows', hrun, hheap', hkeep.perm hperm⟩
    · refine ⟨_, if_neg hneg, hheap, h.refuse (by omega) fun a ha => ?_⟩
      exact le_trans (htop a ha) (not_lt.mp fun hlt => hneg (hless.mpr hlt))

end TopK

end MiniDb
