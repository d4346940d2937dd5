import MiniDb.Lib.Partition
import MiniDb.Sql.Executor.Order

/-! # Sorting rows

`quicksort_row_blocks` ends, touches no row outside the part it is given, and leaves that part
sorted, whatever the comparison goes by. From index `2 ^ 27` on the product with `MAX_COLUMNS` is no
`int`, and a part that reaches so far has no defined outcome. -/

set_option autoImplicit false

namespace MiniDb

open Lib

/-- The comparison goes by a key in a linear order, on the rows that satisfy `P`. -/
def ComparesBy {κ : Type} [LinearOrder κ] (cmp : RowValues → RowValues → Option Int)
    (key : RowValues → κ) (P : RowValues → Prop) : Prop :=
  ∀ a b, P a → P b → ∃ d, cmp a b = some d ∧ (d < 0 ↔ key a < key b) ∧ (0 < d ↔ key b < key a)

/-- How many rows can be sorted: the product of the last index with `MAX_COLUMNS` is an `int`. -/
def sortableRows : Nat := 2 ^ 27

section Quick

variable {κ : Type} [LinearOrder κ] {cmp : RowValues → RowValues → Option Int}
  {key : RowValues → κ} {P : RowValues → Prop} {rows rows₀ : List RowValues}
  {pivot a b : RowValues} {n k : Nat} {left right i j : Int}

theorem rowAt_nat (hk : k < sortableRows) : rowAt rows k = rows[k]? := by
  rw [rowAt, if_pos]
  · rfl
  · rw [sortableRows] at hk
    rw [maxColumns]
    omega

theorem rowAt_none (hi : sortableRows ≤ i) : rowAt rows i = none := by
  rw [rowAt, if_neg]
  rw [sortableRows] at hi
  rw [maxColumns]
  omega

/-- `i` stops at an element that is not less than the pivot, at the latest at one that is known. -/
theorem scanUp_spec (hcmp : ComparesBy cmp key P) (hrows : AllBetween P k n rows)
    (hsize : n < sortableRows) (hpivot : P pivot) (hn : rows[n]? = some b)
    (hb : key pivot ≤ key b) (fuel : Nat) (hk : k ≤ n) (hfuel : n - k < fuel) :
    ∃ (i : Nat) (a : RowValues), scanUp cmp rows pivot fuel k = some (i : Int) ∧ k ≤ i ∧ i ≤ n ∧
      AllBetween (key · < key pivot) k (i - 1) rows ∧ rows[i]? = some a ∧ key pivot ≤ key a ∧
      ∀ x ∈ scanUpIndices cmp rows pivot fuel k, (k : Int) ≤ x ∧ x ≤ i := by
  induction fuel generalizing k with
  | zero => omega
  | succ fuel ih =>
    have hlen := (List.getElem?_eq_some_iff.mp hn).1
    have hget : rows[k]? = some rows[k] := List.getElem?_eq_getElem (by omega)
    obtain ⟨d, hd, hless, -⟩ := hcmp _ _ (hrows k _ (le_refl _) (by omega) hget) hpivot
    rw [scanUp, scanUpIndices, rowAt_nat (by omega), hget]
    simp only [Option.bind_eq_bind, Option.bind_some, hd]
    by_cases hneg : d < 0
    · have hkn : k ≠ n := by
        rintro rfl
        rw [hn] at hget
        exact absurd (hless.mp hneg) (not_lt.mpr (Option.some.inj hget ▸ hb))
      have hrest : AllBetween P (k + 1 : Nat) n rows :=
        fun m c hm hmn => hrows m c (by omega) hmn
      obtain ⟨i, a, hrun, hki, hin, hall, ha, hp, hidx⟩ :=
        ih (k := k + 1) hrest (by omega) (by omega)
      rw [if_pos hneg, if_pos hneg]
      refine ⟨i, a, by exact_mod_cast hrun, by omega, hin, ?_, ha, hp, ?_⟩
      · intro m c hm hmi hc
        by_cases hmk : m = k
        · subst hmk
          rw [hget] at hc
          exact Option.some.inj hc ▸ hless.mp hneg
        · exact hall m c (by omega) hmi hc
      · intro x hx
        rcases List.mem_cons.mp hx with rfl | hx
        · omega
        · have hx' := hidx x (by exact_mod_cast hx)
          omega
    · rw [if_neg hneg, if_neg hneg]
      refine ⟨k, _, rfl, Nat.le_refl k, hk, ?_, hget, not_lt.mp fun h => hneg (hless.mpr h), ?_⟩
      · intro m c hm hmi
        omega
      · intro x hx
        rw [List.mem_singleton.mp hx]
        omega

/-- `j` stops at an element that is not greater than the pivot, at the latest at one that is
known. -/
theorem scanDown_spec (hcmp : ComparesBy cmp key P) (hrows : AllBetween P n k rows)
    (hsize : k < sortableRows) (hpivot : P pivot) (hn : rows[n]? = some b)
    (hb : key b ≤ key pivot) (fuel : Nat) (hk : n ≤ k) (hlen : k < rows.length)
    (hfuel : k - n < fuel) :
    ∃ (j : Nat) (a : RowValues), scanDown cmp rows pivot fuel k = some (j : Int) ∧ n ≤ j ∧ j ≤ k ∧
      AllBetween (key pivot < key ·) (j + 1) k rows ∧ rows[j]? = some a ∧ key a ≤ key pivot ∧
      ∀ x ∈ scanDownIndices cmp rows pivot fuel k, (j : Int) ≤ x ∧ x ≤ k := by
  induction fuel generalizing k with
  | zero => omega
  | succ fuel ih =>
    have hget : rows[k]? = some rows[k] := List.getElem?_eq_getElem hlen
    obtain ⟨d, hd, -, hmore⟩ := hcmp _ _ (hrows k _ (by omega) (le_refl _) hget) hpivot
    rw [scanDown, scanDownIndices, rowAt_nat hsize, hget]
    simp only [Option.bind_eq_bind, Option.bind_some, hd]
    by_cases hpos : d > 0
    · have hkn : k ≠ n := by
        rintro rfl
        rw [hn] at hget
        exact absurd (hmore.mp hpos) (not_lt.mpr (Option.some.inj hget ▸ hb))
      have hrest : AllBetween P n (k - 1 : Nat) rows :=
        fun m c hm hmk => hrows m c hm (by omega)
      obtain ⟨j, a, hrun, hnj, hjk, hall, ha, hp, hidx⟩ :=
        ih (k := k - 1) hrest (by omega) (by omega) (by omega) (by omega)
      rw [if_pos hpos, if_pos hpos, show (k : Int) - 1 = ((k - 1 : Nat) : Int) by omega]
      refine ⟨j, a, hrun, hnj, by omega, ?_, ha, hp, ?_⟩
      · intro m c hm hmk hc
        by_cases hmk' : m = k
        · subst hmk'
          rw [hget] at hc
          exact Option.some.inj hc ▸ hmore.mp hpos
        · exact hall m c hm (by omega) hc
      · intro x hx
        rcases List.mem_cons.mp hx with rfl | hx
        · omega
        · have hx' := hidx x hx
          omega
    · rw [if_neg hpos, if_neg hpos]
      refine ⟨k, _, rfl, hk, Nat.le_refl k, ?_, hget, not_lt.mp fun h => hpos (hmore.mpr h), ?_⟩
      · intro m c hm hmk
        omega
      · intro x hx
        rw [List.mem_singleton.mp hx]
        omega

/-- The indices pass each other, with the smaller elements on one side and the greater ones on the
other. -/
theorem partitionRows_spec (hcmp : ComparesBy cmp key P) (hrows : AllBetween P left right rows₀)
    (hsize : right < sortableRows) (hpivot : P pivot) (hleft : 0 ≤ left)
    (hright : right < rows₀.length) (fuel : Nat)
    (h : Zone key (key pivot) left right rows₀ rows i j) (hfuel : 1 ≤ fuel ∧ j - i + 2 ≤ fuel) :
    ∃ rows' i' j', partitionRows cmp pivot fuel rows i j = some (rows', i', j') ∧
      Zone key (key pivot) left right rows₀ rows' i' j' ∧ j' < i' ∧
      ∀ x ∈ partitionIndices cmp pivot fuel rows i j, left ≤ x ∧ x ≤ right := by
  induction fuel generalizing rows i j with
  | zero => omega
  | succ fuel ih =>
    rw [partitionRows, partitionIndices]
    by_cases hij : i ≤ j
    · have hlen := h.rearranged.length_eq
      have hP : AllBetween P left right rows := h.rearranged.allBetween hrows
      have hl := h.left_le
      have hr := h.le_right
      obtain ⟨k, rfl⟩ := Int.eq_ofNat_of_zero_le (show 0 ≤ i by omega)
      obtain ⟨m, rfl⟩ := Int.eq_ofNat_of_zero_le (show 0 ≤ j by omega)
      obtain ⟨n, b, hkn, hnr, hb, hpb⟩ := h.stopUp hij
      obtain ⟨n', b', hnl, hnm, hb', hpb'⟩ := h.stopDown hij
      obtain ⟨i', a, hup, hki, hin, hless, ha, hpa, hidxUp⟩ := scanUp_spec hcmp
        (fun x c hx hxn => hP x c (by omega) (by omega)) (by omega) hpivot hb hpb
        (rows.length + 1) (k := k) (by omega) (by omega)
      obtain ⟨j', a', hdown, hnj, hjm, hmore, ha', hpa', hidxDown⟩ := scanDown_spec hcmp
        (fun x c hx hxn => hP x c (by omega) (by omega)) (by omega) hpivot
        hb' hpb' (rows.length + 1) (k := m) (by omega) (by omega) (by omega)
      have hup' : Zone key (key pivot) left right rows₀ rows i' m :=
        h.up (by omega) hless
      have hzone : Zone key (key pivot) left right rows₀ rows i' j' := hup'.down (by omega) hmore
      rw [if_pos hij, if_pos hij, hup, Option.bind_eq_bind, Option.bind_some, hdown,
        Option.bind_eq_bind, Option.bind_some]
      dsimp only
      -- both loops stay between the elements that stop them
      have hidx : ∀ x ∈ scanUpIndices cmp rows pivot (rows.length + 1) k,
          left ≤ x ∧ x ≤ right := by
        intro x hx
        have hx' := hidxUp x hx
        omega
      have hidx' : ∀ x ∈ scanDownIndices cmp rows pivot (rows.length + 1) m,
          left ≤ x ∧ x ≤ right := by
        intro x hx
        have hx' := hidxDown x hx
        omega
      by_cases hij' : (i' : Int) ≤ j'
      · have hswap : swapRowBlocks rows (i' : Int).toNat (j' : Int).toNat =
            some (swapAt rows i' j') := by
          rw [swapAt_eq ha ha', swapRowBlocks, Int.toNat_natCast, Int.toNat_natCast, ha, ha']
          rfl
        obtain ⟨rows', i'', j'', hrun, hzone', hpassed, hidxRest⟩ :=
          ih (hzone.exchange (by omega) ha hpa ha' hpa') (by omega)
        rw [if_pos hij', if_pos hij', hswap, Option.bind_some]
        refine ⟨rows', i'', j'', hrun, hzone', hpassed, ?_⟩
        intro x hx
        rcases List.mem_append.mp hx with hx | hx
        · exact hidx x hx
        rcases List.mem_append.mp hx with hx | hx
        · exact hidx' x hx
        rcases List.mem_cons.mp hx with rfl | hx
        · omega
        rcases List.mem_cons.mp hx with rfl | hx
        · omega
        · exact hidxRest x hx
      · obtain ⟨rows', i'', j'', hrun, hzone', hpassed, hidxRest⟩ := ih hzone (by omega)
        rw [if_neg hij', if_neg hij']
        refine ⟨rows', i'', j'', hrun, hzone', hpassed, ?_⟩
        intro x hx
        rcases List.mem_append.mp hx with hx | hx
        · exact hidx x hx
        rcases List.mem_append.mp hx with hx | hx
        · exact hidx' x hx
        · exact hidxRest x hx
    · rw [if_neg hij, if_neg hij]
      exact ⟨rows, i, j, rfl, h, by omega, fun x hx => by cases hx⟩

/-- **The quicksort** sorts the part that it is given and touches no other row. -/
theorem quicksortRowBlocks_spec (hcmp : ComparesBy cmp key P) (fuel : Nat)
    (hrows : AllBetween P left right rows) (hsize : right < sortableRows) (hleft : 0 ≤ left)
    (hle : left ≤ right) (hright : right < rows.length) (hfuel : right - left < fuel) :
    ∃ rows', quicksortRowBlocks cmp fuel rows left right = some rows' ∧
      Rearranged left right rows rows' ∧ SortedBetween key left right rows' ∧
      ∀ x ∈ quicksortIndices cmp fuel rows left right, left ≤ x ∧ x ≤ right := by
  induction fuel generalizing rows left right with
  | zero => omega
  | succ fuel ih =>
    have hmid : (left + right).tdiv 2 = (left + right) / 2 :=
      Int.tdiv_eq_ediv_of_nonneg (by omega)
    obtain ⟨m, hm⟩ := Int.eq_ofNat_of_zero_le (show 0 ≤ (left + right).tdiv 2 by omega)
    have hmlen : m < rows.length := by omega
    have hget : rows[m]? = some rows[m] := List.getElem?_eq_getElem hmlen
    have hpivot : P rows[m] := hrows m _ (by omega) (by omega) hget
    have hstart : Zone key (key rows[m]) left right rows rows left right :=
      Zone.start (by omega) (by omega) hget
    obtain ⟨rows₁, i, j, hpart, hzone, hji, hidx₁⟩ :=
      partitionRows_spec hcmp hrows hsize hpivot hleft hright (rows.length + 2) hstart (by omega)
    obtain ⟨hi, hj⟩ := hzone.moved_of_lt hji
    have hlen₁ := hzone.rearranged.length_eq
    have hrows₁ : AllBetween P left right rows₁ := hzone.rearranged.allBetween hrows
    rw [quicksortRowBlocks, quicksortIndices, hm, rowAt_nat (by omega), hget, Option.bind_eq_bind,
      Option.bind_some, hpart, Option.bind_eq_bind, Option.bind_some]
    dsimp only
    -- the part up to `j`
    have hfirst : ∃ rows₂, (if left < j then quicksortRowBlocks cmp fuel rows₁ left j
        else some rows₁) = some rows₂ ∧ Rearranged left j rows₁ rows₂ ∧
          SortedBetween key left j rows₂ ∧
          ∀ x ∈ (if left < j then quicksortIndices cmp fuel rows₁ left j else []),
            left ≤ x ∧ x ≤ j := by
      by_cases hlj : left < j
      · rw [if_pos hlj, if_pos hlj]
        exact ih (fun n c hl hr => hrows₁ n c hl (by omega)) (by omega) hleft (by omega) (by omega)
          (by omega)
      · rw [if_neg hlj, if_neg hlj]
        exact ⟨rows₁, rfl, Rearranged.refl left j rows₁, sortedBetween_of_le (by omega) rows₁,
          fun x hx => by cases hx⟩
    obtain ⟨rows₂, hrun₂, hre₂, hsorted₂, hidx₂⟩ := hfirst
    have hlen₂ := hre₂.length_eq
    have hrows₂ : AllBetween P left right rows₂ :=
      (hre₂.mono (le_refl left) (by omega)).allBetween hrows₁
    -- the part from `i` on
    have hsecond : ∃ rows₃, (if i < right then quicksortRowBlocks cmp fuel rows₂ i right
        else some rows₂) = some rows₃ ∧ Rearranged i right rows₂ rows₃ ∧
          SortedBetween key i right rows₃ ∧
          ∀ x ∈ (if i < right then quicksortIndices cmp fuel rows₂ i right else []),
            i ≤ x ∧ x ≤ right := by
      by_cases hir : i < right
      · rw [if_pos hir, if_pos hir]
        exact ih (fun n c hl hr => hrows₂ n c (by omega) hr) hsize (by omega) (by omega) (by omega)
          (by omega)
      · rw [if_neg hir, if_neg hir]
        exact ⟨rows₂, rfl, Rearranged.refl i right rows₂, sortedBetween_of_le (by omega) rows₂,
          fun x hx => by cases hx⟩
    obtain ⟨rows₃, hrun₃, hre₃, hsorted₃, hidx₃⟩ := hsecond
    refine ⟨rows₃, ?_, ?_, ?_, ?_⟩
    · by_cases hlj : left < j
      · rw [if_pos hlj] at hrun₂ ⊢
        rw [hrun₂]
        exact hrun₃
      · rw [if_neg hlj] at hrun₂ ⊢
        rw [hrun₂]
        exact hrun₃
    · exact (hzone.rearranged.trans (hre₂.mono (le_refl left) (by omega))).trans
        (hre₃.mono (by omega) (le_refl right))
    · exact SortedBetween.join hji hzone.low hzone.high hre₂ hsorted₂ hre₃ hsorted₃
    · intro x hx
      rw [hpart] at hx
      dsimp only at hx
      rw [hrun₂] at hx
      rcases List.mem_cons.mp hx with rfl | hx
      · omega
      rcases List.mem_append.mp hx with hx | hx
      · exact hidx₁ x hx
      rcases List.mem_append.mp hx with hx | hx
      · have hx' := hidx₂ x hx
        omega
      · have hx' := hidx₃ x hx
        omega

/-- From an index that is too great the scan downwards has no start. -/
theorem quicksortRowBlocks_none (hle : left ≤ right) (h : sortableRows ≤ right) (fuel : Nat) :
    quicksortRowBlocks cmp fuel rows left right = none := by
  have hdown : ∀ pivot fuel, scanDown cmp rows pivot fuel right = none := by
    intro pivot fuel
    cases fuel with
    | zero => rfl
    | succ fuel =>
      rw [scanDown, rowAt_none h]
      rfl
  have hpart : ∀ pivot, partitionRows cmp pivot (rows.length + 2) rows left right = none := by
    intro pivot
    rw [partitionRows, if_pos hle]
    cases scanUp cmp rows pivot (rows.length + 1) left with
    | none => rfl
    | some i =>
      rw [Option.bind_eq_bind, Option.bind_some, hdown]
      rfl
  cases fuel with
  | zero => rfl
  | succ fuel =>
    rw [quicksortRowBlocks]
    cases rowAt rows (Int.tdiv (left + right) 2) with
    | none => rfl
    | some pivot =>
      rw [Option.bind_eq_bind, Option.bind_some, hpart]
      rfl

end Quick

end MiniDb
