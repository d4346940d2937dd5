import MiniDb.Lib.Block
import MiniDb.Sql.Executor.Basic

/-! # The row collector

`row_collect_t`, with the memory that its rows lie in. The number of bytes to request and the index
of a row are products of 32 bits, so from `2 ^ 28` rows on the memory is less than the capacity says;
the sort takes the same indices as products of `int`, which ends at `2 ^ 27` rows. -/

set_option autoImplicit false

namespace MiniDb

open Lib

/-- `sizeof(row_value_t)`. -/
def sizeofRowValue : Nat := 256

/-- `row_collect_t`; `rows` is the block, as an array of `row_value_t`. -/
structure RowCollect where
  rows : Option (List RowValue)
  count : Nat
  cap : Nat
  allocFailed : Bool

/-- The `MAX_COLUMNS` values of a row. -/
abbrev RowBlock := { vals : RowValues // vals.length = maxColumns }

/-- `cap * MAX_COLUMNS * sizeof(row_value_t)`, where the first product has 32 bits. -/
def collectBytes (cap : Nat) : Nat := cap * maxColumns % 2 ^ 32 * sizeofRowValue

/-- `idx * MAX_COLUMNS`. -/
def rowIndex (idx : Nat) : Nat := idx * maxColumns % 2 ^ 32

/-- `row_collect_init_with_cap`. -/
def rowCollectInitWithCap (malloc : Allocator RowValue) (initialCap : Nat) : RowCollect :=
  if initialCap = 0 then ⟨none, 0, 0, false⟩
  else
    match malloc.block (collectBytes initialCap) with
    | none => ⟨none, 0, 0, true⟩
    | some fill => ⟨some (regrow [] (collectBytes initialCap / sizeofRowValue) fill), 0, initialCap,
        false⟩

/-- `row_collect_init`. -/
def rowCollectInit (malloc : Allocator RowValue) : RowCollect := rowCollectInitWithCap malloc 256

/-- `memcpy` of a row to its place; past the block it has no defined outcome. -/
def RowCollect.write (rc : RowCollect) (rows : List RowValue) (vals : RowBlock) :
    Option (Bool × RowCollect) := do
  guard (rowIndex rc.count + maxColumns ≤ rows.length)
  return (true, { rc with
    rows := some (splice rows (rowIndex rc.count) vals.1)
    count := (rc.count + 1) % 2 ^ 32 })

/-- `row_collect_push`. A `realloc` to no bytes at all has no
defined outcome. -/
def rowCollectPush (realloc : Allocator RowValue) (vals : RowBlock) (rc : RowCollect) :
    Option (Bool × RowCollect) :=
  match rc.rows with
  | none => some (false, { rc with allocFailed := true })
  | some rows =>
    if rc.cap = 0 then some (false, { rc with allocFailed := true })
    else if rc.count ≥ rc.cap then
      let newCap := rc.cap * 2 % 2 ^ 32
      if collectBytes newCap = 0 then none
      else
        match realloc.block (collectBytes newCap) with
        | none => some (false, { rc with allocFailed := true })
        | some fill =>
          { rc with cap := newCap }.write (regrow rows (collectBytes newCap / sizeofRowValue) fill)
            vals
    else rc.write rows vals

/-- `row_collect_get`: the row behind the pointer. -/
def rowCollectGet (rc : RowCollect) (idx : Nat) : Option RowValues := do
  let rows ← rc.rows
  guard (rowIndex idx + maxColumns ≤ rows.length)
  return slice rows (rowIndex idx) maxColumns

/-- What is promised of a collector that reports no failure: its capacity is there, and all indices
of its rows are exact, also as an `int`. -/
structure RowCollect.Real (rc : RowCollect) : Prop where
  fits : ∀ rows ∈ rc.rows, rc.cap * maxColumns * sizeofRowValue ≤ rows.length * sizeofRowValue
  count_le : rc.count ≤ rc.cap
  index : ∀ idx < rc.count, rowIndex idx = idx * maxColumns ∧ idx * maxColumns < 2 ^ 31

/-- A push that has to grow the block and gets no memory. -/
def PushRefused (realloc : Allocator RowValue) (rc : RowCollect) : Prop :=
  rc.cap ≤ rc.count ∧ collectBytes (rc.cap * 2 % 2 ^ 32) ≠ 0 ∧
    realloc.block (collectBytes (rc.cap * 2 % 2 ^ 32)) = none

/-! ## One push -/

/-- The collector holds these rows, one behind the other. -/
structure RowCollect.Holds (rc : RowCollect) (items : List RowBlock) (rows : List RowValue) :
    Prop where
  rows_eq : rc.rows = some rows
  length : rows.length = rc.cap * maxColumns
  item : ∀ i vals, items[i]? = some vals → slice rows (i * maxColumns) maxColumns = vals.1
  count : rc.count = items.length
  cap_pos : 0 < rc.cap
  cap_lt : rc.cap < 2 ^ 28
  count_le : rc.count ≤ rc.cap
  small : rc.count ≤ 2 ^ 27

section Push

variable {rc : RowCollect} {items : List RowBlock} {rows : List RowValue}
  {realloc : Allocator RowValue} {vals : RowBlock} {cap idx : Nat}

theorem collectBytes_eq (h : cap < 2 ^ 28) :
    collectBytes cap = cap * maxColumns * sizeofRowValue := by
  rw [collectBytes, Nat.mod_eq_of_lt]
  rw [maxColumns]
  omega

theorem rowIndex_eq (h : idx < 2 ^ 28) : rowIndex idx = idx * maxColumns := by
  rw [rowIndex, Nat.mod_eq_of_lt]
  rw [maxColumns]
  omega

theorem elements_collectBytes (h : cap < 2 ^ 28) :
    collectBytes cap / sizeofRowValue = cap * maxColumns := by
  rw [collectBytes_eq h]
  exact Nat.mul_div_cancel _ (Nat.succ_pos 255)

theorem RowCollect.Holds.real (h : rc.Holds items rows) : rc.Real := by
  refine ⟨?_, h.count_le, fun idx hidx => ?_⟩
  · intro rows' hrows'
    obtain rfl := Option.some.inj (h.rows_eq.symm.trans hrows')
    exact Nat.mul_le_mul_right _ h.length.ge
  · have := h.small
    refine ⟨rowIndex_eq (by omega), ?_⟩
    rw [maxColumns]
    omega

/-- A row is written behind the others. -/
theorem RowCollect.Holds.write (h : rc.Holds items rows) (hroom : rc.count < rc.cap)
    (hsmall : rc.count < 2 ^ 27) :
    ∃ rc' rows', rc.write rows vals = some (true, rc') ∧ rc'.Holds (items ++ [vals]) rows' ∧
      rc'.cap = rc.cap := by
  have hidx : rowIndex rc.count = rc.count * maxColumns := rowIndex_eq (by omega)
  have hfit : rc.count * maxColumns + maxColumns ≤ rows.length := by
    rw [h.length, maxColumns]
    omega
  have hfit' : rc.count * maxColumns + vals.1.length ≤ rows.length := by
    rw [vals.2]
    exact hfit
  have hcount : (rc.count + 1) % 2 ^ 32 = rc.count + 1 := Nat.mod_eq_of_lt (by omega)
  refine ⟨{ rc with
    rows := some (splice rows (rc.count * maxColumns) vals.1)
    count := rc.count + 1 }, _, ?_, ⟨rfl, ?_, ?_, ?_, h.cap_pos, h.cap_lt, hroom, hsmall⟩, rfl⟩
  · rw [RowCollect.write, hidx, hcount]
    simp only [guard, if_pos hfit, Option.pure_def, Option.bind_eq_bind, Option.bind_some]
  · rw [length_splice hfit', h.length]
  · intro i v hi
    by_cases hlast : i < items.length
    · rw [List.getElem?_append_left hlast] at hi
      rw [slice_splice_of_disjoint hfit', h.item i v hi]
      left
      rw [h.count, maxColumns]
      omega
    · have hlen := (List.getElem?_eq_some_iff.mp hi).1
      rw [List.length_append, List.length_singleton] at hlen
      obtain rfl : i = items.length := by omega
      rw [List.getElem?_concat_length] at hi
      obtain rfl := Option.some.inj hi
      rw [← h.count]
      have hself := slice_splice_self hfit'
      rwa [vals.2] at hself
  · rw [List.length_append, List.length_singleton]
    exact congrArg (· + 1) h.count

/-- A push that gets no memory changes nothing. -/
theorem RowCollect.Holds.push_refused (h : rc.Holds items rows) (href : PushRefused realloc rc) :
    rowCollectPush realloc vals rc = some (false, { rc with allocFailed := true }) := by
  obtain ⟨hfull, hsome, hnone⟩ := href
  have hcap : rc.cap ≠ 0 := Nat.ne_of_gt h.cap_pos
  rw [rowCollectPush, h.rows_eq]
  dsimp only
  rw [if_neg hcap, if_pos hfull, if_neg hsome, hnone]

/-- Any other push below `2 ^ 27` rows puts its row behind the others. -/
theorem RowCollect.Holds.push (h : rc.Holds items rows) (href : ¬ PushRefused realloc rc)
    (hsmall : rc.count < 2 ^ 27) :
    ∃ rc' rows', rowCollectPush realloc vals rc = some (true, rc') ∧
      rc'.Holds (items ++ [vals]) rows' ∧
      rc'.cap = if rc.count ≥ rc.cap then rc.cap * 2 else rc.cap := by
  have hcap : rc.cap ≠ 0 := Nat.ne_of_gt h.cap_pos
  have hle := h.count_le
  rw [rowCollectPush, h.rows_eq]
  dsimp only
  rw [if_neg hcap]
  by_cases hfull : rc.count ≥ rc.cap
  · -- the block is doubled
    have hmod : rc.cap * 2 % 2 ^ 32 = rc.cap * 2 := Nat.mod_eq_of_lt (by omega)
    have hlt : rc.cap * 2 < 2 ^ 28 := by omega
    have hbytes : collectBytes (rc.cap * 2) ≠ 0 := by
      rw [collectBytes_eq hlt, maxColumns, sizeofRowValue]
      omega
    have hmem : realloc.block (collectBytes (rc.cap * 2)) ≠ none := by
      intro hnone
      apply href
      rw [PushRefused, hmod]
      exact ⟨hfull, hbytes, hnone⟩
    obtain ⟨fill, hfill⟩ := Option.ne_none_iff_exists'.mp hmem
    rw [if_pos hfull, hmod, if_neg hbytes, hfill, elements_collectBytes hlt]
    dsimp only
    have hgrown : RowCollect.Holds { rc with
        cap := rc.cap * 2
        rows := some (regrow rows (rc.cap * 2 * maxColumns) fill) } items
        (regrow rows (rc.cap * 2 * maxColumns) fill) := by
      refine ⟨rfl, length_regrow, ?_, h.count, ?_, hlt, ?_, h.small⟩
      · intro i v hi
        have hi' := (List.getElem?_eq_some_iff.mp hi).1
        have hcount := h.count
        have hlen := h.length
        rw [maxColumns] at hlen
        rw [slice_regrow (by rw [maxColumns]; omega) (by rw [maxColumns]; omega), h.item i v hi]
      · show 0 < rc.cap * 2
        omega
      · show rc.count ≤ rc.cap * 2
        omega
    rw [if_pos hfull]
    exact hgrown.write (by show rc.count < rc.cap * 2; omega) hsmall
  · rw [if_neg hfull, if_neg hfull]
    exact h.write (by omega) hsmall

/-- At `2 ^ 27` rows no push succeeds with indices that are exact. -/
theorem RowCollect.Holds.push_large (h : rc.Holds items rows) (href : ¬ PushRefused realloc rc)
    (hlarge : 2 ^ 27 ≤ rc.count) :
    ¬ ∃ ok rc', rowCollectPush realloc vals rc = some (ok, rc') ∧ (ok = true → rc'.Real) := by
  rintro ⟨ok, rc', hpush, hreal⟩
  have hsmall := h.small
  have hcap : rc.cap ≠ 0 := Nat.ne_of_gt h.cap_pos
  have hcapLt := h.cap_lt
  have hmod : (rc.count + 1) % 2 ^ 32 = rc.count + 1 := Nat.mod_eq_of_lt (by omega)
  -- a row written is the one too many
  have hwrite : ∀ rc₁ : RowCollect, rc₁.count = rc.count → ∀ rows₁,
      rc₁.write rows₁ vals = some (ok, rc') → False := by
    intro rc₁ hcount rows₁ hw
    rw [RowCollect.write, Option.bind_eq_bind, Option.bind_eq_some_iff] at hw
    obtain ⟨-, -, hw⟩ := hw
    obtain ⟨rfl, rfl⟩ := Prod.mk.inj (Option.some.inj hw)
    obtain ⟨-, hint⟩ := (hreal rfl).index rc.count (by
      show rc.count < (rc₁.count + 1) % 2 ^ 32
      rw [hcount, hmod]
      omega)
    rw [maxColumns] at hint
    omega
  rw [rowCollectPush, h.rows_eq] at hpush
  dsimp only at hpush
  rw [if_neg hcap] at hpush
  split at hpush
  · rename_i hfull
    split at hpush
    · cases hpush
    · rename_i hbytes
      split at hpush
      · rename_i hnone
        exact href ⟨hfull, hbytes, hnone⟩
      · exact hwrite { rc with cap := rc.cap * 2 % 2 ^ 32, rows := some rows } rfl _ hpush
  · exact hwrite rc rfl rows hpush

end Push

/-! ## Runs -/

/-- Every push has an outcome, and after each one that reports success the collector is real. -/
def PushesReal (rc : RowCollect) : List (Allocator RowValue × RowBlock) → Prop
  | [] => True
  | (realloc, vals) :: pushes =>
    ∃ ok rc', rowCollectPush realloc vals rc = some (ok, rc') ∧ (ok = true → rc'.Real) ∧
      PushesReal rc' pushes

/-- No push goes to a collector of `2 ^ 27` rows, one without memory for a greater block apart. -/
def PushesFit (rc : RowCollect) : List (Allocator RowValue × RowBlock) → Prop
  | [] => True
  | (realloc, vals) :: pushes =>
    (rc.rows = none ∨ PushRefused realloc rc ∨ rc.count < 2 ^ 27) ∧
      ∀ ok rc', rowCollectPush realloc vals rc = some (ok, rc') → PushesFit rc' pushes

section Runs

variable {rc : RowCollect}

theorem rowCollectPush_none (h : rc.rows = none) (realloc : Allocator RowValue) (vals : RowBlock) :
    rowCollectPush realloc vals rc = some (false, { rc with allocFailed := true }) := by
  rw [rowCollectPush, h]

/-- A collector without a block stays without one. -/
theorem pushes_none (h : rc.rows = none) (pushes : List (Allocator RowValue × RowBlock)) :
    PushesReal rc pushes ∧ PushesFit rc pushes := by
  induction pushes generalizing rc with
  | nil => exact ⟨trivial, trivial⟩
  | cons push pushes ih =>
    obtain ⟨realloc, vals⟩ := push
    have hrun := rowCollectPush_none h realloc vals
    obtain ⟨hreal, hfit⟩ := @ih { rc with allocFailed := true } h
    refine ⟨⟨false, _, hrun, nofun, hreal⟩, .inl h, fun ok rc' hrun' => ?_⟩
    obtain ⟨-, rfl⟩ := Prod.mk.inj (Option.some.inj (hrun.symm.trans hrun'))
    exact hfit

theorem pushesReal_iff {items : List RowBlock} {rows : List RowValue} (h : rc.Holds items rows)
    (pushes : List (Allocator RowValue × RowBlock)) : PushesReal rc pushes ↔ PushesFit rc pushes := by
  induction pushes generalizing rc items rows with
  | nil => exact Iff.rfl
  | cons push pushes ih =>
    obtain ⟨realloc, vals⟩ := push
    rw [PushesReal, PushesFit]
    -- from a known outcome on
    have hstep : ∀ ok rc₁ items₁ rows₁, rowCollectPush realloc vals rc = some (ok, rc₁) →
        rc₁.Holds items₁ rows₁ → ((∃ ok rc', rowCollectPush realloc vals rc = some (ok, rc') ∧
          (ok = true → rc'.Real) ∧ PushesReal rc' pushes) ↔
        ∀ ok rc', rowCollectPush realloc vals rc = some (ok, rc') → PushesFit rc' pushes) := by
      intro ok rc₁ items₁ rows₁ hrun h₁
      constructor
      · rintro ⟨ok', rc', hrun', -, hrest⟩ ok'' rc'' hrun''
        obtain ⟨-, rfl⟩ := Prod.mk.inj (Option.some.inj (hrun.symm.trans hrun'))
        obtain ⟨-, rfl⟩ := Prod.mk.inj (Option.some.inj (hrun.symm.trans hrun''))
        exact (ih h₁).mp hrest
      · intro hrest
        exact ⟨ok, rc₁, hrun, fun _ => h₁.real, (ih h₁).mpr (hrest ok rc₁ hrun)⟩
    by_cases href : PushRefused realloc rc
    · rw [and_iff_right (.inr (.inl href))]
      have hsame : RowCollect.Holds { rc with allocFailed := true } items rows :=
        ⟨h.rows_eq, h.length, h.item, h.count, h.cap_pos, h.cap_lt, h.count_le, h.small⟩
      exact hstep false _ items rows (h.push_refused href) hsame
    · by_cases hsmall : rc.count < 2 ^ 27
      · rw [and_iff_right (.inr (.inr hsmall))]
        obtain ⟨rc', rows', hrun, h', -⟩ := h.push href hsmall
        exact hstep true rc' _ rows' hrun h'
      · refine iff_of_false ?_ ?_
        · rintro ⟨ok, rc', hrun, hreal, -⟩
          exact h.push_large href (by omega) ⟨ok, rc', hrun, hreal⟩
        · rintro ⟨hnone | hin | hlt, -⟩
          · rw [h.rows_eq] at hnone
            cases hnone
          · exact href hin
          · exact hsmall hlt

/-- A collector for `cap` rows, and then all pushes, report success only when that is real. -/
def CollectorReal (malloc : Allocator RowValue) (cap : Nat)
    (pushes : List (Allocator RowValue × RowBlock)) : Prop :=
  ((rowCollectInitWithCap malloc cap).allocFailed = false →
      (rowCollectInitWithCap malloc cap).Real) ∧
    PushesReal (rowCollectInitWithCap malloc cap) pushes

/-- **The capacity of the collector is real** exactly if the first block was refused or is one for
fewer than `2 ^ 28` rows, and no push goes to a collector of `2 ^ 27` rows. -/
theorem collectorReal_iff (malloc : Allocator RowValue) (cap : Nat)
    (pushes : List (Allocator RowValue × RowBlock)) :
    CollectorReal malloc cap pushes ↔
      (malloc.block (collectBytes cap) = none ∨ cap < 2 ^ 28) ∧
        PushesFit (rowCollectInitWithCap malloc cap) pushes := by
  rw [CollectorReal]
  by_cases hzero : cap = 0
  · -- no block at all
    subst hzero
    have hinit : rowCollectInitWithCap malloc 0 = ⟨none, 0, 0, false⟩ := rfl
    obtain ⟨hreal, hfit⟩ := @pushes_none ⟨none, 0, 0, false⟩ rfl pushes
    rw [hinit]
    exact iff_of_true ⟨fun _ => ⟨nofun, Nat.le_refl 0, nofun⟩, hreal⟩ ⟨.inr (by omega), hfit⟩
  cases hblock : malloc.block (collectBytes cap) with
  | none =>
    have hinit : rowCollectInitWithCap malloc cap = ⟨none, 0, 0, true⟩ := by
      rw [rowCollectInitWithCap, if_neg hzero, hblock]
    obtain ⟨hreal, hfit⟩ := @pushes_none ⟨none, 0, 0, true⟩ rfl pushes
    rw [hinit]
    exact iff_of_true ⟨nofun, hreal⟩ ⟨.inl rfl, hfit⟩
  | some fill =>
    set rc : RowCollect := ⟨some (regrow [] (collectBytes cap / sizeofRowValue) fill), 0, cap,
      false⟩ with hrc
    have hinit : rowCollectInitWithCap malloc cap = rc := by
      rw [rowCollectInitWithCap, if_neg hzero, hblock]
    rw [hinit]
    by_cases hcap : cap < 2 ^ 28
    · have hholds : rc.Holds [] (regrow [] (collectBytes cap / sizeofRowValue) fill) := by
        refine ⟨rfl, ?_, nofun, rfl, Nat.pos_of_ne_zero hzero, hcap, Nat.zero_le _, Nat.zero_le _⟩
        rw [length_regrow, elements_collectBytes hcap]
      rw [and_iff_right (fun _ => hholds.real), and_iff_right (.inr hcap)]
      exact pushesReal_iff hholds pushes
    · refine iff_of_false ?_ ?_
      · rintro ⟨hreal, -⟩
        have hfits := (hreal rfl).fits _ rfl
        rw [length_regrow] at hfits
        simp only [collectBytes, maxColumns, sizeofRowValue, hrc] at hfits
        omega
      · rintro ⟨hnone | hlt, -⟩
        · cases hnone
        · exact hcap hlt

end Runs

/-- The block for `2 ^ 28` rows has no bytes. -/
theorem not_collectorReal : ¬ ∀ malloc cap pushes, 0 < cap → cap < 2 ^ 32 →
    CollectorReal malloc cap pushes := by
  intro h
  have hreal := (h (.ample (.int 0)) (2 ^ 28) [] (by omega) (by omega)).1 rfl
  have hfits := hreal.fits [] rfl
  simp [rowCollectInitWithCap, Allocator.ample, collectBytes, maxColumns, sizeofRowValue] at hfits

end MiniDb
