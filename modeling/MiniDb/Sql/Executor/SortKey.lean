import Mathlib.Data.List.Lex
import Mathlib.Data.Prod.Lex
import MiniDb.Lib.BoundedHeap
import MiniDb.Sql.Executor.Sort

/-! # Sort keys

What a column is sorted by: a number by its value, a text by its bytes, the first that differs
first. `compare_row_values` goes by these keys, forwards or backwards, on rows that have a value of
its type in the column. -/

set_option autoImplicit false

namespace MiniDb

open Lib

/-- The place of a value among the values of its type. -/
def RowValue.sortKey : RowValue → Int ×ₗ List Nat
  | .int v => toLex (v, [])
  | .bigint v => toLex (v, [])
  | .varchar s => toLex (0, s.map UInt8.toNat)

/-- The sort key of a row. -/
def sortKey (colIdx : Nat) (row : RowValues) : Int ×ₗ List Nat :=
  ((row[colIdx]?).map RowValue.sortKey).getD (toLex (0, []))

/-- The sort keys of rows, all of them in order. -/
def sortedKeys (colIdx : Nat) (desc : Bool) (rows : List RowValues) : List (Int ×ₗ List Nat) :=
  (rows.map (sortKey colIdx)).mergeSort fun a b => if desc then decide (b ≤ a) else decide (a ≤ b)

/-- A value of the type of its column; a text ends at its NUL. -/
def RowValue.OfType : ColumnType → RowValue → Prop
  | .int, .int _ => True
  | .bigint, .bigint _ => True
  | .varchar, .varchar s => 0 ∉ s
  | _, _ => False

/-- The row has a value in the column. -/
def HasColumn (type : ColumnType) (colIdx : Nat) (row : RowValues) : Prop :=
  ∃ v, row[colIdx]? = some v ∧ v.OfType type

section

variable {columns : List ColumnMeta} {col : ColumnMeta} {colIdx : Nat} {rows : List RowValues}
  {s t : CString} {a b : Int}

theorem sign_neg_iff : sign a b < 0 ↔ a < b := by
  unfold sign
  split <;> split <;> omega

theorem sign_pos_iff : 0 < sign a b ↔ b < a := by
  unfold sign
  split <;> split <;> omega

theorem toNat_pos_of_ne {c : UInt8} (h : 0 ≠ c) : 0 < c.toNat := by
  apply Nat.pos_of_ne_zero
  intro h0
  exact h (UInt8.toNat_inj.mp h0).symm

/-- `strcmp` compares texts like dictionaries do. -/
theorem strcmp_spec (hs : 0 ∉ s) (ht : 0 ∉ t) :
    (strcmp s t < 0 ↔ s.map UInt8.toNat < t.map UInt8.toNat) ∧
    (0 < strcmp s t ↔ t.map UInt8.toNat < s.map UInt8.toNat) := by
  induction s generalizing t with
  | nil =>
    cases t with
    | nil => simp [strcmp]
    | cons d t =>
      have hd := toNat_pos_of_ne (List.ne_of_not_mem_cons ht)
      refine ⟨iff_of_true ?_ (List.nil_lt_cons _ _), iff_of_false ?_ (List.not_lt_nil _)⟩
      · show -(d.toNat : Int) < 0
        omega
      · show ¬ 0 < -(d.toNat : Int)
        omega
  | cons c s ih =>
    have hc := toNat_pos_of_ne (List.ne_of_not_mem_cons hs)
    cases t with
    | nil =>
      refine ⟨iff_of_false ?_ (List.not_lt_nil _), iff_of_true ?_ (List.nil_lt_cons _ _)⟩
      · show ¬ (c.toNat : Int) < 0
        omega
      · show 0 < (c.toNat : Int)
        omega
    | cons d t =>
      have hrest := ih (List.not_mem_of_not_mem_cons hs) (List.not_mem_of_not_mem_cons ht)
      simp only [strcmp, List.map_cons, List.cons_lt_cons_iff]
      by_cases heq : c = d
      · subst heq
        simpa using hrest
      · have hne : c.toNat ≠ d.toNat := fun h => heq (UInt8.toNat_inj.mp h)
        rw [if_neg heq]
        omega

theorem compareRowValues_of_col (hcol : columns[colIdx]? = some col) (desc : Bool)
    {r r' : RowValues} (h : HasColumn col.type colIdx r) (h' : HasColumn col.type colIdx r') :
    ∃ d, compareRowValues columns colIdx desc r r' = some (if desc then -d else d) ∧
      (d < 0 ↔ sortKey colIdx r < sortKey colIdx r') ∧
      (0 < d ↔ sortKey colIdx r' < sortKey colIdx r) := by
  obtain ⟨v, hv, htype⟩ := h
  obtain ⟨v', hv', htype'⟩ := h'
  simp only [compareRowValues, sortKey, hcol, hv, hv', Option.bind_eq_bind, Option.bind_some,
    Option.map_some, Option.getD_some]
  cases ht : col.type with
  | int =>
    rw [ht] at htype htype'
    match v, htype, v', htype' with
    | .int x, _, .int y, _ =>
      refine ⟨sign x y, rfl, ?_, ?_⟩
      · simp [sign_neg_iff, RowValue.sortKey, Prod.Lex.toLex_lt_toLex]
      · simp [sign_pos_iff, RowValue.sortKey, Prod.Lex.toLex_lt_toLex]
  | bigint =>
    rw [ht] at htype htype'
    match v, htype, v', htype' with
    | .bigint x, _, .bigint y, _ =>
      refine ⟨sign x y, rfl, ?_, ?_⟩
      · simp [sign_neg_iff, RowValue.sortKey, Prod.Lex.toLex_lt_toLex]
      · simp [sign_pos_iff, RowValue.sortKey, Prod.Lex.toLex_lt_toLex]
  | varchar =>
    rw [ht] at htype htype'
    match v, htype, v', htype' with
    | .varchar x, hx, .varchar y, hy =>
      obtain ⟨hlt, hgt⟩ := strcmp_spec hx hy
      refine ⟨strcmp x y, rfl, ?_, ?_⟩
      · simp [hlt, RowValue.sortKey, Prod.Lex.toLex_lt_toLex]
      · simp [hgt, RowValue.sortKey, Prod.Lex.toLex_lt_toLex]

/-- Ascending, the comparison goes by the sort key. -/
theorem compareRowValues_asc (hcol : columns[colIdx]? = some col) :
    ComparesBy (compareRowValues columns colIdx false) (sortKey colIdx)
      (HasColumn col.type colIdx) := by
  intro r r' h h'
  exact compareRowValues_of_col hcol false h h'

/-- Descending, it goes by the key in the opposite order. -/
theorem compareRowValues_desc (hcol : columns[colIdx]? = some col) :
    ComparesBy (compareRowValues columns colIdx true)
      (fun row => OrderDual.toDual (sortKey colIdx row)) (HasColumn col.type colIdx) := by
  intro r r' h h'
  obtain ⟨d, hd, hlt, hgt⟩ := compareRowValues_of_col hcol true h h'
  rw [if_pos rfl] at hd
  refine ⟨-d, hd, ?_, ?_⟩
  · rw [OrderDual.toDual_lt_toDual, ← hgt]
    omega
  · rw [OrderDual.toDual_lt_toDual, ← hlt]
    omega

theorem sortedKeys_perm (colIdx : Nat) (desc : Bool) (rows : List RowValues) :
    (sortedKeys colIdx desc rows).Perm (rows.map (sortKey colIdx)) :=
  List.mergeSort_perm _ _

theorem sortedKeys_asc (colIdx : Nat) (rows : List RowValues) :
    (sortedKeys colIdx false rows).Pairwise (· ≤ ·) :=
  pairwise_mergeSort_key id _

theorem sortedKeys_desc (colIdx : Nat) (rows : List RowValues) :
    ((sortedKeys colIdx true rows).map OrderDual.toDual).Pairwise (· ≤ ·) := by
  rw [List.pairwise_map]
  exact pairwise_mergeSort_key OrderDual.toDual _

end

/-! ## Sorting a range -/

/-- The rows from `left` to `right`. -/
def rowRange (rows : List RowValues) (left right : Nat) : List RowValues :=
  (rows.drop left).take (right + 1 - left)

/-- The sort of the rows from `left` to `right` ends with `rows'`: it touches no row of another
index, and leaves the range in the order of the comparison. -/
structure SortsRange (columns : List ColumnMeta) (colIdx : Nat) (desc : Bool)
    (rows : List RowValues) (left right fuel : Nat) (rows' : List RowValues) : Prop where
  run : quicksortRowBlocks (compareRowValues columns colIdx desc) fuel rows left right = some rows'
  inside : ∀ i ∈ quicksortIndices (compareRowValues columns colIdx desc) fuel rows left right,
    (left : Int) ≤ i ∧ i ≤ right
  outside : ∀ n, n < left ∨ right < n → rows'[n]? = rows[n]?
  permuted : (rowRange rows' left right).Perm (rowRange rows left right)
  sorted : ∀ (m n : Nat) (a b : RowValues), left ≤ m → m ≤ n → n ≤ right → rows'[m]? = some a →
    rows'[n]? = some b → ∃ d, compareRowValues columns colIdx desc a b = some d ∧ d ≤ 0

section

variable {κ : Type} [LinearOrder κ] {key : RowValues → κ} {P : RowValues → Prop}
  {columns : List ColumnMeta} {col : ColumnMeta} {colIdx : Nat} {desc : Bool}
  {rows : List RowValues} {left right : Nat}

/-- Whatever the comparison goes by. -/
theorem ComparesBy.sortsRange (hcmp : ComparesBy (compareRowValues columns colIdx desc) key P)
    (hle : left ≤ right) (hright : right < rows.length) (hsize : right < sortableRows)
    (hrows : AllBetween P left right rows) {fuel : Nat} (hfuel : right - left < fuel) :
    ∃ rows', SortsRange columns colIdx desc rows left right fuel rows' := by
  obtain ⟨rows', hrun, hre, hsorted, hidx⟩ :=
    quicksortRowBlocks_spec hcmp fuel hrows (by omega) (by omega) (by omega) (by omega) (by omega)
  refine ⟨rows', hrun, hidx, fun n hn => hre.outside n (by omega), ?_, ?_⟩
  · exact hre.part_perm
  · intro m n a b hm hmn hn ha hb
    have hP := hre.allBetween hrows
    obtain ⟨d, hd, -, hpos⟩ :=
      hcmp a b (hP m a (by omega) (by omega) ha) (hP n b (by omega) (by omega) hb)
    have hkey : key a ≤ key b := hsorted m n a b (by omega) hmn (by omega) ha hb
    exact ⟨d, hd, not_lt.mp fun h => absurd (hpos.mp h) (not_lt.mpr hkey)⟩

/-- **The quicksort** is a sort of its range exactly when the product of the last index with
`MAX_COLUMNS` is an `int`. -/
theorem quicksortRowBlocks_sorts_iff (hcol : columns[colIdx]? = some col) (desc : Bool)
    (hle : left ≤ right) (hright : right < rows.length)
    (hrows : AllBetween (HasColumn col.type colIdx) left right rows) :
    (∀ fuel, right - left < fuel →
      ∃ rows', SortsRange columns colIdx desc rows left right fuel rows') ↔
      right < sortableRows := by
  constructor
  · intro h
    obtain ⟨rows', hsorts⟩ := h (right - left + 1) (by omega)
    by_contra hsize
    have hrun := hsorts.run
    rw [quicksortRowBlocks_none (by omega) (by omega)] at hrun
    cases hrun
  · intro hsize fuel hfuel
    cases desc with
    | false => exact (compareRowValues_asc hcol).sortsRange hle hright hsize hrows hfuel
    | true => exact (compareRowValues_desc hcol).sortsRange hle hright hsize hrows hfuel

end

theorem hasColumn_int (v : Int) : HasColumn .int 0 [.int v] :=
  ⟨.int v, rfl, trivial⟩

theorem quicksortRowBlocks_sorts_three :
    (∀ fuel, 2 - 0 < fuel → ∃ rows', SortsRange [⟨[], .int, 4, 0, false⟩] 0 true
      [[.int 1], [.int 2], [.int 1]] 0 2 fuel rows') ↔ 2 < sortableRows := by
  apply quicksortRowBlocks_sorts_iff rfl true (by decide) (by decide)
  intro n a _ _ ha
  have hmem := List.mem_of_getElem? ha
  simp only [List.mem_cons, List.not_mem_nil, or_false] at hmem
  rcases hmem with rfl | rfl | rfl <;> exact hasColumn_int _

/-- An array of `2 ^ 27 + 1` rows is not sorted. -/
theorem not_quicksortRowBlocks_sorts :
    ¬ ∀ (columns : List ColumnMeta) (col : ColumnMeta) (colIdx : Nat) (desc : Bool)
      (rows : List RowValues) (left right : Nat), columns[colIdx]? = some col → left ≤ right →
      right < rows.length → AllBetween (HasColumn col.type colIdx) left right rows →
      ∃ fuel rows', SortsRange columns colIdx desc rows left right fuel rows' := by
  intro h
  obtain ⟨fuel, rows', hsorts⟩ := h [⟨[], .int, 4, 0, false⟩] _ 0 false
    (List.replicate (sortableRows + 1) [.int 0]) 0 sortableRows rfl (Nat.zero_le _)
    (by rw [List.length_replicate]; omega) (fun n a _ _ ha => by
      rw [(List.mem_replicate.mp (List.mem_of_getElem? ha)).2]
      exact hasColumn_int 0)
  have hrun := hsorts.run
  rw [quicksortRowBlocks_none (by omega) (le_refl _)] at hrun
  cases hrun

end MiniDb
