import Mathlib.Data.List.TakeWhile
import MiniDb.Storage.RowCodec

/-! # The row codec, both ways

Behind `schema_compute_layout` a row of values is written inside its buffer and read back as it was,
its texts cut to their columns; and writing what has been read gives the same bytes. -/

set_option autoImplicit false

namespace MiniDb

open Lib

/-- What a `row_value_t` can hold: a 32-bit or 64-bit integer, or a text that ends inside
`str_val`. -/
def RowValue.Fits : RowValue → Prop
  | .int v => -2 ^ 31 ≤ v ∧ v < 2 ^ 31
  | .bigint v => -2 ^ 63 ≤ v ∧ v < 2 ^ 63
  | .varchar s => 0 ∉ s ∧ s.length < strValSize

/-- The value with a text cut to what its column keeps. -/
def RowValue.cut (c : ColumnMeta) : RowValue → RowValue
  | .varchar s => .varchar (s.take (c.size - 1))
  | v => v

/-! ## Layout -/

section

variable {hdr : DbHeader}

theorem soundSchema_layout (hsound : ∀ c ∈ hdr.columns, c.Sound)
    (hsize : sizeSum hdr.columns < 65536) : SoundSchema (schemaComputeLayout hdr) := by
  have hbare := layoutFrom_bare 0 hdr.columns
  obtain ⟨hcont, hend⟩ := @layoutFrom_spec hdr.columns 0 (by omega)
  refine ⟨?_, hcont, ?_⟩
  · -- the layout only sets the offsets
    intro c hc
    have hmem : c.bare ∈ hdr.columns.map (·.bare) := by
      rw [← hbare]
      exact List.mem_map.mpr ⟨c, hc, rfl⟩
    obtain ⟨d, hd, heq⟩ := List.mem_map.mp hmem
    have hd' := hsound d hd
    have htype : d.type = c.type := congrArg (·.type) heq
    have hsizes : d.size = c.size := congrArg (·.size) heq
    unfold ColumnMeta.Sound at hd' ⊢
    rw [← htype, ← hsizes]
    exact hd'
  · show (layoutFrom 0 hdr.columns).2 = _
    rw [hend, Nat.zero_add]
    exact (sizeSum_of_bare hbare).symm

end

/-! ## Values -/

section

variable {c : ColumnMeta} {v : RowValue} {cols : List ColumnMeta} {values : List RowValue}

theorem storedText_eq_take {s : CString} (h : 0 ∉ s) (size : Nat) :
    storedText size s = s.take (size - 1) := by
  rw [storedText]
  apply List.takeWhile_eq_self_iff.mpr
  intro b hb
  have hne : b ≠ 0 := fun hz => h (hz ▸ List.mem_of_mem_take hb)
  simpa using hne

/-- A value that fits is stored as it is, cut to its column. -/
theorem storedValue_eq_cut (h : v.Fits) : storedValue c v = v.cut c := by
  cases v with
  | int v =>
    obtain ⟨hlo, hhi⟩ := h
    have hv : v.bmod (2 ^ 32) = v := Int.bmod_eq_of_le (by omega) (by omega)
    rw [storedValue, hv]
    rfl
  | bigint v =>
    obtain ⟨hlo, hhi⟩ := h
    have hv : v.bmod (2 ^ 64) = v := Int.bmod_eq_of_le (by omega) (by omega)
    rw [storedValue, hv]
    rfl
  | varchar s => exact congrArg RowValue.varchar (storedText_eq_take h.1 c.size)

theorem storedRow_eq_cut (h : ∀ v ∈ values, v.Fits) :
    storedRow cols values = List.zipWith (fun c v => v.cut c) cols values := by
  induction cols generalizing values with
  | nil => rfl
  | cons c cols ih =>
    cases values with
    | nil => rfl
    | cons v values =>
      have hrest := ih fun w hw => h w (List.mem_cons_of_mem _ hw)
      rw [storedRow] at hrest ⊢
      rw [List.zipWith_cons_cons, List.zipWith_cons_cons, hrest,
        storedValue_eq_cut (h v List.mem_cons_self)]

/-- A value and its cut have the same bytes. -/
theorem columnBytes_cut : columnBytes c (v.cut c) = columnBytes c v := by
  cases v with
  | varchar s => simp only [RowValue.cut, columnBytes, List.take_take, Nat.min_self]
  | _ => rfl

theorem encodeRow_cut :
    encodeRow cols (List.zipWith (fun c v => v.cut c) cols values) = encodeRow cols values := by
  induction cols generalizing values with
  | nil => rfl
  | cons c cols ih =>
    cases values with
    | nil => rfl
    | cons v values => rw [List.zipWith_cons_cons, encodeRow, encodeRow, ih, columnBytes_cut]

end

/-! ## Round trip -/

/-- **Row codec round trip.** Every access of the two functions lies inside the row and inside the
text of a value; reading gives back what was written, cut to the columns; and writing that again
gives the same row. -/
theorem rowCodec_roundTrip (hdr : DbHeader) (values : List RowValue)
    (hsound : ∀ c ∈ hdr.columns, c.Sound) (hsize : sizeSum hdr.columns < 65536)
    (htyped : WellTyped (schemaComputeLayout hdr).columns values) (hfits : ∀ v ∈ values, v.Fits) :
    ∃ row, rowSerialize (schemaComputeLayout hdr) values = some row ∧
      row.length = (schemaComputeLayout hdr).rowSize ∧
      rowDeserialize (schemaComputeLayout hdr) row =
        some (List.zipWith (fun c v => v.cut c) (schemaComputeLayout hdr).columns values) ∧
      ∀ values', rowDeserialize (schemaComputeLayout hdr) row = some values' →
        rowSerialize (schemaComputeLayout hdr) values' = some row := by
  have hs := soundSchema_layout hsound hsize
  have hread := hs.rowDeserialize htyped
  rw [storedRow_eq_cut hfits] at hread
  refine ⟨_, hs.rowSerialize htyped, hs.length_encodeRow htyped, hread, ?_⟩
  intro values' hvalues'
  obtain rfl := Option.some.inj (hread.symm.trans hvalues')
  have htyped' := storedRow_wellTyped htyped
  rw [storedRow_eq_cut hfits] at htyped'
  rw [hs.rowSerialize htyped', encodeRow_cut]

theorem rowCodec_roundTrip_users :
    ∃ hdr : DbHeader, ∃ row,
      rowSerialize (schemaComputeLayout hdr) [.bigint 1, .varchar (cstr "Alice"), .int (-25)] =
        some row ∧
      rowDeserialize (schemaComputeLayout hdr) row =
        some [.bigint 1, .varchar (cstr "Ali"), .int (-25)] := by
  let hdr : DbHeader :=
    { (pagerOpenCreate 4096).header with
      columns := [⟨cstr "id", .bigint, 8, 0, true⟩, ⟨cstr "name", .varchar, 4, 0, false⟩,
        ⟨cstr "age", .int, 4, 0, false⟩] }
  obtain ⟨row, hwrite, -, hread, -⟩ := rowCodec_roundTrip hdr
    [.bigint 1, .varchar (cstr "Alice"), .int (-25)] (by decide) (by decide)
    (.cons trivial (.cons trivial (.cons trivial .nil))) (by
      intro v hv
      simp only [List.mem_cons, List.not_mem_nil, or_false] at hv
      rcases hv with rfl | rfl | rfl
      · exact ⟨by decide, by decide⟩
      · exact ⟨by decide, by decide⟩
      · exact ⟨by decide, by decide⟩)
  exact ⟨hdr, row, hwrite, hread.trans (by decide)⟩

end MiniDb
