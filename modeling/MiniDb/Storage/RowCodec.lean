import Mathlib.Algebra.GroupWithZero.Nat
import Mathlib.Data.Option.Basic
import MiniDb.Storage.Schema

/-! # Rows and their bytes

With sound column sizes and an offset that does not wrap, the columns of a row lie side by side: the
bytes of a row are the bytes of its values in order, each padded to its column. Reading such a row
back gives the values as they are stored, which for a text is its first `size - 1` characters. -/

set_option autoImplicit false

namespace MiniDb

open Lib

/-! ## Layout -/

/-- The sum of the column sizes. -/
def sizeSum (cols : List ColumnMeta) : Nat := (cols.map (·.size)).sum

/-- The columns follow each other without a gap from `off` on. -/
def Contiguous : Nat → List ColumnMeta → Prop
  | _, [] => True
  | off, c :: cs => c.offset = off ∧ Contiguous (off + c.size) cs

/-- The column without its place in the row. -/
def ColumnMeta.bare (c : ColumnMeta) : ColumnMeta := { c with offset := 0 }

/-- A column whose size is right for its type; a text has room for its NUL and fits a `str_val`. -/
def ColumnMeta.Sound (c : ColumnMeta) : Prop :=
  match c.type with
  | .int => c.size = 4
  | .bigint => c.size = 8
  | .varchar => 1 ≤ c.size ∧ c.size ≤ 255

instance (c : ColumnMeta) : Decidable c.Sound := by
  unfold ColumnMeta.Sound
  split <;> infer_instance

section

variable {cols : List ColumnMeta} {off : Nat}

@[simp] theorem sizeSum_nil : sizeSum [] = 0 := rfl

@[simp] theorem sizeSum_cons (c : ColumnMeta) : sizeSum (c :: cols) = c.size + sizeSum cols := rfl

theorem layoutFrom_bare (off : Nat) (cols : List ColumnMeta) :
    (layoutFrom off cols).1.map (·.bare) = cols.map (·.bare) := by
  induction cols generalizing off with
  | nil => rfl
  | cons c cols ih =>
    rw [layoutFrom, List.map_cons, List.map_cons, ih]
    rfl

theorem sizeSum_of_bare {cols' : List ColumnMeta} (h : cols'.map (·.bare) = cols.map (·.bare)) :
    sizeSum cols' = sizeSum cols := by
  have hsize : ∀ l : List ColumnMeta, sizeSum l = ((l.map (·.bare)).map (·.size)).sum := by
    intro l
    rw [sizeSum, List.map_map]
    rfl
  rw [hsize, hsize, h]

/-- While the 16-bit offset does not wrap, the columns lie side by side. -/
theorem layoutFrom_spec (h : off + sizeSum cols < 65536) :
    Contiguous off (layoutFrom off cols).1 ∧ (layoutFrom off cols).2 = off + sizeSum cols := by
  induction cols generalizing off with
  | nil => exact ⟨trivial, rfl⟩
  | cons c cols ih =>
    rw [sizeSum_cons] at h
    have hwrap : u16 ((off : Int) + c.size) = off + c.size := by
      simp only [u16]
      omega
    obtain ⟨hcont, hend⟩ := @ih (off + c.size) (by omega)
    rw [layoutFrom, hwrap]
    refine ⟨⟨rfl, hcont⟩, ?_⟩
    rw [hend, sizeSum_cons]
    omega

/-- The place of a column is the sum of the sizes in front of it. -/
theorem Contiguous.offset_eq (h : Contiguous off cols) {i : Nat} {c : ColumnMeta}
    (hc : cols[i]? = some c) : c.offset = off + sizeSum (cols.take i) := by
  induction cols generalizing off i with
  | nil => simp at hc
  | cons d cols ih =>
    obtain ⟨hd, hrest⟩ := h
    rcases i with _ | i
    · simp only [List.getElem?_cons_zero, Option.some.injEq] at hc
      subst hc
      simpa using hd
    · have hoff := ih hrest (by simpa using hc)
      rw [hoff, List.take_succ_cons, sizeSum_cons]
      omega

theorem sizeSum_take_succ {i : Nat} {c : ColumnMeta} (hc : cols[i]? = some c) :
    sizeSum (cols.take (i + 1)) = sizeSum (cols.take i) + c.size := by
  rw [List.take_add_one, hc]
  simp [sizeSum]

theorem sizeSum_take_mono (cols : List ColumnMeta) {i j : Nat} (h : i ≤ j) :
    sizeSum (cols.take i) ≤ sizeSum (cols.take j) := by
  obtain ⟨k, rfl⟩ := Nat.exists_eq_add_of_le h
  rw [List.take_add]
  simp [sizeSum]

/-- Columns side by side do not overlap. -/
theorem Contiguous.disjoint (h : Contiguous off cols) {i j : Nat} {c d : ColumnMeta} (hij : i < j)
    (hc : cols[i]? = some c) (hd : cols[j]? = some d) : c.offset + c.size ≤ d.offset := by
  have hmono := sizeSum_take_mono cols (Nat.succ_le_of_lt hij)
  rw [sizeSum_take_succ hc] at hmono
  rw [h.offset_eq hc, h.offset_eq hd]
  omega

theorem Contiguous.inside (h : Contiguous off cols) {i : Nat} {c : ColumnMeta}
    (hc : cols[i]? = some c) : c.offset + c.size ≤ off + sizeSum cols := by
  have hlen := (List.getElem?_eq_some_iff.mp hc).1
  have hmono := sizeSum_take_mono cols (Nat.succ_le_of_lt hlen)
  rw [sizeSum_take_succ hc, List.take_length] at hmono
  rw [h.offset_eq hc]
  omega

end

/-! ## Integers -/

theorem length_leBytes (n len : Nat) : (leBytes n len).length = len := by
  induction len generalizing n with
  | zero => rfl
  | succ len ih => simp [leBytes, ih]

theorem leValue_leBytes (n len : Nat) : leValue (leBytes n len) = n % 256 ^ len := by
  induction len generalizing n with
  | zero => simp [leBytes, leValue, Nat.mod_one]
  | succ len ih =>
    have hbyte : (n % 256).toUInt8.toNat = n % 256 := by
      simp
    rw [leBytes, leValue, ih, hbyte, Nat.pow_succ, Nat.mul_comm (256 ^ len), Nat.mod_mul]

/-- An `int32_t` is read back modulo 2^32. -/
theorem leValue_int32Bytes (v : Int) :
    (leValue (int32Bytes v) : Int).bmod (2 ^ 32) = v.bmod (2 ^ 32) := by
  have hlt : toU32 v < 256 ^ 4 := by
    have := Int.emod_lt_of_pos v (show (0 : Int) < 2 ^ 32 by decide)
    rw [toU32, show (256 ^ 4 : Nat) = 2 ^ 32 by decide]
    omega
  rw [int32Bytes, leValue_leBytes, Nat.mod_eq_of_lt hlt]
  exact bmod_toNat_emod v (m := 2 ^ 32) (Nat.two_pow_pos 32)

/-- An `int64_t` is read back modulo 2^64. -/
theorem leValue_int64Bytes (v : Int) : toI64 (leValue (int64Bytes v)) = v.bmod (2 ^ 64) := by
  have hlt : toU64 v < 256 ^ 8 := by
    have := Int.emod_lt_of_pos v (show (0 : Int) < 2 ^ 64 by decide)
    rw [toU64, show (256 ^ 8 : Nat) = 2 ^ 64 by decide]
    omega
  rw [int64Bytes, leValue_leBytes, Nat.mod_eq_of_lt hlt]
  exact bmod_toNat_emod v (m := 2 ^ 64) (Nat.two_pow_pos 64)

/-! ## Values and their bytes -/

/-- The value is of the member that the column's type selects. -/
def RowValue.HasType : RowValue → ColumnType → Prop
  | .int _, .int => True
  | .bigint _, .bigint => True
  | .varchar _, .varchar => True
  | _, _ => False

/-- A row has one value for each column, of its type. -/
def WellTyped (cols : List ColumnMeta) (values : List RowValue) : Prop :=
  List.Forall₂ (fun c v => RowValue.HasType v c.type) cols values

/-- The text as far as the column keeps it. -/
def storedText (size : Nat) (s : CString) : CString := (s.take (size - 1)).takeWhile (· != 0)

/-- The value as it is read back. -/
def storedValue (c : ColumnMeta) : RowValue → RowValue
  | .int v => .int (v.bmod (2 ^ 32))
  | .bigint v => .bigint (v.bmod (2 ^ 64))
  | .varchar s => .varchar (storedText c.size s)

/-- The bytes of a value in its column. -/
def columnBytes (c : ColumnMeta) : RowValue → List UInt8
  | .int v => int32Bytes v
  | .bigint v => int64Bytes v
  | .varchar s => s.take (c.size - 1) ++ List.replicate (c.size - (s.take (c.size - 1)).length) 0

/-- The bytes of a row: those of its values, one after the other. -/
def encodeRow : List ColumnMeta → List RowValue → List UInt8
  | c :: cols, v :: values => columnBytes c v ++ encodeRow cols values
  | _, _ => []

/-- The values of a row as they are read back. -/
def storedRow (cols : List ColumnMeta) (values : List RowValue) : List RowValue :=
  List.zipWith storedValue cols values

section

variable {c : ColumnMeta} {v : RowValue} {cols : List ColumnMeta} {values : List RowValue}

theorem length_columnBytes (hc : c.Sound) (hv : v.HasType c.type) :
    (columnBytes c v).length = c.size := by
  unfold ColumnMeta.Sound at hc
  cases v <;> cases ht : c.type <;> simp only [ht, RowValue.HasType] at hv hc
  · simp [columnBytes, int32Bytes, length_leBytes, hc]
  · simp [columnBytes, int64Bytes, length_leBytes, hc]
  · simp only [columnBytes, List.length_append, List.length_take, List.length_replicate]
    omega

theorem length_encodeRow (hc : ∀ c ∈ cols, c.Sound) (hv : WellTyped cols values) :
    (encodeRow cols values).length = sizeSum cols := by
  induction hv with
  | nil => rfl
  | cons hcv _ ih =>
    rw [encodeRow, List.length_append, length_columnBytes (hc _ (by simp)) hcv,
      ih (fun d hd => hc d (by simp [hd])), sizeSum_cons]

/-- Writing into the zeroed rest of a buffer. -/
theorem storeBytes_zeros (done src : List UInt8) (n : Nat) :
    storeBytes (done ++ List.replicate (src.length + n) 0) done.length src =
      some (done ++ src ++ List.replicate n 0) := by
  rw [storeBytes, guard, if_pos (by simp)]
  simp [splice, List.drop_append]

/-- One column is written behind those before it. -/
theorem serializeColumn_eq (hc : c.Sound) (hv : v.HasType c.type) {done : List UInt8}
    (hoff : c.offset = done.length) (n : Nat) :
    serializeColumn c v (done ++ List.replicate (c.size + n) 0) =
      some (done ++ columnBytes c v ++ List.replicate n 0) := by
  have hlen := length_columnBytes hc hv
  unfold ColumnMeta.Sound at hc
  cases v <;> cases ht : c.type <;> simp only [ht, RowValue.HasType] at hv hc
  · simp only [serializeColumn, ht, hoff]
    rw [← hlen]
    exact storeBytes_zeros _ _ _
  · simp only [serializeColumn, ht, hoff]
    rw [← hlen]
    exact storeBytes_zeros _ _ _
  · rename_i s
    simp only [serializeColumn, ht, hoff]
    -- a short text is copied whole, a long one cut; both leave the padding as it is
    have hput : ∀ t : CString, t = s.take (c.size - 1) →
        storeBytes (done ++ List.replicate (c.size + n) 0) done.length t =
          some (done ++ columnBytes c (.varchar s) ++ List.replicate n 0) := by
      rintro t rfl
      have hle : (s.take (c.size - 1)).length ≤ c.size := by
        rw [List.length_take]
        omega
      have hn : c.size + n =
          (s.take (c.size - 1)).length + (c.size - (s.take (c.size - 1)).length + n) := by
        omega
      rw [hn, storeBytes_zeros, columnBytes, List.replicate_add]
      simp only [List.append_assoc]
    split
    · exact hput s (List.take_of_length_le (by omega)).symm
    · rw [if_neg (by omega)]
      exact hput _ rfl

theorem serializeColumns_eq (hc : ∀ c ∈ cols, c.Sound) (hv : WellTyped cols values)
    {done : List UInt8} (hcont : Contiguous done.length cols) :
    serializeColumns cols values (done ++ List.replicate (sizeSum cols) 0) =
      some (done ++ encodeRow cols values) := by
  induction hv generalizing done with
  | nil => simp [serializeColumns, encodeRow]
  | @cons c v cols values hcv hrest ih =>
    obtain ⟨hoff, hcont⟩ := hcont
    have hlen := length_columnBytes (hc c (by simp)) hcv
    rw [serializeColumns, sizeSum_cons, serializeColumn_eq (hc c (by simp)) hcv hoff,
      Option.bind_eq_bind, Option.bind_some,
      ih (fun d hd => hc d (by simp [hd])) (by simpa [hlen] using hcont), encodeRow,
      List.append_assoc]

/-! ## The length of a row -/

theorem length_storeBytes {buf buf' src : List UInt8} {off : Nat}
    (h : storeBytes buf off src = some buf') : buf'.length = buf.length := by
  rw [storeBytes, guard] at h
  split at h
  · rename_i hle
    cases h
    exact length_splice hle
  · cases h

theorem length_serializeColumn {buf buf' : List UInt8} (h : serializeColumn c v buf = some buf') :
    buf'.length = buf.length := by
  unfold serializeColumn at h
  split at h
  · exact length_storeBytes h
  · exact length_storeBytes h
  · split at h
    · exact length_storeBytes h
    · split at h
      · cases h
      · exact length_storeBytes h
  · cases h

/-- Whatever the schema, a row that is written has the row size. -/
theorem length_rowSerialize {hdr : DbHeader} {row : List UInt8}
    (h : rowSerialize hdr values = some row) : row.length = hdr.rowSize := by
  have hlen : ∀ (cols : List ColumnMeta) (values : List RowValue) (buf buf' : List UInt8),
      serializeColumns cols values buf = some buf' → buf'.length = buf.length := by
    intro cols
    induction cols with
    | nil =>
      intro values buf buf' h
      cases h
      rfl
    | cons col cols ih =>
      intro values buf buf' h
      cases values with
      | nil => cases h
      | cons v values =>
        obtain ⟨buf₁, hcol, hrest⟩ := Option.bind_eq_some_iff.mp h
        exact (ih values buf₁ buf' hrest).trans (length_serializeColumn hcol)
  rw [hlen _ _ _ _ h, List.length_replicate]

/-- A row is not written where a text has no room for its NUL. -/
theorem varchar_pos_of_serialize {hdr : DbHeader} {row : List UInt8}
    (h : rowSerialize hdr values = some row) :
    ∀ c ∈ hdr.columns, c.type = .varchar → 1 ≤ c.size := by
  have hall : ∀ (cols : List ColumnMeta) (values : List RowValue) (buf buf' : List UInt8),
      serializeColumns cols values buf = some buf' →
        ∀ c ∈ cols, c.type = .varchar → 1 ≤ c.size := by
    intro cols
    induction cols with
    | nil => nofun
    | cons col cols ih =>
      intro values buf buf' h c hc ht
      cases values with
      | nil => cases h
      | cons v values =>
        obtain ⟨buf₁, hcol, hrest⟩ := Option.bind_eq_some_iff.mp h
        rcases List.mem_cons.mp hc with rfl | hc
        · by_contra hzero
          have hsize : c.size = 0 := by omega
          unfold serializeColumn at hcol
          cases v <;> simp [ht, hsize] at hcol
        · exact ih values buf₁ buf' hrest c hc ht
  exact hall _ _ _ _ h

/-! ## Reading back -/

theorem loadBytes_eq (pre src post : List UInt8) :
    loadBytes (pre ++ src ++ post) pre.length src.length = some src := by
  rw [loadBytes, guard, if_pos (by simp)]
  simp [slice]

theorem takeWhile_padding (s : CString) (n : Nat) :
    (s ++ List.replicate n 0).takeWhile (· != 0) = s.takeWhile (· != 0) := by
  induction s with
  | nil =>
    cases n with
    | zero => rfl
    | succ n => simp [List.replicate_succ]
  | cons b s ih => simp [List.takeWhile_cons, ih]

theorem deserializeColumn_eq (hc : c.Sound) (hv : v.HasType c.type) {pre post : List UInt8}
    (hoff : c.offset = pre.length) :
    deserializeColumn c (pre ++ columnBytes c v ++ post) = some (storedValue c v) := by
  have hlen := length_columnBytes hc hv
  unfold ColumnMeta.Sound at hc
  cases v <;> cases ht : c.type <;> simp only [ht, RowValue.HasType] at hv hc
  · rename_i v
    have hload := loadBytes_eq pre (int32Bytes v) post
    rw [show (int32Bytes v).length = 4 from hlen.trans hc] at hload
    simp only [deserializeColumn, ht, hoff, columnBytes, hload, Option.bind_eq_bind,
      Option.bind_some, leValue_int32Bytes, storedValue]
    rfl
  · rename_i v
    have hload := loadBytes_eq pre (int64Bytes v) post
    rw [show (int64Bytes v).length = 8 from hlen.trans hc] at hload
    simp only [deserializeColumn, ht, hoff, columnBytes, hload, Option.bind_eq_bind,
      Option.bind_some, leValue_int64Bytes, storedValue]
    rfl
  · rename_i s
    have hload := loadBytes_eq pre (columnBytes c (.varchar s)) post
    rw [hlen] at hload
    simp only [deserializeColumn, ht, hoff, hload, Option.bind_eq_bind, Option.bind_some]
    rw [guard, if_pos (by simp only [strValSize]; omega)]
    simp [columnBytes, storedValue, storedText, takeWhile_padding]

theorem deserializeColumns_eq (hc : ∀ c ∈ cols, c.Sound) (hv : WellTyped cols values)
    {pre : List UInt8} (hcont : Contiguous pre.length cols) :
    cols.mapM (fun c => deserializeColumn c (pre ++ encodeRow cols values)) =
      some (storedRow cols values) := by
  induction hv generalizing pre with
  | nil => rfl
  | @cons c v cols values hcv hrest ih =>
    obtain ⟨hoff, hcont⟩ := hcont
    have hlen := length_columnBytes (hc c (by simp)) hcv
    have hpre : Contiguous (pre ++ columnBytes c v).length cols := by simpa [hlen] using hcont
    have htail := ih (fun d hd => hc d (by simp [hd])) hpre
    rw [List.mapM_cons, encodeRow, ← List.append_assoc, deserializeColumn_eq (hc c (by simp)) hcv hoff,
      htail]
    rfl

end

/-! ## Whole rows -/

/-- A schema that rows can be written and read with. -/
structure SoundSchema (hdr : DbHeader) : Prop where
  sound : ∀ c ∈ hdr.columns, c.Sound
  contiguous : Contiguous 0 hdr.columns
  rowSize : hdr.rowSize = sizeSum hdr.columns

section

variable {hdr : DbHeader} {values : List RowValue}

theorem SoundSchema.rowSerialize (h : SoundSchema hdr) (hv : WellTyped hdr.columns values) :
    rowSerialize hdr values = some (encodeRow hdr.columns values) := by
  rw [MiniDb.rowSerialize, h.rowSize]
  exact serializeColumns_eq h.sound hv (show Contiguous [].length hdr.columns from h.contiguous)

theorem SoundSchema.length_encodeRow (h : SoundSchema hdr) (hv : WellTyped hdr.columns values) :
    (encodeRow hdr.columns values).length = hdr.rowSize := by
  rw [MiniDb.length_encodeRow h.sound hv, h.rowSize]

theorem SoundSchema.rowDeserialize (h : SoundSchema hdr) (hv : WellTyped hdr.columns values) :
    rowDeserialize hdr (encodeRow hdr.columns values) = some (storedRow hdr.columns values) :=
  deserializeColumns_eq h.sound hv (show Contiguous [].length hdr.columns from h.contiguous)

theorem storedRow_wellTyped {cols : List ColumnMeta} (hv : WellTyped cols values) :
    WellTyped cols (storedRow cols values) := by
  induction hv with
  | nil => exact .nil
  | @cons c v cols values hcv hrest ih =>
    refine .cons ?_ ih
    cases v <;> cases hc : c.type <;> simp_all [RowValue.HasType, storedValue]

end

end MiniDb
