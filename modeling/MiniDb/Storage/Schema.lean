import MiniDb.Lib.Bytes
import MiniDb.Sql.CText
import MiniDb.Storage.Heap.Basic

/-! # Row layout

`schema.c`: where the columns lie in a row, and the way from values to row bytes and back. A row is
written into a buffer of `row_size` bytes and read from one; a `memcpy` that leaves the buffer, or
that overruns the 256 bytes of a `str_val`, has no defined outcome. -/

set_option autoImplicit false

namespace MiniDb

open Lib

/-- `row_value_t`, by the member that the column's type selects. -/
inductive RowValue where
  | int (v : Int)
  | bigint (v : Int)
  | varchar (s : CString)
  deriving DecidableEq, Repr

/-- The member after `memset(values, 0, ...)`. -/
def ColumnType.zero : ColumnType → RowValue
  | .int => .int 0
  | .bigint => .bigint 0
  | .varchar => .varchar []

/-- Size of the text in a `str_val`, its NUL included. -/
def strValSize : Nat := 256

/-! ## Little-endian integers -/

/-- The `len` low bytes of a number, lowest first. -/
def leBytes (n : Nat) : (len : Nat) → List UInt8
  | 0 => []
  | len + 1 => (n % 256).toUInt8 :: leBytes (n / 256) len

/-- The number with these bytes. -/
def leValue : List UInt8 → Nat
  | [] => 0
  | b :: bs => b.toNat + 256 * leValue bs

/-- The bytes of an `int32_t`. -/
def int32Bytes (v : Int) : List UInt8 := leBytes (toU32 v) 4

/-- The bytes of an `int64_t`. -/
def int64Bytes (v : Int) : List UInt8 := leBytes (toU64 v) 8

/-! ## Layout -/

/-- The loop of `schema_compute_layout`: the columns with their offsets, and the offset behind. -/
def layoutFrom (offset : Nat) : List ColumnMeta → List ColumnMeta × Nat
  | [] => ([], offset)
  | c :: cs =>
    let r := layoutFrom (u16 (offset + c.size)) cs
    ({ c with offset } :: r.1, r.2)

/-- `schema_compute_layout`. -/
def schemaComputeLayout (hdr : DbHeader) : DbHeader :=
  let r := layoutFrom 0 hdr.columns
  { hdr with columns := r.1, rowSize := r.2 }

/-! ## Serialization -/

/-- `memcpy(buf + off, src, strlen)` into the row buffer. -/
def storeBytes (buf : List UInt8) (off : Nat) (src : List UInt8) : Option (List UInt8) := do
  guard (off + src.length ≤ buf.length)
  return splice buf off src

/-- One column of `row_serialize`. `col->size - 1` of a column of size 0 is a huge `size_t`. -/
def serializeColumn (col : ColumnMeta) (value : RowValue) (buf : List UInt8) :
    Option (List UInt8) :=
  match col.type, value with
  | .int, .int v => storeBytes buf col.offset (int32Bytes v)
  | .bigint, .bigint v => storeBytes buf col.offset (int64Bytes v)
  | .varchar, .varchar s =>
    if s.length < col.size then storeBytes buf col.offset s
    else if col.size = 0 then none
    else storeBytes buf col.offset (s.take (col.size - 1))
  | _, _ => none

/-- The loop of `row_serialize`. -/
def serializeColumns : List ColumnMeta → List RowValue → List UInt8 → Option (List UInt8)
  | [], _, buf => some buf
  | col :: cols, v :: values, buf => do
    let buf ← serializeColumn col v buf
    serializeColumns cols values buf
  | _ :: _, [], _ => none

/-- `row_serialize` into the zeroed buffer of `row_size` bytes. -/
def rowSerialize (hdr : DbHeader) (values : List RowValue) : Option (List UInt8) :=
  serializeColumns hdr.columns values (List.replicate hdr.rowSize 0)

/-- `memcpy(dst, buf + off, len)`. -/
def loadBytes (buf : List UInt8) (off len : Nat) : Option (List UInt8) := do
  guard (off + len ≤ buf.length)
  return slice buf off len

/-- One column of `row_deserialize`. A text longer than a `str_val` overruns it. -/
def deserializeColumn (col : ColumnMeta) (buf : List UInt8) : Option RowValue :=
  match col.type with
  | .int => do return .int ((leValue (← loadBytes buf col.offset 4) : Int).bmod (2 ^ 32))
  | .bigint => do return .bigint (toI64 (leValue (← loadBytes buf col.offset 8)))
  | .varchar => do
    guard (col.size < strValSize)
    return .varchar ((← loadBytes buf col.offset col.size).takeWhile (· != 0))

/-- `row_deserialize`. -/
def rowDeserialize (hdr : DbHeader) (buf : List UInt8) : Option (List RowValue) :=
  hdr.columns.mapM fun col => deserializeColumn col buf

end MiniDb
