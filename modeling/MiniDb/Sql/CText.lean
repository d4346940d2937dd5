import Mathlib.Algebra.Group.Int.Defs
import Mathlib.Algebra.Group.Nat.Defs
import MiniDb.Lib.Scan
import MiniDb.Storage.PageFormat

/-! # Reading C text

A `const char *` is the list of the bytes it still has in front of it; the end of the list is the
terminating NUL. This module has the C library's character functions in the default locale, the
number readers `atoll` and `atoi`, and the parser's own `strcasecmp_n` and `skip_ws`. -/

set_option autoImplicit false

namespace MiniDb

open Lib

/-- `*p`: the byte in front, NUL at the end. -/
def deref (p : CString) : UInt8 := p.headD 0

/-- A character constant. -/
def ch (c : Char) : UInt8 := c.toNat.toUInt8

/-- The single quote. -/
def quote : UInt8 := 39

/-- `isspace` in the C locale: blank, `\t`, `\n`, `\v`, `\f` and `\r`. -/
def isspace (c : UInt8) : Bool := c == 32 || (9 ≤ c && c ≤ 13)

/-- `tolower` in the C locale. -/
def tolower (c : UInt8) : UInt8 := if 65 ≤ c ∧ c ≤ 90 then c + 32 else c

/-- `isdigit`. -/
def isdigit (c : UInt8) : Bool := 48 ≤ c && c ≤ 57

/-- `skip_ws`. -/
def skipWs (p : CString) : CString := p.dropWhile isspace

/-- `strcasecmp_n`. -/
def strcasecmpN : CString → CString → Nat → Int
  | _, _, 0 => 0
  | a, b, n + 1 =>
    let d : Int := (tolower (deref a)).toNat - (tolower (deref b)).toNat
    if d ≠ 0 then d
    else if deref a = 0 then 0
    else strcasecmpN a.tail b.tail n

/-- `strcasecmp_n(p, kw, strlen(kw)) == 0`: the text begins with the word, in any case. -/
def keyword (kw p : CString) : Bool := strcasecmpN p kw kw.length == 0

/-! ## Numbers -/

/-- The value of the digits in front. -/
def digitsValue (acc : Nat) : CString → Nat
  | [] => acc
  | c :: p => if isdigit c then digitsValue (acc * 10 + (c.toNat - 48)) p else acc

/-- `INT64_MAX`. -/
def int64Max : Int := 9223372036854775807

/-- `INT64_MIN`. -/
def int64Min : Int := -9223372036854775808

/-- `atoll`: blanks, an optional sign, digits; like `strtoll` it stops at the 64-bit bounds. -/
def atoll (s : CString) : Int :=
  let p := skipWs s
  let v : Int :=
    if deref p = ch '-' then -(digitsValue 0 p.tail : Int)
    else if deref p = ch '+' then digitsValue 0 p.tail
    else digitsValue 0 p
  max int64Min (min int64Max v)

/-- `atoi`: the `long` value narrowed to 32 bits. -/
def atoi (s : CString) : Int := (atoll s).bmod (2 ^ 32)

/-- The cast to `uint64_t`. -/
def toU64 (x : Int) : Nat := (x % 2 ^ 64).toNat

/-- The cast to `uint32_t`. -/
def toU32 (x : Int) : Nat := (x % 2 ^ 32).toNat

/-- The cast to `uint16_t`. -/
def toU16 (x : Int) : Nat := (x % 2 ^ 16).toNat

/-- The cast of a `uint64_t` to `int64_t`. -/
def toI64 (n : Nat) : Int := (n : Int).bmod (2 ^ 64)

/-- A cast to a signed number and back. -/
theorem toU64_toI64 {v : Nat} (h : v < 2 ^ 64) : toU64 (toI64 v) = v := by
  show ((v : Int).bmod (2 ^ 64) % 2 ^ 64).toNat = v
  simp only [Int.bmod_def]
  omega

theorem toI64_inj {a b : Nat} (ha : a < 2 ^ 64) (hb : b < 2 ^ 64) (h : toI64 a = toI64 b) :
    a = b := by
  rw [← toU64_toI64 ha, h, toU64_toI64 hb]

theorem bmod_toNat_emod (v : Int) {m : Nat} (hm : 0 < m) :
    (((v % (m : Int)).toNat : Nat) : Int).bmod m = v.bmod m := by
  rw [Int.toNat_of_nonneg (Int.emod_nonneg v (by omega)), Int.emod_bmod]

/-- The other way round the number is wrapped. -/
theorem toI64_toU64 (a : Int) : toI64 (toU64 a) = a.bmod (2 ^ 64) :=
  bmod_toNat_emod a (Nat.two_pow_pos 64)

/-! ## Words -/

theorem tolower_eq_zero {c : UInt8} : tolower c = 0 ↔ c = 0 := by
  unfold tolower
  split
  · rename_i hup
    simp only [UInt8.le_iff_toNat_le, UInt8.reduceToNat] at hup
    simp only [← UInt8.toNat_inj, UInt8.toNat_add, UInt8.reduceToNat]
    omega
  · rfl

theorem strcasecmpN_eq_zero {p kw : CString} (hkw : 0 ∉ kw) :
    strcasecmpN p kw kw.length = 0 ↔ (p.take kw.length).map tolower = kw.map tolower := by
  induction kw generalizing p with
  | nil => simp [strcasecmpN]
  | cons k kw ih =>
    have hk : tolower k ≠ 0 := fun h => hkw (by simp [tolower_eq_zero.mp h])
    have hkw' : 0 ∉ kw := fun h => hkw (by simp [h])
    have hsub : ∀ x y : UInt8, (x.toNat : Int) - y.toNat = 0 ↔ x = y := fun x y => by
      rw [← UInt8.toNat_inj]
      omega
    rw [List.length_cons]
    unfold strcasecmpN
    simp only [ne_eq, hsub, ite_not]
    rcases p with _ | ⟨c, p⟩
    · have hne : ¬ tolower (deref []) = tolower (deref (k :: kw)) := fun h => hk h.symm
      rw [if_neg hne]
      simp [hsub, hne]
    · by_cases hd : tolower c = tolower k
      · have hz : ¬ deref (c :: p) = 0 := by
          intro h
          apply hk
          rw [← hd, tolower_eq_zero]
          exact h
        rw [if_pos (show tolower (deref (c :: p)) = tolower (deref (k :: kw)) from hd), if_neg hz]
        simp [ih hkw', hd]
      · have hne : ¬ tolower (deref (c :: p)) = tolower (deref (k :: kw)) := hd
        rw [if_neg hne]
        simp [hsub, hd, hne]

/-- A word is in front of the text when its letters are, whatever their case. -/
theorem keyword_iff {kw p : CString} (hkw : 0 ∉ kw) :
    keyword kw p = true ↔ (p.take kw.length).map tolower = kw.map tolower := by
  rw [keyword, beq_iff_eq, strcasecmpN_eq_zero hkw]

theorem keyword_append {kw rest : CString} (hkw : 0 ∉ kw) : keyword kw (kw ++ rest) = true := by
  rw [keyword_iff hkw, List.take_left']
  rfl

/-! ## Blanks -/

@[simp] theorem skipWs_nil : skipWs [] = [] := rfl

theorem skipWs_stopsAt (p : CString) : StopsAt isspace (skipWs p) := dropWhile_stopsAt isspace p

@[simp] theorem skipWs_skipWs (p : CString) : skipWs (skipWs p) = skipWs p :=
  dropWhile_of_stopsAt (skipWs_stopsAt p)

theorem length_skipWs_le (p : CString) : (skipWs p).length ≤ p.length :=
  length_dropWhile_le isspace p

end MiniDb
