import Mathlib.Data.Option.Basic
import MiniDb.Lib.Block

/-! # The output buffer

`buf_init` and `buf_append`. A buffer holds its text behind `data`, with a NUL at its end, and grows
by doubling. `cap` is doubled before `realloc` is called, and stays so when `realloc` has no memory:
then it is more than what lies behind `data`. -/

set_option autoImplicit false

namespace MiniDb

open Lib

/-- `out_buf_t`; `data` is the block, if there is one. -/
structure OutBuf where
  data : Option (List UInt8)
  len : Nat
  cap : Nat

/-- The greatest `int`. -/
def intMax : Nat := 2 ^ 31 - 1

/-- `buf_init`. -/
def bufInit (malloc : Allocator UInt8) : OutBuf :=
  match malloc.block 4096 with
  | none => ⟨none, 0, 0⟩
  | some fill => ⟨some ((regrow [] 4096 fill).set 0 0), 0, 4096⟩

/-- The loop of `buf_append`: whether there is room for `size` bytes now, the block and `cap`. A
`realloc` to no bytes at all has no defined outcome. -/
def bufGrow (realloc : Allocator UInt8) (size : Nat) :
    (fuel : Nat) → List UInt8 → Nat → Option (Bool × List UInt8 × Nat)
  | 0, _, _ => none
  | fuel + 1, data, cap =>
    if size > cap then
      let cap := cap * 2 % 2 ^ 64
      if cap = 0 then none
      else
        match realloc.block cap with
        | none => some (false, data, cap)
        | some fill => bufGrow realloc size fuel (regrow data cap fill) cap
    else some (true, data, cap)

/-- `buf_append` of a formatted text. A text too long for an `int` is refused by `vsnprintf`; a write
past the block has no defined outcome. The capacity of 64 bits is doubled at most 64 times. -/
def bufAppend (realloc : Allocator UInt8) (text : List UInt8) (b : OutBuf) : Option OutBuf :=
  match b.data with
  | none => some b
  | some data =>
    if b.cap = 0 then some b
    else if text.length > intMax then some b
    else do
      let (room, data, cap) ← bufGrow realloc ((b.len + text.length + 1) % 2 ^ 64) 65 data b.cap
      if !room then return { b with data := some data, cap }
      guard (b.len + text.length + 1 ≤ data.length)
      return { data := some (splice data b.len (text ++ [0])), len := b.len + text.length, cap }

/-- What is promised of a buffer: it has the memory it says, and a text that ends in a NUL. A buffer
that never got memory is empty. -/
structure OutBuf.Sound (b : OutBuf) : Prop where
  fits : ∀ data ∈ b.data, b.cap ≤ data.length ∧ b.len < b.cap ∧ data[b.len]? = some 0
  empty : b.data = none → b.len = 0 ∧ b.cap = 0

/-- A `realloc` that `buf_append` calls to double the buffer has no memory. -/
def GrowthFails (realloc : Allocator UInt8) (text : List UInt8) (b : OutBuf) : Prop :=
  b.data ≠ none ∧ text.length ≤ intMax ∧
    ∃ i, b.cap * 2 ^ i < b.len + text.length + 1 ∧ realloc.block (b.cap * 2 ^ (i + 1)) = none

/-- The text in the buffer. -/
def OutBuf.text (b : OutBuf) : List UInt8 := (b.data.getD []).take b.len

/-! ## One append -/

/-- A buffer whose capacity is the size of its block. -/
structure OutBuf.Exact (b : OutBuf) : Prop where
  sound : b.Sound
  length : ∀ data ∈ b.data, data.length = b.cap ∧ b.cap < 2 ^ 63

section Append

variable {realloc : Allocator UInt8} {text data : List UInt8} {b b' : OutBuf} {size cap fuel : Nat}

theorem exact_bufInit (malloc : Allocator UInt8) : (bufInit malloc).Exact := by
  unfold bufInit
  split
  · refine ⟨⟨?_, fun _ => ⟨rfl, rfl⟩⟩, ?_⟩
    · nofun
    · nofun
  · rename_i fill hblock
    refine ⟨⟨?_, nofun⟩, ?_⟩
    · rintro data hdata
      obtain rfl := Option.some.inj hdata
      refine ⟨?_, Nat.zero_lt_succ _, ?_⟩
      · exact Nat.le_of_eq (by rw [List.length_set, length_regrow])
      · apply List.getElem?_set_self
        rw [length_regrow]
        decide
    · rintro data hdata
      obtain rfl := Option.some.inj hdata
      exact ⟨by rw [List.length_set, length_regrow], by show 4096 < 2 ^ 63; omega⟩

theorem double_mul_pow (cap i : Nat) : cap * 2 * 2 ^ i = cap * 2 ^ (i + 1) := by
  rw [Nat.mul_assoc, ← Nat.pow_succ']

/-- Where every request is met the loop ends with a block of the capacity it says. -/
theorem bufGrow_room (hlen : data.length = cap) (hpos : 0 < cap) (hcap : cap < 2 ^ 63)
    (hfuel : 2 ^ 63 ≤ cap * 2 ^ fuel)
    (hmem : ∀ i, cap * 2 ^ i < size → realloc.block (cap * 2 ^ (i + 1)) ≠ none) :
    ∃ data' cap', bufGrow realloc size (fuel + 1) data cap = some (true, data', cap') ∧
      data'.length = cap' ∧ cap ≤ cap' ∧ cap' < 2 ^ 63 ∧ size ≤ cap' ∧
      ∀ len ≤ cap, data'.take len = data.take len := by
  induction fuel generalizing data cap with
  | zero =>
    exact absurd hfuel (by rw [Nat.pow_zero, Nat.mul_one]; omega)
  | succ fuel ih =>
    rw [bufGrow]
    by_cases hsize : size > cap
    · have hmod : cap * 2 % 2 ^ 64 = cap * 2 := Nat.mod_eq_of_lt (by omega)
      have hfirst : realloc.block (cap * 2) ≠ none := by
        have := hmem 0
        rw [Nat.pow_zero, Nat.mul_one, Nat.pow_one] at this
        exact this hsize
      obtain ⟨fill, hfill⟩ := Option.ne_none_iff_exists'.mp hfirst
      rw [if_pos hsize]
      simp only [hmod]
      rw [if_neg (by omega), hfill]
      obtain ⟨data', cap', hrun, hlen', hle, hlt, hroom, htake⟩ :=
        @ih (regrow data (cap * 2) fill) (cap * 2) length_regrow (by omega)
          (Allocator.lt_of_block hfill) (by rw [double_mul_pow]; exact hfuel)
          (fun i hi => by
            rw [double_mul_pow] at hi ⊢
            exact hmem (i + 1) hi)
      refine ⟨data', cap', hrun, hlen', by omega, hlt, hroom, fun len hl => ?_⟩
      rw [htake len (by omega), take_regrow (by omega) (by omega)]
    · exact ⟨data, cap, if_neg hsize, hlen, Nat.le_refl cap, hcap, Nat.not_lt.mp hsize,
        fun _ _ => rfl⟩

/-- Where one is not met, the capacity is left greater than the block. -/
theorem bufGrow_failed (hlen : data.length = cap) (hpos : 0 < cap) (hcap : cap < 2 ^ 63)
    (hfuel : 2 ^ 63 ≤ cap * 2 ^ fuel)
    (hmem : ∃ i, cap * 2 ^ i < size ∧ realloc.block (cap * 2 ^ (i + 1)) = none) :
    ∃ data' cap', bufGrow realloc size (fuel + 1) data cap = some (false, data', cap') ∧
      data'.length < cap' := by
  induction fuel generalizing data cap with
  | zero =>
    exact absurd hfuel (by rw [Nat.pow_zero, Nat.mul_one]; omega)
  | succ fuel ih =>
    obtain ⟨i, hi, hnone⟩ := hmem
    have hle : cap * 1 ≤ cap * 2 ^ i := Nat.mul_le_mul_left _ Nat.one_le_two_pow
    have hsize : size > cap := by omega
    have hmod : cap * 2 % 2 ^ 64 = cap * 2 := Nat.mod_eq_of_lt (by omega)
    rw [bufGrow, if_pos hsize]
    simp only [hmod]
    rw [if_neg (by omega)]
    cases hblock : realloc.block (cap * 2) with
    | none => exact ⟨data, cap * 2, rfl, by omega⟩
    | some fill =>
      -- the request that fails comes later
      have hi0 : i ≠ 0 := by
        rintro rfl
        rw [Nat.pow_one, hblock] at hnone
        cases hnone
      obtain ⟨j, rfl⟩ := Nat.exists_eq_succ_of_ne_zero hi0
      refine @ih (regrow data (cap * 2) fill) (cap * 2) length_regrow (by omega)
        (Allocator.lt_of_block hblock) (by rw [double_mul_pow]; exact hfuel) ⟨j, ?_, ?_⟩
      · rw [double_mul_pow]
        exact hi
      · rw [double_mul_pow]
        exact hnone

/-- An append that is given all the memory it asks for puts the text at the end. -/
theorem bufAppend_room (h : b.Exact) (hmem : ¬ GrowthFails realloc text b) :
    ∃ b', bufAppend realloc text b = some b' ∧ b'.Exact ∧
      (b.data ≠ none → text.length ≤ intMax → b'.text = b.text ++ text) := by
  unfold bufAppend
  cases hdata : b.data with
  | none => exact ⟨b, rfl, h, fun hne => absurd rfl hne⟩
  | some data =>
    dsimp only
    obtain ⟨-, hlt, -⟩ := h.sound.fits data hdata
    obtain ⟨hlen, hcap⟩ := h.length data hdata
    rw [if_neg (by omega)]
    by_cases hlong : text.length > intMax
    · rw [if_pos hlong]
      exact ⟨b, rfl, h, fun _ hle => absurd hle (Nat.not_le.mpr hlong)⟩
    rw [if_neg hlong]
    rw [gt_iff_lt, Nat.not_lt] at hlong
    have hsize : (b.len + text.length + 1) % 2 ^ 64 = b.len + text.length + 1 := by
      apply Nat.mod_eq_of_lt
      rw [intMax] at hlong
      omega
    obtain ⟨data', cap', hgrow, hlen', -, hcap', hroom, htake⟩ :=
      @bufGrow_room realloc data (b.len + text.length + 1) b.cap 64 hlen (by omega) hcap (by omega)
        fun i hi hnone => hmem ⟨by rw [hdata]; nofun, hlong, i, hi, hnone⟩
    rw [hsize, hgrow]
    simp only [Option.bind_eq_bind, Option.bind_some, Bool.not_true, Bool.false_eq_true, if_false,
      guard, hlen', hroom, if_true, Option.pure_def]
    have hfit : b.len + (text ++ [0]).length ≤ data'.length := by
      rw [List.length_append, List.length_singleton]
      omega
    have hwritten : (splice data' b.len (text ++ [0])).length = cap' := by
      rw [length_splice hfit, hlen']
    refine ⟨_, rfl, ⟨⟨?_, nofun⟩, ?_⟩, fun _ _ => ?_⟩
    · rintro _ ⟨rfl⟩
      have hlt' : b.len + text.length < cap' := Nat.lt_of_succ_le hroom
      refine ⟨Nat.le_of_eq hwritten.symm, hlt', ?_⟩
      show (splice data' b.len (text ++ [0]))[b.len + text.length]? = some 0
      rw [getElem?_splice hfit, if_neg (by omega), if_pos (by simp), Nat.add_sub_cancel_left,
        List.getElem?_concat_length]
    · rintro _ ⟨rfl⟩
      exact ⟨hwritten, hcap'⟩
    · have hpre : (data'.take b.len).length = b.len := by
        rw [List.length_take]
        omega
      show (splice data' b.len (text ++ [0])).take (b.len + text.length) =
        (b.data.getD []).take b.len ++ text
      rw [hdata, Option.getD_some, ← htake b.len (Nat.le_of_lt hlt), splice, ← List.append_assoc,
        List.append_assoc, List.take_left' (by rw [List.length_append, hpre])]

/-- An append that is refused memory leaves a buffer that is less than it says. -/
theorem bufAppend_failed (h : b.Exact) (hmem : GrowthFails realloc text b) :
    ∃ b', bufAppend realloc text b = some b' ∧ ¬ b'.Sound := by
  obtain ⟨hne, hlong, hfail⟩ := hmem
  obtain ⟨data, hdata⟩ := Option.ne_none_iff_exists'.mp hne
  obtain ⟨-, hlt, -⟩ := h.sound.fits data hdata
  obtain ⟨hlen, hcap⟩ := h.length data hdata
  have hsize : (b.len + text.length + 1) % 2 ^ 64 = b.len + text.length + 1 := by
    apply Nat.mod_eq_of_lt
    rw [intMax] at hlong
    omega
  obtain ⟨data', cap', hgrow, hshort⟩ :=
    @bufGrow_failed realloc data (b.len + text.length + 1) b.cap 64 hlen (by omega) hcap (by omega)
      hfail
  refine ⟨{ b with data := some data', cap := cap' }, ?_, fun hsound => ?_⟩
  · unfold bufAppend
    rw [hdata]
    dsimp only
    rw [if_neg (by omega), if_neg (by omega), hsize, hgrow]
    rfl
  · exact absurd (hsound.fits data' rfl).1 (by show ¬ cap' ≤ data'.length; omega)

end Append

/-! ## Runs -/

/-- From `b` on every append leaves a sound buffer, and one that is refused memory leaves it as it
was. -/
def AppendsSound (b : OutBuf) : List (Allocator UInt8 × List UInt8) → Prop
  | [] => b.Sound
  | (realloc, text) :: appends =>
    b.Sound ∧ ∃ b', bufAppend realloc text b = some b' ∧
      (GrowthFails realloc text b → b' = b) ∧ AppendsSound b' appends

/-- No append is refused memory. -/
def AppendsGrow (b : OutBuf) : List (Allocator UInt8 × List UInt8) → Prop
  | [] => True
  | (realloc, text) :: appends =>
    ¬ GrowthFails realloc text b ∧
      ∀ b', bufAppend realloc text b = some b' → AppendsGrow b' appends

theorem appendsSound_iff {b : OutBuf} (h : b.Exact) (appends : List (Allocator UInt8 × List UInt8)) :
    AppendsSound b appends ↔ AppendsGrow b appends := by
  induction appends generalizing b with
  | nil => exact iff_of_true h.sound trivial
  | cons append appends ih =>
    obtain ⟨realloc, text⟩ := append
    rw [AppendsSound, AppendsGrow]
    by_cases hmem : GrowthFails realloc text b
    · -- the buffer that is left is not sound, whatever comes next
      obtain ⟨b', hrun, hnot⟩ := bufAppend_failed h hmem
      refine iff_of_false ?_ (fun hgrow => hgrow.1 hmem)
      rintro ⟨-, b'', hrun', -, hsound⟩
      obtain rfl := Option.some.inj (hrun.symm.trans hrun')
      apply hnot
      cases appends with
      | nil => exact hsound
      | cons append appends => exact hsound.1
    · obtain ⟨b', hrun, hexact, -⟩ := bufAppend_room h hmem
      constructor
      · rintro ⟨-, b'', hrun', -, hsound⟩
        obtain rfl := Option.some.inj (hrun.symm.trans hrun')
        refine ⟨hmem, fun b'' hrun'' => ?_⟩
        obtain rfl := Option.some.inj (hrun.symm.trans hrun'')
        exact (ih hexact).mp hsound
      · rintro ⟨-, hrest⟩
        exact ⟨h.sound, b', hrun, fun hfail => absurd hfail hmem, (ih hexact).mpr (hrest b' hrun)⟩

/-- **Memory pressure.** All appends to a new buffer leave a sound one exactly if no `realloc` that
they call fails. -/
theorem outBuf_sound_iff (malloc : Allocator UInt8) (appends : List (Allocator UInt8 × List UInt8)) :
    AppendsSound (bufInit malloc) appends ↔ AppendsGrow (bufInit malloc) appends :=
  appendsSound_iff (exact_bufInit malloc) appends

/-- When `realloc` fails once, the next append writes past the block. -/
theorem not_outBuf_sound : ¬ ∀ malloc appends, AppendsSound (bufInit malloc) appends := by
  intro h
  have hlong : (List.replicate 4096 (97 : UInt8)).length = 4096 := List.length_replicate
  generalize List.replicate 4096 (97 : UInt8) = text at hlong
  have hblock : ((regrow [] 4096 fun _ => (0 : UInt8)).set 0 0).length = 4096 := by
    rw [List.length_set, length_regrow]
  obtain ⟨-, b, hfirst, -, -, b', hsecond, -⟩ := h (.ample 0) [(.exhausted UInt8, text),
    (.ample 0, text)]
  rw [show bufInit (.ample 0) = ⟨some ((regrow [] 4096 fun _ => 0).set 0 0), 0, 4096⟩ from rfl]
    at hfirst
  generalize (regrow [] 4096 fun _ => (0 : UInt8)).set 0 0 = data at hblock hfirst
  -- the capacity is 8192 now, the block has 4096 bytes
  have hb : b = ⟨some data, 0, 8192⟩ := by
    simp [bufAppend, bufGrow, Allocator.exhausted, intMax, hlong] at hfirst
    exact hfirst.symm
  subst hb
  rw [show bufAppend (.ample 0) text ⟨some data, 0, 8192⟩ = none by
    simp [bufAppend, bufGrow, intMax, guard, hlong, hblock]] at hsecond
  cases hsecond

end MiniDb
