import Mathlib.Data.Nat.Prime.Basic
import MiniDb.Lib.BoundedHeap
import MiniDb.Sql.Executor.Basic

/-! # Collecting and sorting

The arrays that scans fill, and what `lock_collected_ids` makes of them: the same ids, in order,
each once. -/

set_option autoImplicit false

namespace MiniDb

open Lib

/-! ## Growing an array -/

/-- So many elements fit an array whose capacity has 32 bits and doubles. -/
def collectable : Nat := 2147483648

/-- The elements fit the capacity, which has come from a first one by doubling. -/
structure Collector.Sized {α : Type} (c : Collector α) : Prop where
  fits : c.items.length ≤ c.cap
  cap : c.cap = 0 ∨ c.cap ∣ collectable

section Collector

variable {α : Type} {env : ExecEnv} {initial : Nat} {a : α} {c : Collector α}

theorem Collector.sized_empty : (Collector.empty α).Sized := ⟨le_refl 0, .inl rfl⟩

theorem Collector.Sized.length_le (h : c.Sized) : c.items.length ≤ collectable := by
  rcases h.cap with hzero | hdvd
  · have hfits := h.fits
    omega
  · exact h.fits.trans (Nat.le_of_dvd (by decide) hdvd)

/-- A capacity that is not the last one can be doubled. -/
theorem double_dvd_collectable {cap : Nat} (hdvd : cap ∣ collectable) (hne : cap ≠ collectable) :
    cap * 2 ∣ collectable := by
  obtain ⟨j, hj, rfl⟩ := (Nat.dvd_prime_pow Nat.prime_two).mp
    (show cap ∣ 2 ^ 31 from hdvd)
  have hlt : j ≠ 31 := fun heq => hne (heq ▸ rfl)
  rw [← Nat.pow_succ]
  exact Nat.pow_dvd_pow 2 (show j + 1 ≤ 31 by omega)

/-- An element is added, or growing the array failed; or the array is full and cannot be grown. -/
theorem Collector.Sized.push_cases (h : c.Sized) (hinit : initial ∣ collectable) (env : ExecEnv)
    (a : α) :
    c.items.length < collectable ∧
      ((∃ c', c.push env initial a = some (true, c') ∧ c'.items = c.items ++ [a] ∧
          c'.allocFailed = c.allocFailed ∧ c'.Sized) ∨
        ∃ c', c.push env initial a = some (false, c') ∧ c'.allocFailed = true ∧
          ∃ n, env.alloc n = false) ∨
    c.items.length = collectable ∧ c.push env initial a = none := by
  have hfits := h.fits
  by_cases hfull : c.items.length ≥ c.cap
  · -- the new capacity, and that it is one
    have hcap : (if c.cap = 0 then initial else c.cap * 2 % uint32Count) ∣ collectable ∧
        c.items.length < (if c.cap = 0 then initial else c.cap * 2 % uint32Count) ∨
        c.cap = collectable := by
      rcases h.cap with hzero | hdvd
      · rw [if_pos hzero]
        have hpos := Nat.pos_of_dvd_of_pos hinit (by decide)
        exact .inl ⟨hinit, by omega⟩
      · by_cases hlast : c.cap = collectable
        · exact .inr hlast
        · have hdouble := double_dvd_collectable hdvd hlast
          have hpos := Nat.pos_of_dvd_of_pos hdvd (by decide)
          have hle := Nat.le_of_dvd (by decide) hdouble
          have hmod : c.cap * 2 % uint32Count = c.cap * 2 :=
            Nat.mod_eq_of_lt (lt_of_le_of_lt hle (by decide))
          rw [if_neg (by omega), hmod]
          exact .inl ⟨hdouble, by omega⟩
    rcases hcap with ⟨hdvd, hlt⟩ | hlast
    · rw [Collector.push, if_pos hfull]
      generalize (if c.cap = 0 then initial else c.cap * 2 % uint32Count) = cap at hdvd hlt ⊢
      have hle := Nat.le_of_dvd (by decide) hdvd
      refine .inl ⟨by omega, ?_⟩
      dsimp only
      rw [if_neg (by omega)]
      by_cases halloc : env.alloc cap = true
      · rw [if_pos halloc]
        refine .inl ⟨_, rfl, rfl, rfl, ?_, .inr hdvd⟩
        rw [List.length_append]
        exact hlt
      · rw [if_neg halloc]
        exact .inr ⟨_, rfl, rfl, cap, Bool.eq_false_iff.mpr halloc⟩
    · refine .inr ⟨by omega, ?_⟩
      rw [Collector.push, if_pos hfull, hlast]
      rfl
  · have hlen := h.length_le
    have hroom : c.items.length < collectable := by
      rcases h.cap with hzero | hdvd
      · omega
      · have hle := Nat.le_of_dvd (by decide) hdvd
        omega
    refine .inl ⟨hroom, .inl ⟨{ c with items := c.items ++ [a] }, ?_, rfl, rfl, ?_, h.cap⟩⟩
    · rw [Collector.push, if_neg hfull]
    · simp only [List.length_append, List.length_singleton]
      omega

end Collector

/-! ## The ids to lock -/

section Ids

variable {l : List Nat} {a : Nat}

theorem mem_dropRepeats : a ∈ dropRepeats l ↔ a ∈ l := by
  induction l with
  | nil => rfl
  | cons b l ih =>
    rw [List.mem_cons, ← ih, dropRepeats]
    cases dropRepeats l with
    | nil => rw [List.mem_cons]
    | cons c l' =>
      dsimp only
      split
      · rename_i hbc
        rw [hbc, List.mem_cons]
        tauto
      · rw [List.mem_cons]

/-- Of each run of equal ids one is kept. -/
theorem pairwise_dropRepeats (h : l.Pairwise (· ≤ ·)) : (dropRepeats l).Pairwise (· < ·) := by
  induction l with
  | nil => exact .nil
  | cons b l ih =>
    obtain ⟨hb, hl⟩ := List.pairwise_cons.mp h
    have hrest := ih hl
    have hle : ∀ c ∈ dropRepeats l, b ≤ c := fun c hc => hb c (mem_dropRepeats.mp hc)
    rw [dropRepeats]
    cases hdrop : dropRepeats l with
    | nil => exact List.pairwise_singleton _ _
    | cons c l' =>
      rw [hdrop] at hrest hle
      dsimp only
      split
      · exact hrest
      · rename_i hbc
        -- the ids behind are larger than the first of them, which is larger than this one
        refine List.pairwise_cons.mpr ⟨fun d hd => ?_, hrest⟩
        have hlt : b < c := lt_of_le_of_ne (hle c List.mem_cons_self) hbc
        rcases List.mem_cons.mp hd with rfl | hd
        · exact hlt
        · exact lt_trans hlt ((List.pairwise_cons.mp hrest).1 d hd)

theorem mem_sortIds : a ∈ sortIds l ↔ a ∈ l := by
  rw [sortIds, mem_dropRepeats]
  exact (List.mergeSort_perm l _).mem_iff

/-- The ids are locked in ascending order. -/
theorem pairwise_sortIds (l : List Nat) : (sortIds l).Pairwise (· < ·) := by
  apply pairwise_dropRepeats
  exact pairwise_mergeSort_key id l

theorem nodup_sortIds (l : List Nat) : (sortIds l).Nodup :=
  (pairwise_sortIds l).imp fun hlt => ne_of_lt hlt

/-- Where no id is collected twice, none is dropped. -/
theorem perm_sortIds (h : l.Nodup) : (sortIds l).Perm l :=
  (List.perm_ext_iff_of_nodup (nodup_sortIds l) h).mpr fun _ => mem_sortIds

end Ids

end MiniDb
