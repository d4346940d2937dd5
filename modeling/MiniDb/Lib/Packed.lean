import MiniDb.Lib.Runs

/-! # Packed structures

A packed structure is the bytes of its fields, one behind the other, and is read by reading the
fields in the same order. A reader *reads* some bytes as a value when, whatever follows them, it
returns the value and leaves what follows. Readers for parts make a reader for the whole, so a
round trip is proved field by field along the text of the reader. -/

set_option autoImplicit false

namespace MiniDb.Lib

/-- Programs that consume a string of symbols. -/
abbrev Reader (γ α : Type) := StateT (List γ) Option α

variable {γ α β ι : Type}

/-- The reader turns these symbols into this value. -/
def Reads (r : Reader γ α) (bytes : List γ) (a : α) : Prop :=
  ∀ rest, r.run (bytes ++ rest) = some (a, rest)

/-- The next `n` symbols. -/
def takeSymbols (n : Nat) : Reader γ (List γ) := do
  let bytes ← get
  guard (n ≤ bytes.length)
  set (bytes.drop n)
  return bytes.take n

/-- `n` values, one behind the other. -/
def readMany (r : Reader γ α) : Nat → Reader γ (List α)
  | 0 => return []
  | n + 1 => do
    let a ← r
    let as ← readMany r n
    return a :: as

section

variable {r : Reader γ α} {f : α → Reader γ β} {b b' : List γ} {a : α} {c : β}

theorem reads_pure : Reads (pure a : Reader γ α) [] a := fun _ => rfl

theorem Reads.bind (hr : Reads r b a) (hf : Reads (f a) b' c) : Reads (r >>= f) (b ++ b') c := by
  intro rest
  rw [List.append_assoc, run_bind_of (hr _)]
  exact hf rest

/-- The last part of a reader. -/
theorem Reads.bind_pure {g : α → β} (hr : Reads r b a) :
    Reads (r >>= fun x => pure (g x)) b (g a) := by
  have h := hr.bind (f := fun x => pure (g x)) (reads_pure (a := g a))
  rwa [List.append_nil] at h

/-- Reading is unaffected by what stands behind. -/
theorem Reads.run_append (hr : Reads r b a) (rest : List γ) :
    (r.run (b ++ rest)).map Prod.fst = some a := by
  rw [hr rest]
  rfl

theorem reads_takeSymbols {n : Nat} (h : b.length = n) : Reads (takeSymbols n) b b := by
  intro rest
  have hle : n ≤ (b ++ rest).length := by
    rw [List.length_append]
    omega
  subst h
  simp [takeSymbols, guard, StateT.run_bind]

/-- An array of elements of one size. -/
theorem length_flatMap_of_forall {g : ι → List γ} {l : List ι} {n : Nat}
    (h : ∀ x ∈ l, (g x).length = n) : (l.flatMap g).length = l.length * n := by
  induction l with
  | nil => simp
  | cons x l ih =>
    rw [List.flatMap_cons, List.length_append, h x List.mem_cons_self,
      ih fun y hy => h y (List.mem_cons_of_mem _ hy), List.length_cons, Nat.succ_mul, Nat.add_comm]

theorem reads_readMany {g : ι → List γ} {val : ι → α} {l : List ι}
    (h : ∀ x ∈ l, Reads r (g x) (val x)) :
    Reads (readMany r l.length) (l.flatMap g) (l.map val) := by
  induction l with
  | nil => exact reads_pure
  | cons x l ih =>
    have hrest := ih fun y hy => h y (List.mem_cons_of_mem _ hy)
    exact (h x List.mem_cons_self).bind hrest.bind_pure

end

end MiniDb.Lib
