import Mathlib.Data.Fintype.Card
import Mathlib.Data.List.Basic
import Mathlib.Logic.Function.Basic

/-! # A hash table with intrusive chains

Elements of a finite type `α` are chained by a link that each of them carries (`next`), one chain
for each bucket of `κ` (`heads`). The three operations walk a chain; a walk has fuel, and running out
of it is the endless loop of a cyclic chain.

`Indexes h key` says what the table holds: the chain of bucket `b` consists of the elements with
`key x = some b`, each once. The operations are specified by what they do to `key`. -/

set_option autoImplicit false

namespace MiniDb.Lib

variable {κ α : Type}

/-- The links: the first element of each chain and the successor of each element. -/
structure HashIndex (κ α : Type) where
  heads : κ → Option α
  next : α → Option α

namespace HashIndex

/-- From `head`, the links lead through exactly the elements of `l`. -/
def Chain (next : α → Option α) : Option α → List α → Prop
  | head, [] => head = none
  | head, x :: l => head = some x ∧ Chain next (next x) l

/-- The chain of each bucket consists of the elements with this key, each once. -/
def Indexes (h : HashIndex κ α) (key : α → Option κ) : Prop :=
  ∀ b, ∃ l, Chain h.next (h.heads b) l ∧ l.Nodup ∧ ∀ x, x ∈ l ↔ key x = some b

section Operations

/-- Walk a chain to the first element with a property. -/
def findFrom (next : α → Option α) (p : α → Bool) : Nat → Option α → Option (Option α)
  | 0, _ => none
  | _ + 1, none => some none
  | fuel + 1, some x => if p x then some (some x) else findFrom next p fuel (next x)

def find (h : HashIndex κ α) (fuel : Nat) (b : κ) (p : α → Bool) : Option (Option α) :=
  findFrom h.next p fuel (h.heads b)

variable [DecidableEq κ] [DecidableEq α]

/-- Put an element in front of a chain. -/
def insert (h : HashIndex κ α) (b : κ) (x : α) : HashIndex κ α where
  heads := Function.update h.heads b (some x)
  next := Function.update h.next x (h.heads b)

/-- The link in which a walk stands: the head of the bucket, or the link of the last element. -/
def link (h : HashIndex κ α) (b : κ) : Option α → Option α
  | none => h.heads b
  | some y => h.next y

def setLink (h : HashIndex κ α) (b : κ) (y x : Option α) : HashIndex κ α :=
  match y with
  | none => { h with heads := Function.update h.heads b x }
  | some y => { h with next := Function.update h.next y x }

/-- Walk from the link of `y` to the one that points to `x` and let it skip `x`. -/
def removeFrom (b : κ) (x : α) : Nat → Option α → HashIndex κ α → Option (HashIndex κ α)
  | 0, _, _ => none
  | fuel + 1, y, h =>
    match h.link b y with
    | none => some (h.setLink b (some x) none)
    | some z =>
      if z = x then some ((h.setLink b y (h.next x)).setLink b (some x) none)
      else removeFrom b x fuel (some z) h

def remove (h : HashIndex κ α) (fuel : Nat) (b : κ) (x : α) : Option (HashIndex κ α) :=
  removeFrom b x fuel none h

end Operations

section Chain

variable {next next' : α → Option α} {head : Option α} {l : List α} {x : α}

/-- A chain only depends on the links of its elements. -/
theorem Chain.congr (h : Chain next head l) (hn : ∀ y ∈ l, next' y = next y) :
    Chain next' head l := by
  induction l generalizing head with
  | nil => exact h
  | cons x l ih =>
    refine ⟨h.1, ?_⟩
    rw [hn x (by simp)]
    exact ih h.2 fun y hy => hn y (List.mem_cons_of_mem _ hy)

theorem findFrom_spec {p : α → Bool} {fuel : Nat} (h : Chain next head l) (hf : l.length < fuel) :
    findFrom next p fuel head = some (l.find? p) := by
  induction l generalizing head fuel with
  | nil =>
    obtain ⟨fuel, rfl⟩ : ∃ n, fuel = n + 1 := ⟨fuel - 1, by omega⟩
    obtain rfl : head = none := h
    rfl
  | cons x l ih =>
    obtain ⟨fuel, rfl⟩ : ∃ n, fuel = n + 1 := ⟨fuel - 1, by omega⟩
    obtain ⟨rfl, hl⟩ := h
    rw [findFrom, List.find?_cons]
    by_cases hp : p x
    · simp [hp]
    · simp only [hp, Bool.false_eq_true, if_false]
      exact ih hl (by simpa using hf)

variable [DecidableEq κ] [DecidableEq α]

/-- A walk that starts at the link of `y` and comes to `x` leaves the chain without `x`. It changes
no other link than those of `x` and of the elements before it. -/
theorem removeFrom_spec {b : κ} {fuel : Nat} {a r : List α} {y : Option α} {h : HashIndex κ α}
    (hc : Chain h.next (h.link b y) (a ++ x :: r)) (hnd : (a ++ x :: r).Nodup)
    (hy : ∀ z, y = some z → z ∉ a ++ x :: r) (hf : a.length < fuel) :
    ∃ h', removeFrom b x fuel y h = some h' ∧ Chain h'.next (h'.link b y) (a ++ r) ∧
      h'.next x = none ∧ (∀ b', b' ≠ b → h'.heads b' = h.heads b') ∧
      (y ≠ none → h'.heads b = h.heads b) ∧
      ∀ z, y ≠ some z → z ∉ a → z ≠ x → h'.next z = h.next z := by
  induction a generalizing y fuel with
  | nil =>
    obtain ⟨fuel, rfl⟩ : ∃ n, fuel = n + 1 := ⟨fuel - 1, by omega⟩
    obtain ⟨hlink, hr⟩ := hc
    have hxr : ∀ z ∈ r, z ≠ x := by
      rintro z hz rfl
      exact (List.nodup_cons.mp hnd).1 hz
    refine ⟨_, by simp [removeFrom, hlink]; rfl, ?_⟩
    cases y with
    | none =>
      refine ⟨?_, by simp [setLink], ?_, by simp, ?_⟩
      · simp only [setLink, link, Function.update_self, List.nil_append]
        exact hr.congr fun z hz => Function.update_of_ne (hxr z hz) _ _
      · intro b' hb'
        simp [setLink, Function.update_of_ne hb']
      · intro z _ _ hz
        simp [setLink, Function.update_of_ne hz]
    | some y =>
      have hy' := hy y rfl
      simp only [List.nil_append, List.mem_cons, not_or] at hy'
      refine ⟨?_, by simp [setLink], by simp [setLink], by simp [setLink], ?_⟩
      · simp only [setLink, link, Function.update_of_ne hy'.1, Function.update_self,
          List.nil_append]
        refine hr.congr fun z hz => ?_
        have hzy : z ≠ y := by
          rintro rfl
          exact hy'.2 hz
        rw [Function.update_of_ne (hxr z hz), Function.update_of_ne hzy]
      · intro z hzy _ hz
        have hzy' : z ≠ y := fun heq => hzy (by rw [heq])
        simp [setLink, Function.update_of_ne hz, Function.update_of_ne hzy']
  | cons z a ih =>
    obtain ⟨fuel, rfl⟩ : ∃ n, fuel = n + 1 := ⟨fuel - 1, by omega⟩
    obtain ⟨hlink, hrest⟩ := hc
    obtain ⟨hz, hnd'⟩ := List.nodup_cons.mp hnd
    have hzx : z ≠ x := by
      rintro rfl
      exact hz (by simp)
    obtain ⟨h', hrun, hc', hx, hb, hhead, hn⟩ := ih (y := some z) hrest hnd' (by
      intro w hw
      cases hw
      exact hz) (by simpa using hf)
    refine ⟨h', by simp [removeFrom, hlink, hzx, hrun], ⟨?_, hc'⟩, hx, hb,
      fun _ => hhead (by simp), ?_⟩
    · rw [← hlink]
      cases y with
      | none => exact hhead (by simp)
      | some w =>
        have hw := hy w rfl
        simp only [List.cons_append, List.mem_cons, List.mem_append, not_or] at hw
        exact hn w (by simpa using Ne.symm hw.1) hw.2.1 hw.2.2.1
    · intro w hwy hwa hwx
      simp only [List.mem_cons, not_or] at hwa
      exact hn w (by simpa using Ne.symm hwa.1) hwa.2 hwx

end Chain

section Indexes

variable {h : HashIndex κ α} {key : α → Option κ} {b : κ} {x : α}

theorem length_lt_fuel [Fintype α] {l : List α} (hnd : l.Nodup) {fuel : Nat}
    (hf : Fintype.card α < fuel) : l.length < fuel :=
  lt_of_le_of_lt hnd.length_le_card hf

/-- The empty table. -/
theorem indexes_empty : Indexes (⟨fun _ => none, fun _ => none⟩ : HashIndex κ α) fun _ => none :=
  fun _ => ⟨[], rfl, List.nodup_nil, by simp⟩

/-- A search finds an element of the bucket with the property, if there is one. -/
theorem Indexes.find [Fintype α] (hi : Indexes h key) {fuel : Nat} (hf : Fintype.card α < fuel)
    (b : κ) (p : α → Bool) :
    ∃ r, h.find fuel b p = some r ∧ (∀ x, r = some x → key x = some b ∧ p x = true) ∧
      (r = none → ∀ x, key x = some b → p x = false) := by
  obtain ⟨l, hc, hnd, hmem⟩ := hi b
  refine ⟨l.find? p, findFrom_spec hc (length_lt_fuel hnd hf), ?_, ?_⟩
  · intro x hx
    exact ⟨(hmem x).mp (List.mem_of_find?_eq_some hx), List.find?_some hx⟩
  · intro hnone x hx
    have := List.find?_eq_none.mp hnone x ((hmem x).mpr hx)
    simpa using this

variable [DecidableEq κ] [DecidableEq α]

/-- An element that was in no bucket is added to one. -/
theorem Indexes.insert (hi : Indexes h key) (hx : key x = none) (b : κ) :
    Indexes (h.insert b x) (Function.update key x (some b)) := by
  intro b'
  obtain ⟨l, hc, hnd, hmem⟩ := hi b'
  have hxl : x ∉ l := by
    rw [hmem, hx]
    simp
  have hcongr : Chain (h.insert b x).next (h.heads b') l := hc.congr fun y hy => by
    have hyx : y ≠ x := by
      rintro rfl
      exact hxl hy
    exact Function.update_of_ne hyx _ _
  by_cases hb : b' = b
  · subst hb
    refine ⟨x :: l, ⟨by simp [HashIndex.insert], ?_⟩, List.nodup_cons.mpr ⟨hxl, hnd⟩, ?_⟩
    · simpa [HashIndex.insert] using hcongr
    · intro y
      by_cases hy : y = x
      · simp [hy]
      · simp [hy, hmem]
  · refine ⟨l, by simpa [HashIndex.insert, Function.update_of_ne hb] using hcongr, hnd, ?_⟩
    intro y
    by_cases hy : y = x
    · subst hy
      simp [hxl, Ne.symm hb]
    · simp [hy, hmem]

/-- An element is taken out of its bucket. -/
theorem Indexes.remove [Fintype α] (hi : Indexes h key) (hx : key x = some b) {fuel : Nat}
    (hf : Fintype.card α < fuel) :
    ∃ h', h.remove fuel b x = some h' ∧ Indexes h' (Function.update key x none) := by
  obtain ⟨l, hc, hnd, hmem⟩ := hi b
  obtain ⟨a, r, rfl⟩ := List.append_of_mem ((hmem x).mpr hx)
  have hlen : a.length < fuel := by
    have := length_lt_fuel hnd hf
    simp only [List.length_append, List.length_cons] at this
    omega
  obtain ⟨h', hrun, hc', -, hb, -, hn⟩ := removeFrom_spec (y := none) hc hnd (by simp) hlen
  refine ⟨h', hrun, fun b' => ?_⟩
  have hxar : x ∉ a ++ r := by
    rw [List.nodup_middle, List.nodup_cons] at hnd
    exact hnd.1
  by_cases hbb : b' = b
  · subst hbb
    refine ⟨a ++ r, hc', hnd.sublist (by simp), fun y => ?_⟩
    by_cases hy : y = x
    · subst hy
      simpa using hxar
    · rw [Function.update_of_ne hy, ← hmem]
      simp [hy]
  · obtain ⟨l', hc'', hnd', hmem'⟩ := hi b'
    have hother : ∀ y ∈ l', y ∉ a ++ x :: r := by
      intro y hy hya
      have h₁ := (hmem' y).mp hy
      rw [(hmem y).mp hya] at h₁
      exact hbb (Option.some.inj h₁).symm
    refine ⟨l', ?_, hnd', fun y => ?_⟩
    · rw [hb b' hbb]
      refine hc''.congr fun y hy => ?_
      have := hother y hy
      simp only [List.mem_append, List.mem_cons, not_or] at this
      exact hn y (by simp) this.1 this.2.1
    · by_cases hy : y = x
      · subst hy
        simp only [Function.update_self, reduceCtorEq, iff_false]
        intro hyl
        exact hother y hyl (by simp)
      · rw [Function.update_of_ne hy, hmem']

end Indexes

end HashIndex

end MiniDb.Lib
