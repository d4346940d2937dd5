import Mathlib.Tactic.Cases
import MiniDb.Server.LockTable

/-! # The lock table excludes

Read as grants, the entries of the table are what its threads hold, and every critical section is a
grant step of the thread that executes it: it touches the entries of no other thread and adds only
what conflicts with none. So in every reachable state two threads that hold a common id hold it in
mode S. What this rests on is where entries lie (a row's entries are all in its bucket, so the
conflict checks miss none) and what addresses mean (a thread that waits to upgrade an entry finds
it again, for nobody else frees it). -/

set_option autoImplicit false

namespace MiniDb

open Lib

variable {τ : Type}

/-! ## Entries as grants -/

/-- The ids an entry is for: one row, or the range `[rowId, rangeHigh]`. -/
def LockEntry.Covers (e : LockEntry τ) (id : Nat) : Prop :=
  if e.isRange then e.rowId ≤ id ∧ id ≤ e.rangeHigh else id = e.rowId

def LockEntry.grant (e : LockEntry τ) : Grant τ Nat := ⟨e.owner, e.mode = .x, {id | e.Covers id}⟩

/-- What the threads hold. -/
def LockTable.grants (lt : LockTable τ) : Set (Grant τ Nat) :=
  {g | ∃ e ∈ lt.entries, e.grant = g}

/-- The ids a call asks for. -/
def LockRequest.Covers : LockRequest → Nat → Prop
  | .point rowId, id => id = rowId
  | .range low high, id => low ≤ id ∧ id ≤ high

/-- What a call is granted. -/
def LockWait.grant (w : LockWait) (self : τ) : Grant τ Nat :=
  ⟨self, w.mode = .x, {id | w.req.Covers id}⟩

/-- Row locks lie in the bucket of their row, range locks in the range list. -/
structure LockTable.Placed (lt : LockTable τ) : Prop where
  bucket : ∀ b, ∀ e ∈ lt.buckets b, hashRowId e.rowId = b ∧ e.isRange = false
  range : ∀ e ∈ lt.rangeLocks, e.isRange = true

/-- The pointer that a waiting call holds leads to the thread's own entry for the row. -/
def LockWait.Owns (lt : LockTable τ) (self : τ) (w : LockWait) : Prop :=
  ∀ a, w.entry = some a → ∃ e ∈ lt.entries, e.addr = a ∧ w.req = .point e.rowId ∧
    e.owner = self ∧ e.isRange = false

/-- **The invariant of the lock table.** -/
structure LockInv (s : LockSys τ) : Prop where
  placed : s.table.Placed
  /-- an address is that of one entry -/
  addr : ∀ e ∈ s.table.entries, ∀ e' ∈ s.table.entries, e.addr = e'.addr → e = e'
  /-- a thread's own list names its entries -/
  held : ∀ t a, a ∈ s.held t ↔ ∃ e ∈ s.table.entries, e.owner = t ∧ e.addr = a
  owns : ∀ t w, s.waiting t = some w → w.Owns s.table t
  compatible : Compatible s.table.grants

/-! ## The lists of a table -/

section Lists

variable {lt lt' : LockTable τ} {e ne : LockEntry τ} {b : Fin lockTableBuckets} {a : Nat}
  {mode : LockMode}

theorem mem_entries : e ∈ lt.entries ↔ (∃ b, e ∈ lt.buckets b) ∨ e ∈ lt.rangeLocks := by
  simp [LockTable.entries]

@[simp] theorem entries_init : (lockTableInit τ).table.entries = [] := by
  simp [lockTableInit, LockTable.entries]

@[simp] theorem mem_globalListInsertPoint : e ∈ (globalListInsertPoint lt b ne).entries ↔
    e = { ne with isRange := false } ∨ e ∈ lt.entries := by
  simp only [mem_entries, globalListInsertPoint]
  constructor
  · rintro (⟨c, hc⟩ | hr)
    · by_cases hcb : c = b
      · subst hcb
        rw [Function.update_self] at hc
        exact (List.mem_cons.mp hc).imp id fun h => .inl ⟨c, h⟩
      · rw [Function.update_of_ne hcb] at hc
        exact .inr (.inl ⟨c, hc⟩)
    · exact .inr (.inr hr)
  · rintro (rfl | ⟨c, hc⟩ | hr)
    · exact .inl ⟨b, by simp⟩
    · refine .inl ⟨c, ?_⟩
      by_cases hcb : c = b
      · subst hcb
        rw [Function.update_self]
        exact List.mem_cons_of_mem _ hc
      · rwa [Function.update_of_ne hcb]
    · exact .inr hr

@[simp] theorem mem_globalListInsertRange : e ∈ (globalListInsertRange lt ne).entries ↔
    e = { ne with isRange := true } ∨ e ∈ lt.entries := by
  simp only [mem_entries, globalListInsertRange, List.mem_cons]
  tauto

@[simp] theorem mem_globalListRemove :
    e ∈ (globalListRemove lt a).entries ↔ e ∈ lt.entries ∧ e.addr ≠ a := by
  simp only [mem_entries, globalListRemove, LockTable.mapLists, List.mem_filter, bne_iff_ne,
    exists_and_right]
  tauto

/-- The entry with the mode that `setMode` gives it. -/
def LockEntry.setMode (e : LockEntry τ) (a : Nat) (mode : LockMode) : LockEntry τ :=
  if e.addr = a then { e with mode := mode } else e

theorem LockEntry.setMode_fields (e : LockEntry τ) (a : Nat) (mode : LockMode) :
    (e.setMode a mode).addr = e.addr ∧ (e.setMode a mode).owner = e.owner ∧
      (e.setMode a mode).rowId = e.rowId ∧ (e.setMode a mode).isRange = e.isRange := by
  unfold LockEntry.setMode
  split <;> exact ⟨rfl, rfl, rfl, rfl⟩

@[simp] theorem mem_setMode :
    e ∈ (lt.setMode a mode).entries ↔ ∃ e' ∈ lt.entries, e'.setMode a mode = e := by
  simp only [mem_entries, LockTable.setMode, LockTable.mapLists, List.mem_map,
    LockEntry.setMode]
  constructor
  · rintro (⟨b, e', he', rfl⟩ | ⟨e', he', rfl⟩)
    · exact ⟨e', .inl ⟨b, he'⟩, rfl⟩
    · exact ⟨e', .inr he', rfl⟩
  · rintro ⟨e', ⟨b, he'⟩ | he', rfl⟩
    · exact .inl ⟨b, e', he', rfl⟩
    · exact .inr ⟨e', he', rfl⟩

/-- The loop of `lock_release_all`. -/
theorem mem_foldl_remove {addrs : List Nat} :
    e ∈ (addrs.foldl globalListRemove lt).entries ↔ e ∈ lt.entries ∧ e.addr ∉ addrs := by
  induction addrs generalizing lt with
  | nil => simp
  | cons a addrs ih =>
    rw [List.foldl_cons, ih, mem_globalListRemove, List.mem_cons]
    tauto

theorem LockTable.Placed.mapLists (h : lt.Placed)
    {f : List (LockEntry τ) → List (LockEntry τ)}
    (hf : ∀ l, ∀ e ∈ f l, ∃ e' ∈ l, e'.rowId = e.rowId ∧ e'.isRange = e.isRange) :
    (lt.mapLists f).Placed := by
  constructor
  · intro b e he
    obtain ⟨e', he', hrow, hrange⟩ := hf _ e he
    rw [← hrow, ← hrange]
    exact h.bucket b e' he'
  · intro e he
    obtain ⟨e', he', -, hrange⟩ := hf _ e he
    rw [← hrange]
    exact h.range e' he'

theorem LockTable.Placed.remove (h : lt.Placed) (addrs : List Nat) :
    (addrs.foldl globalListRemove lt).Placed := by
  induction addrs generalizing lt with
  | nil => exact h
  | cons a addrs ih =>
    apply ih
    apply h.mapLists
    exact fun l e he => ⟨e, (List.mem_filter.mp he).1, rfl, rfl⟩

theorem LockTable.Placed.setMode (h : lt.Placed) (a : Nat) (mode : LockMode) :
    (lt.setMode a mode).Placed := by
  apply h.mapLists
  intro l e he
  obtain ⟨e', he', rfl⟩ := List.mem_map.mp he
  refine ⟨e', he', ?_⟩
  split <;> exact ⟨rfl, rfl⟩

theorem LockTable.Placed.insertPoint (h : lt.Placed) (hb : b = hashRowId ne.rowId) :
    (globalListInsertPoint lt b ne).Placed := by
  subst hb
  refine ⟨fun b e he => ?_, h.range⟩
  simp only [globalListInsertPoint] at he
  by_cases hb : b = hashRowId ne.rowId
  · subst hb
    rw [Function.update_self] at he
    rcases List.mem_cons.mp he with rfl | he
    · exact ⟨rfl, rfl⟩
    · exact h.bucket _ e he
  · rw [Function.update_of_ne hb] at he
    exact h.bucket b e he

theorem LockTable.Placed.insertRange (h : lt.Placed) : (globalListInsertRange lt ne).Placed := by
  refine ⟨h.bucket, fun e he => ?_⟩
  rcases List.mem_cons.mp he with rfl | he
  · rfl
  · exact h.range e he

end Lists

/-! ## Conflict checks -/

section Conflict

theorem excludes_iff {e : LockEntry τ} {mode : LockMode} :
    e.excludes mode = true ↔ e.mode = .x ∨ mode = .x := by
  simp [LockEntry.excludes]

variable [DecidableEq τ] {lt : LockTable τ} {self : τ} {mode : LockMode}

/-- `conflict_exists` sees exactly the entries of other threads that cover the row. -/
theorem conflictExists_iff (h : lt.Placed) {rowId : Nat} :
    conflictExists lt rowId mode self = true ↔
      ∃ e ∈ lt.entries, e.owner ≠ self ∧ e.Covers rowId ∧ (e.mode = .x ∨ mode = .x) := by
  simp only [conflictExists, Bool.or_eq_true, pointVsPoint, pointVsRange, List.any_eq_true,
    Bool.and_eq_true, beq_iff_eq, bne_iff_ne, decide_eq_true_eq, excludes_iff, mem_entries]
  constructor
  · rintro (⟨e, he, ⟨hrow, hne⟩, hx⟩ | ⟨e, he, ⟨⟨hne, hlo⟩, hhi⟩, hx⟩)
    · refine ⟨e, .inl ⟨_, he⟩, hne, ?_, hx⟩
      simp [LockEntry.Covers, (h.bucket _ e he).2, hrow]
    · refine ⟨e, .inr he, hne, ?_, hx⟩
      simp [LockEntry.Covers, h.range e he, hlo, hhi]
  · rintro ⟨e, ⟨b, he⟩ | he, hne, hcov, hx⟩
    · obtain ⟨rfl, hpoint⟩ := h.bucket b e he
      obtain rfl : rowId = e.rowId := by simpa [LockEntry.Covers, hpoint] using hcov
      exact .inl ⟨e, he, ⟨rfl, hne⟩, hx⟩
    · obtain ⟨hlo, hhi⟩ : e.rowId ≤ rowId ∧ rowId ≤ e.rangeHigh := by
        simpa [LockEntry.Covers, h.range e he] using hcov
      exact .inr ⟨e, he, ⟨⟨hne, hlo⟩, hhi⟩, hx⟩

/-- `range_conflict_exists` misses no entry of another thread that covers an id of the range. -/
theorem rangeConflictExists_of_covers (h : lt.Placed) {low high id : Nat} (hlo : low ≤ id)
    (hhi : id ≤ high) {e : LockEntry τ} (he : e ∈ lt.entries) (hne : e.owner ≠ self)
    (hcov : e.Covers id) (hx : e.mode = .x ∨ mode = .x) :
    rangeConflictExists lt low high mode self = true := by
  simp only [rangeConflictExists, Bool.or_eq_true, rangeVsRange, rangeVsPoint, List.any_eq_true,
    Bool.and_eq_true, bne_iff_ne, decide_eq_true_eq, excludes_iff]
  rcases mem_entries.mp he with ⟨b, he⟩ | he
  · obtain rfl : id = e.rowId := by simpa [LockEntry.Covers, (h.bucket b e he).2] using hcov
    exact .inr ⟨b, List.mem_finRange b, e, he, ⟨⟨hne, hlo⟩, hhi⟩, hx⟩
  · obtain ⟨hel, heh⟩ : e.rowId ≤ id ∧ id ≤ e.rangeHigh := by
      simpa [LockEntry.Covers, h.range e he] using hcov
    exact .inl ⟨e, he, ⟨⟨hne, hlo.trans heh⟩, hel.trans hhi⟩, hx⟩

/-- A call that passes its conflict check may be granted what it asks for. -/
theorem not_conflicts_of_check (h : lt.Placed) {w : LockWait}
    (hcheck : w.req.conflict lt w.mode self = false) :
    ∀ g ∈ lt.grants, ¬ (w.grant self).Conflicts g := by
  rintro g ⟨e, he, rfl⟩ ⟨hne, ⟨id, hid, hcov⟩, hx⟩
  have hno : ∀ {c : Bool}, c = false → ¬ c = true := by simp
  cases hreq : w.req with
  | point rowId =>
    rw [hreq] at hcheck
    apply hno hcheck
    have hrow : id = rowId := by simpa [LockWait.grant, hreq, LockRequest.Covers] using hid
    exact (conflictExists_iff h).mpr ⟨e, he, Ne.symm hne, hrow ▸ hcov, hx.symm⟩
  | range low high =>
    rw [hreq] at hcheck
    apply hno hcheck
    obtain ⟨hlo, hhi⟩ : low ≤ id ∧ id ≤ high := by
      simpa [LockWait.grant, hreq, LockRequest.Covers] using hid
    exact rangeConflictExists_of_covers h hlo hhi he (Ne.symm hne) hcov hx.symm

end Conflict

/-! ## What a critical section does -/

/-- The two tables have the same entries in the same places. -/
def LockTable.SameLists (lt lt' : LockTable τ) : Prop :=
  lt'.buckets = lt.buckets ∧ lt'.rangeLocks = lt.rangeLocks

section Change

variable {lt lt' : LockTable τ}

theorem LockTable.SameLists.entries (h : lt.SameLists lt') : lt'.entries = lt.entries := by
  simp [LockTable.entries, h.1, h.2]

theorem LockTable.SameLists.placed (h : lt.SameLists lt') (hp : lt.Placed) : lt'.Placed := by
  constructor
  · rw [h.1]
    exact hp.bucket
  · rw [h.2]
    exact hp.range

theorem sameLists_unregister (lt : LockTable τ) (w : LockWait) :
    lt.SameLists (waitingWriterUnregister lt w) := by
  unfold waitingWriterUnregister
  split <;> exact ⟨rfl, rfl⟩

theorem sameLists_register (lt : LockTable τ) (w : LockWait) :
    lt.SameLists (waitingWriterRegister lt w).1 := by
  unfold waitingWriterRegister
  split <;> exact ⟨rfl, rfl⟩

/-- What a section of `self` may do to the lists of the table and to its own list. -/
inductive LockChange [DecidableEq τ] (self : τ) (s s' : LockSys τ) : Prop
  | keep (table : s.table.SameLists s'.table) (held : s'.held = s.held)
  | upgrade (w : LockWait) (a : Nat) (entry : w.entry = some a) (owns : w.Owns s.table self)
      (check : w.req.conflict s.table w.mode self = false)
      (table : (s.table.setMode a w.mode).SameLists s'.table) (held : s'.held = s.held)
  | addPoint (w : LockWait) (a rowId : Nat) (req : w.req = .point rowId)
      (fresh : ∀ e ∈ s.table.entries, e.addr ≠ a)
      (check : w.req.conflict s.table w.mode self = false)
      (table : (globalListInsertPoint s.table (hashRowId rowId)
        ⟨a, rowId, 0, w.mode, self, false⟩).SameLists s'.table)
      (held : s'.held = Function.update s.held self (a :: s.held self))
  | addRange (w : LockWait) (a low high : Nat) (req : w.req = .range low high)
      (fresh : ∀ e ∈ s.table.entries, e.addr ≠ a)
      (check : w.req.conflict s.table w.mode self = false)
      (table : (globalListInsertRange s.table
        ⟨a, low, high, w.mode, self, true⟩).SameLists s'.table)
      (held : s'.held = Function.update s.held self (a :: s.held self))
  | release (table : ((s.held self).foldl globalListRemove s.table).SameLists s'.table)
      (held : s'.held = Function.update s.held self [])

end Change

section Change

variable [DecidableEq τ] {s s' : LockSys τ} {self : τ} {w : LockWait}

/-- The entries of other threads stay. -/
theorem LockChange.frame (h : LockChange self s s') (hinv : LockInv s) (e : LockEntry τ)
    (he : e.owner ≠ self) : e ∈ s'.table.entries ↔ e ∈ s.table.entries := by
  cases h with
  | keep table held => rw [table.entries]
  | upgrade w a entry owns check table held =>
    rw [table.entries, mem_setMode]
    obtain ⟨e₀, he₀, rfl, -, rfl, -⟩ := owns a entry
    have hother : ∀ e' ∈ s.table.entries, e'.owner ≠ e₀.owner → e'.addr ≠ e₀.addr := by
      intro e' he' hne heq
      exact hne (by rw [hinv.addr e' he' e₀ he₀ heq])
    constructor
    · rintro ⟨e', he', rfl⟩
      unfold LockEntry.setMode at he ⊢
      split at he
      · rename_i heq
        exact absurd (hinv.addr e' he' e₀ he₀ heq ▸ rfl) he
      · rename_i hne
        rwa [if_neg hne]
    · intro hmem
      exact ⟨e, hmem, by simp [LockEntry.setMode, hother e hmem he]⟩
  | addPoint w a rowId req fresh check table held =>
    rw [table.entries, mem_globalListInsertPoint, or_iff_right]
    rintro rfl
    exact he rfl
  | addRange w a low high req fresh check table held =>
    rw [table.entries, mem_globalListInsertRange, or_iff_right]
    rintro rfl
    exact he rfl
  | release table held =>
    rw [table.entries, mem_foldl_remove, and_iff_left_iff_imp]
    intro hmem ha
    obtain ⟨e', he', rfl, haddr⟩ := (hinv.held _ _).mp ha
    exact he (by rw [hinv.addr e hmem e' he' haddr.symm])

/-- An entry of the thread was there before, perhaps in another mode, or is what it has just been
granted. -/
theorem LockChange.own (h : LockChange self s s') (hinv : LockInv s) (e : LockEntry τ)
    (he : e ∈ s'.table.entries) :
    e ∈ s.table.entries ∨
      ∃ w : LockWait, w.req.conflict s.table w.mode self = false ∧ e.grant = w.grant self := by
  cases h with
  | keep table held => exact .inl (table.entries ▸ he)
  | upgrade w a entry owns check table held =>
    rw [table.entries, mem_setMode] at he
    obtain ⟨e', he', rfl⟩ := he
    unfold LockEntry.setMode
    split
    · rename_i haddr
      obtain ⟨e₀, he₀, rfl, hreq, rfl, hpoint⟩ := owns a entry
      obtain rfl := hinv.addr e' he' e₀ he₀ haddr
      refine .inr ⟨w, check, ?_⟩
      simp [LockEntry.grant, LockWait.grant, LockEntry.Covers, hreq, LockRequest.Covers, hpoint]
    · exact .inl he'
  | addPoint w a rowId req fresh check table held =>
    rw [table.entries, mem_globalListInsertPoint] at he
    rcases he with rfl | he
    · exact .inr ⟨w, check, by simp [LockEntry.grant, LockWait.grant, LockEntry.Covers, req,
        LockRequest.Covers]⟩
    · exact .inl he
  | addRange w a low high req fresh check table held =>
    rw [table.entries, mem_globalListInsertRange] at he
    rcases he with rfl | he
    · exact .inr ⟨w, check, by simp [LockEntry.grant, LockWait.grant, LockEntry.Covers, req,
        LockRequest.Covers]⟩
    · exact .inl he
  | release table held =>
    rw [table.entries, mem_foldl_remove] at he
    exact .inl he.1

/-- **A critical section is a grant step of its thread.** -/
theorem LockChange.grantStep (h : LockChange self s s') (hinv : LockInv s) :
    GrantStep self s.table.grants s'.table.grants := by
  constructor
  · intro g hne
    constructor
    · rintro ⟨e, he, rfl⟩
      exact ⟨e, (h.frame hinv e hne).mp he, rfl⟩
    · rintro ⟨e, he, rfl⟩
      exact ⟨e, (h.frame hinv e hne).mpr he, rfl⟩
  · rintro g ⟨e, he, rfl⟩ -
    rcases h.own hinv e he with he | ⟨w, hcheck, heq⟩
    · exact .inl ⟨e, he, rfl⟩
    · rw [heq]
      exact .inr (not_conflicts_of_check hinv.placed hcheck)

theorem LockChange.placed (h : LockChange self s s') (hinv : LockInv s) : s'.table.Placed := by
  cases h with
  | keep table held => exact table.placed hinv.placed
  | upgrade w a entry owns check table held => exact table.placed (hinv.placed.setMode a w.mode)
  | addPoint w a rowId req fresh check table held => exact table.placed (hinv.placed.insertPoint rfl)
  | addRange w a low high req fresh check table held => exact table.placed hinv.placed.insertRange
  | release table held => exact table.placed (hinv.placed.remove _)

theorem LockChange.addr (h : LockChange self s s') (hinv : LockInv s) :
    ∀ e ∈ s'.table.entries, ∀ e' ∈ s'.table.entries, e.addr = e'.addr → e = e' := by
  cases h with
  | keep table held =>
    rw [table.entries]
    exact hinv.addr
  | upgrade w a entry owns check table held =>
    simp only [table.entries, mem_setMode]
    rintro _ ⟨e, he, rfl⟩ _ ⟨e', he', rfl⟩ heq
    rw [(e.setMode_fields a w.mode).1, (e'.setMode_fields a w.mode).1] at heq
    rw [hinv.addr e he e' he' heq]
  | addPoint w a rowId req fresh check table held =>
    simp only [table.entries, mem_globalListInsertPoint]
    rintro e (rfl | he) e' (rfl | he') heq
    · rfl
    · exact absurd heq.symm (fresh e' he')
    · exact absurd heq (fresh e he)
    · exact hinv.addr e he e' he' heq
  | addRange w a low high req fresh check table held =>
    simp only [table.entries, mem_globalListInsertRange]
    rintro e (rfl | he) e' (rfl | he') heq
    · rfl
    · exact absurd heq.symm (fresh e' he')
    · exact absurd heq (fresh e he)
    · exact hinv.addr e he e' he' heq
  | release table held =>
    simp only [table.entries, mem_foldl_remove]
    rintro e ⟨he, -⟩ e' ⟨he', -⟩ heq
    exact hinv.addr e he e' he' heq

/-- The thread's own list after a new entry at `a`. -/
theorem held_push (hinv : LockInv s) {a : Nat} {E : List (LockEntry τ)} {ne : LockEntry τ}
    (hne : ne.addr = a ∧ ne.owner = self) (hE : ∀ e, e ∈ E ↔ e = ne ∨ e ∈ s.table.entries) (t : τ)
    (b : Nat) : b ∈ Function.update s.held self (a :: s.held self) t ↔
      ∃ e ∈ E, e.owner = t ∧ e.addr = b := by
  simp only [hE, or_and_right, exists_or, exists_eq_left, hne]
  by_cases ht : t = self
  · subst ht
    rw [Function.update_self, List.mem_cons, hinv.held]
    simp [eq_comm]
  · rw [Function.update_of_ne ht, hinv.held]
    simp [Ne.symm ht]

theorem LockChange.heldInv (h : LockChange self s s') (hinv : LockInv s) :
    ∀ t a, a ∈ s'.held t ↔ ∃ e ∈ s'.table.entries, e.owner = t ∧ e.addr = a := by
  cases h with
  | keep table held =>
    rw [table.entries, held]
    exact hinv.held
  | upgrade w a entry owns check table held =>
    simp only [table.entries, held, mem_setMode]
    intro t b
    rw [hinv.held]
    constructor
    · rintro ⟨e, he, ho, ha⟩
      have hf := e.setMode_fields a w.mode
      exact ⟨_, ⟨e, he, rfl⟩, hf.2.1.trans ho, hf.1.trans ha⟩
    · rintro ⟨_, ⟨e, he, rfl⟩, ho, ha⟩
      have hf := e.setMode_fields a w.mode
      exact ⟨e, he, hf.2.1 ▸ ho, hf.1 ▸ ha⟩
  | addPoint w a rowId req fresh check table held =>
    rw [held, table.entries]
    exact held_push hinv ⟨rfl, rfl⟩ fun e => mem_globalListInsertPoint
  | addRange w a low high req fresh check table held =>
    rw [held, table.entries]
    exact held_push hinv ⟨rfl, rfl⟩ fun e => mem_globalListInsertRange
  | release table held =>
    intro t a
    simp only [table.entries, mem_foldl_remove, held]
    by_cases ht : t = self
    · subst ht
      rw [Function.update_self]
      constructor
      · intro ha
        cases ha
      · rintro ⟨e, ⟨he, hno⟩, rfl, rfl⟩
        exact absurd ((hinv.held _ _).mpr ⟨e, he, rfl, rfl⟩) hno
    · rw [Function.update_of_ne ht, hinv.held]
      constructor
      · rintro ⟨e, he, rfl, rfl⟩
        refine ⟨e, ⟨he, fun ha => ?_⟩, rfl, rfl⟩
        obtain ⟨e', he', ho, haddr⟩ := (hinv.held _ _).mp ha
        exact ht (by rw [← ho, hinv.addr e' he' e he haddr])
      · rintro ⟨e, ⟨he, -⟩, rfl, rfl⟩
        exact ⟨e, he, rfl, rfl⟩

/-- Entries of threads that wait stay where their pointers lead. -/
theorem LockWait.Owns.frame (h : LockChange self s s') (hinv : LockInv s) {t : τ} (ht : t ≠ self)
    (howns : w.Owns s.table t) : w.Owns s'.table t := by
  intro a ha
  obtain ⟨e, he, haddr, hreq, ho, hpoint⟩ := howns a ha
  exact ⟨e, (h.frame hinv e (ho ▸ ht)).mpr he, haddr, hreq, ho, hpoint⟩

end Change

/-! ## What a call returns -/

/-- The outcome of a section in which `t` asks for `req` in mode `mode`. -/
structure LockEffect [DecidableEq τ] (t : τ) (req : LockRequest) (mode : LockMode)
    (s s' : LockSys τ) (r : LockReply) : Prop where
  change : LockChange t s s'
  others : ∀ u, u ≠ t → s'.waiting u = s.waiting u
  blocked : r = .blocked →
    ∃ w, s'.waiting t = some w ∧ w.req = req ∧ w.mode = mode ∧ w.Owns s'.table t
  done : r ≠ .blocked → s'.waiting t = none
  granted : r = .granted → ∀ id, req.Covers id → Holds s'.table.grants t (mode = .x) id

section Calls

variable [DecidableEq τ] {s s' : LockSys τ} {self : τ} {w : LockWait} {alloc : Option Nat}
  {r : LockReply}

omit [DecidableEq τ] in
/-- An entry holds what it covers. -/
theorem LockEntry.holds {lt : LockTable τ} {e : LockEntry τ} (he : e ∈ lt.entries)
    (ho : e.owner = self) {id : Nat} (hcov : e.Covers id) {x : Prop} (hx : x → e.mode = .x) :
    Holds lt.grants self x id :=
  ⟨e.grant, ⟨e, he, rfl⟩, ho, hcov, hx⟩

theorem grantPoint_spec {rowId : Nat} (hreq : w.req = .point rowId)
    (hcheck : w.req.conflict s.table w.mode self = false)
    (halloc : ∀ a, alloc = some a → ∀ e ∈ s.table.entries, e.addr ≠ a)
    (hwait : s.waiting self = none) (h : grantPoint s self w rowId alloc = (r, s')) :
    LockEffect self w.req w.mode s s' r := by
  cases alloc with
  | none =>
    obtain ⟨rfl, rfl⟩ := Prod.mk.inj h
    exact ⟨.keep ⟨rfl, rfl⟩ rfl, fun _ _ => rfl, by simp, fun _ => hwait, by simp⟩
  | some a =>
    obtain ⟨rfl, rfl⟩ := Prod.mk.inj h
    have hlists := sameLists_unregister (globalListInsertPoint s.table (hashRowId rowId)
      ⟨a, rowId, 0, w.mode, self, false⟩) w
    refine ⟨.addPoint w a rowId hreq (halloc a rfl) hcheck hlists rfl, fun _ _ => rfl, by simp,
      fun _ => hwait, fun _ id hid => ?_⟩
    refine LockEntry.holds (e := ⟨a, rowId, 0, w.mode, self, false⟩) ?_ rfl ?_ fun hx => hx
    · simp only [ownerListPush, hlists.entries]
      exact mem_globalListInsertPoint.mpr (.inl rfl)
    · simpa [LockEntry.Covers, hreq, LockRequest.Covers] using hid

theorem grantRange_spec {low high : Nat} (hreq : w.req = .range low high)
    (hcheck : w.req.conflict s.table w.mode self = false)
    (halloc : ∀ a, alloc = some a → ∀ e ∈ s.table.entries, e.addr ≠ a)
    (hwait : s.waiting self = none) (h : grantRange s self w low high alloc = (r, s')) :
    LockEffect self w.req w.mode s s' r := by
  cases alloc with
  | none =>
    obtain ⟨rfl, rfl⟩ := Prod.mk.inj h
    exact ⟨.keep ⟨rfl, rfl⟩ rfl, fun _ _ => rfl, by simp, fun _ => hwait, by simp⟩
  | some a =>
    obtain ⟨rfl, rfl⟩ := Prod.mk.inj h
    have hlists := sameLists_unregister (globalListInsertRange s.table
      ⟨a, low, high, w.mode, self, true⟩) w
    refine ⟨.addRange w a low high hreq (halloc a rfl) hcheck hlists rfl, fun _ _ => rfl, by simp,
      fun _ => hwait, fun _ id hid => ?_⟩
    refine LockEntry.holds (e := ⟨a, low, high, w.mode, self, true⟩) ?_ rfl ?_ fun hx => hx
    · simp only [ownerListPush, hlists.entries]
      exact mem_globalListInsertRange.mpr (.inl rfl)
    · simpa [LockEntry.Covers, hreq, LockRequest.Covers] using hid

/-- After the wait loop the call returns, and the pointer taken before it is still good. -/
theorem lockGrant_spec (hinv : LockInv s) (howns : w.Owns s.table self)
    (hcheck : w.req.conflict s.table w.mode self = false)
    (halloc : ∀ a, alloc = some a → ∀ e ∈ s.table.entries, e.addr ≠ a)
    (hwait : s.waiting self = none) :
    ∃ r s', lockGrant s self w alloc = some (r, s') ∧ LockEffect self w.req w.mode s s' r := by
  unfold lockGrant
  cases hreq : w.req with
  | range low high =>
    refine ⟨_, _, rfl, ?_⟩
    rw [← hreq]
    exact grantRange_spec hreq hcheck halloc hwait rfl
  | point rowId =>
    cases hentry : w.entry with
    | none =>
      refine ⟨_, _, rfl, ?_⟩
      rw [← hreq]
      exact grantPoint_spec hreq hcheck halloc hwait rfl
    | some a =>
      obtain ⟨e, he, rfl, hrow, rfl, hpoint⟩ := howns a hentry
      obtain rfl : rowId = e.rowId := by
        rw [hreq] at hrow
        exact LockRequest.point.inj hrow
      have hfind : s.table.entries.find? (·.addr == e.addr) = some e := by
        cases hf : s.table.entries.find? (·.addr == e.addr) with
        | none => exact absurd (List.find?_eq_none.mp hf e he) (by simp)
        | some e' =>
          have haddr := List.find?_some hf
          exact congrArg some (hinv.addr e' (List.mem_of_find?_eq_some hf) e he
            (by simpa using haddr))
      have hlists := sameLists_unregister (s.table.setMode e.addr w.mode) w
      refine ⟨.granted, { s with
        table := waitingWriterUnregister (s.table.setMode e.addr w.mode) w }, ?_, ?_⟩
      · simp [hfind]
      · rw [← hreq]
        refine ⟨.upgrade w e.addr hentry howns hcheck hlists rfl, fun _ _ => rfl, by simp,
          fun _ => hwait, fun _ id hid => ?_⟩
        refine LockEntry.holds (e := e.setMode e.addr w.mode) ?_ ?_ ?_ ?_
        · simp only [hlists.entries]
          exact mem_setMode.mpr ⟨e, he, rfl⟩
        · exact (e.setMode_fields _ _).2.1
        · simpa [LockEntry.Covers, LockEntry.setMode, hreq, LockRequest.Covers, hpoint] using hid
        · simp [LockEntry.setMode]

theorem LockInv.stopWaiting (hinv : LockInv s) (self : τ) :
    LockInv { s with waiting := Function.update s.waiting self none } := by
  refine ⟨hinv.placed, hinv.addr, hinv.held, fun t w hw => ?_, hinv.compatible⟩
  by_cases ht : t = self
  · subst ht
    simp at hw
  · simp only [Function.update_of_ne ht] at hw
    exact hinv.owns t w hw

/-- One round of the wait loop. -/
theorem lockWaitLoop_spec (hinv : LockInv s) (howns : w.Owns s.table self)
    (halloc : ∀ a, alloc = some a → ∀ e ∈ s.table.entries, e.addr ≠ a) :
    ∃ r s', lockWaitLoop s self w alloc = some (r, s') ∧
      LockEffect self w.req w.mode s s' r := by
  unfold lockWaitLoop
  split
  · by_cases hx : w.mode = .x
    · simp only [if_pos hx]
      refine ⟨_, _, rfl, ?_⟩
      have hlists := sameLists_register s.table w
      have hw : (waitingWriterRegister s.table w).2 =
          { w with registered := (waitingWriterRegister s.table w).2.registered } := by
        unfold waitingWriterRegister
        split <;> rfl
      refine ⟨.keep hlists rfl, fun t ht => Function.update_of_ne ht _ _, fun _ => ?_,
        fun h => absurd rfl h, nofun⟩
      refine ⟨(waitingWriterRegister s.table w).2, by simp, by rw [hw], by rw [hw], ?_⟩
      intro a ha
      rw [hw] at ha ⊢
      simpa only [hlists.entries] using howns a ha
    · simp only [if_neg hx]
      refine ⟨_, _, rfl, ?_⟩
      exact ⟨.keep ⟨rfl, rfl⟩ rfl, fun t ht => Function.update_of_ne ht _ _,
        fun _ => ⟨w, Function.update_self .., rfl, rfl, howns⟩, fun h => absurd rfl h, nofun⟩
  · rename_i hcond
    have hcheck : w.req.conflict s.table w.mode self = false := by
      simp only [Bool.or_eq_true, not_or, Bool.not_eq_true] at hcond
      exact hcond.1
    obtain ⟨r, s', hrun, heff⟩ := lockGrant_spec (hinv.stopWaiting self) howns hcheck halloc
      (by simp)
    refine ⟨r, s', hrun, ?_, fun t ht => ?_, heff.blocked, heff.done, heff.granted⟩
    · cases heff.change with
      | keep table held => exact .keep table held
      | upgrade w a entry owns check table held => exact .upgrade w a entry owns check table held
      | addPoint w a rowId req fresh check table held =>
        exact .addPoint w a rowId req fresh check table held
      | addRange w a low high req fresh check table held =>
        exact .addRange w a low high req fresh check table held
      | release table held => exact .release table held
    · rw [heff.others t ht]
      exact Function.update_of_ne ht _ _

/-- `lock_acquire` before its first wait: the thread has the lock already, or it goes into the wait
loop with a pointer to an entry of its own, if it has one. -/
theorem lockAcquire_cases (hinv : LockInv s) (self : τ) (rowId : Nat) (mode : LockMode)
    (alloc : Option Nat) :
    (∃ e ∈ s.table.entries, e.owner = self ∧ e.Covers rowId ∧ (e.mode = .x ∨ mode = .s) ∧
      lockAcquire s self rowId mode alloc = some (.granted, s)) ∨
    ∃ entry, (⟨.point rowId, mode, false, entry⟩ : LockWait).Owns s.table self ∧
      lockAcquire s self rowId mode alloc =
        lockWaitLoop s self ⟨.point rowId, mode, false, entry⟩ alloc := by
  unfold lockAcquire
  cases hfind : (s.table.buckets (hashRowId rowId)).find?
      fun e => e.rowId == rowId && e.owner == self with
  | none => exact .inr ⟨none, nofun, rfl⟩
  | some e =>
    have hmem := List.mem_of_find?_eq_some hfind
    obtain ⟨rfl, rfl⟩ : e.rowId = rowId ∧ e.owner = self := by
      simpa using List.find?_some hfind
    have hentry : e ∈ s.table.entries := mem_entries.mpr (.inl ⟨_, hmem⟩)
    have hpoint := (hinv.placed.bucket _ e hmem).2
    dsimp only
    by_cases hx : e.mode = .x ∨ mode = .s
    · rw [if_pos hx]
      exact .inl ⟨e, hentry, rfl, by simp [LockEntry.Covers, hpoint], hx, rfl⟩
    · rw [if_neg hx]
      refine .inr ⟨some e.addr, ?_, rfl⟩
      intro a ha
      exact ⟨e, hentry, Option.some.inj ha, rfl, rfl, hpoint⟩

/-- `lock_acquire` by a thread that does not wait. -/
theorem lockAcquire_spec (hinv : LockInv s) (hwait : s.waiting self = none) (rowId : Nat)
    (mode : LockMode) (halloc : ∀ a, alloc = some a → ∀ e ∈ s.table.entries, e.addr ≠ a) :
    ∃ r s', lockAcquire s self rowId mode alloc = some (r, s') ∧
      LockEffect self (.point rowId) mode s s' r := by
  rcases lockAcquire_cases hinv self rowId mode alloc with
    ⟨e, he, ho, hcov, hx, heq⟩ | ⟨entry, howns, heq⟩
  · refine ⟨.granted, s, heq, .keep ⟨rfl, rfl⟩ rfl, fun _ _ => rfl, by simp,
      fun _ => hwait, fun _ id hid => ?_⟩
    obtain rfl : id = rowId := hid
    apply LockEntry.holds he ho hcov
    rintro rfl
    simpa using hx
  · rw [heq]
    exact lockWaitLoop_spec hinv howns halloc

/-- `lock_acquire_range` before its first wait. -/
theorem lockAcquireRange_cases (s : LockSys τ) (self : τ) (low high : Nat) (mode : LockMode)
    (alloc : Option Nat) :
    (∃ e ∈ s.table.rangeLocks, e.owner = self ∧ e.rowId ≤ low ∧ high ≤ e.rangeHigh ∧
      (e.mode = .x ∨ mode = .s) ∧
      lockAcquireRange s self low high mode alloc = some (.granted, s)) ∨
    lockAcquireRange s self low high mode alloc =
      lockWaitLoop s self ⟨.range low high, mode, false, none⟩ alloc := by
  unfold lockAcquireRange
  split
  · rename_i hany
    obtain ⟨e, he, hown⟩ := List.any_eq_true.mp hany
    simp only [Bool.and_eq_true, beq_iff_eq, decide_eq_true_eq, Bool.or_eq_true] at hown
    obtain ⟨⟨⟨ho, hlo⟩, hhi⟩, hx⟩ := hown
    exact .inl ⟨e, he, ho, hlo, hhi, hx, rfl⟩
  · exact .inr rfl

/-- `lock_acquire_range` by a thread that does not wait. -/
theorem lockAcquireRange_spec (hinv : LockInv s) (hwait : s.waiting self = none) (low high : Nat)
    (mode : LockMode) (halloc : ∀ a, alloc = some a → ∀ e ∈ s.table.entries, e.addr ≠ a) :
    ∃ r s', lockAcquireRange s self low high mode alloc = some (r, s') ∧
      LockEffect self (.range low high) mode s s' r := by
  rcases lockAcquireRange_cases s self low high mode alloc with
    ⟨e, he, ho, hlo, hhi, hx, heq⟩ | heq
  · refine ⟨.granted, s, heq, .keep ⟨rfl, rfl⟩ rfl, fun _ _ => rfl, by simp, fun _ => hwait,
      fun _ id hid => ?_⟩
    apply LockEntry.holds (mem_entries.mpr (.inr he)) ho
    · rw [LockEntry.Covers, if_pos (hinv.placed.range e he)]
      exact ⟨hlo.trans hid.1, hid.2.trans hhi⟩
    · rintro rfl
      simpa using hx
  · rw [heq]
    exact lockWaitLoop_spec hinv nofun halloc

/-- A woken thread. -/
theorem lockWake_spec (hinv : LockInv s) (hwait : s.waiting self = some w)
    (halloc : ∀ a, alloc = some a → ∀ e ∈ s.table.entries, e.addr ≠ a) :
    ∃ r s', lockWake s self alloc = some (r, s') ∧ LockEffect self w.req w.mode s s' r := by
  have heq : lockWake s self alloc = lockWaitLoop s self w alloc := by
    simp [lockWake, hwait]
  rw [heq]
  exact lockWaitLoop_spec hinv (hinv.owns self w hwait) halloc

/-- A thread at its deadline. -/
theorem lockTimeout_spec (hwait : s.waiting self = some w) :
    ∃ s', lockTimeout s self = some (.failed, s') ∧
      LockEffect self w.req w.mode s s' .failed := by
  have heq : lockTimeout s self = some (.failed, { s with
      table := waitingWriterUnregister s.table w
      waiting := Function.update s.waiting self none }) := by
    simp [lockTimeout, hwait]
  exact ⟨_, heq, .keep (sameLists_unregister _ w) rfl,
    fun t ht => Function.update_of_ne ht _ _, nofun, fun _ => Function.update_self .., nofun⟩

/-- `lock_release_all` gives up whatever the thread held. -/
theorem lockReleaseAll_spec (hinv : LockInv s) (self : τ) :
    LockChange self s (lockReleaseAll s self) ∧ (lockReleaseAll s self).waiting = s.waiting ∧
      ∀ x id, ¬ Holds (lockReleaseAll s self).table.grants self x id := by
  refine ⟨.release ⟨rfl, rfl⟩ rfl, rfl, ?_⟩
  rintro x id ⟨_, ⟨e, he, rfl⟩, ho, -, -⟩
  obtain ⟨hmem, hno⟩ := mem_foldl_remove.mp he
  exact hno ((hinv.held self _).mpr ⟨e, hmem, ho, rfl⟩)

/-! ## Runs -/

/-- The invariant after a section: the change keeps the table in order, and whoever waits still
owns the entry it points to. -/
theorem LockChange.inv (h : LockChange self s s') (hinv : LockInv s)
    (hothers : ∀ t, t ≠ self → s'.waiting t = s.waiting t)
    (hself : ∀ w, s'.waiting self = some w → w.Owns s'.table self) : LockInv s' := by
  refine ⟨h.placed hinv, h.addr hinv, h.heldInv hinv, fun t w hw => ?_,
    hinv.compatible.step (h.grantStep hinv)⟩
  by_cases ht : t = self
  · subst ht
    exact hself w hw
  · rw [hothers t ht] at hw
    exact (hinv.owns t w hw).frame h hinv ht

theorem LockEffect.inv {req : LockRequest} {mode : LockMode}
    (h : LockEffect self req mode s s' r) (hinv : LockInv s) : LockInv s' := by
  refine h.change.inv hinv h.others fun w hw => ?_
  by_cases hr : r = .blocked
  · obtain ⟨w', hw', -, -, howns⟩ := h.blocked hr
    rw [hw] at hw'
    obtain rfl := Option.some.inj hw'
    exact howns
  · rw [h.done hr] at hw
    cases hw

omit [DecidableEq τ] in
theorem lockInv_init : LockInv (lockTableInit τ) where
  placed := ⟨fun _ _ h => absurd h (by simp [lockTableInit]),
    fun _ h => absurd h (by simp [lockTableInit])⟩
  addr := by simp
  held := by simp [lockTableInit, LockTable.entries]
  owns := by simp [lockTableInit]
  compatible := by simp [LockTable.grants, Compatible]

/-- **Every enabled section is defined and keeps the invariant.** -/
theorem LockInv.exec (hinv : LockInv s) (a : LockAction τ) (ha : a.Enabled s) :
    ∃ r s', a.exec s = some (r, s') ∧ LockInv s' := by
  obtain ⟨hen, halloc⟩ := ha
  cases a with
  | acquire self rowId mode alloc =>
    obtain ⟨r, s', hrun, heff⟩ := lockAcquire_spec hinv hen rowId mode halloc
    exact ⟨r, s', hrun, heff.inv hinv⟩
  | acquireRange self low high mode alloc =>
    obtain ⟨r, s', hrun, heff⟩ := lockAcquireRange_spec hinv hen low high mode halloc
    exact ⟨r, s', hrun, heff.inv hinv⟩
  | wake self alloc =>
    obtain ⟨w, hw⟩ := Option.isSome_iff_exists.mp hen
    obtain ⟨r, s', hrun, heff⟩ := lockWake_spec hinv hw halloc
    exact ⟨r, s', hrun, heff.inv hinv⟩
  | timeout self =>
    obtain ⟨w, hw⟩ := Option.isSome_iff_exists.mp hen
    obtain ⟨s', hrun, heff⟩ := lockTimeout_spec hw
    exact ⟨_, s', hrun, heff.inv hinv⟩
  | releaseAll self =>
    obtain ⟨hchange, hwait, -⟩ := lockReleaseAll_spec hinv self
    refine ⟨_, _, rfl, hchange.inv hinv (fun t _ => by rw [hwait]) fun w hw => ?_⟩
    rw [hwait, show s.waiting self = none from hen] at hw
    cases hw

theorem lockInv_reachable (h : Relation.ReflTransGen LockSys.Step (lockTableInit τ) s) :
    LockInv s := by
  refine invariant_of_step lockInv_init ?_ h
  rintro s s' hinv ⟨a, ha, r, hrun⟩
  obtain ⟨r', s'', hrun', hinv'⟩ := hinv.exec a ha
  rw [hrun] at hrun'
  obtain ⟨-, rfl⟩ := Prod.mk.inj (Option.some.inj hrun')
  exact hinv'

/-- **Lock table safety.** In every reachable state two entries of different threads that cover a
common id are both in mode S. -/
theorem lockTable_excludes (h : Relation.ReflTransGen LockSys.Step (lockTableInit τ) s)
    (e e' : LockEntry τ) (he : e ∈ s.table.entries) (he' : e' ∈ s.table.entries)
    (hne : e.owner ≠ e'.owner) (id : Nat) (hid : e.Covers id) (hid' : e'.Covers id) :
    e.mode = .s ∧ e'.mode = .s := by
  have hno := (lockInv_reachable h).compatible e.grant ⟨e, he, rfl⟩ e'.grant ⟨e', he', rfl⟩
  have hmode : ∀ m : LockMode, m ≠ .x → m = .s := by
    intro m hm
    cases m
    · rfl
    · exact absurd rfl hm
  exact ⟨hmode _ fun hx => hno ⟨hne, ⟨id, hid, hid'⟩, .inl hx⟩,
    hmode _ fun hx => hno ⟨hne, ⟨id, hid, hid'⟩, .inr hx⟩⟩

end Calls

theorem lockTable_excludes_shared :
    ∃ s : LockSys Nat, Relation.ReflTransGen LockSys.Step (lockTableInit Nat) s ∧
      ∃ e ∈ s.table.entries, ∃ e' ∈ s.table.entries, e.owner ≠ e'.owner ∧ e.Covers 5 ∧
        e'.Covers 5 ∧ e.mode = .s ∧ e'.mode = .s := by
  obtain ⟨s₁, s₂, h₁, h₂, hone, hwait, hbucket⟩ : ∃ s₁ s₂,
      lockAcquire (lockTableInit Nat) 1 5 .s (some 100) = some (.granted, s₁) ∧
      lockAcquire s₁ 2 5 .s (some 200) = some (.granted, s₂) ∧
      s₁.table = globalListInsertPoint (lockTableInit Nat).table (hashRowId 5)
        ⟨100, 5, 0, .s, 1, false⟩ ∧ s₁.waiting 2 = none ∧
      s₂.table.buckets (hashRowId 5) = [⟨200, 5, 0, .s, 2, false⟩, ⟨100, 5, 0, .s, 1, false⟩] :=
    ⟨_, _, rfl, rfl, rfl, rfl, rfl⟩
  have hstep₁ : LockSys.Step (lockTableInit Nat) s₁ :=
    ⟨.acquire 1 5 .s (some 100), ⟨rfl, by simp [LockAction.alloc]⟩, _, h₁⟩
  have hstep₂ : LockSys.Step s₁ s₂ :=
    ⟨.acquire 2 5 .s (some 200), ⟨hwait, by simp [LockAction.alloc, hone]⟩, _, h₂⟩
  have hrun : Relation.ReflTransGen LockSys.Step (lockTableInit Nat) s₂ :=
    .tail (.single hstep₁) hstep₂
  have he : (⟨100, 5, 0, .s, 1, false⟩ : LockEntry Nat) ∈ s₂.table.entries :=
    mem_entries.mpr (.inl ⟨hashRowId 5, by simp [hbucket]⟩)
  have he' : (⟨200, 5, 0, .s, 2, false⟩ : LockEntry Nat) ∈ s₂.table.entries :=
    mem_entries.mpr (.inl ⟨hashRowId 5, by simp [hbucket]⟩)
  have hne : (1 : Nat) ≠ 2 := by decide
  have hid : LockEntry.Covers (⟨100, 5, 0, .s, 1, false⟩ : LockEntry Nat) 5 := rfl
  have hid' : LockEntry.Covers (⟨200, 5, 0, .s, 2, false⟩ : LockEntry Nat) 5 := rfl
  exact ⟨s₂, hrun, _, he, _, he', hne, hid, hid',
    lockTable_excludes hrun _ _ he he' hne 5 hid hid'⟩

end MiniDb
