import MiniDb.Server.LockSafety

/-! # What a call adds to the table

A section adds at most one entry, for what the call asks for, in its mode and for its thread; and
only when the check for conflicts and the count of waiting writers let it through. -/

set_option autoImplicit false

namespace MiniDb

open Lib

variable {τ : Type}

/-- What the call that the section belongs to asks for. -/
def LockAction.call (s : LockSys τ) : LockAction τ → Option (LockRequest × LockMode)
  | .acquire _ rowId mode _ => some (.point rowId, mode)
  | .acquireRange _ low high mode _ => some (.range low high, mode)
  | .wake self _ | .timeout self => (s.waiting self).map fun w => (w.req, w.mode)
  | .releaseAll _ => none

theorem waitingWriters_unregister (lt : LockTable τ) (w : LockWait) :
    (waitingWriterUnregister lt w).waitingWriters =
      lt.waitingWriters - if w.registered then 1 else 0 := by
  unfold waitingWriterUnregister
  split <;> rfl

/-- The end of a call: it grants and takes the writer off the count, or it has no memory for the
entry and leaves everything as it is. -/
structure GrantEnd (t : τ) (s : LockSys τ) (w : LockWait) (alloc : Option Nat) (r : LockReply)
    (s' : LockSys τ) : Prop where
  waiting : s'.waiting = s.waiting
  outcome : r = .granted ∧ s'.table.waitingWriters =
      s.table.waitingWriters - (if w.registered then 1 else 0) ∨
    r = .failed ∧ alloc = none ∧ s' = s
  entries : ∀ e ∈ s'.table.entries, e ∈ s.table.entries ∨ e.grant = w.grant t

section Calls

variable [DecidableEq τ] {s s' : LockSys τ} {self : τ} {w : LockWait} {alloc : Option Nat}
  {r : LockReply}

theorem grantEnd_point {rowId : Nat} (hreq : w.req = .point rowId)
    (h : grantPoint s self w rowId alloc = (r, s')) : GrantEnd self s w alloc r s' := by
  cases alloc with
  | none =>
    obtain ⟨rfl, rfl⟩ := Prod.mk.inj h
    exact ⟨rfl, .inr ⟨rfl, rfl, rfl⟩, fun e he => .inl he⟩
  | some addr =>
    obtain ⟨rfl, rfl⟩ := Prod.mk.inj h
    refine ⟨rfl, .inl ⟨rfl, waitingWriters_unregister _ w⟩, ?_⟩
    intro e he
    rw [(sameLists_unregister _ w).entries] at he
    rcases mem_globalListInsertPoint.mp he with rfl | he
    · right
      simp [LockEntry.grant, LockWait.grant, LockEntry.Covers, hreq, LockRequest.Covers]
    · exact .inl he

theorem grantEnd_range {low high : Nat} (hreq : w.req = .range low high)
    (h : grantRange s self w low high alloc = (r, s')) : GrantEnd self s w alloc r s' := by
  cases alloc with
  | none =>
    obtain ⟨rfl, rfl⟩ := Prod.mk.inj h
    exact ⟨rfl, .inr ⟨rfl, rfl, rfl⟩, fun e he => .inl he⟩
  | some addr =>
    obtain ⟨rfl, rfl⟩ := Prod.mk.inj h
    refine ⟨rfl, .inl ⟨rfl, waitingWriters_unregister _ w⟩, ?_⟩
    intro e he
    rw [(sameLists_unregister _ w).entries] at he
    rcases mem_globalListInsertRange.mp he with rfl | he
    · right
      simp [LockEntry.grant, LockWait.grant, LockEntry.Covers, hreq, LockRequest.Covers]
    · exact .inl he

/-- What follows the wait loop. A call that finds its own entry needs no memory. -/
theorem grantEnd_lockGrant (hinv : LockInv s) (howns : w.Owns s.table self)
    (h : lockGrant s self w alloc = some (r, s')) :
    GrantEnd self s w alloc r s' ∧ (r = .failed → w.entry = none) := by
  unfold lockGrant at h
  cases hreq : w.req with
  | range low high =>
    rw [hreq] at h
    refine ⟨grantEnd_range hreq (Option.some.inj h), fun _ => ?_⟩
    cases hentry : w.entry with
    | none => rfl
    | some addr =>
      obtain ⟨e, -, -, hpoint, -⟩ := howns addr hentry
      rw [hreq] at hpoint
      cases hpoint
  | point rowId =>
    rw [hreq] at h
    cases hentry : w.entry with
    | none =>
      rw [hentry] at h
      exact ⟨grantEnd_point hreq (Option.some.inj h), fun _ => rfl⟩
    | some addr =>
      rw [hentry] at h
      obtain ⟨e, hfind, h⟩ := Option.bind_eq_some_iff.mp h
      obtain ⟨e₀, he₀, haddr₀, hreq₀, howner₀, hpoint₀⟩ := howns addr hentry
      have haddr : e.addr = addr := by simpa using List.find?_some hfind
      obtain rfl : e = e₀ :=
        hinv.addr e (List.mem_of_find?_eq_some hfind) e₀ he₀ (haddr.trans haddr₀.symm)
      rw [hreq] at hreq₀
      obtain rfl : rowId = e.rowId := LockRequest.point.inj hreq₀
      rw [if_pos ⟨rfl, howner₀⟩] at h
      obtain ⟨rfl, rfl⟩ := Prod.mk.inj (Option.some.inj h)
      refine ⟨⟨rfl, .inl ⟨rfl, waitingWriters_unregister _ w⟩, ?_⟩, nofun⟩
      intro e' he'
      rw [(sameLists_unregister _ w).entries] at he'
      obtain ⟨e'', he'', rfl⟩ := mem_setMode.mp he'
      unfold LockEntry.setMode
      split
      · rename_i heq
        obtain rfl := hinv.addr e'' he'' e he₀ (heq.trans haddr₀.symm)
        right
        simp [LockEntry.grant, LockWait.grant, LockEntry.Covers, hreq, LockRequest.Covers, hpoint₀,
          howner₀]
      · exact .inl he''

/-- One round of the wait loop adds an entry when no check stands in its way. -/
theorem lockWaitLoop_entries (hinv : LockInv s) (howns : w.Owns s.table self)
    (h : lockWaitLoop s self w alloc = some (r, s')) :
    ∀ e ∈ s'.table.entries, e ∈ s.table.entries ∨
      e.grant = w.grant self ∧ r = .granted ∧ readerShouldWait s.table w.mode = false := by
  intro e he
  unfold lockWaitLoop at h
  split at h
  · left
    by_cases hx : w.mode = .x
    · simp only [if_pos hx, Option.some.injEq, Prod.mk.injEq] at h
      obtain ⟨-, rfl⟩ := h
      rwa [(sameLists_register s.table w).entries] at he
    · simp only [if_neg hx, Option.some.injEq, Prod.mk.injEq] at h
      obtain ⟨-, rfl⟩ := h
      exact he
  · rename_i hcheck
    simp only [Bool.or_eq_true, not_or, Bool.not_eq_true] at hcheck
    obtain ⟨hend, -⟩ := grantEnd_lockGrant (hinv.stopWaiting self) howns h
    rcases hend.outcome with ⟨hr, -⟩ | ⟨-, -, hsame⟩
    · exact (hend.entries e he).imp id fun hgrant => ⟨hgrant, hr, hcheck.2⟩
    · rw [hsame] at he
      exact .inl he

/-- **An entry was there, or is for what the call asks for.** -/
theorem exec_entries (hinv : LockInv s) {a : LockAction τ} (ha : a.Enabled s)
    (h : a.exec s = some (r, s')) :
    ∀ e ∈ s'.table.entries, e ∈ s.table.entries ∨ ∃ req mode, a.call s = some (req, mode) ∧
      e.grant = ⟨a.self, mode = .x, {id | req.Covers id}⟩ ∧ r = .granted ∧
      readerShouldWait s.table mode = false := by
  intro e he
  obtain ⟨hen, -⟩ := ha
  cases a with
  | acquire self rowId mode alloc =>
    rcases lockAcquire_cases hinv self rowId mode alloc with
      ⟨-, -, -, -, -, heq⟩ | ⟨entry, howns, heq⟩
    · obtain ⟨-, rfl⟩ := Prod.mk.inj (Option.some.inj (heq.symm.trans h))
      exact .inl he
    · exact (lockWaitLoop_entries hinv howns (heq.symm.trans h) e he).imp id
        fun hnew => ⟨_, _, rfl, hnew⟩
  | acquireRange self low high mode alloc =>
    rcases lockAcquireRange_cases s self low high mode alloc with ⟨-, -, -, -, -, -, heq⟩ | heq
    · obtain ⟨-, rfl⟩ := Prod.mk.inj (Option.some.inj (heq.symm.trans h))
      exact .inl he
    · exact (lockWaitLoop_entries (w := ⟨.range low high, mode, false, none⟩) hinv nofun
        (heq.symm.trans h) e he).imp id fun hnew => ⟨_, _, rfl, hnew⟩
  | wake self alloc =>
    obtain ⟨w, hw⟩ := Option.isSome_iff_exists.mp hen
    have hrun : lockWaitLoop s self w alloc = some (r, s') := by
      simpa [LockAction.exec, lockWake, hw] using h
    exact (lockWaitLoop_entries hinv (hinv.owns self w hw) hrun e he).imp id
      fun hnew => ⟨w.req, w.mode, by simp [LockAction.call, hw], hnew⟩
  | timeout self =>
    obtain ⟨w, hw⟩ := Option.isSome_iff_exists.mp hen
    have hs' : some (LockReply.failed, ({ s with
        table := waitingWriterUnregister s.table w
        waiting := Function.update s.waiting self none } : LockSys τ)) = some (r, s') := by
      simpa [LockAction.exec, lockTimeout, hw] using h
    obtain ⟨-, rfl⟩ := Prod.mk.inj (Option.some.inj hs')
    rw [(sameLists_unregister s.table w).entries] at he
    exact .inl he
  | releaseAll self =>
    obtain ⟨-, rfl⟩ := Prod.mk.inj (Option.some.inj h)
    exact .inl (mem_foldl_remove.mp he).1

/-- **The outcome of a section**, for a call with this request. -/
theorem exec_effect (hinv : LockInv s) {a : LockAction τ} (ha : a.Enabled s)
    {req : LockRequest} {mode : LockMode} (hcall : a.call s = some (req, mode))
    (h : a.exec s = some (r, s')) : LockEffect a.self req mode s s' r := by
  obtain ⟨hen, halloc⟩ := ha
  have hresult : ∀ {r' s''}, a.exec s = some (r', s'') →
      LockEffect a.self req mode s s'' r' → LockEffect a.self req mode s s' r := by
    intro r' s'' hrun heff
    obtain ⟨rfl, rfl⟩ := Prod.mk.inj (Option.some.inj (hrun.symm.trans h))
    exact heff
  cases a with
  | acquire self rowId m alloc =>
    obtain ⟨rfl, rfl⟩ := Prod.mk.inj (Option.some.inj hcall)
    obtain ⟨r', s'', hrun, heff⟩ := lockAcquire_spec hinv hen rowId m halloc
    exact hresult hrun heff
  | acquireRange self low high m alloc =>
    obtain ⟨rfl, rfl⟩ := Prod.mk.inj (Option.some.inj hcall)
    obtain ⟨r', s'', hrun, heff⟩ := lockAcquireRange_spec hinv hen low high m halloc
    exact hresult hrun heff
  | wake self alloc =>
    obtain ⟨w, hw, hreq⟩ := Option.map_eq_some_iff.mp hcall
    obtain ⟨rfl, rfl⟩ := Prod.mk.inj hreq
    obtain ⟨r', s'', hrun, heff⟩ := lockWake_spec hinv hw halloc
    exact hresult hrun heff
  | timeout self =>
    obtain ⟨w, hw, hreq⟩ := Option.map_eq_some_iff.mp hcall
    obtain ⟨rfl, rfl⟩ := Prod.mk.inj hreq
    obtain ⟨s'', hrun, heff⟩ := lockTimeout_spec hw
    exact hresult hrun heff
  | releaseAll self => cases hcall

/-! ## What a call leaves in the table -/

/-- The end of a call takes no entry away; one of its thread may get the mode that it asks for. -/
theorem lockGrant_keeps (h : lockGrant s self w alloc = some (r, s')) :
    ∀ e ∈ s.table.entries, e ∈ s'.table.entries ∨
      ({ e with mode := w.mode } : LockEntry τ) ∈ s'.table.entries := by
  have hpoint : ∀ {rowId}, grantPoint s self w rowId alloc = (r, s') →
      ∀ e ∈ s.table.entries, e ∈ s'.table.entries := by
    intro rowId hgrant e he
    cases alloc with
    | none =>
      obtain ⟨-, rfl⟩ := Prod.mk.inj hgrant
      exact he
    | some addr =>
      obtain ⟨-, rfl⟩ := Prod.mk.inj hgrant
      rw [(sameLists_unregister _ w).entries]
      exact mem_globalListInsertPoint.mpr (.inr he)
  unfold lockGrant at h
  cases hreq : w.req with
  | range low high =>
    rw [hreq] at h
    intro e he
    left
    cases alloc with
    | none =>
      obtain ⟨-, rfl⟩ := Prod.mk.inj (Option.some.inj h)
      exact he
    | some addr =>
      obtain ⟨-, rfl⟩ := Prod.mk.inj (Option.some.inj h)
      rw [(sameLists_unregister _ w).entries]
      exact mem_globalListInsertRange.mpr (.inr he)
  | point rowId =>
    rw [hreq] at h
    cases hentry : w.entry with
    | none =>
      rw [hentry] at h
      exact fun e he => .inl (hpoint (Option.some.inj h) e he)
    | some addr =>
      rw [hentry] at h
      obtain ⟨own, -, h⟩ := Option.bind_eq_some_iff.mp h
      split at h
      · obtain ⟨-, rfl⟩ := Prod.mk.inj (Option.some.inj h)
        intro e he
        have hmem : e.setMode addr w.mode ∈ (s.table.setMode addr w.mode).entries :=
          mem_setMode.mpr ⟨e, he, rfl⟩
        rw [(sameLists_unregister _ w).entries]
        unfold LockEntry.setMode at hmem
        split at hmem
        · exact .inr hmem
        · exact .inl hmem
      · exact fun e he => .inl (hpoint (Option.some.inj h) e he)

theorem lockWaitLoop_keeps (h : lockWaitLoop s self w alloc = some (r, s')) :
    ∀ e ∈ s.table.entries, e ∈ s'.table.entries ∨
      ({ e with mode := w.mode } : LockEntry τ) ∈ s'.table.entries := by
  unfold lockWaitLoop at h
  split at h
  · intro e he
    left
    by_cases hx : w.mode = .x
    · simp only [if_pos hx, Option.some.injEq, Prod.mk.injEq] at h
      obtain ⟨-, rfl⟩ := h
      rwa [(sameLists_register s.table w).entries]
    · simp only [if_neg hx, Option.some.injEq, Prod.mk.injEq] at h
      obtain ⟨-, rfl⟩ := h
      exact he
  · have hkeeps := lockGrant_keeps h
    exact hkeeps

/-- **A call takes no entry away.** -/
theorem exec_keeps (hinv : LockInv s) {a : LockAction τ} {req : LockRequest} {mode : LockMode}
    (hcall : a.call s = some (req, mode)) (h : a.exec s = some (r, s')) :
    ∀ e ∈ s.table.entries, e ∈ s'.table.entries ∨
      ({ e with mode := mode } : LockEntry τ) ∈ s'.table.entries := by
  cases a with
  | acquire self rowId m alloc =>
    obtain ⟨-, rfl⟩ := Prod.mk.inj (Option.some.inj hcall)
    rcases lockAcquire_cases hinv self rowId m alloc with ⟨-, -, -, -, -, heq⟩ | ⟨entry, -, heq⟩
    · obtain ⟨-, rfl⟩ := Prod.mk.inj (Option.some.inj (heq.symm.trans h))
      exact fun e he => .inl he
    · exact lockWaitLoop_keeps (heq.symm.trans h)
  | acquireRange self low high m alloc =>
    obtain ⟨-, rfl⟩ := Prod.mk.inj (Option.some.inj hcall)
    rcases lockAcquireRange_cases s self low high m alloc with ⟨-, -, -, -, -, -, heq⟩ | heq
    · obtain ⟨-, rfl⟩ := Prod.mk.inj (Option.some.inj (heq.symm.trans h))
      exact fun e he => .inl he
    · exact lockWaitLoop_keeps (heq.symm.trans h)
  | wake self alloc =>
    obtain ⟨w, hw, hreq⟩ := Option.map_eq_some_iff.mp hcall
    obtain ⟨-, rfl⟩ := Prod.mk.inj hreq
    have hrun : lockWaitLoop s self w alloc = some (r, s') := by
      simpa [LockAction.exec, lockWake, hw] using h
    exact lockWaitLoop_keeps hrun
  | timeout self =>
    obtain ⟨w, hw, -⟩ := Option.map_eq_some_iff.mp hcall
    have hs' : some (LockReply.failed, ({ s with
        table := waitingWriterUnregister s.table w
        waiting := Function.update s.waiting self none } : LockSys τ)) = some (r, s') := by
      simpa [LockAction.exec, lockTimeout, hw] using h
    obtain ⟨-, rfl⟩ := Prod.mk.inj (Option.some.inj hs')
    intro e he
    rw [(sameLists_unregister s.table w).entries]
    exact .inl he
  | releaseAll self => cases hcall

/-- A thread that asks for a row in mode X still has in mode X what it had. -/
theorem exec_holds (hinv : LockInv s) {a : LockAction τ} {req : LockRequest}
    (hcall : a.call s = some (req, .x)) (h : a.exec s = some (r, s')) {t : τ} {id : Nat}
    (hold : Holds s.table.grants t True id) : Holds s'.table.grants t True id := by
  obtain ⟨g, ⟨e, he, rfl⟩, howner, hid, hx⟩ := hold
  rcases exec_keeps hinv hcall h e he with hmem | hmem
  · exact ⟨e.grant, ⟨e, hmem, rfl⟩, howner, hid, hx⟩
  · exact ⟨_, ⟨_, hmem, rfl⟩, howner, hid, fun _ => rfl⟩

end Calls

end MiniDb
