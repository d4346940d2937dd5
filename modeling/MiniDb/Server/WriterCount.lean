import Mathlib.Data.Set.Card
import MiniDb.Server.LockCalls

/-! # The count of waiting writers

`lt->waiting_writers` holds back readers while a writer waits. A call counts itself when it first
waits for X and takes itself off the count on its way out, on every exit but one: a writer that
has waited and then finds no memory for its entry returns without it. So in every run the count is
the number of X requests that are blocked and, on top, the number of writers lost at that exit.
As long as none is lost no reader overtakes a writer, and no reader waits for a writer that is
gone. -/

set_option autoImplicit false

namespace MiniDb

open Lib

variable {τ : Type}

/-! ## Blocked writers -/

/-- `t` is blocked in a call that asks for X. -/
def LockSys.WriterBlocked (s : LockSys τ) (t : τ) : Prop :=
  ∃ w, s.waiting t = some w ∧ w.mode = .x

/-- What the count is for. -/
structure LockSys.WritersAccounted [DecidableEq τ] (s : LockSys τ) : Prop where
  /-- the count is the number of blocked writers -/
  count : {t | s.WriterBlocked t}.encard = s.table.waitingWriters
  /-- no reader is let in while a writer is blocked -/
  noNewReader : (∃ t, s.WriterBlocked t) → ∀ (a : LockAction τ) r s', a.Enabled s →
    a.exec s = some (r, s') → ∀ e ∈ s'.table.entries, e.mode = .s → e ∈ s.table.entries
  /-- with no writer blocked the count holds nobody back -/
  noHolding : (¬ ∃ t, s.WriterBlocked t) → readerShouldWait s.table .s = false

/-- The section is the end of a wait for X that needs a new entry and gets no memory for it. -/
def LockAction.LosesWriter [DecidableEq τ] (s : LockSys τ) : LockAction τ → Prop
  | .wake self none => ∃ w, s.waiting self = some w ∧ w.mode = .x ∧ w.entry = none ∧
      w.req.conflict s.table w.mode self = false
  | _ => False

open Classical in
/-- The runs of the table, with the number of writers they have lost. -/
inductive LockRun [DecidableEq τ] : Nat → LockSys τ → Prop
  | init : LockRun 0 (lockTableInit τ)
  | step {lost : Nat} {s s' : LockSys τ} {r : LockReply} (run : LockRun lost s)
      (a : LockAction τ) (enabled : a.Enabled s) (exec : a.exec s = some (r, s')) :
      LockRun (lost + if a.LosesWriter s then 1 else 0) s'

/-- They are all the runs there are. -/
theorem exists_lockRun_iff [DecidableEq τ] {s : LockSys τ} :
    (∃ lost, LockRun lost s) ↔ Relation.ReflTransGen LockSys.Step (lockTableInit τ) s := by
  constructor
  · rintro ⟨lost, hrun⟩
    induction hrun with
    | init => exact .refl
    | step run a enabled exec ih => exact ih.tail ⟨a, enabled, _, exec⟩
  · intro hrun
    induction hrun with
    | refl => exact ⟨0, .init⟩
    | tail _ hstep ih =>
      obtain ⟨lost, hlost⟩ := ih
      obtain ⟨a, ha, r, hexec⟩ := hstep
      exact ⟨_, hlost.step a ha hexec⟩

/-! ## The count over a run -/

section Count

variable {s s' : LockSys τ} {self : τ} {lost : Nat}

/-- A call on its own account: 1 while it waits for X. -/
def writerClaim (w : Option LockWait) : Nat :=
  match w with
  | some w => if w.mode = .x then 1 else 0
  | none => 0

theorem writerClaim_eq_one_iff {t : τ} : writerClaim (s.waiting t) = 1 ↔ s.WriterBlocked t := by
  unfold LockSys.WriterBlocked writerClaim
  cases s.waiting t with
  | none => simp
  | some w => simp

theorem writerClaim_eq_zero_iff {t : τ} : writerClaim (s.waiting t) = 0 ↔ ¬ s.WriterBlocked t := by
  unfold LockSys.WriterBlocked writerClaim
  cases s.waiting t with
  | none => simp
  | some w => simp

/-- **The invariant of the count.** A call that waits is registered when it waits for X. -/
structure CountInv (lost : Nat) (s : LockSys τ) : Prop where
  registered : ∀ t w, s.waiting t = some w → (w.registered = true ↔ w.mode = .x)
  count : {t | s.WriterBlocked t}.encard + lost = s.table.waitingWriters

/-- How a section of `t` that loses `lost` writers changes the count. -/
structure CountStep (t : τ) (lost : Nat) (s s' : LockSys τ) : Prop where
  others : ∀ u, u ≠ t → s'.waiting u = s.waiting u
  registered : ∀ w, s'.waiting t = some w → (w.registered = true ↔ w.mode = .x)
  balance : s'.table.waitingWriters + writerClaim (s.waiting t) =
    s.table.waitingWriters + writerClaim (s'.waiting t) + lost

/-- The blocked writers are those other than `t`, and `t` if it is one. -/
theorem encard_writerBlocked (s : LockSys τ) (t : τ) :
    {u | s.WriterBlocked u}.encard =
      ({u | s.WriterBlocked u} \ {t}).encard + writerClaim (s.waiting t) := by
  by_cases ht : t ∈ {u | s.WriterBlocked u}
  · rw [writerClaim_eq_one_iff.mpr ht]
    exact (Set.encard_sdiff_singleton_add_one ht).symm
  · rw [writerClaim_eq_zero_iff.mpr ht, Set.sdiff_singleton_eq_self ht]
    simp

theorem CountInv.step {n : Nat} (h : CountInv lost s) (hstep : CountStep self n s s') :
    CountInv (lost + n) s' := by
  constructor
  · intro t w hw
    by_cases ht : t = self
    · subst ht
      exact hstep.registered w hw
    · rw [hstep.others t ht] at hw
      exact h.registered t w hw
  · have hsame : {t | s'.WriterBlocked t} \ {self} = {t | s.WriterBlocked t} \ {self} := by
      ext t
      simp only [Set.mem_sdiff, Set.mem_ofPred_eq, Set.mem_singleton_iff, LockSys.WriterBlocked]
      refine and_congr_left fun ht => ?_
      rw [hstep.others t ht]
    have hcount := h.count
    rw [encard_writerBlocked s self] at hcount
    rw [encard_writerBlocked s' self, hsame]
    -- the others are finitely many, so the rest is arithmetic
    have hfinite : ({t | s.WriterBlocked t} \ {self}).encard ≠ ⊤ := by
      intro htop
      rw [htop] at hcount
      simp at hcount
    obtain ⟨k, hk⟩ := ENat.ne_top_iff_exists.mp hfinite
    rw [← hk] at hcount ⊢
    have hbalance := hstep.balance
    norm_cast at hcount ⊢
    omega

/-- A registered writer is in the count. -/
theorem CountInv.pos (h : CountInv lost s) {t : τ} (ht : s.WriterBlocked t) :
    0 < s.table.waitingWriters := by
  have hcount := h.count
  rw [encard_writerBlocked s t, writerClaim_eq_one_iff.mpr ht] at hcount
  rcases Nat.eq_zero_or_pos s.table.waitingWriters with hzero | hpos
  · rw [hzero] at hcount
    simp at hcount
  · exact hpos

end Count

/-! ## One section -/

section Sections

variable [DecidableEq τ] {s s' : LockSys τ} {self : τ} {w : LockWait} {alloc : Option Nat}
  {r : LockReply} {lost : Nat}

/-- One round of the wait loop. `w` is not yet registered when the call has not waited. -/
theorem lockWaitLoop_count (hinv : LockInv s) (howns : w.Owns s.table self)
    (hclaim : writerClaim (s.waiting self) = if w.registered then 1 else 0)
    (hreg : w.registered = true → w.mode = .x)
    (hpos : w.registered = true → 0 < s.table.waitingWriters)
    (h : lockWaitLoop s self w alloc = some (r, s')) :
    CountStep self (if r = .failed ∧ w.registered = true then 1 else 0) s s' ∧
      (r = .failed → alloc = none ∧ w.entry = none ∧
        w.req.conflict s.table w.mode self = false) := by
  unfold lockWaitLoop at h
  split at h
  · by_cases hx : w.mode = .x
    · -- the thread blocks as a writer
      simp only [if_pos hx, Option.some.injEq, Prod.mk.injEq] at h
      obtain ⟨rfl, rfl⟩ := h
      refine ⟨⟨fun u hu => Function.update_of_ne hu _ _, ?_, ?_⟩, fun hr => by cases hr⟩
      · intro w' hw'
        obtain rfl : (waitingWriterRegister s.table w).2 = w' := by simpa using hw'
        unfold waitingWriterRegister
        split
        · simpa [hx] using ‹w.registered = true›
        · simpa using hx
      · rw [hclaim]
        cases hw : w.registered <;> simp [waitingWriterRegister, writerClaim, hx, hw]
    · -- the thread blocks as a reader
      simp only [if_neg hx, Option.some.injEq, Prod.mk.injEq] at h
      obtain ⟨rfl, rfl⟩ := h
      have hno : w.registered = false := by
        rw [← Bool.not_eq_true]
        exact fun hw => hx (hreg hw)
      refine ⟨⟨fun u hu => Function.update_of_ne hu _ _, ?_, ?_⟩, fun hr => by cases hr⟩
      · intro w' hw'
        obtain rfl : w = w' := by simpa using hw'
        simp [hx, hno]
      · rw [hclaim]
        simp [hno, writerClaim, hx]
  · rename_i hcheck
    simp only [Bool.or_eq_true, not_or, Bool.not_eq_true] at hcheck
    obtain ⟨hend, hentry⟩ := grantEnd_lockGrant (hinv.stopWaiting self) howns h
    have hstop : s'.waiting self = none := by simp [hend.waiting]
    refine ⟨⟨?_, ?_, ?_⟩, ?_⟩
    · intro u hu
      rw [hend.waiting]
      exact Function.update_of_ne hu _ _
    · intro w' hw'
      rw [hstop] at hw'
      cases hw'
    · rw [hclaim, hstop]
      rcases hend.outcome with ⟨rfl, hcount⟩ | ⟨rfl, -, rfl⟩
      · cases hw : w.registered
        · simp [hcount, hw, writerClaim]
        · have hwaits := hpos hw
          simp [hcount, hw, writerClaim]
          omega
      · simp [writerClaim]
    · intro hfailed
      refine ⟨?_, hentry hfailed, hcheck.1⟩
      rcases hend.outcome with ⟨rfl, -⟩ | ⟨-, halloc, -⟩
      · cases hfailed
      · exact halloc

/-- A call that needs an entry and may have one fails for want of memory only. -/
theorem lockWaitLoop_failed (hx : w.mode = .x) (hentry : w.entry = none)
    (hcheck : w.req.conflict s.table w.mode self = false)
    (h : lockWaitLoop s self w none = some (r, s')) : r = .failed := by
  have hreader : readerShouldWait s.table w.mode = false := by simp [readerShouldWait, hx]
  unfold lockWaitLoop lockGrant at h
  rw [if_neg (by simp [hcheck, hreader])] at h
  cases hreq : w.req with
  | range low high =>
    simp only [hreq, grantRange, Option.some.injEq, Prod.mk.injEq] at h
    exact h.1.symm
  | point rowId =>
    simp only [hreq, hentry, grantPoint, Option.some.injEq, Prod.mk.injEq] at h
    exact h.1.symm

omit [DecidableEq τ] in
theorem CountStep.keep (hwait : s.waiting self = none) : CountStep self 0 s s := by
  refine ⟨fun _ _ => rfl, ?_, rfl⟩
  intro w hw
  rw [hwait] at hw
  cases hw

/-- A call that has not waited. -/
theorem lockWaitLoop_count_first (hinv : LockInv s) (hwait : s.waiting self = none)
    (howns : w.Owns s.table self) (hw : w.registered = false)
    (h : lockWaitLoop s self w alloc = some (r, s')) : CountStep self 0 s s' := by
  have hstep := (lockWaitLoop_count hinv howns (by simp [hwait, hw, writerClaim]) (by simp [hw])
    (by simp [hw]) h).1
  simpa [hw] using hstep

theorem lockAcquire_count (hinv : LockInv s) (hwait : s.waiting self = none) {rowId : Nat}
    {mode : LockMode} (h : lockAcquire s self rowId mode alloc = some (r, s')) :
    CountStep self 0 s s' := by
  rcases lockAcquire_cases hinv self rowId mode alloc with
    ⟨-, -, -, -, -, heq⟩ | ⟨entry, howns, heq⟩
  · obtain ⟨-, rfl⟩ := Prod.mk.inj (Option.some.inj (heq.symm.trans h))
    exact .keep hwait
  · exact lockWaitLoop_count_first hinv hwait howns rfl (heq.symm.trans h)

theorem lockAcquireRange_count (hinv : LockInv s) (hwait : s.waiting self = none) {low high : Nat}
    {mode : LockMode} (h : lockAcquireRange s self low high mode alloc = some (r, s')) :
    CountStep self 0 s s' := by
  rcases lockAcquireRange_cases s self low high mode alloc with ⟨-, -, -, -, -, -, heq⟩ | heq
  · obtain ⟨-, rfl⟩ := Prod.mk.inj (Option.some.inj (heq.symm.trans h))
    exact .keep hwait
  · exact lockWaitLoop_count_first (w := ⟨.range low high, mode, false, none⟩) hinv hwait nofun rfl
      (heq.symm.trans h)

/-- A woken call loses its writer exactly when it fails and is registered. -/
theorem lockWake_count (hinv : LockInv s) (hcount : CountInv lost s) (hw : s.waiting self = some w)
    (h : lockWake s self alloc = some (r, s')) :
    ∃ n, CountStep self n s s' ∧
      (n = 1 ∧ (LockAction.wake self alloc).LosesWriter s ∨
        n = 0 ∧ ¬ (LockAction.wake self alloc).LosesWriter s) := by
  have hreg := hcount.registered self w hw
  have hrun : lockWaitLoop s self w alloc = some (r, s') := by
    simpa [lockWake, hw] using h
  obtain ⟨hstep, hfailed⟩ := lockWaitLoop_count hinv (hinv.owns self w hw)
    (by simp [hw, writerClaim, hreg]) hreg.mp
    (fun hx => hcount.pos ⟨w, hw, hreg.mp hx⟩) hrun
  refine ⟨_, hstep, ?_⟩
  by_cases hlost : (LockAction.wake self alloc).LosesWriter s
  · left
    refine ⟨if_pos ?_, hlost⟩
    cases alloc with
    | some addr => exact hlost.elim
    | none =>
      obtain ⟨w', hw', hx, hentry, hcheck⟩ := hlost
      obtain rfl : w = w' := Option.some.inj (hw.symm.trans hw')
      exact ⟨lockWaitLoop_failed hx hentry hcheck hrun, hreg.mpr hx⟩
  · right
    refine ⟨if_neg ?_, hlost⟩
    intro hfail
    apply hlost
    obtain ⟨rfl, hentry, hcheck⟩ := hfailed hfail.1
    exact ⟨w, hw, hreg.mp hfail.2, hentry, hcheck⟩

theorem lockTimeout_count (hcount : CountInv lost s) (hw : s.waiting self = some w)
    (h : lockTimeout s self = some (r, s')) : CountStep self 0 s s' := by
  have hreg := hcount.registered self w hw
  have hrun : some (LockReply.failed, ({ s with
      table := waitingWriterUnregister s.table w
      waiting := Function.update s.waiting self none } : LockSys τ)) = some (r, s') := by
    simpa [lockTimeout, hw] using h
  obtain ⟨-, rfl⟩ := Prod.mk.inj (Option.some.inj hrun)
  refine ⟨fun u hu => Function.update_of_ne hu _ _, by simp, ?_⟩
  by_cases hx : w.mode = .x
  · have hpos := hcount.pos ⟨w, hw, hx⟩
    simp only [hw, writerClaim, hx, waitingWriters_unregister, hreg, if_true,
      Function.update_self]
    omega
  · simp [hw, writerClaim, hx, waitingWriters_unregister, hreg]

theorem lockReleaseAll_count (hwait : s.waiting self = none) :
    CountStep self 0 s (lockReleaseAll s self) := by
  refine ⟨fun _ _ => rfl, (CountStep.keep hwait).registered, ?_⟩
  have hfold : ∀ (addrs : List Nat) (lt : LockTable τ),
      (addrs.foldl globalListRemove lt).waitingWriters = lt.waitingWriters := by
    intro addrs
    induction addrs with
    | nil => exact fun _ => rfl
    | cons a addrs ih => exact fun lt => ih (globalListRemove lt a)
  show ((s.held self).foldl globalListRemove s.table).waitingWriters + _ =
    s.table.waitingWriters + writerClaim (s.waiting self) + 0
  rw [hfold]
  rfl

open Classical in
/-- **What a section does to the count.** -/
theorem countStep_exec (hinv : LockInv s) (hcount : CountInv lost s) {a : LockAction τ}
    (ha : a.Enabled s) (h : a.exec s = some (r, s')) :
    CountStep a.self (if a.LosesWriter s then 1 else 0) s s' := by
  obtain ⟨hen, -⟩ := ha
  cases a with
  | acquire self rowId mode alloc =>
    rw [if_neg (show ¬ LockAction.LosesWriter s (.acquire self rowId mode alloc) from id)]
    exact lockAcquire_count hinv hen h
  | acquireRange self low high mode alloc =>
    rw [if_neg (show ¬ LockAction.LosesWriter s (.acquireRange self low high mode alloc) from id)]
    exact lockAcquireRange_count hinv hen h
  | wake self alloc =>
    obtain ⟨w, hw⟩ := Option.isSome_iff_exists.mp hen
    obtain ⟨n, hstep, ⟨rfl, hlost⟩ | ⟨rfl, hkept⟩⟩ := lockWake_count hinv hcount hw h
    · rw [if_pos hlost]
      exact hstep
    · rw [if_neg hkept]
      exact hstep
  | timeout self =>
    rw [if_neg (show ¬ LockAction.LosesWriter s (.timeout self) from id)]
    obtain ⟨w, hw⟩ := Option.isSome_iff_exists.mp hen
    exact lockTimeout_count hcount hw h
  | releaseAll self =>
    rw [if_neg (show ¬ LockAction.LosesWriter s (.releaseAll self) from id)]
    obtain ⟨-, rfl⟩ := Prod.mk.inj (Option.some.inj h)
    exact lockReleaseAll_count hen

/-! ## Runs -/

theorem LockRun.countInv (h : LockRun lost s) : CountInv lost s := by
  induction h with
  | init => exact ⟨nofun, by simp [LockSys.WriterBlocked, lockTableInit]⟩
  | step run a enabled exec ih =>
    have hinv := lockInv_reachable (exists_lockRun_iff.mp ⟨_, run⟩)
    exact ih.step (countStep_exec hinv ih enabled exec)

/-- **Writers are accounted for exactly as long as the run has lost none.** -/
theorem writersAccounted_iff (h : LockRun lost s) : s.WritersAccounted ↔ lost = 0 := by
  have hcount := h.countInv
  have hinv := lockInv_reachable (exists_lockRun_iff.mp ⟨_, h⟩)
  constructor
  · intro hacc
    have hsum := hcount.count
    rw [← hacc.count] at hsum
    have hfinite : {t | s.WriterBlocked t}.encard ≠ ⊤ := by
      rw [hacc.count]
      exact ENat.natCast_ne_top _
    obtain ⟨k, hk⟩ := ENat.ne_top_iff_exists.mp hfinite
    rw [← hk] at hsum
    norm_cast at hsum
    omega
  · rintro rfl
    have hsum : {t | s.WriterBlocked t}.encard = s.table.waitingWriters := by
      simpa using hcount.count
    refine ⟨hsum, ?_, ?_⟩
    · rintro ⟨t, ht⟩ a r s' ha hexec e he hmode
      rcases exec_entries hinv ha hexec e he with hold | ⟨req, mode, -, hgrant, -, hreader⟩
      · exact hold
      · -- a new entry in mode S would have seen the writer
        have hpos := hcount.pos ht
        have hs : mode = .s := by
          have hx : (e.mode = .x) = (mode = .x) := congrArg Grant.exclusive hgrant
          cases mode with
          | s => rfl
          | x => exact absurd (hx.mpr rfl) (by simp [hmode])
        simp only [readerShouldWait, hs, beq_self_eq_true, Bool.true_and,
          decide_eq_false_iff_not] at hreader
        omega
    · intro hnone
      have hempty : {t | s.WriterBlocked t} = ∅ :=
        Set.eq_empty_of_forall_notMem fun t ht => hnone ⟨t, ht⟩
      rw [hempty, Set.encard_empty] at hsum
      have hzero : s.table.waitingWriters = 0 := by exact_mod_cast hsum.symm
      simp [readerShouldWait, hzero]

end Sections

/-- A reader holds row 5, a writer waits for it, and nobody is lost. -/
theorem writersAccounted_iff_blocked :
    ∃ s : LockSys Nat, LockRun 0 s ∧ s.WriterBlocked 2 ∧ (s.WritersAccounted ↔ 0 = 0) := by
  obtain ⟨s₁, s₂, h₁, h₂, hwait, hblocked⟩ : ∃ s₁ s₂,
      lockAcquire (lockTableInit Nat) 1 5 .s (some 100) = some (.granted, s₁) ∧
      lockAcquire s₁ 2 5 .x none = some (.blocked, s₂) ∧ s₁.waiting 2 = none ∧
      s₂.waiting 2 = some ⟨.point 5, .x, true, none⟩ :=
    ⟨_, _, rfl, rfl, rfl, rfl⟩
  have hrun₁ : LockRun 0 s₁ := by
    have hstep := LockRun.init.step (.acquire 1 5 .s (some 100))
      ⟨rfl, by simp [LockAction.alloc]⟩ h₁
    rwa [if_neg (show ¬ LockAction.LosesWriter _ (.acquire 1 5 .s (some 100)) from id)] at hstep
  have hrun₂ : LockRun 0 s₂ := by
    have hstep := hrun₁.step (.acquire 2 5 .x none) ⟨hwait, by simp [LockAction.alloc]⟩ h₂
    rwa [if_neg (show ¬ LockAction.LosesWriter _ (.acquire 2 5 .x none) from id)] at hstep
  exact ⟨s₂, hrun₂, ⟨_, hblocked, rfl⟩, writersAccounted_iff hrun₂⟩

/-- The writer of row 5 waits for a reader and then finds no memory: nobody is blocked, and still
the reader of row 7 must wait. -/
theorem not_writersAccounted :
    ∃ s : LockSys Nat, Relation.ReflTransGen LockSys.Step (lockTableInit Nat) s ∧
      ¬ s.WritersAccounted ∧ (∀ t, ¬ s.WriterBlocked t) ∧
      (lockAcquire s 3 7 .s (some 300)).map Prod.fst = some .blocked := by
  obtain ⟨s₁, s₂, s₃, s₄, h₁, h₂, h₃, h₄, hwait₁, hwait₂, hwait₃, hwaiting, hcount, hblocked⟩ :
      ∃ s₁ s₂ s₃ s₄,
      lockAcquire (lockTableInit Nat) 1 5 .s (some 100) = some (.granted, s₁) ∧
      lockAcquire s₁ 2 5 .x none = some (.blocked, s₂) ∧
      lockReleaseAll s₂ 1 = s₃ ∧
      lockWake s₃ 2 none = some (.failed, s₄) ∧
      s₁.waiting 2 = none ∧ s₂.waiting 1 = none ∧ (s₃.waiting 2).isSome ∧
      s₄.waiting = Function.update (Function.update (Function.update (fun _ => none) 1 none) 2
        (some ⟨.point 5, .x, true, none⟩)) 2 none ∧ s₄.table.waitingWriters = 1 ∧
      (lockAcquire s₄ 3 7 .s (some 300)).map Prod.fst = some .blocked :=
    ⟨_, _, _, _, rfl, rfl, rfl, rfl, rfl, rfl, rfl, rfl, rfl, rfl⟩
  have hnone : ∀ t, ¬ s₄.WriterBlocked t := by
    intro t hwriter
    obtain ⟨w, hw, -⟩ := hwriter
    rw [hwaiting] at hw
    by_cases ht : t = 2 <;> simp [Function.update, ht] at hw
  refine ⟨s₄, ?_, ?_, hnone, hblocked⟩
  · have hstep₁ : LockSys.Step (lockTableInit Nat) s₁ :=
      ⟨.acquire 1 5 .s (some 100), ⟨rfl, by simp [LockAction.alloc]⟩, _, h₁⟩
    have hstep₂ : LockSys.Step s₁ s₂ :=
      ⟨.acquire 2 5 .x none, ⟨hwait₁, by simp [LockAction.alloc]⟩, _, h₂⟩
    have hstep₃ : LockSys.Step s₂ s₃ :=
      ⟨.releaseAll 1, ⟨hwait₂, by simp [LockAction.alloc]⟩, .granted, by rw [← h₃]; rfl⟩
    have hstep₄ : LockSys.Step s₃ s₄ :=
      ⟨.wake 2 none, ⟨hwait₃, by simp [LockAction.alloc]⟩, _, h₄⟩
    exact (((Relation.ReflTransGen.single hstep₁).tail hstep₂).tail hstep₃).tail hstep₄
  · intro hacc
    have hfree := hacc.noHolding fun hwriter => hnone _ hwriter.choose_spec
    rw [readerShouldWait, hcount] at hfree
    cases hfree

end MiniDb
