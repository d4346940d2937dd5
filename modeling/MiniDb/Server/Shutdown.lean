import Mathlib.Algebra.Order.BigOperators.Group.Finset
import MiniDb.Server.Connections

/-! # The server from its start to its end

What the invariant of the process says about every run: nobody uses the database when it has been
closed, nobody closes what is not his, and the main thread comes to its end. -/

set_option autoImplicit false

namespace MiniDb

open Lib

section Runs

variable {τ : Type} [DecidableEq τ] {s s' : Server τ} {fds : Nat → Option FdKind}
  {serverFd pagerFd : Nat}

omit [DecidableEq τ] in
/-- Where nobody is in the table there is no thread of a connection. -/
theorem ServerInv.absent (h : ServerInv s) (hactive : s.active = 0) :
    (∀ t, s.handlers t = .absent) ∧ ∀ i, s.slots i = none := by
  have hfree : ∀ i, ¬ s.slots i ≠ none := by
    rw [h.active] at hactive
    exact usedCount_eq_zero.mp (Int.natCast_eq_zero.mp hactive)
  refine ⟨fun t => ?_, fun i => not_not.mp (hfree i)⟩
  have hslot : (s.handlers t).slot = none := h.slots.eq_none hfree (some t)
  cases hpos : s.handlers t with
  | absent => rfl
  | serving fd slot | hanging fd slot | served fd slot | closed slot =>
    rw [hpos] at hslot
    cases hslot

/-- **The database outlives the connections.** In every state that any interleaving of the threads
leads to, a thread that serves a connection finds lock table and database open; and behind the wait
no thread of a connection is left, its table is empty and no connection is open. -/
theorem server_drained (hstart : StartFds fds serverFd pagerFd)
    (hrun : Server.Reach (Server.init fds serverFd pagerFd) s) :
    (∀ t fd slot, s.handlers t = .serving fd slot ∨ s.handlers t = .hanging fd slot →
        s.locksOpen = true ∧ s.pagerOpen = true) ∧
      (s.main.Drained → (∀ t, s.handlers t = .absent) ∧ (∀ i, s.slots i = none) ∧
        ∀ fd, s.fds fd ≠ some .connection) := by
  have h := Server.Reach.inv hstart hrun
  constructor
  · intro t fd slot hpos
    have hnot : ¬ s.main.Drained := by
      intro hd
      rw [(h.absent (h.drained hd)).1 t] at hpos
      rcases hpos with hpos | hpos <;> cases hpos
    constructor
    · by_contra hc
      exact hnot (h.locksOpen (Bool.eq_false_of_not_eq_true hc)).1
    · by_contra hc
      rw [h.pagerOpen (Bool.eq_false_of_not_eq_true hc)] at hnot
      exact hnot trivial
  · intro hd
    obtain ⟨habsent, hslots⟩ := h.absent (h.drained hd)
    refine ⟨habsent, hslots, fun fd hfd => ?_⟩
    obtain ⟨k, hk⟩ := (h.fds.used_iff fd).mp hfd
    cases k with
    | none =>
      change s.main.fd = some fd at hk
      cases hm : s.main with
      | accepted | counted | refused | registered =>
        rw [hm] at hd
        exact hd
      | _ =>
        rw [hm] at hk
        cases hk
    | some t =>
      change (s.handlers t).fd = some fd at hk
      rw [habsent t] at hk
      cases hk

/-- **The table of connections.** In every such state `g_active_connections` is the number of
places in use, at most 128; two threads have neither one place nor one open connection; and a
connection is refused only when all places are in use. -/
theorem server_table (hstart : StartFds fds serverFd pagerFd)
    (hrun : Server.Reach (Server.init fds serverFd pagerFd) s) :
    s.active = usedCount (fun i => s.slots i ≠ none) ∧ s.active ≤ maxConnections ∧
      (∀ t u, t ≠ u → (∀ i, (s.handlers t).slot = some i → (s.handlers u).slot ≠ some i) ∧
        ∀ fd, (s.handlers t).fd = some fd → (s.handlers u).fd ≠ some fd) ∧
      ∀ fd s', registerConnectionFd s fd = (none, s') → s' = s ∧ ∀ i, s.slots i ≠ none := by
  have h := Server.Reach.inv hstart hrun
  have hle : usedCount (fun i => s.slots i ≠ none) ≤ maxConnections :=
    le_of_le_of_eq usedCount_le (Fintype.card_fin _)
  refine ⟨h.active, ?_, fun t u htu => ⟨fun i ht hu => ?_, fun fd ht hu => ?_⟩, fun fd s' hreg => ?_⟩
  · rw [h.active]
    exact Int.ofNat_le.mpr hle
  · exact htu (Option.some.inj (h.slots.inj (some t) (some u) i ht hu))
  · exact htu (Option.some.inj (h.fds.inj (some t) (some u) fd ht hu))
  · obtain ⟨-, rfl, hfull⟩ | ⟨i, hi, -⟩ := registerConnectionFd_cases hreg
    · refine ⟨rfl, ?_⟩
      rcases hfull with hfull | hall
      · rw [h.active] at hfull
        exact all_used (le_of_eq_of_le (Fintype.card_fin _) (Int.ofNat_le.mp hfull))
      · exact hall
    · cases hi

/-! ### Descriptors -/

/-- The database keeps its descriptor. -/
theorem Server.Reach.pagerFd_eq (hrun : Server.Reach (Server.init fds serverFd pagerFd) s) :
    s.pagerFd = pagerFd := by
  induction hrun with
  | refl => rfl
  | tail _ hstep ih =>
    cases hstep with
    | register pos exec | full pos exec =>
      obtain ⟨-, rfl, -⟩ | ⟨i, -, -, rfl⟩ := registerConnectionFd_cases exec <;> exact ih
    | _ => exact ih

/-- **Descriptors are not confused.** The files of the process stay open, that of the database until
`pager_close` closes it; what is in the table, and may be shut down, is a connection or has been
closed, although its number may be that of a later connection. -/
theorem server_descriptors (hstart : StartFds fds serverFd pagerFd)
    (hrun : Server.Reach (Server.init fds serverFd pagerFd) s) :
    (∀ fd, s.fds fd = some .file ↔
        fds fd = some .file ∧ (fd = pagerFd → s.pagerOpen = true)) ∧
      ∀ slot fd, s.slots slot = some fd → s.fds fd = none ∨ s.fds fd = some .connection := by
  refine ⟨?_, (Server.Reach.inv hstart hrun).stale⟩
  have hpagerFd := Server.Reach.pagerFd_eq hrun
  induction hrun with
  | refl => exact fun fd => (and_iff_left fun _ => rfl).symm
  | @tail s s' hreach hstep ih =>
    have h := Server.Reach.inv hstart hreach
    replace ih := ih (Server.Reach.pagerFd_eq hreach)
    have hclose : ∀ fd, s.fds fd ≠ some .file → ∀ f,
        Function.update s.fds fd none f = some .file ↔
          fds f = some .file ∧ (f = pagerFd → s.pagerOpen = true) := by
      intro fd hfd f
      by_cases hf : f = fd
      · rw [← ih, hf, Function.update_self]
        exact iff_of_false nofun hfd
      · rw [← ih, Function.update_of_ne hf]
    -- what a thread closes is its own connection
    have hown : ∀ k fd, s.fdOf k = some fd → s.fds fd ≠ some .file := by
      intro k fd hk hfile
      have hconn := h.fds.in_use hk
      rw [hfile] at hconn
      cases hconn
    have hmain : ∀ fd, s.main.fd = some fd → s.fds fd ≠ some .file := hown none
    cases hstep with
    | accept fd pos fresh =>
      intro f
      show Function.update s.fds fd _ f = some .file ↔ _
      by_cases hf : f = fd
      · rw [← ih, hf, fresh, Function.update_self]
        exact iff_of_false nofun nofun
      · rw [← ih, Function.update_of_ne hf]
    | timeoutFails pos | refuse pos | createFails pos =>
      exact hclose _ (hmain _ (by rw [pos]; rfl))
    | closeServer pos =>
      apply hclose
      rw [h.listens (pos ▸ trivial)]
      nofun
    | close t pos =>
      apply hclose _ (hown (some t) _ _)
      show (s.handlers t).fd = _
      rw [pos]
      rfl
    | closePager pos =>
      intro f
      show Function.update s.fds s.pagerFd none f = some .file ↔
        fds f = some .file ∧ (f = pagerFd → false = true)
      rw [Server.Reach.pagerFd_eq hreach]
      by_cases hf : f = pagerFd
      · rw [hf, Function.update_self]
        exact iff_of_false nofun fun hc => absurd (hc.2 rfl) Bool.false_ne_true
      · rw [Function.update_of_ne hf, ih]
        exact and_congr_right' (iff_of_true (fun hc => absurd hc hf) fun hc => absurd hc hf)
    | register pos exec | full pos exec =>
      obtain ⟨-, rfl, -⟩ | ⟨i, -, -, rfl⟩ := registerConnectionFd_cases exec <;> exact ih
    | _ => exact ih

/-! ### The end -/

/-- How many steps the main thread is away from its end, behind the loop. -/
def MainPos.rank : MainPos → Nat
  | .leaving => 7
  | .draining => 6
  | .woken => 5
  | .asleep => 4
  | .drained => 3
  | .destroyed => 2
  | .flushed => 1
  | _ => 0

/-- How many steps a thread of a connection is away from its end; one that hangs takes no step. -/
def HandlerPos.rank : HandlerPos → Nat
  | .serving _ _ => 3
  | .hanging _ _ => 0
  | .served _ _ => 2
  | .closed _ => 1
  | .absent => 0

/-- The loop is over. -/
def MainPos.Stopping (pos : MainPos) : Prop := pos = .leaving ∨ ¬ pos.Listens

/-- What is left to do; a thread that leaves may wake the main thread. -/
def Server.work [Fintype τ] (s : Server τ) : Nat := s.main.rank + 2 * ∑ t, (s.handlers t).rank

section Stop

variable [Fintype τ] {t : τ}

/-- A thread of a connection comes closer to its end. -/
theorem work_lt {pos : HandlerPos} (hh : s'.handlers = Function.update s.handlers t pos)
    (hm : s'.main.rank ≤ s.main.rank + 1) (hpos : pos.rank < (s.handlers t).rank) :
    s'.work < s.work := by
  have hsum : ∑ u, (s'.handlers u).rank < ∑ u, (s.handlers u).rank := by
    rw [hh]
    refine Finset.sum_lt_sum (fun u _ => ?_) ⟨t, Finset.mem_univ t, ?_⟩
    · by_cases hu : u = t
      · rw [hu, Function.update_self]
        exact hpos.le
      · rw [Function.update_of_ne hu]
    · rw [Function.update_self]
      exact hpos
  unfold Server.work
  omega

omit [DecidableEq τ] in
theorem work_lt_main {pos : MainPos} (hh : s'.handlers = s.handlers) (hm : s'.main = pos)
    (hpos : pos.rank < s.main.rank) : s'.work < s.work := by
  unfold Server.work
  rw [hh, hm]
  omega

omit [DecidableEq τ] [Fintype τ] in
theorem MainPos.stopping_cases {pos : MainPos} (h : pos.Stopping) :
    pos = .leaving ∨ pos = .draining ∨ pos = .asleep ∨ pos = .woken ∨ pos = .drained ∨
      pos = .destroyed ∨ pos = .flushed ∨ pos = .finished := by
  rcases h with rfl | h
  · exact .inl rfl
  · cases pos with
    | draining | asleep | woken | drained | destroyed | flushed | finished => simp
    | _ => exact absurd trivial h

omit [DecidableEq τ] [Fintype τ] in
theorem Server.waitPos_cases (s : Server τ) : s.waitPos = .asleep ∨ s.waitPos = .drained := by
  unfold Server.waitPos
  split
  · exact .inl rfl
  · exact .inr rfl

/-- Behind the loop every step leaves less to do, but for a request that is served, a signal, and a
wake-up without a broadcast. -/
theorem Server.Step.work_lt (hstop : s.main.Stopping) (hstep : s.Step s') :
    s'.main.Stopping ∧ (s'.work < s.work ∨
      s'.handlers = s.handlers ∧ (s'.main = s.main ∨ s.main = .asleep ∧ s'.main = .woken)) := by
  have hloop : ∀ {pos : MainPos}, s.main = pos → ¬ pos.Stopping → False :=
    fun hpos hnot => hnot (hpos ▸ hstop)
  have hwait : s.main = .draining ∨ s.main = .woken → s.waitPos.Stopping ∧
      s.waitPos.rank < s.main.rank := by
    intro hpos
    rcases s.waitPos_cases with hw | hw <;> rcases hpos with hpos | hpos <;> rw [hw, hpos] <;>
      exact ⟨.inr id, by decide⟩
  cases hstep with
  | signal => exact ⟨hstop, .inr ⟨rfl, .inl rfl⟩⟩
  | serve t pos => exact ⟨hstop, .inr ⟨rfl, .inl rfl⟩⟩
  | spurious pos => exact ⟨.inr id, .inr ⟨rfl, .inr ⟨pos, rfl⟩⟩⟩
  | drain pos => exact ⟨(hwait (.inl pos)).1, .inl (work_lt_main rfl rfl (hwait (.inl pos)).2)⟩
  | test pos => exact ⟨(hwait (.inr pos)).1, .inl (work_lt_main rfl rfl (hwait (.inr pos)).2)⟩
  | closeServer pos | destroy pos | flush pos | closePager pos =>
    exact ⟨.inr id, .inl (work_lt_main rfl rfl (pos ▸ Nat.lt_succ_self _))⟩
  | hang t pos =>
    exact ⟨hstop, .inl (MiniDb.work_lt rfl (Nat.le_succ _) (by rw [pos]; exact Nat.succ_pos 2))⟩
  | leave t pos =>
    exact ⟨hstop, .inl (MiniDb.work_lt rfl (Nat.le_succ _) (by rw [pos]; exact Nat.lt_succ_self 2))⟩
  | close t pos =>
    exact ⟨hstop, .inl (MiniDb.work_lt rfl (Nat.le_succ _) (by rw [pos]; exact Nat.lt_succ_self 1))⟩
  | @unregister slot t pos =>
    -- the last thread may wake the main thread
    have hmain : (unregisterConnectionSlot s slot).main.Stopping ∧
        (unregisterConnectionSlot s slot).main.rank ≤ s.main.rank + 1 := by
      show (if s.active = 1 then s.main.wake else s.main).Stopping ∧
        (if s.active = 1 then s.main.wake else s.main).rank ≤ _
      split
      · rcases MainPos.stopping_cases hstop with hpos | hpos | hpos | hpos | hpos | hpos | hpos |
          hpos <;> rw [hpos]
        · exact ⟨.inl rfl, by decide⟩
        all_goals exact ⟨.inr id, by decide⟩
      · exact ⟨hstop, Nat.le_succ _⟩
    exact ⟨hmain.1, .inl (MiniDb.work_lt rfl hmain.2 (by rw [pos]; exact Nat.lt_succ_self 0))⟩
  | next pos | acceptFails pos | accept fd pos | timeoutFails pos | timeoutSet pos | register pos
  | full pos | refuse pos | create t pos | createFails pos | abandon pos =>
    exact (hloop pos (by rintro (h | h); cases h; exact h trivial)).elim

/-- The thread is in a request that never ends. -/
def HandlerPos.Hangs (pos : HandlerPos) : Prop := ∃ fd slot, pos = .hanging fd slot

/-- Somebody can go on, without a request that hangs from now on. -/
theorem ServerInv.exists_step (h : ServerInv s) (hstop : s.main.Stopping)
    (hends : ∀ t, ¬ (s.handlers t).Hangs) (hne : s.main ≠ .finished) :
    ∃ s', s.Step s' ∧ s'.work < s.work ∧ ∀ t, ¬ (s'.handlers t).Hangs := by
  have hupdate : ∀ (t : τ) (pos : HandlerPos), ¬ pos.Hangs →
      ∀ u, ¬ (Function.update s.handlers t pos u).Hangs := by
    intro t pos hpos u
    by_cases hu : u = t
    · rw [hu, Function.update_self]
      exact hpos
    · rw [Function.update_of_ne hu]
      exact hends u
  have hwait : ∀ pos, s.main = pos → s.waitPos.rank < pos.rank →
      ({ s with main := s.waitPos } : Server τ).work < s.work ∧
        ∀ t, ¬ (s.handlers t).Hangs := by
    intro pos hpos hlt
    exact ⟨work_lt_main rfl rfl (hpos ▸ hlt), hends⟩
  have hrank : s.waitPos.rank < 5 := by
    rcases s.waitPos_cases with hw | hw <;> rw [hw] <;> decide
  rcases MainPos.stopping_cases hstop with hpos | hpos | hpos | hpos | hpos | hpos | hpos | hpos
  · exact ⟨_, .closeServer hpos, work_lt_main rfl rfl (hpos ▸ Nat.lt_succ_self _), hends⟩
  · exact ⟨_, .drain hpos, hwait _ hpos (lt_trans hrank (Nat.lt_succ_self 5))⟩
  · -- the main thread sleeps because somebody is in the table
    have hused : ∃ i, s.slots i ≠ none := by
      by_contra hnone
      have hactive := h.asleep hpos
      rw [h.active, usedCount_eq_zero.mpr fun i hi => hnone ⟨i, hi⟩] at hactive
      exact lt_irrefl _ hactive
    obtain ⟨i, hi⟩ := hused
    obtain ⟨k, hk⟩ := (h.slots.used_iff i).mp hi
    cases k with
    | none =>
      change s.main.slot = some i at hk
      rw [hpos] at hk
      cases hk
    | some t =>
      change (s.handlers t).slot = some i at hk
      cases hh : s.handlers t with
      | absent =>
        rw [hh] at hk
        cases hk
      | serving fd slot =>
        exact ⟨_, .leave t hh, MiniDb.work_lt rfl (Nat.le_succ _)
          (by rw [hh]; exact Nat.lt_succ_self 2), hupdate t _ nofun⟩
      | hanging fd slot => exact absurd ⟨fd, slot, hh⟩ (hends t)
      | served fd slot =>
        exact ⟨_, .close t hh, MiniDb.work_lt rfl (Nat.le_succ _)
          (by rw [hh]; exact Nat.lt_succ_self 1), hupdate t _ nofun⟩
      | closed slot =>
        have hstep : s.Step { unregisterConnectionSlot s slot with
            handlers := Function.update s.handlers t .absent } := .unregister t hh
        refine ⟨_, hstep, ((hstep.work_lt hstop).2.resolve_right ?_), hupdate t _ nofun⟩
        rintro ⟨hsame, -⟩
        have ht := congrFun hsame t
        change Function.update s.handlers t .absent t = s.handlers t at ht
        rw [Function.update_self, hh] at ht
        cases ht
  · exact ⟨_, .test hpos, hwait _ hpos hrank⟩
  · exact ⟨_, .destroy hpos, work_lt_main rfl rfl (hpos ▸ Nat.lt_succ_self _), hends⟩
  · exact ⟨_, .flush hpos, work_lt_main rfl rfl (hpos ▸ Nat.lt_succ_self _), hends⟩
  · exact ⟨_, .closePager hpos, work_lt_main rfl rfl (hpos ▸ Nat.lt_succ_self _), hends⟩
  · exact absurd hpos hne

omit [Fintype τ] in
/-- A request that never ends is not left. -/
theorem Server.Step.hangs (hstep : s.Step s') (hhangs : (s.handlers t).Hangs) :
    (s'.handlers t).Hangs := by
  obtain ⟨fd, slot, hpos⟩ := hhangs
  have hother : ∀ (u : τ) (pos : HandlerPos), s.handlers u ≠ .hanging fd slot →
      (Function.update s.handlers u pos t).Hangs := by
    intro u pos hu
    have hne : t ≠ u := by
      rintro rfl
      exact hu hpos
    rw [Function.update_of_ne hne]
    exact ⟨fd, slot, hpos⟩
  cases hstep with
  | create u pos absent => exact hother u _ (by rw [absent]; nofun)
  | hang u pos | leave u pos | close u pos | unregister u pos =>
    exact hother u _ (by rw [pos]; nofun)
  | register pos exec | full pos exec =>
    obtain ⟨-, rfl, -⟩ | ⟨i, -, -, rfl⟩ := registerConnectionFd_cases exec <;>
      exact ⟨fd, slot, hpos⟩
  | _ => exact ⟨fd, slot, hpos⟩

/-- Where no request hangs the main thread can come to its end. -/
theorem ServerInv.exists_end (h : ServerInv s) (hstop : s.main.Stopping)
    (hends : ∀ t, ¬ (s.handlers t).Hangs) : ∃ s', Server.Reach s s' ∧ s'.main = .finished := by
  induction hw : s.work using Nat.strong_induction_on generalizing s with
  | _ n ih =>
    by_cases hfin : s.main = .finished
    · exact ⟨s, .refl, hfin⟩
    · obtain ⟨s₁, hstep, hlt, hends₁⟩ := h.exists_step hstop hends hfin
      obtain ⟨s', hrest, hend⟩ := ih s₁.work (hw ▸ hlt) (h.step hstep) (hstep.work_lt hstop).1
        hends₁ rfl
      exact ⟨s', .head hstep hrest, hend⟩

/-- **The server comes to its end, unless a request does not.** In every state behind the loop that
any interleaving leads to, every step leaves less to do, but for a request that is served, a signal,
and a wake-up without a broadcast; and the main thread can come to its end exactly as long as no
thread is in a request that never ends. -/
theorem server_stops (hstart : StartFds fds serverFd pagerFd)
    (hrun : Server.Reach (Server.init fds serverFd pagerFd) s) (hstop : s.main.Stopping) :
    (∀ s', s.Step s' → s'.main.Stopping ∧ (s'.work < s.work ∨
      s'.handlers = s.handlers ∧ (s'.main = s.main ∨ s.main = .asleep ∧ s'.main = .woken))) ∧
      ((∀ t, ¬ (s.handlers t).Hangs) → s.main ≠ .finished →
        ∃ s', s.Step s' ∧ s'.work < s.work ∧ ∀ t, ¬ (s'.handlers t).Hangs) ∧
      ((∃ s', Server.Reach s s' ∧ s'.main = .finished) ↔ ∀ t, ¬ (s.handlers t).Hangs) := by
  have h := Server.Reach.inv hstart hrun
  refine ⟨fun s' hstep => hstep.work_lt hstop, h.exists_step hstop, fun hend t hhangs => ?_,
    h.exists_end hstop⟩
  obtain ⟨s', hrest, hfin⟩ := hend
  -- the thread stays where it is, and at the end there would be none
  have hstill : (s'.handlers t).Hangs := by
    clear hfin
    induction hrest with
    | refl => exact hhangs
    | tail _ hstep ih => exact hstep.hangs ih
  have h' := Server.Reach.inv hstart (hrun.trans hrest)
  obtain ⟨fd, slot, hpos⟩ := hstill
  rw [(h'.absent (h'.drained (hfin ▸ trivial))).1 t] at hpos
  cases hpos

end Stop

end Runs

/-! One connection is being served, and the main thread waits for it. -/

def startFds : Nat → Option FdKind :=
  fun fd => if fd = 4 then some .listening else if fd < 4 then some .file else none

theorem startFds_start : StartFds startFds 4 3 := by
  refine ⟨rfl, rfl, fun fd => ?_⟩
  unfold startFds
  split
  · nofun
  · split <;> nofun

def firstSlot : ConnSlot := ⟨0, by decide⟩

/-- The process there. -/
def waitingServer : Server Unit where
  running := false
  active := 1
  total := 1
  slots := Function.update (fun _ => none) firstSlot (some 5)
  fds := Function.update (Function.update startFds 5 (some .connection)) 4 none
  serverFd := 4
  pagerFd := 3
  locksOpen := true
  pagerOpen := true
  main := .asleep
  handlers := Function.update (fun _ => .absent) () (.serving 5 firstSlot)

theorem reach_waitingServer : Server.Reach (Server.init startFds 4 3) waitingServer := by
  have haccepting := Relation.ReflTransGen.single
    (Server.Step.next (s := (Server.init startFds 4 3 : Server Unit)) rfl)
  have haccepted := haccepting.tail (.accept 5 rfl rfl)
  have hregistered := (haccepted.tail (.timeoutSet rfl)).tail (.register rfl rfl)
  have hserving := hregistered.tail (.create () rfl rfl)
  have hleaving := (((hserving.tail (.next rfl)).tail .signal).tail (.acceptFails rfl)).tail (.next rfl)
  exact (hleaving.tail (.closeServer rfl)).tail (.drain rfl)

theorem server_drained_waitingServer :
    (∀ t fd slot, waitingServer.handlers t = .serving fd slot ∨
          waitingServer.handlers t = .hanging fd slot →
        waitingServer.locksOpen = true ∧ waitingServer.pagerOpen = true) ∧
      (waitingServer.main.Drained → (∀ t, waitingServer.handlers t = .absent) ∧
        (∀ i, waitingServer.slots i = none) ∧ ∀ fd, waitingServer.fds fd ≠ some .connection) :=
  server_drained startFds_start reach_waitingServer

theorem server_table_waitingServer :
    waitingServer.active = usedCount (fun i => waitingServer.slots i ≠ none) ∧
      waitingServer.active ≤ maxConnections ∧
      (∀ t u, t ≠ u → (∀ i, (waitingServer.handlers t).slot = some i →
          (waitingServer.handlers u).slot ≠ some i) ∧
        ∀ fd, (waitingServer.handlers t).fd = some fd →
          (waitingServer.handlers u).fd ≠ some fd) ∧
      ∀ fd s', registerConnectionFd waitingServer fd = (none, s') →
        s' = waitingServer ∧ ∀ i, waitingServer.slots i ≠ none :=
  server_table startFds_start reach_waitingServer

theorem server_descriptors_waitingServer :
    (∀ fd, waitingServer.fds fd = some .file ↔
        startFds fd = some .file ∧ (fd = 3 → waitingServer.pagerOpen = true)) ∧
      ∀ slot fd, waitingServer.slots slot = some fd →
        waitingServer.fds fd = none ∨ waitingServer.fds fd = some .connection :=
  server_descriptors startFds_start reach_waitingServer

theorem server_stops_waitingServer :
    (∀ s', waitingServer.Step s' → s'.main.Stopping ∧ (s'.work < waitingServer.work ∨
      s'.handlers = waitingServer.handlers ∧ (s'.main = waitingServer.main ∨
        waitingServer.main = .asleep ∧ s'.main = .woken))) ∧
      ((∀ t, ¬ (waitingServer.handlers t).Hangs) → waitingServer.main ≠ .finished →
        ∃ s', waitingServer.Step s' ∧ s'.work < waitingServer.work ∧
          ∀ t, ¬ (s'.handlers t).Hangs) ∧
      ((∃ s', Server.Reach waitingServer s' ∧ s'.main = .finished) ↔
        ∀ t, ¬ (waitingServer.handlers t).Hangs) :=
  server_stops startFds_start reach_waitingServer (.inr id)

end MiniDb
