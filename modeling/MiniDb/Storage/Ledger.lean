import Mathlib.Data.Multiset.AddSub
import MiniDb.Lib.Recorded
import MiniDb.Storage.Pager

/-! # What a call holds

The pins and latches that a call has taken and not given back, read off the events it leaves in the
trace. A ledger is the bag of them: a pin that belongs to no latch, or a latch together with the pin
that came with it. Events are in order as long as what they give back is in the ledger, and what they
write is write-latched or a page that may be written without (`fresh`). -/

set_option autoImplicit false

namespace MiniDb

open Lib

/-- A pin that no latch owns, or a latch with its pin. -/
inductive Holding where
  | pin (pid : Nat)
  | rlatch (pid : Nat)
  | wlatch (pid : Nat)
  deriving DecidableEq, Repr

/-- What a call holds. -/
abbrev Ledger := Multiset Holding

/-- What an event does to the ledger of the call. -/
inductive LedgerStep (fresh : Set Nat) : Ledger → PagerEvent → Ledger → Prop
  | get {L : Ledger} {p : Nat} : LedgerStep fresh L (.get p) (.pin p ::ₘ L)
  | unpin {L : Ledger} {p : Nat} : LedgerStep fresh (.pin p ::ₘ L) (.unpin p) L
  | rlatch {L : Ledger} {p : Nat} : LedgerStep fresh (.pin p ::ₘ L) (.rlatch p) (.rlatch p ::ₘ L)
  | wlatch {L : Ledger} {p : Nat} : LedgerStep fresh (.pin p ::ₘ L) (.wlatch p) (.wlatch p ::ₘ L)
  | unlatchR {L : Ledger} {p : Nat} : LedgerStep fresh (.rlatch p ::ₘ L) (.unlatchR p) L
  | unlatchW {L : Ledger} {p : Nat} : LedgerStep fresh (.wlatch p ::ₘ L) (.unlatchW p) L
  | markDirty {L : Ledger} {p : Nat} : LedgerStep fresh L (.markDirty p) L
  | write {L : Ledger} {p : Nat} (h : .wlatch p ∈ L ∨ p ∈ fresh) : LedgerStep fresh L (.write p) L

/-! ## Counting events -/

/-- How many of its pins on a page a call has not given back. -/
def pinned (events : List PagerEvent) (p : Nat) : Int :=
  events.count (.get p) - events.count (.unpin p) - events.count (.unlatchR p) -
    events.count (.unlatchW p)

/-- How many of its latches on a page a call has not given back. -/
def latched (events : List PagerEvent) (p : Nat) : Int :=
  events.count (.rlatch p) + events.count (.wlatch p) - events.count (.unlatchR p) -
    events.count (.unlatchW p)

/-- The page is write-latched after the events. -/
def WriteLatched (events : List PagerEvent) (p : Nat) : Prop :=
  events.count (.unlatchW p) < events.count (.wlatch p)

/-- At every point of a call each latch that it holds has a pin, and what it gives back it has taken
before; at its end all pins are given back. -/
structure PinDiscipline (events : List PagerEvent) : Prop where
  owned : ∀ older, older <:+ events → ∀ p, latched older p ≤ pinned older p
  matched : ∀ older, older <:+ events → ∀ p, older.count (.unlatchR p) ≤ older.count (.rlatch p) ∧
    older.count (.unlatchW p) ≤ older.count (.wlatch p) ∧ 0 ≤ pinned older p
  returned : ∀ p, pinned events p = 0

/-- Every page is write-latched by the call when it is written, or one of the fresh ones. -/
def LatchDiscipline (fresh : Set Nat) (events : List PagerEvent) : Prop :=
  ∀ older p, .write p :: older <:+ events → WriteLatched older p ∨ p ∈ fresh

/-- The events between two states, newest first. -/
def callEvents (st st' : Pager) : List PagerEvent :=
  st'.trace.take (st'.trace.length - st.trace.length)

theorem callEvents_of {st st' : Pager} {events : List PagerEvent}
    (h : st'.trace = events ++ st.trace) : callEvents st st' = events := by
  rw [callEvents, h, List.length_append, Nat.add_sub_cancel, List.take_left]

section

variable {fresh : Set Nat} {events older newer : List PagerEvent} {L L' : Ledger} {p : Nat}
  {st st' st₁ : Pager}

/-- The ledger counts what the events have taken and not given back. -/
theorem replays_counts {L₀ : Ledger} (h : Replays (LedgerStep fresh) L₀ events L) (p : Nat) :
    events.count (.get p) + L₀.count (.pin p) + L₀.count (.rlatch p) + L₀.count (.wlatch p) =
        events.count (.unpin p) + events.count (.unlatchR p) + events.count (.unlatchW p) +
          L.count (.pin p) + L.count (.rlatch p) + L.count (.wlatch p) ∧
      events.count (.rlatch p) + L₀.count (.rlatch p) =
        events.count (.unlatchR p) + L.count (.rlatch p) ∧
      events.count (.wlatch p) + L₀.count (.wlatch p) =
        events.count (.unlatchW p) + L.count (.wlatch p) := by
  induction h with
  | nil => simp
  | cons _ he ih =>
    cases he <;>
      simp only [List.count_cons, Multiset.count_cons, beq_iff_eq, reduceCtorEq, if_false,
        Nat.add_zero, PagerEvent.get.injEq, PagerEvent.unpin.injEq, PagerEvent.rlatch.injEq,
        PagerEvent.wlatch.injEq, PagerEvent.unlatchR.injEq, PagerEvent.unlatchW.injEq,
        Holding.pin.injEq, Holding.rlatch.injEq, Holding.wlatch.injEq] at ih ⊢ <;>
      grind

/-- From an empty ledger. -/
theorem replays_counts_zero (h : Replays (LedgerStep fresh) 0 events L) (p : Nat) :
    events.count (.get p) = events.count (.unpin p) + events.count (.unlatchR p) +
        events.count (.unlatchW p) + L.count (.pin p) + L.count (.rlatch p) + L.count (.wlatch p) ∧
      events.count (.rlatch p) = events.count (.unlatchR p) + L.count (.rlatch p) ∧
      events.count (.wlatch p) = events.count (.unlatchW p) + L.count (.wlatch p) := by
  simpa using replays_counts h p

/-- A call whose events are in order, and that gives back everything. -/
theorem pinDiscipline_of_replays (h : Replays (LedgerStep fresh) 0 events 0) :
    PinDiscipline events := by
  have hcounts : ∀ older, older <:+ events → ∃ L : Ledger, ∀ p,
      pinned older p = L.count (.pin p) + latched older p ∧
        latched older p = L.count (.rlatch p) + L.count (.wlatch p) ∧
        older.count (.unlatchR p) ≤ older.count (.rlatch p) ∧
        older.count (.unlatchW p) ≤ older.count (.wlatch p) := by
    rintro older ⟨newer, rfl⟩
    obtain ⟨L, hold, -⟩ := h.split
    refine ⟨L, fun p => ?_⟩
    obtain ⟨hget, hr, hw⟩ := replays_counts_zero hold p
    rw [pinned, latched]
    omega
  constructor
  · intro older holder p
    obtain ⟨L, hL⟩ := hcounts older holder
    obtain ⟨hpin, -⟩ := hL p
    omega
  · intro older holder p
    obtain ⟨L, hL⟩ := hcounts older holder
    obtain ⟨hpin, hlatch, hr, hw⟩ := hL p
    refine ⟨hr, hw, ?_⟩
    omega
  · intro p
    obtain ⟨hget, -⟩ := replays_counts_zero h p
    rw [Multiset.count_zero, Multiset.count_zero, Multiset.count_zero] at hget
    rw [pinned]
    omega

/-- Part of a call gives back a pin that the call does not have: it is in order only with one pin
more. A latch on the page is then without a pin, or the page has fewer pins than none. -/
theorem not_pinDiscipline_of_surplus {newest : List PagerEvent}
    (h : Replays (LedgerStep fresh) 0 older L)
    (h' : Replays (LedgerStep fresh) (.pin p ::ₘ L) newer L') (hnone : .pin p ∉ L') :
    ¬ PinDiscipline (newest ++ (newer ++ older)) := by
  intro hpins
  have howned := hpins.owned (newer ++ older) (List.suffix_append _ _) p
  obtain ⟨hget, hr, hw⟩ := replays_counts_zero h p
  obtain ⟨hget', hr', hw'⟩ := replays_counts h' p
  rw [Multiset.count_eq_zero_of_notMem hnone] at hget'
  simp only [Multiset.count_cons, reduceCtorEq, if_false, if_true, Nat.add_zero]
    at hget' hr' hw'
  simp only [pinned, latched, List.count_append] at howned
  omega

/-- Nothing is written that the ledger does not allow. -/
theorem latchDiscipline_of_replays (h : Replays (LedgerStep fresh) 0 events L) :
    LatchDiscipline fresh events := by
  rintro older p ⟨newer, rfl⟩
  obtain ⟨L₁, hold, -⟩ := h.split
  cases hold with
  | cons hold hwrite =>
    cases hwrite with
    | write hmay =>
      refine hmay.imp_left fun hmem => ?_
      obtain ⟨-, -, hw⟩ := replays_counts_zero hold p
      have hpos := Multiset.count_pos.mpr hmem
      rw [WriteLatched]
      omega

/-- A page is written that is not write-latched, and not fresh either. -/
def WritesUnlatched (fresh : Set Nat) (L : Ledger) (e : PagerEvent) : Prop :=
  ∃ p, e = .write p ∧ .wlatch p ∉ L ∧ p ∉ fresh

theorem not_latchDiscipline {fresh' : Set Nat} (h : Replays (LedgerStep fresh) 0 older L)
    {e : PagerEvent} (he : WritesUnlatched fresh' L e) :
    ¬ LatchDiscipline fresh' (newer ++ e :: older) := by
  obtain ⟨p, rfl, hnone, hfresh⟩ := he
  intro hlatches
  rcases hlatches older p (List.suffix_append _ _) with hmem | hmem
  · obtain ⟨-, -, hw⟩ := replays_counts_zero h p
    rw [Multiset.count_eq_zero_of_notMem hnone] at hw
    rw [WriteLatched] at hmem
    omega
  · exact hfresh hmem

/-! ## Runs -/

/-- The events between the states lead from one ledger to the other. -/
abbrev Paid (fresh : Set Nat) (st : Pager) (L : Ledger) (st' : Pager) (L' : Ledger) : Prop :=
  Recorded Pager.trace (LedgerStep fresh) st L st' L'

/-- So do the events of every run. -/
abbrev Pays {α : Type} (fresh : Set Nat) (m : PagerM α) (L : Ledger) (L' : α → Ledger) : Prop :=
  Records Pager.trace (LedgerStep fresh) m L L'

/-- A call that gives back exactly what it takes. -/
abbrev Balanced {α : Type} (m : PagerM α) : Prop := ∀ L, Pays Set.univ m L fun _ => L

/-- Between the states there is a bad event, behind events that are in order. -/
abbrev MeetsBad (bad : Ledger → PagerEvent → Prop) (st : Pager) (L : Ledger) (st' : Pager) : Prop :=
  Meets Pager.trace (LedgerStep Set.univ) bad st L st'

/-- More pages may be written without a latch. -/
theorem paid_mono {fresh' : Set Nat} (h : Paid fresh st L st' L') (hsub : fresh ⊆ fresh') :
    Paid fresh' st L st' L' := by
  obtain ⟨events, htrace, hevents⟩ := h
  refine ⟨events, htrace, hevents.mono ?_⟩
  intro L₁ e L₂ he
  cases he with
  | write h => exact .write (h.imp_right fun hp => hsub hp)
  | get => exact .get
  | unpin => exact .unpin
  | rlatch => exact .rlatch
  | wlatch => exact .wlatch
  | unlatchR => exact .unlatchR
  | unlatchW => exact .unlatchW
  | markDirty => exact .markDirty

theorem pinDiscipline_of_paid (h : Paid fresh st 0 st' 0) : PinDiscipline (callEvents st st') := by
  obtain ⟨events, htrace, hevents⟩ := h
  rw [callEvents_of htrace]
  exact pinDiscipline_of_replays hevents

theorem latchDiscipline_of_paid (h : Paid fresh st 0 st' L) :
    LatchDiscipline fresh (callEvents st st') := by
  obtain ⟨events, htrace, hevents⟩ := h
  rw [callEvents_of htrace]
  exact latchDiscipline_of_replays hevents

/-- A call with a part that is in order only with one pin more. -/
theorem not_pinDiscipline_of_paid {st₂ : Pager} (h : Paid fresh st 0 st₁ L)
    (h' : Paid fresh st₁ (.pin p ::ₘ L) st₂ L') (hnone : .pin p ∉ L')
    (hrest : st₂.trace <:+ st'.trace) : ¬ PinDiscipline (callEvents st st') := by
  obtain ⟨older, htrace, hold⟩ := h
  obtain ⟨newer, htrace', hnew⟩ := h'
  obtain ⟨newest, hnewest⟩ := hrest
  have hevents : st'.trace = (newest ++ (newer ++ older)) ++ st.trace := by
    rw [← hnewest, htrace', htrace, List.append_assoc, List.append_assoc]
  rw [callEvents_of hevents]
  exact not_pinDiscipline_of_surplus hold hnew hnone

theorem not_latchDiscipline_of_meets (h : MeetsBad (WritesUnlatched fresh) st 0 st') :
    ¬ LatchDiscipline fresh (callEvents st st') := by
  obtain ⟨newer, e, older, L, htrace, hold, hbad⟩ := h
  have hevents : st'.trace = (newer ++ e :: older) ++ st.trace := by
    rw [htrace, List.append_assoc, List.cons_append]
  rw [callEvents_of hevents]
  exact MiniDb.not_latchDiscipline hold hbad

end

/-! ## Page access -/

section

variable {fresh : Set Nat} {L L' : Ledger} {pid : Nat}

theorem pays_pagerGetPage : Pays fresh (pagerGetPage pid) L fun _ => .pin pid ::ₘ L := by
  intro st a st' hrun
  obtain rfl := run_modify_eq_some.mp hrun
  exact .event rfl .get

theorem pays_pagerUnpin (h : L = .pin pid ::ₘ L') : Pays fresh (pagerUnpin pid) L fun _ => L' := by
  subst h
  intro st a st' hrun
  obtain rfl := run_modify_eq_some.mp hrun
  exact .event rfl .unpin

theorem pays_pagerMarkDirty : Pays fresh (pagerMarkDirty pid) L fun _ => L := by
  intro st a st' hrun
  obtain rfl := run_modify_eq_some.mp hrun
  exact .event rfl .markDirty

theorem pays_pagerGetPageRlatch :
    Pays fresh (pagerGetPageRlatch pid) L fun _ => .rlatch pid ::ₘ L := by
  intro st a st' hrun
  obtain rfl := run_modify_eq_some.mp hrun
  have hget : Recorded Pager.trace (LedgerStep fresh) st L (st.log (.get pid)) (.pin pid ::ₘ L) :=
    .event rfl .get
  exact hget.trans (.event rfl .rlatch)

theorem pays_pagerGetPageWlatch :
    Pays fresh (pagerGetPageWlatch pid) L fun _ => .wlatch pid ::ₘ L := by
  intro st a st' hrun
  obtain rfl := run_modify_eq_some.mp hrun
  have hget : Recorded Pager.trace (LedgerStep fresh) st L (st.log (.get pid)) (.pin pid ::ₘ L) :=
    .event rfl .get
  exact hget.trans (.event rfl .wlatch)

theorem pays_pagerUnlatchR (h : L = .rlatch pid ::ₘ L') :
    Pays fresh (pagerUnlatchR pid) L fun _ => L' := by
  subst h
  intro st a st' hrun
  obtain rfl := run_modify_eq_some.mp hrun
  exact .event rfl .unlatchR

theorem pays_pagerUnlatchW (h : L = .wlatch pid ::ₘ L') :
    Pays fresh (pagerUnlatchW pid) L fun _ => L' := by
  subst h
  intro st a st' hrun
  obtain rfl := run_modify_eq_some.mp hrun
  exact .event rfl .unlatchW

theorem pays_writePage {page : Page} (h : .wlatch pid ∈ L ∨ pid ∈ fresh) :
    Pays fresh (writePage pid page) L fun _ => L := by
  intro st a st' hrun
  obtain rfl := run_modify_eq_some.mp hrun
  exact .event rfl (.write h)

/-- A change of the state that records nothing. -/
theorem pays_modify {f : Pager → Pager} (h : ∀ st, (f st).trace = st.trace) :
    Pays fresh (modify f) L fun _ => L := by
  intro st a st' hrun
  obtain rfl := run_modify_eq_some.mp hrun
  exact .silent (h st)

theorem pays_guard {c : Prop} [Decidable c] : Pays fresh (guard c : PagerM Unit) L fun _ => L := by
  unfold guard
  split
  · exact records_pure rfl
  · exact records_failure

theorem pays_readPage : Pays fresh (readPage pid) L fun _ => L :=
  records_get.bind fun _ => records_pure rfl

theorem pays_readLeaf : Pays fresh (readLeaf pid) L fun _ => L := by
  apply pays_readPage.bind
  intro page
  split
  · exact records_pure rfl
  · exact records_failure

theorem pays_readInternal : Pays fresh (readInternal pid) L fun _ => L := by
  apply pays_readPage.bind
  intro page
  split
  · exact records_pure rfl
  · exact records_failure

theorem pays_writeLeaf {l : LeafPage} (h : .wlatch pid ∈ L ∨ pid ∈ fresh) :
    Pays fresh (writeLeaf pid l) L fun _ => L :=
  records_get.bind fun _ => pays_guard.bind fun _ => pays_writePage h

theorem pays_writeInternal {i : InternalPage} (h : .wlatch pid ∈ L ∨ pid ∈ fresh) :
    Pays fresh (writeInternal pid i) L fun _ => L :=
  records_get.bind fun _ => pays_guard.bind fun _ => pays_writePage h

theorem pays_pagerFreePage (h : .wlatch pid ∈ L ∨ pid ∈ fresh) :
    Pays fresh (pagerFreePage pid) L fun _ => L :=
  pays_pagerGetPage.bind fun _ => records_get.bind fun _ =>
    (pays_writePage (h.imp_left Multiset.mem_cons_of_mem)).bind fun _ =>
      pays_pagerMarkDirty.bind fun _ => (pays_pagerUnpin rfl).bind fun _ =>
        pays_modify fun _ => rfl

end

end MiniDb
