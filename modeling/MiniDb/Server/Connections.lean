import Mathlib.Algebra.Group.Nat.Defs
import Mathlib.Data.Fintype.Basic
import MiniDb.Lib.Holding

/-! # Connections

`server.c`, from the first `accept` to the last line of `server_run`: the main thread accepts
connections, enters them into `g_conn_fds` and creates a thread for each; such a thread serves its
connection, closes it and takes it off the table; after SIGINT the main thread shuts down what is in
the table, waits until nobody is left and closes the database. Every system call and every critical
section under `g_conn_lock` is a step, and between two steps any other thread may act. -/

set_option autoImplicit false

namespace MiniDb

open Lib

/-- `MAX_CONNECTIONS`. -/
def maxConnections : Nat := 128

/-- A place in `g_conn_fds`. -/
abbrev ConnSlot := Fin maxConnections

/-- What an open descriptor is: the socket that listens, a connection, or a file of the process. -/
inductive FdKind where
  | listening
  | connection
  | file
  deriving DecidableEq, Repr

/-- Where the main thread stands in `server_run`. -/
inductive MainPos where
  /-- at the head of the loop, before it reads `g_running` -/
  | looping
  /-- in `accept` -/
  | accepting
  /-- before `setsockopt` -/
  | accepted (fd : Nat)
  /-- before `register_connection_fd` -/
  | counted (fd : Nat)
  /-- the table is full; before `close` -/
  | refused (fd : Nat)
  /-- before `pthread_create` -/
  | registered (fd : Nat) (slot : ConnSlot)
  /-- no thread could be created; behind `close` -/
  | abandoned (slot : ConnSlot)
  /-- behind the loop, before the listening socket is closed -/
  | leaving
  /-- before it locks `g_conn_lock` for the shutdown -/
  | draining
  /-- in `pthread_cond_wait` -/
  | asleep
  /-- woken, before it reads `g_active_connections` again -/
  | woken
  /-- behind the wait, before `db_destroy` -/
  | drained
  /-- before `pager_flush_all` -/
  | destroyed
  /-- before `pager_close` -/
  | flushed
  | finished
  deriving DecidableEq, Repr

/-- Where a thread stands in `connection_handler`. -/
inductive HandlerPos where
  /-- no such thread -/
  | absent
  /-- in `handle_client` -/
  | serving (fd : Nat) (slot : ConnSlot)
  /-- in `handle_client`, in a request that never ends -/
  | hanging (fd : Nat) (slot : ConnSlot)
  /-- before `close` -/
  | served (fd : Nat) (slot : ConnSlot)
  /-- before `unregister_connection_slot` -/
  | closed (slot : ConnSlot)
  deriving DecidableEq, Repr

/-- The process: the globals of `server.c`, its descriptors, whether lock table and database are
open, and its threads. -/
structure Server (τ : Type) where
  running : Bool
  active : Int
  total : Nat
  slots : ConnSlot → Option Nat
  fds : Nat → Option FdKind
  serverFd : Nat
  pagerFd : Nat
  locksOpen : Bool
  pagerOpen : Bool
  main : MainPos
  handlers : τ → HandlerPos

section Server

variable {τ : Type} [DecidableEq τ]

/-- `register_connection_fd`. -/
def registerConnectionFd (s : Server τ) (fd : Nat) : Option ConnSlot × Server τ :=
  if s.active ≥ maxConnections then (none, s)
  else
    match (List.finRange maxConnections).find? fun i => (s.slots i).isNone with
    | some i =>
      (some i, { s with slots := Function.update s.slots i (some fd), active := s.active + 1 })
    | none => (none, s)

/-- `pthread_cond_broadcast`. -/
def MainPos.wake : MainPos → MainPos
  | .asleep => .woken
  | pos => pos

/-- `unregister_connection_slot`. -/
def unregisterConnectionSlot (s : Server τ) (slot : ConnSlot) : Server τ :=
  { s with
    slots := Function.update s.slots slot none
    active := s.active - 1
    main := if s.active = 1 then s.main.wake else s.main }

/-- `close`. -/
def Server.close (s : Server τ) (fd : Nat) : Server τ :=
  { s with fds := Function.update s.fds fd none }

/-- The test of the waiting loop. -/
def Server.waitPos (s : Server τ) : MainPos := if s.active > 0 then .asleep else .drained

/-- A step of the process. -/
inductive Server.Step (s : Server τ) : Server τ → Prop
  /-- SIGINT -/
  | signal : Step s { s with running := false }
  -- the main thread
  | next (pos : s.main = .looping) :
      Step s { s with main := if s.running then .accepting else .leaving }
  | acceptFails (pos : s.main = .accepting) : Step s { s with main := .looping }
  | accept (fd : Nat) (pos : s.main = .accepting) (fresh : s.fds fd = none) :
      Step s { s with main := .accepted fd, fds := Function.update s.fds fd (some .connection) }
  | timeoutFails {fd : Nat} (pos : s.main = .accepted fd) :
      Step s { s.close fd with main := .looping }
  | timeoutSet {fd : Nat} (pos : s.main = .accepted fd) :
      Step s { s with main := .counted fd, total := (s.total + 1) % 2 ^ 64 }
  | register {fd : Nat} {slot : ConnSlot} {s' : Server τ} (pos : s.main = .counted fd)
      (exec : registerConnectionFd s fd = (some slot, s')) :
      Step s { s' with main := .registered fd slot }
  | full {fd : Nat} {s' : Server τ} (pos : s.main = .counted fd)
      (exec : registerConnectionFd s fd = (none, s')) : Step s { s' with main := .refused fd }
  | refuse {fd : Nat} (pos : s.main = .refused fd) : Step s { s.close fd with main := .looping }
  | create {fd : Nat} {slot : ConnSlot} (t : τ) (pos : s.main = .registered fd slot)
      (absent : s.handlers t = .absent) :
      Step s { s with
        main := .looping
        handlers := Function.update s.handlers t (.serving fd slot) }
  | createFails {fd : Nat} {slot : ConnSlot} (pos : s.main = .registered fd slot) :
      Step s { s.close fd with main := .abandoned slot }
  | abandon {slot : ConnSlot} (pos : s.main = .abandoned slot) :
      Step s { unregisterConnectionSlot s slot with main := .looping }
  | closeServer (pos : s.main = .leaving) : Step s { s.close s.serverFd with main := .draining }
  /-- the loop over the table with `shutdown`, and the first test -/
  | drain (pos : s.main = .draining) : Step s { s with main := s.waitPos }
  /-- `pthread_cond_wait` may return without a broadcast -/
  | spurious (pos : s.main = .asleep) : Step s { s with main := .woken }
  | test (pos : s.main = .woken) : Step s { s with main := s.waitPos }
  | destroy (pos : s.main = .drained) : Step s { s with main := .destroyed, locksOpen := false }
  | flush (pos : s.main = .destroyed) : Step s { s with main := .flushed }
  | closePager (pos : s.main = .flushed) :
      Step s { s.close s.pagerFd with main := .finished, pagerOpen := false }
  -- a thread of a connection
  /-- a request is read, executed and answered -/
  | serve {fd : Nat} {slot : ConnSlot} (t : τ) (pos : s.handlers t = .serving fd slot) : Step s s
  /-- a request is read whose execution never ends -/
  | hang {fd : Nat} {slot : ConnSlot} (t : τ) (pos : s.handlers t = .serving fd slot) :
      Step s { s with handlers := Function.update s.handlers t (.hanging fd slot) }
  | leave {fd : Nat} {slot : ConnSlot} (t : τ) (pos : s.handlers t = .serving fd slot) :
      Step s { s with handlers := Function.update s.handlers t (.served fd slot) }
  | close {fd : Nat} {slot : ConnSlot} (t : τ) (pos : s.handlers t = .served fd slot) :
      Step s { s.close fd with handlers := Function.update s.handlers t (.closed slot) }
  | unregister {slot : ConnSlot} (t : τ) (pos : s.handlers t = .closed slot) :
      Step s { unregisterConnectionSlot s slot with
        handlers := Function.update s.handlers t .absent }

/-- `server_run` behind `db_init`, in a process with these descriptors. -/
def Server.init (fds : Nat → Option FdKind) (serverFd pagerFd : Nat) : Server τ where
  running := true
  active := 0
  total := 0
  slots := fun _ => none
  fds := fds
  serverFd := serverFd
  pagerFd := pagerFd
  locksOpen := true
  pagerOpen := true
  main := .looping
  handlers := fun _ => .absent

/-- At the start there are the listening socket and the file of the database, and no connection. -/
def StartFds (fds : Nat → Option FdKind) (serverFd pagerFd : Nat) : Prop :=
  fds serverFd = some .listening ∧ fds pagerFd = some .file ∧ ∀ fd, fds fd ≠ some .connection

/-- The states that any steps lead to. -/
def Server.Reach (s s' : Server τ) : Prop := Relation.ReflTransGen Server.Step s s'

/-! ## Who holds what -/

/-- The place in the table that the main thread is responsible for. -/
def MainPos.slot : MainPos → Option ConnSlot
  | .registered _ slot | .abandoned slot => some slot
  | _ => none

/-- The connection that the main thread has open. -/
def MainPos.fd : MainPos → Option Nat
  | .accepted fd | .counted fd | .refused fd | .registered fd _ => some fd
  | _ => none

def HandlerPos.slot : HandlerPos → Option ConnSlot
  | .serving _ slot | .hanging _ slot | .served _ slot | .closed slot => some slot
  | .absent => none

def HandlerPos.fd : HandlerPos → Option Nat
  | .serving fd _ | .hanging fd _ | .served fd _ => some fd
  | _ => none

/-- The place of a thread; `none` is the main thread. -/
def Server.slotOf (s : Server τ) : Option τ → Option ConnSlot
  | none => s.main.slot
  | some t => (s.handlers t).slot

/-- The open connection of a thread. -/
def Server.fdOf (s : Server τ) : Option τ → Option Nat
  | none => s.main.fd
  | some t => (s.handlers t).fd

/-- The listening socket is open. -/
def MainPos.Listens : MainPos → Prop
  | .draining | .asleep | .woken | .drained | .destroyed | .flushed | .finished => False
  | _ => True

/-- The wait for the connections is over. -/
def MainPos.Drained : MainPos → Prop
  | .drained | .destroyed | .flushed | .finished => True
  | _ => False

/-- **The invariant of the process.** -/
structure ServerInv (s : Server τ) : Prop where
  /-- every place in use is one thread's -/
  slots : Holding (fun i => s.slots i ≠ none) s.slotOf
  /-- every open connection is one thread's -/
  fds : Holding (fun fd => s.fds fd = some .connection) s.fdOf
  /-- as long as the connection is open the table has it -/
  entry : ∀ k slot fd, s.slotOf k = some slot → s.fdOf k = some fd → s.slots slot = some fd
  active : s.active = usedCount fun i => s.slots i ≠ none
  /-- what is in the table is a connection, or it has been closed -/
  stale : ∀ slot fd, s.slots slot = some fd → s.fds fd = none ∨ s.fds fd = some .connection
  listens : s.main.Listens → s.fds s.serverFd = some .listening
  locksOpen : s.locksOpen = false → s.main.Drained ∧ s.main ≠ .drained
  pagerOpen : s.pagerOpen = false → s.main = .finished
  database : s.pagerOpen = true → s.fds s.pagerFd = some .file
  drained : s.main.Drained → s.active = 0
  asleep : s.main = .asleep → 0 < s.active

end Server

section Steps

variable {τ : Type} [DecidableEq τ] {s s' : Server τ} {t : τ} {fd : Nat} {slot : ConnSlot}

omit [DecidableEq τ] in
/-- A slot is found as long as one is free. -/
theorem registerConnectionFd_cases {o : Option ConnSlot}
    (h : registerConnectionFd s fd = (o, s')) :
    (o = none ∧ s' = s ∧ (s.active ≥ maxConnections ∨ ∀ i, s.slots i ≠ none)) ∨
      ∃ i, o = some i ∧ s.slots i = none ∧ s' = { s with
        slots := Function.update s.slots i (some fd)
        active := s.active + 1 } := by
  unfold registerConnectionFd at h
  split at h
  · rename_i hfull
    obtain ⟨rfl, rfl⟩ := Prod.mk.inj h
    exact .inl ⟨rfl, rfl, .inl hfull⟩
  · split at h
    · rename_i i hfind
      obtain ⟨rfl, rfl⟩ := Prod.mk.inj h
      have hfree := List.find?_some (p := fun i => (s.slots i).isNone) hfind
      exact .inr ⟨i, rfl, Option.isNone_iff_eq_none.mp hfree, rfl⟩
    · rename_i hfind
      obtain ⟨rfl, rfl⟩ := Prod.mk.inj h
      refine .inl ⟨rfl, rfl, .inr fun i hi => ?_⟩
      exact List.find?_eq_none.mp hfind i (List.mem_finRange i) (by rw [hi]; rfl)

omit [DecidableEq τ] in
theorem slotOf_same (hm : s'.main.slot = s.main.slot) (hh : s'.handlers = s.handlers) :
    s'.slotOf = s.slotOf := by
  funext k
  cases k with
  | none => exact hm
  | some t => exact congrArg (fun f => (f t).slot) hh

omit [DecidableEq τ] in
theorem fdOf_same (hm : s'.main.fd = s.main.fd) (hh : s'.handlers = s.handlers) :
    s'.fdOf = s.fdOf := by
  funext k
  cases k with
  | none => exact hm
  | some t => exact congrArg (fun f => (f t).fd) hh

theorem slotOf_main (s : Server τ) (hh : s'.handlers = s.handlers) :
    s'.slotOf = Function.update s.slotOf none s'.main.slot := by
  funext k
  cases k with
  | none =>
    rw [Function.update_self]
    rfl
  | some t =>
    rw [Function.update_of_ne (Option.some_ne_none t)]
    exact congrArg (fun f => (f t).slot) hh

theorem fdOf_main (s : Server τ) (hh : s'.handlers = s.handlers) :
    s'.fdOf = Function.update s.fdOf none s'.main.fd := by
  funext k
  cases k with
  | none =>
    rw [Function.update_self]
    rfl
  | some t =>
    rw [Function.update_of_ne (Option.some_ne_none t)]
    exact congrArg (fun f => (f t).fd) hh

theorem slotOf_handler (s : Server τ) {pos : HandlerPos}
    (hh : s'.handlers = Function.update s.handlers t pos) (hm : s'.main.slot = s.main.slot) :
    s'.slotOf = Function.update s.slotOf (some t) pos.slot := by
  funext k
  cases k with
  | none =>
    rw [Function.update_of_ne (Option.some_ne_none t).symm]
    exact hm
  | some u =>
    show (s'.handlers u).slot = _
    rw [hh]
    by_cases hu : u = t
    · rw [hu, Function.update_self, Function.update_self]
    · rw [Function.update_of_ne hu, Function.update_of_ne fun h => hu (Option.some.inj h)]
      rfl

theorem fdOf_handler (s : Server τ) {pos : HandlerPos}
    (hh : s'.handlers = Function.update s.handlers t pos) (hm : s'.main.fd = s.main.fd) :
    s'.fdOf = Function.update s.fdOf (some t) pos.fd := by
  funext k
  cases k with
  | none =>
    rw [Function.update_of_ne (Option.some_ne_none t).symm]
    exact hm
  | some u =>
    show (s'.handlers u).fd = _
    rw [hh]
    by_cases hu : u = t
    · rw [hu, Function.update_self, Function.update_self]
    · rw [Function.update_of_ne hu, Function.update_of_ne fun h => hu (Option.some.inj h)]
      rfl

omit [DecidableEq τ] in
/-- The main thread goes on with what it holds. -/
theorem ServerInv.goOn (h : ServerInv s) (hslots : s'.slots = s.slots) (hfds : s'.fds = s.fds)
    (hserver : s'.serverFd = s.serverFd) (hpagerFd : s'.pagerFd = s.pagerFd)
    (hopen : s'.pagerOpen = s.pagerOpen) (hactive : s'.active = s.active)
    (hhandlers : s'.handlers = s.handlers) (hslot : s'.main.slot = s.main.slot)
    (hfd : s'.main.fd = s.main.fd) (hlistens : s'.main.Listens → s.main.Listens)
    (hlocks : s'.locksOpen = false → s'.main.Drained ∧ s'.main ≠ .drained)
    (hpager : s'.pagerOpen = false → s'.main = .finished)
    (hdrained : s'.main.Drained → s.active = 0) (hasleep : s'.main = .asleep → 0 < s.active) :
    ServerInv s' := by
  have hslotOf : s'.slotOf = s.slotOf := slotOf_same hslot hhandlers
  have hfdOf : s'.fdOf = s.fdOf := fdOf_same hfd hhandlers
  constructor
  · rw [hslotOf, hslots]
    exact h.slots
  · rw [hfdOf, hfds]
    exact h.fds
  · rw [hslotOf, hfdOf, hslots]
    exact h.entry
  · rw [hactive, hslots]
    exact h.active
  · rw [hslots, hfds]
    exact h.stale
  · rw [hfds, hserver]
    exact fun hl => h.listens (hlistens hl)
  · exact hlocks
  · exact hpager
  · rw [hfds, hpagerFd, hopen]
    exact h.database
  · rw [hactive]
    exact hdrained
  · rw [hactive]
    exact hasleep

omit [DecidableEq τ] in
theorem MainPos.Listens.not_drained {pos : MainPos} (h : pos.Listens) :
    ¬ pos.Drained ∧ pos ≠ .asleep := by
  cases pos with
  | drained | destroyed | flushed | finished | asleep => exact h.elim
  | _ => exact ⟨id, nofun⟩

omit [DecidableEq τ] in
/-- In the loop lock table and file are open. -/
theorem ServerInv.open_of_listens (h : ServerInv s) (hl : s.main.Listens) :
    s.locksOpen ≠ false ∧ s.pagerOpen ≠ false := by
  constructor
  · intro hlocks
    exact hl.not_drained.1 (h.locksOpen hlocks).1
  · intro hpager
    rw [h.pagerOpen hpager] at hl
    exact hl

omit [DecidableEq τ] in
/-- So they are while it waits. -/
theorem ServerInv.open_of_waiting (h : ServerInv s)
    (pos : s.main = .draining ∨ s.main = .asleep ∨ s.main = .woken ∨ s.main = .drained) :
    s.locksOpen ≠ false ∧ s.pagerOpen ≠ false := by
  refine ⟨fun hlocks => ?_, fun hpager => ?_⟩
  · obtain ⟨hd, hne⟩ := h.locksOpen hlocks
    rcases pos with pos | pos | pos | pos <;> rw [pos] at hd hne
    · exact hd
    · exact hd
    · exact hd
    · exact hne rfl
  · have hfin := h.pagerOpen hpager
    rcases pos with pos | pos | pos | pos <;> rw [pos] at hfin <;> cases hfin

omit [DecidableEq τ] in
/-- The main thread goes on inside the loop. -/
theorem ServerInv.loops (h : ServerInv s) {pos : MainPos} {total : Nat} (hl : s.main.Listens)
    (hslot : pos.slot = s.main.slot) (hfd : pos.fd = s.main.fd) (hl' : pos.Listens) :
    ServerInv ({ s with main := pos, total } : Server τ) := by
  obtain ⟨hlocks, hpager⟩ := h.open_of_listens hl
  refine h.goOn rfl rfl rfl rfl rfl rfl rfl hslot hfd (fun _ => hl) ?_ ?_ ?_ ?_
  · exact fun hc => absurd hc hlocks
  · exact fun hc => absurd hc hpager
  · exact fun hd => absurd hd hl'.not_drained.1
  · exact fun ha => absurd ha hl'.not_drained.2

/-- A descriptor closed by the thread that has it. -/
theorem ServerInv.closed_fds (h : ServerInv s) {k : Option τ} (hk : s.fdOf k = some fd) :
    Holding (fun f => Function.update s.fds fd none f = some .connection)
        (Function.update s.fdOf k none) ∧
      (∀ i f, s.slots i = some f → Function.update s.fds fd none f = none ∨
        Function.update s.fds fd none f = some .connection) ∧
      (s.main.Listens → Function.update s.fds fd none s.serverFd = some .listening) ∧
      (s.pagerOpen = true → Function.update s.fds fd none s.pagerFd = some .file) := by
  have hconn := h.fds.in_use hk
  refine ⟨h.fds.drop hk fun f => ?_, fun i f hi => ?_, fun hl => ?_, fun hopen => ?_⟩
  · by_cases hf : f = fd
    · subst hf
      simp
    · simp [hf]
  · by_cases hf : f = fd
    · exact .inl (hf ▸ Function.update_self ..)
    · rw [Function.update_of_ne hf]
      exact h.stale i f hi
  · have hne : s.serverFd ≠ fd := by
      intro heq
      rw [← heq, h.listens hl] at hconn
      cases hconn
    rw [Function.update_of_ne hne]
    exact h.listens hl
  · have hne : s.pagerFd ≠ fd := by
      intro heq
      rw [← heq, h.database hopen] at hconn
      cases hconn
    rw [Function.update_of_ne hne]
    exact h.database hopen

/-- The main thread closes the connection that it has. -/
theorem ServerInv.mainCloses (h : ServerInv s) (hfd : s.main.fd = some fd) {pos : MainPos}
    (hslot : pos.slot = s.main.slot) (hnone : pos.fd = none) (hl : s.main.Listens)
    (hl' : pos.Listens) : ServerInv ({ s.close fd with main := pos } : Server τ) := by
  obtain ⟨hlocks, hpager⟩ := h.open_of_listens hl
  obtain ⟨hfds, hstale, hserver, hdatabase⟩ := h.closed_fds (k := none) hfd
  have hslotOf : ({ s.close fd with main := pos } : Server τ).slotOf = s.slotOf :=
    slotOf_same hslot rfl
  have hfdOf : ({ s.close fd with main := pos } : Server τ).fdOf =
      Function.update s.fdOf none pos.fd := fdOf_main s rfl
  rw [hnone] at hfdOf
  constructor
  · rw [hslotOf]
    exact h.slots
  · rw [hfdOf]
    exact hfds
  · intro k i f hi hf
    rw [hslotOf] at hi
    rw [hfdOf] at hf
    cases k with
    | none =>
      rw [Function.update_self] at hf
      cases hf
    | some t =>
      rw [Function.update_of_ne (Option.some_ne_none t)] at hf
      exact h.entry _ i f hi hf
  · exact h.active
  · exact hstale
  · exact fun _ => hserver hl
  · exact fun hc => absurd hc hlocks
  · exact fun hc => absurd hc hpager
  · exact hdatabase
  · exact fun hd => absurd hd hl'.not_drained.1
  · exact fun ha => absurd ha hl'.not_drained.2

/-- The bookkeeping of `unregister_connection_slot`, for the thread whose place it is. -/
theorem ServerInv.freed (h : ServerInv s) {k : Option τ} (hk : s.slotOf k = some slot) :
    Holding (fun i => (unregisterConnectionSlot s slot).slots i ≠ none)
        (Function.update s.slotOf k none) ∧
      (unregisterConnectionSlot s slot).active =
        usedCount (fun i => (unregisterConnectionSlot s slot).slots i ≠ none) ∧
      ∀ i f, (unregisterConnectionSlot s slot).slots i = some f → i ≠ slot ∧ s.slots i = some f := by
  have hused : ∀ i, Function.update s.slots slot none i ≠ none ↔ s.slots i ≠ none ∧ i ≠ slot := by
    intro i
    by_cases hi : i = slot
    · subst hi
      simp
    · simp [hi]
  refine ⟨h.slots.drop hk hused, ?_, fun i f hi => ?_⟩
  · have hcount : _ = usedCount fun i => s.slots i ≠ none :=
      usedCount_drop (h.slots.in_use hk) hused
    show s.active - 1 = _
    rw [h.active, ← hcount, Int.natCast_succ]
    exact Int.add_sub_cancel _ 1
  · change Function.update s.slots slot none i = some f at hi
    have hne : i ≠ slot := by
      rintro rfl
      rw [Function.update_self] at hi
      cases hi
    rw [Function.update_of_ne hne] at hi
    exact ⟨hne, hi⟩

/-! The steps that change the table or the descriptors, one by one. -/

theorem ServerInv.accept (h : ServerInv s) (pos : s.main = .accepting) (fresh : s.fds fd = none) :
    ServerInv ({ s with
      main := .accepted fd
      fds := Function.update s.fds fd (some .connection) } : Server τ) := by
  have hl : s.main.Listens := pos ▸ trivial
  obtain ⟨hlocks, hpager⟩ := h.open_of_listens hl
  set s' : Server τ := { s with
    main := .accepted fd
    fds := Function.update s.fds fd (some .connection) } with hs'
  have hslotOf : s'.slotOf = s.slotOf := slotOf_same (by rw [pos]; rfl) rfl
  have hfdOf : s'.fdOf = Function.update s.fdOf none (some fd) := fdOf_main s rfl
  have hnone : s.fdOf none = none := by
    show s.main.fd = none
    rw [pos]
    rfl
  constructor
  · rw [hslotOf]
    exact h.slots
  · rw [hfdOf]
    refine h.fds.take hnone (by rw [fresh]; nofun) fun f => ?_
    by_cases hf : f = fd
    · subst hf
      simp [hs']
    · simp [hs', hf]
  · intro k i f hi hf
    rw [hslotOf] at hi
    rw [hfdOf] at hf
    cases k with
    | none =>
      change s.main.slot = some i at hi
      rw [pos] at hi
      cases hi
    | some t =>
      rw [Function.update_of_ne (Option.some_ne_none t)] at hf
      exact h.entry _ i f hi hf
  · exact h.active
  · intro i f hi
    by_cases hf : f = fd
    · exact .inr (hf ▸ Function.update_self ..)
    · show Function.update s.fds fd _ f = none ∨ Function.update s.fds fd _ f = _
      rw [Function.update_of_ne hf]
      exact h.stale i f hi
  · intro _
    have hne : s.serverFd ≠ fd := by
      rintro rfl
      rw [h.listens hl] at fresh
      cases fresh
    exact (Function.update_of_ne hne _ _).trans (h.listens hl)
  · exact fun hc => absurd hc hlocks
  · exact fun hc => absurd hc hpager
  · intro hopen
    have hne : s.pagerFd ≠ fd := by
      intro heq
      rw [← heq, h.database hopen] at fresh
      cases fresh
    show Function.update s.fds fd _ s.pagerFd = _
    rw [Function.update_of_ne hne]
    exact h.database hopen
  · exact False.elim
  · nofun

theorem ServerInv.register (h : ServerInv s) (pos : s.main = .counted fd)
    (hfree : s.slots slot = none) :
    ServerInv ({ s with
      slots := Function.update s.slots slot (some fd)
      active := s.active + 1
      main := .registered fd slot } : Server τ) := by
  have hl : s.main.Listens := pos ▸ trivial
  obtain ⟨hlocks, hpager⟩ := h.open_of_listens hl
  set s' : Server τ := { s with
    slots := Function.update s.slots slot (some fd)
    active := s.active + 1
    main := .registered fd slot } with hs'
  have hslotOf : s'.slotOf = Function.update s.slotOf none (some slot) := slotOf_main s rfl
  have hfdOf : s'.fdOf = s.fdOf := fdOf_same (by rw [pos]; rfl) rfl
  have hnone : s.slotOf none = none := by
    show s.main.slot = none
    rw [pos]
    rfl
  have hused : ∀ i, s'.slots i ≠ none ↔ s.slots i ≠ none ∨ i = slot := by
    intro i
    by_cases hi : i = slot
    · subst hi
      simp [hs']
    · simp [hs', hi]
  have hconn : s.fds fd = some .connection := h.fds.in_use (k := none) (by
    show s.main.fd = some fd
    rw [pos]
    rfl)
  constructor
  · rw [hslotOf]
    exact h.slots.take hnone (not_not.mpr hfree) hused
  · rw [hfdOf]
    exact h.fds
  · intro k i f hi hf
    rw [hslotOf] at hi
    rw [hfdOf] at hf
    cases k with
    | none =>
      rw [Function.update_self] at hi
      obtain rfl := Option.some.inj hi
      change s.main.fd = some f at hf
      rw [pos] at hf
      obtain rfl := Option.some.inj hf
      exact Function.update_self ..
    | some t =>
      rw [Function.update_of_ne (Option.some_ne_none t)] at hi
      have hne : i ≠ slot := by
        rintro rfl
        exact h.slots.in_use hi hfree
      exact (Function.update_of_ne hne _ _).trans (h.entry _ i f hi hf)
  · have hcount : _ = (usedCount fun i => s.slots i ≠ none) + 1 :=
      usedCount_take (not_not.mpr hfree) hused
    show s.active + 1 = _
    rw [h.active, hcount, Int.natCast_succ]
  · intro i f hi
    by_cases hne : i = slot
    · subst hne
      change Function.update s.slots i (some fd) i = some f at hi
      rw [Function.update_self] at hi
      obtain rfl := Option.some.inj hi
      exact .inr hconn
    · change Function.update s.slots slot (some fd) i = some f at hi
      rw [Function.update_of_ne hne] at hi
      exact h.stale i f hi
  · exact fun _ => h.listens hl
  · exact fun hc => absurd hc hlocks
  · exact fun hc => absurd hc hpager
  · exact h.database
  · exact False.elim
  · nofun

theorem ServerInv.create (h : ServerInv s) (pos : s.main = .registered fd slot)
    (absent : s.handlers t = .absent) :
    ServerInv ({ s with
      main := .looping
      handlers := Function.update s.handlers t (.serving fd slot) } : Server τ) := by
  have hl : s.main.Listens := pos ▸ trivial
  obtain ⟨hlocks, hpager⟩ := h.open_of_listens hl
  set s₁ : Server τ := { s with main := .looping } with hs₁
  set s' : Server τ := { s₁ with
    handlers := Function.update s.handlers t (.serving fd slot) } with hs'
  have hslot : s.slotOf none = some slot := by
    show s.main.slot = some slot
    rw [pos]
    rfl
  have hfd : s.fdOf none = some fd := by
    show s.main.fd = some fd
    rw [pos]
    rfl
  have hset : s'.handlers = Function.update s₁.handlers t (.serving fd slot) := rfl
  have hslotOf : s'.slotOf =
      Function.update (Function.update s.slotOf none none) (some t) (some slot) := by
    have hmain : s₁.slotOf = Function.update s.slotOf none none := slotOf_main s rfl
    rw [← hmain]
    exact slotOf_handler s₁ hset rfl
  have hfdOf : s'.fdOf =
      Function.update (Function.update s.fdOf none none) (some t) (some fd) := by
    have hmain : s₁.fdOf = Function.update s.fdOf none none := fdOf_main s rfl
    rw [← hmain]
    exact fdOf_handler s₁ hset rfl
  have hnone : s.slotOf (some t) = none ∧ s.fdOf (some t) = none := by
    constructor
    · show (s.handlers t).slot = none
      rw [absent]
      rfl
    · show (s.handlers t).fd = none
      rw [absent]
      rfl
  constructor
  · rw [hslotOf]
    exact h.slots.pass hslot hnone.1
  · rw [hfdOf]
    exact h.fds.pass hfd hnone.2
  · intro k i f hi hf
    rw [hslotOf] at hi
    rw [hfdOf] at hf
    by_cases hk : k = some t
    · rw [hk, Function.update_self] at hi hf
      obtain rfl := Option.some.inj hi
      obtain rfl := Option.some.inj hf
      exact h.entry none _ _ hslot hfd
    · rw [Function.update_of_ne hk] at hi hf
      cases k with
      | none =>
        rw [Function.update_self] at hi
        cases hi
      | some u =>
        rw [Function.update_of_ne (Option.some_ne_none u)] at hi hf
        exact h.entry _ i f hi hf
  · exact h.active
  · exact h.stale
  · exact fun _ => h.listens hl
  · exact fun hc => absurd hc hlocks
  · exact fun hc => absurd hc hpager
  · exact h.database
  · exact False.elim
  · nofun

theorem ServerInv.abandon (h : ServerInv s) (pos : s.main = .abandoned slot) :
    ServerInv ({ unregisterConnectionSlot s slot with main := .looping } : Server τ) := by
  have hl : s.main.Listens := pos ▸ trivial
  obtain ⟨hlocks, hpager⟩ := h.open_of_listens hl
  have hslot : s.slotOf none = some slot := by
    show s.main.slot = some slot
    rw [pos]
    rfl
  obtain ⟨hslots, hactive, hentry⟩ := h.freed hslot
  set s' : Server τ := { unregisterConnectionSlot s slot with main := .looping } with hs'
  have hslotOf : s'.slotOf = Function.update s.slotOf none none := slotOf_main s rfl
  have hfdOf : s'.fdOf = s.fdOf := fdOf_same (by rw [pos]; rfl) rfl
  constructor
  · rw [hslotOf]
    exact hslots
  · rw [hfdOf]
    exact h.fds
  · intro k i f hi hf
    rw [hslotOf] at hi
    rw [hfdOf] at hf
    cases k with
    | none =>
      rw [Function.update_self] at hi
      cases hi
    | some u =>
      rw [Function.update_of_ne (Option.some_ne_none u)] at hi
      have hne : i ≠ slot := by
        rintro rfl
        cases h.slots.inj _ _ _ hi hslot
      exact (Function.update_of_ne hne _ _).trans (h.entry _ i f hi hf)
  · exact hactive
  · exact fun i f hi => h.stale i f (hentry i f hi).2
  · exact fun _ => h.listens hl
  · exact fun hc => absurd hc hlocks
  · exact fun hc => absurd hc hpager
  · exact h.database
  · exact False.elim
  · nofun

omit [DecidableEq τ] in
/-- A descriptor that is no connection is nobody's. -/
theorem ServerInv.closed_other (h : ServerInv s) (hfd : s.fds fd ≠ some .connection) :
    Holding (fun f => Function.update s.fds fd none f = some .connection) s.fdOf ∧
      ∀ i f, s.slots i = some f → Function.update s.fds fd none f = none ∨
        Function.update s.fds fd none f = some .connection := by
  have hconn : ∀ f, Function.update s.fds fd none f = some .connection ↔
      s.fds f = some .connection := by
    intro f
    by_cases hf : f = fd
    · rw [hf, Function.update_self]
      exact iff_of_false nofun hfd
    · rw [Function.update_of_ne hf]
  refine ⟨⟨fun f => (hconn f).trans (h.fds.used_iff f), h.fds.inj⟩, fun i f hi => ?_⟩
  by_cases hf : f = fd
  · exact .inl (hf ▸ Function.update_self ..)
  · rw [Function.update_of_ne hf]
    exact h.stale i f hi

omit [DecidableEq τ] in
theorem ServerInv.closeServer (h : ServerInv s) (pos : s.main = .leaving) :
    ServerInv ({ s.close s.serverFd with main := .draining } : Server τ) := by
  have hl : s.main.Listens := pos ▸ trivial
  obtain ⟨hlocks, hpager⟩ := h.open_of_listens hl
  obtain ⟨hfds, hstale⟩ := @closed_other _ s s.serverFd h (by rw [h.listens hl]; nofun)
  set s' : Server τ := { s.close s.serverFd with main := .draining } with hs'
  have hslotOf : s'.slotOf = s.slotOf := slotOf_same (by rw [pos]; rfl) rfl
  have hfdOf : s'.fdOf = s.fdOf := fdOf_same (by rw [pos]; rfl) rfl
  constructor
  · rw [hslotOf]
    exact h.slots
  · rw [hfdOf]
    exact hfds
  · rw [hslotOf, hfdOf]
    exact h.entry
  · exact h.active
  · exact hstale
  · exact False.elim
  · exact fun hc => absurd hc hlocks
  · exact fun hc => absurd hc hpager
  · intro hopen
    have hne : s.pagerFd ≠ s.serverFd := by
      intro heq
      have hfile := h.database hopen
      rw [heq, h.listens hl] at hfile
      cases hfile
    show Function.update s.fds s.serverFd none s.pagerFd = _
    rw [Function.update_of_ne hne]
    exact h.database hopen
  · exact False.elim
  · nofun

omit [DecidableEq τ] in
theorem ServerInv.closePager (h : ServerInv s) (pos : s.main = .flushed) :
    ServerInv ({ s.close s.pagerFd with main := .finished, pagerOpen := false } : Server τ) := by
  have hopen : s.pagerOpen = true := by
    by_contra hc
    rw [h.pagerOpen (Bool.eq_false_of_not_eq_true hc)] at pos
    cases pos
  obtain ⟨hfds, hstale⟩ := @closed_other _ s s.pagerFd h (by rw [h.database hopen]; nofun)
  set s' : Server τ := { s.close s.pagerFd with main := .finished, pagerOpen := false } with hs'
  have hslotOf : s'.slotOf = s.slotOf := slotOf_same (by rw [pos]; rfl) rfl
  have hfdOf : s'.fdOf = s.fdOf := fdOf_same (by rw [pos]; rfl) rfl
  constructor
  · rw [hslotOf]
    exact h.slots
  · rw [hfdOf]
    exact hfds
  · rw [hslotOf, hfdOf]
    exact h.entry
  · exact h.active
  · exact hstale
  · exact False.elim
  · exact fun _ => ⟨trivial, nofun⟩
  · exact fun _ => rfl
  · nofun
  · exact fun _ => h.drained (pos ▸ trivial)
  · nofun

omit [DecidableEq τ] in
/-- The waiting loop, with a connection left or without. -/
theorem ServerInv.waits (h : ServerInv s) (hslot : s.main.slot = none) (hfd : s.main.fd = none)
    (hopen : s.locksOpen ≠ false ∧ s.pagerOpen ≠ false) :
    ServerInv ({ s with main := s.waitPos } : Server τ) := by
  have hcases : s.waitPos = .asleep ∧ 0 < s.active ∨ s.waitPos = .drained ∧ s.active = 0 := by
    have hpos : 0 ≤ s.active := by
      rw [h.active]
      exact Int.natCast_nonneg _
    unfold Server.waitPos
    split
    · exact .inl ⟨rfl, by assumption⟩
    · exact .inr ⟨rfl, by omega⟩
  have hside : ∀ pos : MainPos, pos.slot = none → pos.fd = none → ¬ pos.Listens →
      (pos.Drained → s.active = 0) → (pos = .asleep → 0 < s.active) →
      ServerInv ({ s with main := pos } : Server τ) := by
    intro pos hs hf hlistens hdrained hasleep
    refine h.goOn rfl rfl rfl rfl rfl rfl rfl (hs.trans hslot.symm) (hf.trans hfd.symm)
      (fun hl => absurd hl hlistens) ?_ ?_ hdrained hasleep
    · exact fun hc => absurd hc hopen.1
    · exact fun hc => absurd hc hopen.2
  obtain ⟨hpos, hactive⟩ | ⟨hpos, hactive⟩ := hcases <;> rw [hpos]
  · exact hside .asleep rfl rfl id False.elim fun _ => hactive
  · exact hside .drained rfl rfl id (fun _ => hactive) nofun

/-- A thread goes on with its place in the table. -/
theorem ServerInv.handlerGoesOn (h : ServerInv s) {pos : HandlerPos}
    (hslot : pos.slot = (s.handlers t).slot) (hfd : pos.fd = (s.handlers t).fd) :
    ServerInv ({ s with handlers := Function.update s.handlers t pos } : Server τ) := by
  set s' : Server τ := { s with handlers := Function.update s.handlers t pos } with hs'
  have hset : s'.handlers = Function.update s.handlers t pos := rfl
  have hslotOf : s'.slotOf = s.slotOf := by
    rw [slotOf_handler s hset rfl]
    exact Eq.trans (congrArg _ hslot) (Function.update_eq_self (some t) s.slotOf)
  have hfdOf : s'.fdOf = s.fdOf := by
    rw [fdOf_handler s hset rfl]
    exact Eq.trans (congrArg _ hfd) (Function.update_eq_self (some t) s.fdOf)
  exact ⟨hslotOf ▸ h.slots, hfdOf ▸ h.fds, by rw [hslotOf, hfdOf]; exact h.entry, h.active, h.stale,
    h.listens, h.locksOpen, h.pagerOpen, h.database, h.drained, h.asleep⟩

theorem ServerInv.close (h : ServerInv s) (pos : s.handlers t = .served fd slot) :
    ServerInv ({ s.close fd with
      handlers := Function.update s.handlers t (.closed slot) } : Server τ) := by
  have hfd : s.fdOf (some t) = some fd := by
    show (s.handlers t).fd = some fd
    rw [pos]
    rfl
  obtain ⟨hfds, hstale, hserver, hdatabase⟩ := h.closed_fds hfd
  set s' : Server τ := { s.close fd with
    handlers := Function.update s.handlers t (.closed slot) } with hs'
  have hset : s'.handlers = Function.update s.handlers t (.closed slot) := rfl
  have hslotOf : s'.slotOf = s.slotOf := by
    rw [slotOf_handler s hset rfl]
    refine Eq.trans (congrArg _ ?_) (Function.update_eq_self (some t) s.slotOf)
    show some slot = (s.handlers t).slot
    rw [pos]
    rfl
  have hfdOf : s'.fdOf = Function.update s.fdOf (some t) none := fdOf_handler s hset rfl
  refine ⟨hslotOf ▸ h.slots, hfdOf ▸ hfds, fun k i f hi hf => ?_, h.active, hstale, hserver,
    h.locksOpen, h.pagerOpen, hdatabase, h.drained, h.asleep⟩
  rw [hslotOf] at hi
  rw [hfdOf] at hf
  by_cases hk : k = some t
  · rw [hk, Function.update_self] at hf
    cases hf
  · rw [Function.update_of_ne hk] at hf
    exact h.entry _ i f hi hf

theorem MainPos.wake_cases (pos : MainPos) :
    pos.wake.slot = pos.slot ∧ pos.wake.fd = pos.fd ∧ (pos.wake.Listens ↔ pos.Listens) ∧
      (pos.wake.Drained ↔ pos.Drained) ∧ pos.wake ≠ .asleep ∧ (pos.wake = .drained ↔ pos = .drained) ∧
      (pos.wake = .finished ↔ pos = .finished) := by
  cases pos <;> simp [MainPos.wake, MainPos.slot, MainPos.fd, MainPos.Listens, MainPos.Drained]

/-- **The last one to leave wakes the main thread.** -/
theorem ServerInv.unregister (h : ServerInv s) (pos : s.handlers t = .closed slot) :
    ServerInv ({ unregisterConnectionSlot s slot with
      handlers := Function.update s.handlers t .absent } : Server τ) := by
  have hslot : s.slotOf (some t) = some slot := by
    show (s.handlers t).slot = some slot
    rw [pos]
    rfl
  obtain ⟨hslots, hactive, hentry⟩ := h.freed hslot
  obtain ⟨hmslot, hmfd, hmlistens, hmdrained, hmasleep, hmd, hmf⟩ := s.main.wake_cases
  set s' : Server τ := { unregisterConnectionSlot s slot with
    handlers := Function.update s.handlers t .absent } with hs'
  have hmain : s'.main = if s.active = 1 then s.main.wake else s.main := rfl
  have hset : s'.handlers = Function.update s.handlers t .absent := rfl
  have hslotOf : s'.slotOf = Function.update s.slotOf (some t) none := by
    refine slotOf_handler s hset ?_
    rw [hmain]
    split
    · exact hmslot
    · rfl
  have hfdOf : s'.fdOf = s.fdOf := by
    refine Eq.trans (fdOf_handler s hset ?_) ?_
    · rw [hmain]
      split
      · exact hmfd
      · rfl
    · refine Eq.trans (congrArg _ ?_) (Function.update_eq_self (some t) s.fdOf)
      show none = (s.handlers t).fd
      rw [pos]
      rfl
  -- a thread that is still in the table keeps the main thread from being done
  have hpos : 0 < s.active := by
    rw [h.active]
    have hne : usedCount (fun i => s.slots i ≠ none) ≠ 0 :=
      fun hzero => usedCount_eq_zero.mp hzero slot (h.slots.in_use hslot)
    exact Int.natCast_pos.mpr (Nat.pos_of_ne_zero hne)
  have hbefore : ¬ s.main.Drained := by
    intro hd
    rw [h.drained hd] at hpos
    exact lt_irrefl _ hpos
  have hbefore' : ¬ s'.main.Drained := by
    rw [hmain]
    split
    · exact fun hd => hbefore (hmdrained.mp hd)
    · exact hbefore
  constructor
  · rw [hslotOf]
    exact hslots
  · rw [hfdOf]
    exact h.fds
  · intro k i f hi hf
    rw [hslotOf] at hi
    rw [hfdOf] at hf
    by_cases hk : k = some t
    · rw [hk, Function.update_self] at hi
      cases hi
    · rw [Function.update_of_ne hk] at hi
      have hne : i ≠ slot := by
        rintro rfl
        exact hk (h.slots.inj _ _ _ hi hslot)
      exact (Function.update_of_ne hne _ _).trans (h.entry _ i f hi hf)
  · exact hactive
  · exact fun i f hi => h.stale i f (hentry i f hi).2
  · intro hl
    rw [hmain] at hl
    split at hl
    · exact h.listens (hmlistens.mp hl)
    · exact h.listens hl
  · exact fun hc => absurd (h.locksOpen hc).1 hbefore
  · intro hc
    rw [h.pagerOpen hc] at hbefore
    exact absurd trivial hbefore
  · exact h.database
  · exact fun hd => absurd hd hbefore'
  · intro ha
    rw [hmain] at ha
    split at ha
    · exact absurd ha hmasleep
    · have hone := h.asleep ha
      show 0 < s.active - 1
      omega

/-- **Every step keeps the invariant.** -/
theorem ServerInv.step (h : ServerInv s) (hstep : s.Step s') : ServerInv s' := by
  cases hstep with
  | signal =>
    exact h.goOn rfl rfl rfl rfl rfl rfl rfl rfl rfl id h.locksOpen h.pagerOpen h.drained h.asleep
  | next pos =>
    have hslot : (if s.running then MainPos.accepting else .leaving).slot = none := by
      split <;> rfl
    have hfd : (if s.running then MainPos.accepting else .leaving).fd = none := by
      split <;> rfl
    have hl : (if s.running then MainPos.accepting else .leaving).Listens := by
      split <;> trivial
    exact h.loops (pos ▸ trivial) (by rw [hslot, pos]; rfl) (by rw [hfd, pos]; rfl) hl
  | acceptFails pos =>
    exact h.loops (pos ▸ trivial) (by rw [pos]; rfl) (by rw [pos]; rfl) trivial
  | timeoutSet pos =>
    exact h.loops (pos ▸ trivial) (by rw [pos]; rfl) (by rw [pos]; rfl) trivial
  | timeoutFails pos =>
    exact h.mainCloses (by rw [pos]; rfl) (by rw [pos]; rfl) rfl (pos ▸ trivial) trivial
  | refuse pos =>
    exact h.mainCloses (by rw [pos]; rfl) (by rw [pos]; rfl) rfl (pos ▸ trivial) trivial
  | createFails pos =>
    exact h.mainCloses (by rw [pos]; rfl) (by rw [pos]; rfl) rfl (pos ▸ trivial) trivial
  | accept fd pos fresh => exact h.accept pos fresh
  | full pos exec =>
    obtain ⟨-, rfl, -⟩ | ⟨i, hi, -⟩ := registerConnectionFd_cases exec
    · exact h.loops (pos ▸ trivial) (by rw [pos]; rfl) (by rw [pos]; rfl) trivial
    · cases hi
  | register pos exec =>
    obtain ⟨hi, -⟩ | ⟨i, hi, hfree, rfl⟩ := registerConnectionFd_cases exec
    · cases hi
    · obtain rfl := Option.some.inj hi
      exact h.register pos hfree
  | create t pos absent => exact h.create pos absent
  | abandon pos => exact h.abandon pos
  | closeServer pos => exact h.closeServer pos
  | drain pos =>
    exact h.waits (by rw [pos]; rfl) (by rw [pos]; rfl) (h.open_of_waiting (.inl pos))
  | spurious pos =>
    obtain ⟨hlocks, hpager⟩ := h.open_of_waiting (.inr (.inl pos))
    exact h.goOn rfl rfl rfl rfl rfl rfl rfl (by rw [pos]; rfl) (by rw [pos]; rfl) False.elim
      (fun hc => absurd hc hlocks) (fun hc => absurd hc hpager) False.elim nofun
  | test pos =>
    exact h.waits (by rw [pos]; rfl) (by rw [pos]; rfl) (h.open_of_waiting (.inr (.inr (.inl pos))))
  | destroy pos =>
    obtain ⟨-, hpager⟩ := h.open_of_waiting (.inr (.inr (.inr pos)))
    exact h.goOn rfl rfl rfl rfl rfl rfl rfl (by rw [pos]; rfl) (by rw [pos]; rfl) False.elim
      (fun _ => ⟨trivial, nofun⟩) (fun hc => absurd hc hpager)
      (fun _ => h.drained (pos ▸ trivial)) nofun
  | flush pos =>
    have hpager : s.pagerOpen ≠ false := by
      intro hc
      rw [h.pagerOpen hc] at pos
      cases pos
    exact h.goOn rfl rfl rfl rfl rfl rfl rfl (by rw [pos]; rfl) (by rw [pos]; rfl) False.elim
      (fun _ => ⟨trivial, nofun⟩) (fun hc => absurd hc hpager)
      (fun _ => h.drained (pos ▸ trivial)) nofun
  | closePager pos => exact h.closePager pos
  | serve t pos => exact h
  | hang t pos => exact h.handlerGoesOn (by rw [pos]; rfl) (by rw [pos]; rfl)
  | leave t pos => exact h.handlerGoesOn (by rw [pos]; rfl) (by rw [pos]; rfl)
  | close t pos => exact h.close pos
  | unregister t pos => exact h.unregister pos

omit [DecidableEq τ] in
theorem ServerInv.init {fds : Nat → Option FdKind} {serverFd pagerFd : Nat}
    (h : StartFds fds serverFd pagerFd) :
    ServerInv (Server.init fds serverFd pagerFd : Server τ) where
  slots := holding_empty (fun _ => not_not.mpr rfl) fun k => by cases k <;> rfl
  fds := holding_empty h.2.2 fun k => by cases k <;> rfl
  entry := by
    intro k i f hi
    cases k <;> cases hi
  active := by
    have hzero : usedCount (fun i =>
        (Server.init fds serverFd pagerFd : Server τ).slots i ≠ none) = 0 :=
      usedCount_eq_zero.mpr fun _ => not_not.mpr rfl
    rw [hzero]
    rfl
  stale := nofun
  listens := fun _ => h.1
  locksOpen := nofun
  pagerOpen := nofun
  database := fun _ => h.2.1
  drained := False.elim
  asleep := nofun

/-- **Every run keeps it.** -/
theorem Server.Reach.inv {fds : Nat → Option FdKind} {serverFd pagerFd : Nat}
    (h : StartFds fds serverFd pagerFd)
    (hrun : Server.Reach (Server.init fds serverFd pagerFd) s) : ServerInv s := by
  induction hrun with
  | refl => exact .init h
  | tail _ hstep ih => exact ih.step hstep

end Steps

end MiniDb
