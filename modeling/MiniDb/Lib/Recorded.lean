import Mathlib.Data.List.Infix
import MiniDb.Lib.Runs

/-! # Programs that record what they do

A program with a state may keep a record in it, newest event first. What the events do to a ledger,
and which events may come next, is a step relation; a run is in order when its events lead the
ledger it starts with to one it may end with (`Records`). This goes through every construct of the
language. For the other direction there is `Meets`: a run that comes to a bad event behind events
that are in order, whatever it does afterwards. -/

set_option autoImplicit false

namespace MiniDb.Lib

universe u

variable {ε ρ σ α β : Type u}

/-! ## Replaying a record -/

/-- The events, newest first, lead from `s` to `s'`. -/
inductive Replays (step : ρ → ε → ρ → Prop) (s : ρ) : List ε → ρ → Prop
  | nil : Replays step s [] s
  | cons {e : ε} {older : List ε} {s₁ s₂ : ρ} (h : Replays step s older s₁) (he : step s₁ e s₂) :
      Replays step s (e :: older) s₂

section Replays

variable {step : ρ → ε → ρ → Prop} {s s₁ s₂ : ρ} {newer older : List ε} {e : ε}

theorem Replays.append (h : Replays step s older s₁) (h' : Replays step s₁ newer s₂) :
    Replays step s (newer ++ older) s₂ := by
  induction h' with
  | nil => exact h
  | cons _ he ih => exact .cons ih he

theorem Replays.split (h : Replays step s (newer ++ older) s₂) :
    ∃ s₁, Replays step s older s₁ ∧ Replays step s₁ newer s₂ := by
  induction newer generalizing s₂ with
  | nil => exact ⟨s₂, h, .nil⟩
  | cons e newer ih =>
    cases h with
    | cons h he =>
      obtain ⟨s₁, hold, hnew⟩ := ih h
      exact ⟨s₁, hold, .cons hnew he⟩

theorem Replays.mono {step' : ρ → ε → ρ → Prop} (hstep : ∀ s e s', step s e s' → step' s e s')
    (h : Replays step s older s₁) : Replays step' s older s₁ := by
  induction h with
  | nil => exact .nil
  | cons _ he ih => exact .cons ih (hstep _ _ _ he)

end Replays

/-! ## Runs in order -/

section Recorded

variable (trace : σ → List ε) (step : ρ → ε → ρ → Prop)

/-- Between the two states events are recorded that lead from `s` to `s'`. -/
def Recorded (st : σ) (s : ρ) (st' : σ) (s' : ρ) : Prop :=
  ∃ events, trace st' = events ++ trace st ∧ Replays step s events s'

/-- Every run records events that lead from `s` to the ledger that goes with its result. -/
def Records (m : StateT σ Option α) (s : ρ) (s' : α → ρ) : Prop :=
  ∀ st a st', m.run st = some (a, st') → Recorded trace step st s st' (s' a)

/-- Between the two states a bad event is recorded, behind events that are in order. -/
def Meets (bad : ρ → ε → Prop) (st : σ) (s : ρ) (st' : σ) : Prop :=
  ∃ newer e older s', trace st' = newer ++ e :: (older ++ trace st) ∧ Replays step s older s' ∧
    bad s' e

/-- Every run comes to a bad event. -/
def AlwaysMeets (bad : ρ → ε → Prop) (m : StateT σ Option α) (s : ρ) : Prop :=
  ∀ st a st', m.run st = some (a, st') → Meets trace step bad st s st'

end Recorded

section Rules

variable {trace : σ → List ε} {step : ρ → ε → ρ → Prop} {st st₁ st₂ : σ} {s s₁ s₂ : ρ}
  {m : StateT σ Option α} {f : α → StateT σ Option β} {bad : ρ → ε → Prop}

theorem Recorded.refl : Recorded trace step st s st s := ⟨[], rfl, .nil⟩

theorem Recorded.trans (h : Recorded trace step st s st₁ s₁)
    (h' : Recorded trace step st₁ s₁ st₂ s₂) : Recorded trace step st s st₂ s₂ := by
  obtain ⟨older, htrace, hold⟩ := h
  obtain ⟨newer, htrace', hnew⟩ := h'
  refine ⟨newer ++ older, ?_, hold.append hnew⟩
  rw [htrace', htrace, List.append_assoc]

/-- One event is recorded. -/
theorem Recorded.event {e : ε} (htrace : trace st₁ = e :: trace st) (he : step s e s₁) :
    Recorded trace step st s st₁ s₁ :=
  ⟨[e], htrace, .cons .nil he⟩

/-- Nothing is recorded. -/
theorem Recorded.silent (htrace : trace st₁ = trace st) : Recorded trace step st s st₁ s :=
  ⟨[], htrace, .nil⟩

theorem records_failure {s' : α → ρ} : Records trace step (failure : StateT σ Option α) s s' := by
  intro st a st' h
  cases h

theorem records_pure {a : α} {s' : α → ρ} (h : s' a = s) :
    Records trace step (pure a : StateT σ Option α) s s' := by
  intro st b st' hrun
  obtain ⟨rfl, rfl⟩ := run_pure_eq_some.mp hrun
  rw [h]
  exact Recorded.refl

theorem records_get : Records trace step (get : StateT σ Option σ) s fun _ => s := by
  intro st a st' hrun
  obtain ⟨-, rfl⟩ := run_get_eq_some.mp hrun
  exact Recorded.refl

theorem Records.bind {s' : α → ρ} {s'' : β → ρ} (hm : Records trace step m s s')
    (hf : ∀ a, Records trace step (f a) (s' a) s'') : Records trace step (m >>= f) s s'' := by
  intro st b st' hrun
  obtain ⟨a, st₁, hrun₁, hrest⟩ := run_bind_eq_some.mp hrun
  exact (hm st a st₁ hrun₁).trans (hf a st₁ b st' hrest)

/-- A program that is run on every element of a list and gives back what it takes. -/
theorem records_forM {γ : Type} {l : List γ} {g : γ → StateT σ Option PUnit}
    (h : ∀ c ∈ l, Records trace step (g c) s fun _ => s) :
    Records trace step (l.forM g) s fun _ => s := by
  induction l with
  | nil => exact records_pure rfl
  | cons c l ih =>
    show Records trace step (g c >>= fun _ => l.forM g) s fun _ => s
    exact (h c List.mem_cons_self).bind fun _ => ih fun d hd => h d (List.mem_cons_of_mem _ hd)

/-! ## Runs that meet a bad event -/

theorem Recorded.meets (h : Recorded trace step st s st₁ s₁)
    (h' : Meets trace step bad st₁ s₁ st₂) : Meets trace step bad st s st₂ := by
  obtain ⟨events, htrace, hevents⟩ := h
  obtain ⟨newer, e, older, s', htrace', hold, hbad⟩ := h'
  refine ⟨newer, e, older ++ events, s', ?_, hevents.append hold, hbad⟩
  rw [htrace', htrace, List.append_assoc]

/-- What comes later does not undo it. -/
theorem Meets.extend (h : Meets trace step bad st s st₁) (h' : trace st₁ <:+ trace st₂) :
    Meets trace step bad st s st₂ := by
  obtain ⟨newer, e, older, s', htrace, hold, hbad⟩ := h
  obtain ⟨newest, htrace'⟩ := h'
  refine ⟨newest ++ newer, e, older, s', ?_, hold, hbad⟩
  rw [← htrace', htrace, List.append_assoc]

theorem Meets.event {e : ε} (htrace : trace st₁ = e :: trace st) (he : bad s e) :
    Meets trace step bad st s st₁ :=
  ⟨[], e, [], s, htrace, .nil, he⟩

/-- A run in order records its events on top of what is there. -/
theorem Records.extends {s' : α → ρ} (h : Records trace step m s s') :
    Keeps (fun st st' => trace st <:+ trace st') m := by
  intro st a st' hrun
  obtain ⟨events, htrace, -⟩ := h st a st' hrun
  exact ⟨events, htrace.symm⟩

theorem Records.meets {s' : α → ρ} (hm : Records trace step m s s')
    (hf : ∀ a, AlwaysMeets trace step bad (f a) (s' a)) : AlwaysMeets trace step bad (m >>= f) s := by
  intro st b st' hrun
  obtain ⟨a, st₁, hrun₁, hrest⟩ := run_bind_eq_some.mp hrun
  exact (hm st a st₁ hrun₁).meets (hf a st₁ b st' hrest)

theorem AlwaysMeets.bind (hm : AlwaysMeets trace step bad m s)
    (hf : ∀ a, Keeps (fun st st' => trace st <:+ trace st') (f a)) :
    AlwaysMeets trace step bad (m >>= f) s := by
  intro st b st' hrun
  obtain ⟨a, st₁, hrun₁, hrest⟩ := run_bind_eq_some.mp hrun
  exact (hm st a st₁ hrun₁).extend (hf a st₁ b st' hrest)

/-- A program that is run on every element of a list, and comes to a bad event at one of them. -/
theorem alwaysMeets_forM {γ : Type} {l : List γ} {g : γ → StateT σ Option PUnit} {c : γ}
    (hc : c ∈ l) (h : ∀ d ∈ l, Records trace step (g d) s fun _ => s)
    (hbad : AlwaysMeets trace step bad (g c) s) : AlwaysMeets trace step bad (l.forM g) s := by
  induction l with
  | nil => cases hc
  | cons d l ih =>
    have hrest : ∀ e ∈ l, Records trace step (g e) s fun _ => s := fun e he =>
      h e (List.mem_cons_of_mem _ he)
    show AlwaysMeets trace step bad (g d >>= fun _ => l.forM g) s
    rcases List.mem_cons.mp hc with rfl | hc
    · exact hbad.bind fun _ => (records_forM hrest).extends
    · exact (h d List.mem_cons_self).meets fun _ => ih hc hrest

end Rules

end MiniDb.Lib
