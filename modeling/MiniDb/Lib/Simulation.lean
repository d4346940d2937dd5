import MiniDb.Lib.Runs

/-! # Programs that implement a specification

A component with calls `ι` and replies `ρ` is a program for each call, state over `Option`. Its
specification is an abstract state, the calls its users may make in it (`allowed`), how a call
changes it (`next`) and which replies are right (`right`). The program *simulates* the
specification along a relation `R` when every allowed call from related states returns a right
reply and leads to related states; then so does every sequence of calls. It *conforms* to the
specification when this holds of every call that returns. -/

set_option autoImplicit false

namespace MiniDb.Lib

variable {ι ρ σ α : Type}

/-- One program after another, with the list of their replies. -/
def runAll (exec : ι → StateT σ Option ρ) : List ι → StateT σ Option (List ρ)
  | [] => return []
  | c :: cs => do
    let r ← exec c
    let rs ← runAll exec cs
    return r :: rs

theorem runAll_append (exec : ι → StateT σ Option ρ) (cs ds : List ι) :
    runAll exec (cs ++ ds) = do
      let rs ← runAll exec cs
      let qs ← runAll exec ds
      return rs ++ qs := by
  induction cs with
  | nil => simp [runAll]
  | cons c cs ih => simp [runAll, ih]

/-- Each allowed call, made from related states, succeeds with a right reply and keeps the states
related. -/
def Simulates (R : σ → α → Prop) (allowed : ι → α → Prop) (right : ι → α → ρ → Prop)
    (next : ι → α → α) (exec : ι → StateT σ Option ρ) : Prop :=
  ∀ c s a, R s a → allowed c a → ∃ r s', (exec c).run s = some (r, s') ∧ right c a r ∧ R s' (next c a)

/-- Each call of a sequence is allowed where it is made. -/
def AllowedAll (allowed : ι → α → Prop) (next : ι → α → α) : List ι → α → Prop
  | [], _ => True
  | c :: cs, a => allowed c a ∧ AllowedAll allowed next cs (next c a)

/-- Each reply to a sequence of calls is right. -/
def RightAll (right : ι → α → ρ → Prop) (next : ι → α → α) : List ι → α → List ρ → Prop
  | [], _, rs => rs = []
  | c :: cs, a, rs => ∃ r rs', rs = r :: rs' ∧ right c a r ∧ RightAll right next cs (next c a) rs'

variable {R : σ → α → Prop} {allowed : ι → α → Prop} {right : ι → α → ρ → Prop}
  {next : ι → α → α} {exec : ι → StateT σ Option ρ}

theorem allowedAll_append {cs ds : List ι} {a : α} : AllowedAll allowed next (cs ++ ds) a ↔
    AllowedAll allowed next cs a ∧ AllowedAll allowed next ds (cs.foldl (fun a c => next c a) a) := by
  induction cs generalizing a with
  | nil => simp [AllowedAll]
  | cons c cs ih => simp [AllowedAll, ih, and_assoc]

/-- Right replies to one sequence after another. -/
theorem RightAll.append {cs ds : List ι} {a : α} {rs qs : List ρ} (h : RightAll right next cs a rs)
    (h' : RightAll right next ds (cs.foldl (fun a c => next c a) a) qs) :
    RightAll right next (cs ++ ds) a (rs ++ qs) := by
  induction cs generalizing a rs with
  | nil =>
    obtain rfl : rs = [] := h
    exact h'
  | cons c cs ih =>
    obtain ⟨r, rs', rfl, hright, hrest⟩ := h
    exact ⟨r, rs' ++ qs, rfl, hright, ih hrest h'⟩

/-- What holds of every call holds of every sequence of calls. -/
theorem Simulates.runAll (h : Simulates R allowed right next exec) (cs : List ι) {s : σ} {a : α}
    (hr : R s a) (hok : AllowedAll allowed next cs a) :
    ∃ rs s', (runAll exec cs).run s = some (rs, s') ∧ RightAll right next cs a rs ∧
      R s' (cs.foldl (fun a c => next c a) a) := by
  induction cs generalizing s a with
  | nil => exact ⟨[], s, rfl, rfl, hr⟩
  | cons c cs ih =>
    obtain ⟨r, s₁, hrun₁, hright, hr₁⟩ := h c s a hr hok.1
    obtain ⟨rs, s₂, hrun₂, hrights, hr₂⟩ := ih hr₁ hok.2
    refine ⟨r :: rs, s₂, ?_, ⟨r, rs, rfl, hright, hrights⟩, hr₂⟩
    simp only [Lib.runAll, StateT.run_bind, hrun₁, hrun₂, Option.bind_eq_bind, Option.bind_some,
      StateT.run_pure, Option.pure_def]

/-- Each call that returns, made from related states, gives a right reply and keeps the states
related. -/
def Conforms (R : σ → α → Prop) (right : ι → α → ρ → Prop) (next : ι → α → α)
    (exec : ι → StateT σ Option ρ) : Prop :=
  ∀ c s a r s', R s a → (exec c).run s = some (r, s') → right c a r ∧ R s' (next c a)

/-- What holds of every call that returns holds of every sequence of calls that does. -/
theorem Conforms.runAll (h : Conforms R right next exec) (cs : List ι) {s s' : σ} {a : α}
    {rs : List ρ} (hr : R s a) (hrun : (runAll exec cs).run s = some (rs, s')) :
    RightAll right next cs a rs ∧ R s' (cs.foldl (fun a c => next c a) a) := by
  induction cs generalizing s a rs with
  | nil =>
    obtain ⟨rfl, rfl⟩ := run_pure_eq_some.mp hrun
    exact ⟨rfl, hr⟩
  | cons c cs ih =>
    obtain ⟨r, s₁, hcall, hrest⟩ := run_bind_eq_some.mp hrun
    obtain ⟨rs', s₂, hcalls, hend⟩ := run_bind_eq_some.mp hrest
    obtain ⟨rfl, rfl⟩ := run_pure_eq_some.mp hend
    obtain ⟨hright, hr₁⟩ := h c s a r s₁ hr hcall
    obtain ⟨hrights, hr₂⟩ := ih hr₁ hcalls
    exact ⟨⟨r, rs', rfl, hright, hrights⟩, hr₂⟩

/-- Two versions of a component that agree on every call agree on every sequence of calls. -/
theorem Agrees.runAll {σ' : Type} {R : σ → σ' → Prop} {exec' : ι → StateT σ' Option ρ}
    (h : ∀ c, Agrees R (exec c) (exec' c)) (cs : List ι) :
    Agrees R (runAll exec cs) (Lib.runAll exec' cs) := by
  induction cs with
  | nil => exact agrees_pure
  | cons c cs ih =>
    apply (h c).bind
    intro r
    apply ih.bind
    intro rs
    exact agrees_pure

/-- What every call keeps, every sequence of calls keeps. -/
theorem Keeps.runAll {K : σ → σ → Prop} [Std.Refl K] [IsTrans σ K] (h : ∀ c, Keeps K (exec c))
    (cs : List ι) : Keeps K (runAll exec cs) := by
  induction cs with
  | nil => exact keeps_pure
  | cons c cs ih => exact (h c).bind fun r => ih.bind fun rs => keeps_pure

end MiniDb.Lib
