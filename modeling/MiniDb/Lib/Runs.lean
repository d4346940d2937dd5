import Mathlib.Control.Monad.Basic
import Mathlib.Data.Option.Basic
import Mathlib.Order.Defs.Unbundled

/-! # Runs of programs with a state

A program that threads a state and may have no outcome is `StateT σ Option`. Its runs are taken
apart at every bind (`run_bind_eq_some`). A program *keeps* a relation when every run that ends
leaves its first state related to its last one. Over a reflexive and transitive relation that goes
through every construct of the language, so it is proved along the text of the program. Two programs
*agree* along a relation when from related states both have no outcome, or both have the same one
and leave related states; this goes through every construct too. -/

set_option autoImplicit false

namespace MiniDb.Lib

universe u

variable {σ τ α β : Type u} {s s' : σ}

/-! ## Taking a run apart -/

theorem run_bind_eq_some {m : StateT σ Option α} {f : α → StateT σ Option β} {b : β} :
    (m >>= f).run s = some (b, s') ↔
      ∃ a s₁, m.run s = some (a, s₁) ∧ (f a).run s₁ = some (b, s') := by
  rw [StateT.run_bind, Option.bind_eq_bind, Option.bind_eq_some_iff]
  constructor
  · rintro ⟨⟨a, s₁⟩, hm, hf⟩
    exact ⟨a, s₁, hm, hf⟩
  · rintro ⟨a, s₁, hm, hf⟩
    exact ⟨(a, s₁), hm, hf⟩

/-- The rest of a program, after a first part whose run is known. -/
theorem run_bind_of {m : StateT σ Option α} {f : α → StateT σ Option β} {a : α} {s₁ : σ}
    (h : m.run s = some (a, s₁)) : (m >>= f).run s = (f a).run s₁ := by
  rw [StateT.run_bind, h]
  rfl

/-- A program whose first part has no outcome has none. -/
theorem run_bind_none {m : StateT σ Option α} {f : α → StateT σ Option β} (h : m.run s = none) :
    (m >>= f).run s = none := by
  rw [StateT.run_bind, h]
  rfl

theorem run_pure_eq_some {a b : α} :
    (pure a : StateT σ Option α).run s = some (b, s') ↔ b = a ∧ s' = s := by
  rw [StateT.run_pure, Option.pure_def, Option.some_inj, Prod.mk.injEq, eq_comm, @eq_comm _ s]

theorem run_get_eq_some {t : σ} :
    (get : StateT σ Option σ).run s = some (t, s') ↔ t = s ∧ s' = s :=
  run_pure_eq_some

/-- A program that reads the state first. -/
theorem run_bind_get {f : σ → StateT σ Option α} : (get >>= f).run s = (f s).run s := rfl

theorem run_modify_eq_some {f : σ → σ} {x : PUnit} :
    (modify f : StateT σ Option PUnit).run s = some (x, s') ↔ s' = f s := by
  rw [StateT.run_modify, Option.pure_def, Option.some_inj, Prod.mk.injEq, eq_comm (a := f s)]
  exact and_iff_right rfl

/-- A program run for each element of a list, where the states in between keep a condition. -/
theorem run_mapM {γ : Type u} {P : σ → Prop} {f : γ → StateT σ Option α} {g : γ → α} {l : List γ}
    (h : ∀ c ∈ l, ∀ s, P s → ∃ s', (f c).run s = some (g c, s') ∧ P s') (hs : P s) :
    ∃ s', (l.mapM f).run s = some (l.map g, s') ∧ P s' := by
  induction l generalizing s with
  | nil => exact ⟨s, rfl, hs⟩
  | cons c l ih =>
    obtain ⟨s₁, hc, hs₁⟩ := h c List.mem_cons_self s hs
    obtain ⟨s₂, hl, hs₂⟩ := ih (fun d hd => h d (List.mem_cons_of_mem _ hd)) hs₁
    refine ⟨s₂, ?_, hs₂⟩
    rw [List.mapM_cons, run_bind_of hc, run_bind_of hl]
    rfl

/-! ## Relations that programs keep -/

/-- Every run that ends relates its last state to its first one. -/
def Keeps (R : σ → σ → Prop) (m : StateT σ Option α) : Prop :=
  ∀ s a s', m.run s = some (a, s') → R s s'

section Keeps

variable {R : σ → σ → Prop} {m : StateT σ Option α} {f : α → StateT σ Option β}

theorem keeps_failure : Keeps R (failure : StateT σ Option α) := by
  intro s a s' h
  cases h

theorem keeps_modify {g : σ → σ} (h : ∀ s, R s (g s)) :
    Keeps R (modify g : StateT σ Option PUnit) := by
  intro s a s' hrun
  rw [run_modify_eq_some.mp hrun]
  exact h s

theorem keeps_pure [Std.Refl R] {a : α} : Keeps R (pure a : StateT σ Option α) := by
  intro s b s' h
  obtain ⟨-, rfl⟩ := run_pure_eq_some.mp h
  exact refl s'

theorem keeps_get [Std.Refl R] : Keeps R (get : StateT σ Option σ) := by
  intro s a s' h
  obtain ⟨-, rfl⟩ := run_get_eq_some.mp h
  exact refl s'

theorem Keeps.bind [IsTrans σ R] (hm : Keeps R m) (hf : ∀ a, Keeps R (f a)) :
    Keeps R (m >>= f) := by
  intro s b s' h
  obtain ⟨a, s₁, hrun, hrest⟩ := run_bind_eq_some.mp h
  exact IsTrans.trans _ _ _ (hm s a s₁ hrun) (hf a s₁ b s' hrest)

end Keeps

/-! ## Outcomes -/

/-- Every outcome has the property. -/
def Returns (P : α → Prop) (m : StateT σ Option α) : Prop :=
  ∀ s a s', m.run s = some (a, s') → P a

section Returns

variable {P : α → Prop} {Q : β → Prop} {m m' : StateT σ Option α} {f : α → StateT σ Option β}

theorem returns_pure {a : α} (h : P a) : Returns P (pure a : StateT σ Option α) := by
  intro s b s' hrun
  rw [(run_pure_eq_some.mp hrun).1]
  exact h

/-- What a program returns is what its last part returns. -/
theorem returns_bind (hf : ∀ a, Returns Q (f a)) : Returns Q (m >>= f) := by
  intro s b s' hrun
  obtain ⟨a, s₁, -, hrest⟩ := run_bind_eq_some.mp hrun
  exact hf a s₁ b s' hrest

theorem returns_ite {c : Prop} [Decidable c] (hm : c → Returns P m) (hm' : ¬ c → Returns P m') :
    Returns P (if c then m else m') := by
  by_cases h : c
  · rw [if_pos h]
    exact hm h
  · rw [if_neg h]
    exact hm' h

end Returns

/-! ## Programs that do less -/

/-- The first program does what the second does, where it has an outcome at all. -/
def Refines (m m' : StateT σ Option α) : Prop := ∀ s x, m.run s = some x → m'.run s = some x

section Refines

variable {m m' : StateT σ Option α} {f f' : α → StateT σ Option β}

theorem Refines.refl (m : StateT σ Option α) : Refines m m := fun _ _ h => h

theorem refines_failure : Refines (failure : StateT σ Option α) m := by
  intro s x h
  cases h

theorem Refines.bind (hm : Refines m m') (hf : ∀ a, Refines (f a) (f' a)) :
    Refines (m >>= f) (m' >>= f') := by
  rintro s ⟨b, s'⟩ h
  obtain ⟨a, s₁, hrun, hrest⟩ := run_bind_eq_some.mp h
  exact run_bind_eq_some.mpr ⟨a, s₁, hm _ _ hrun, hf a _ _ hrest⟩

/-- The two programs begin in the same way. -/
theorem refines_bind (m : StateT σ Option α) (hf : ∀ a, Refines (f a) (f' a)) :
    Refines (m >>= f) (m >>= f') :=
  (Refines.refl m).bind hf

theorem refines_ite {c : Prop} [Decidable c] {n n' : StateT σ Option α} (hm : c → Refines m m')
    (hn : ¬ c → Refines n n') : Refines (if c then m else n) (if c then m' else n') := by
  by_cases h : c
  · rw [if_pos h, if_pos h]
    exact hm h
  · rw [if_neg h, if_neg h]
    exact hn h

end Refines

/-! ## Programs that agree -/

/-- From related states the two programs have the same outcome and leave related states. -/
def Agrees (R : σ → τ → Prop) (m : StateT σ Option α) (m' : StateT τ Option α) : Prop :=
  ∀ s t, R s t → Option.Rel (fun x y => x.1 = y.1 ∧ R x.2 y.2) (m.run s) (m'.run t)

section Agrees

variable {R : σ → τ → Prop} {m : StateT σ Option α} {m' : StateT τ Option α}
  {f : α → StateT σ Option β} {f' : α → StateT τ Option β} {t : τ}

theorem agrees_failure :
    Agrees R (failure : StateT σ Option α) (failure : StateT τ Option α) :=
  fun _ _ _ => .none

theorem agrees_pure {a : α} : Agrees R (pure a : StateT σ Option α) (pure a) :=
  fun _ _ h => .some ⟨rfl, h⟩

theorem agrees_modify {g : σ → σ} {g' : τ → τ} (h : ∀ s t, R s t → R (g s) (g' t)) :
    Agrees R (modify g : StateT σ Option PUnit) (modify g') :=
  fun s t hst => .some ⟨rfl, h s t hst⟩

/-- Two programs go on alike behind first parts with the same outcome and related ends. -/
theorem agrees_bind_run (hm : Option.Rel (fun x y => x.1 = y.1 ∧ R x.2 y.2) (m.run s) (m'.run t))
    (hf : ∀ a, Agrees R (f a) (f' a)) :
    Option.Rel (fun x y => x.1 = y.1 ∧ R x.2 y.2) ((m >>= f).run s) ((m' >>= f').run t) := by
  rw [StateT.run_bind, StateT.run_bind]
  cases hs : m.run s with
  | none =>
    rw [hs] at hm
    cases ht : m'.run t with
    | none => exact .none
    | some y =>
      rw [ht] at hm
      cases hm
  | some x =>
    rw [hs] at hm
    cases ht : m'.run t with
    | none =>
      rw [ht] at hm
      cases hm
    | some y =>
      rw [ht] at hm
      obtain ⟨a, s₁⟩ := x
      obtain ⟨b, t₁⟩ := y
      obtain ⟨rfl, hst₁⟩ : a = b ∧ R s₁ t₁ := by
        cases hm
        assumption
      exact hf a s₁ t₁ hst₁

theorem Agrees.bind (hm : Agrees R m m') (hf : ∀ a, Agrees R (f a) (f' a)) :
    Agrees R (m >>= f) (m' >>= f') :=
  fun s t hst => agrees_bind_run (hm s t hst) hf

/-- Programs that read the state first, and then use only what related states have in common. -/
theorem agrees_bind_get {k : σ → StateT σ Option α} {k' : τ → StateT τ Option α}
    (h : ∀ s t, R s t → Agrees R (k s) (k' t)) : Agrees R (get >>= k) (get >>= k') :=
  fun s t hst => h s t hst s t hst

theorem Agrees.of_run (h : Agrees R m m') (hst : R s t) {a : α} (hrun : m.run s = some (a, s')) :
    ∃ t', m'.run t = some (a, t') ∧ R s' t' := by
  have hrel := h s t hst
  rw [hrun] at hrel
  cases ht : m'.run t with
  | none =>
    rw [ht] at hrel
    cases hrel
  | some y =>
    rw [ht] at hrel
    obtain ⟨b, t'⟩ := y
    obtain ⟨rfl, hst'⟩ : a = b ∧ R s' t' := by
      cases hrel
      assumption
    exact ⟨t', rfl, hst'⟩

theorem Agrees.of_none (h : Agrees R m m') (hst : R s t) (hrun : m.run s = none) :
    m'.run t = none := by
  have hrel := h s t hst
  rw [hrun] at hrel
  cases ht : m'.run t with
  | none => rfl
  | some y =>
    rw [ht] at hrel
    cases hrel

/-- A condition on the states of the first program that all its runs keep may join the relation. -/
theorem Agrees.and {P : σ → Prop} (h : Agrees R m m')
    (hk : ∀ s a s', P s → m.run s = some (a, s') → P s') :
    Agrees (fun s t => P s ∧ R s t) m m' := by
  rintro s t ⟨hp, hst⟩
  cases hs : m.run s with
  | none =>
    rw [h.of_none hst hs]
    exact .none
  | some x =>
    obtain ⟨a, s'⟩ := x
    obtain ⟨t', ht, hst'⟩ := h.of_run hst hs
    rw [ht]
    exact .some ⟨rfl, hk s a s' hp hs, hst'⟩

end Agrees

end MiniDb.Lib
