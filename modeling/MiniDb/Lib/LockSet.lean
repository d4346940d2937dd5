import Mathlib.Data.Set.Basic
import Mathlib.Logic.Relation

/-! # Shared and exclusive grants

What a lock manager hands out are *grants*: an owner holds a set of resources, shared or
exclusively. Two grants of different owners conflict when they have a resource in common and one
of them is exclusive; a manager is safe while no two of its grants do. A manager step made on
behalf of one owner (`GrantStep`) leaves the grants of all others as they are and adds only grants
that conflict with none. That is all that safety needs, and all that a client can rely on: what it
holds it keeps until it acts itself. -/

set_option autoImplicit false

namespace MiniDb.Lib

/-- A set of resources held by `owner`. -/
structure Grant (τ ι : Type*) where
  owner : τ
  exclusive : Prop
  covers : Set ι

section Grant

variable {τ ι : Type*} {G G' : Set (Grant τ ι)} {g h : Grant τ ι} {t u : τ} {i : ι}

/-- Two grants that must not coexist. -/
def Grant.Conflicts (g h : Grant τ ι) : Prop :=
  g.owner ≠ h.owner ∧ (∃ i, i ∈ g.covers ∧ i ∈ h.covers) ∧ (g.exclusive ∨ h.exclusive)

theorem Grant.Conflicts.symm (hc : g.Conflicts h) : h.Conflicts g := by
  obtain ⟨hne, ⟨i, hg, hh⟩, hx⟩ := hc
  exact ⟨hne.symm, ⟨i, hh, hg⟩, hx.symm⟩

/-- No two grants conflict. -/
def Compatible (G : Set (Grant τ ι)) : Prop := ∀ g ∈ G, ∀ h ∈ G, ¬ g.Conflicts h

/-- What a manager may do for `t`. -/
structure GrantStep (t : τ) (G G' : Set (Grant τ ι)) : Prop where
  /-- other owners' grants are untouched -/
  frame : ∀ g, g.owner ≠ t → (g ∈ G' ↔ g ∈ G)
  /-- a new grant conflicts with none that is there -/
  fresh : ∀ g ∈ G', g.owner = t → g ∈ G ∨ ∀ h ∈ G, ¬ g.Conflicts h

/-- **Safety is preserved by every step.** -/
theorem Compatible.step (hG : Compatible G) (hs : GrantStep t G G') : Compatible G' := by
  intro g hg h hh hc
  by_cases hgt : g.owner = t
  · have hht : h.owner ≠ t := fun heq => hc.1 (hgt.trans heq.symm)
    have hhG := (hs.frame h hht).mp hh
    rcases hs.fresh g hg hgt with hgG | hfree
    · exact hG g hgG h hhG hc
    · exact hfree h hhG hc
  · have hgG := (hs.frame g hgt).mp hg
    by_cases hht : h.owner = t
    · rcases hs.fresh h hh hht with hhG | hfree
      · exact hG g hgG h hhG hc
      · exact hfree g hgG hc.symm
    · exact hG g hgG h ((hs.frame h hht).mp hh) hc

/-- `t` holds `i`, with `x` exclusively. -/
def Holds (G : Set (Grant τ ι)) (t : τ) (x : Prop) (i : ι) : Prop :=
  ∃ g ∈ G, g.owner = t ∧ i ∈ g.covers ∧ (x → g.exclusive)

/-- While one owner holds a resource exclusively, no other holds it at all. -/
theorem Compatible.eq_of_holds (hG : Compatible G) (ht : Holds G t True i) {x : Prop}
    (hu : Holds G u x i) : u = t := by
  obtain ⟨g, hg, rfl, hgi, hx⟩ := ht
  obtain ⟨h, hh, rfl, hhi, -⟩ := hu
  by_contra hne
  exact hG h hh g hg ⟨hne, ⟨i, hhi, hgi⟩, .inr (hx trivial)⟩

end Grant

/-! ## Waiting -/

/-- **No cycle of waits**, when a wait between two owners that are both waited for and waiting goes
upwards: on a cycle every wait is one. -/
theorem not_transGen_self {τ α : Type*} [Preorder α] {W : τ → τ → Prop} (key : τ → α)
    (hup : ∀ a b, (∃ c, W c a) → W a b → (∃ d, W b d) → key a < key b) (t : τ) :
    ¬ Relation.TransGen W t t := by
  have hpath : ∀ a b, Relation.TransGen W a b → (∃ c, W c a) → (∃ d, W b d) → key a < key b := by
    intro a b hab hprev
    induction hab with
    | single hw => exact hup _ _ hprev hw
    | @tail b c hab hbc ih =>
      intro hnext
      have hbprev : ∃ x, W x b := by
        cases hab with
        | single hw => exact ⟨_, hw⟩
        | tail _ hw => exact ⟨_, hw⟩
      exact lt_trans (ih ⟨c, hbc⟩) (hup b c hbprev hbc hnext)
  intro hcycle
  have hprev : ∃ c, W c t := by
    cases hcycle with
    | single hw => exact ⟨_, hw⟩
    | tail _ hw => exact ⟨_, hw⟩
  obtain ⟨d, hnext, -⟩ := Relation.TransGen.head'_iff.mp hcycle
  exact lt_irrefl _ (hpath t t hcycle hprev ⟨d, hnext⟩)

/-! ## Invariants of runs -/

/-- What holds at the start and is preserved by every step holds in every state reached. -/
theorem invariant_of_step {σ : Type*} {step : σ → σ → Prop} {P : σ → Prop} {s₀ s : σ} (h₀ : P s₀)
    (hstep : ∀ s s', P s → step s s' → P s') (hrun : Relation.ReflTransGen step s₀ s) : P s := by
  induction hrun with
  | refl => exact h₀
  | tail _ hs ih => exact hstep _ _ ih hs

end MiniDb.Lib
