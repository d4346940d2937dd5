import Mathlib.Data.Finmap
import MiniDb.Lib.LinkedList

/-! # Intrusive lists in a memory of nodes

A memory holds nodes at addresses; the address 0 is null. A node may stand on several lists at a
time, on each by a pair of link fields of its own, so a list is read and changed through a `Links`
that says which fields it uses. The rules say what pushing and unlinking do to the list, and that
nothing but its links changes. -/

set_option autoImplicit false

namespace MiniDb.Lib

/-- The blocks in use, each with its node. -/
abbrev Memory (β : Type) := Finmap fun _ : Nat => β

/-- The link fields of a list. -/
structure Links (β : Type) where
  next : β → Nat
  prev : β → Nat
  setNext : Nat → β → β
  setPrev : Nat → β → β
  next_setNext : ∀ a n, next (setNext a n) = a
  prev_setNext : ∀ a n, prev (setNext a n) = prev n
  next_setPrev : ∀ a n, next (setPrev a n) = next n
  prev_setPrev : ∀ a n, prev (setPrev a n) = a

variable {β : Type}

/-! ## Operations -/

/-- A write through a pointer; there is none into a block that is not in use. -/
def Memory.modify (h : Memory β) (a : Nat) (f : β → β) : Option (Memory β) :=
  (h.lookup a).map fun n => h.insert a (f n)

/-- A write through a pointer that may be null. -/
def Memory.modifyIf (h : Memory β) (a : Nat) (f : β → β) : Option (Memory β) :=
  if a ≠ 0 then h.modify a f else some h

/-- Puts the node at `e` in front of the list that starts at `head`. -/
def Links.pushFront (L : Links β) (head e : Nat) (h : Memory β) : Option (Memory β) := do
  let h ← h.modify e fun n => L.setNext head (L.setPrev 0 n)
  h.modifyIf head (L.setPrev e)

/-- Takes the node at `e` out of its list; where it is the first, the head is the caller's. -/
def Links.unlink (L : Links β) (e : Nat) (h : Memory β) : Option (Memory β) := do
  let n ← h.lookup e
  let h ← h.modifyIf (L.prev n) (L.setNext (L.next n))
  h.modifyIf (L.next n) (L.setPrev (L.prev n))

/-- Walks right from `a` to the first node with `p`; 0 when there is none. -/
def findFrom (next : β → Nat) (p : β → Bool) (h : Memory β) : Nat → Nat → Option Nat
  | 0, _ => none
  | fuel + 1, a =>
    if a = 0 then some 0
    else do
      let n ← h.lookup a
      if p n then return a else findFrom next p h fuel (next n)

/-! ## Lists -/

/-- The right link of the node at an address. -/
def Links.nextAt (L : Links β) (h : Memory β) (a : Nat) : Nat := ((h.lookup a).map L.next).getD 0

/-- The left link of the node at an address. -/
def Links.prevAt (L : Links β) (h : Memory β) (a : Nat) : Nat := ((h.lookup a).map L.prev).getD 0

/-- The nodes at `l` are a list that starts at `head`. -/
structure Links.IsList (L : Links β) (h : Memory β) (head : Nat) (l : List Nat) : Prop where
  head_eq : head = l.head?.getD 0
  linked : DoublyLinked 0 (L.nextAt h) (L.prevAt h) l
  live : ∀ a ∈ l, a ∈ h
  nonnull : 0 ∉ l
  nodup : l.Nodup

/-- A reading of nodes that does not see the links. -/
def Links.Ignored (L : Links β) {γ : Type} (v : β → γ) : Prop :=
  (∀ a n, v (L.setNext a n) = v n) ∧ ∀ a n, v (L.setPrev a n) = v n

/-- Only links are written, and only at some addresses. -/
structure Links.Relinks (L : Links β) (touched : List Nat) (h h' : Memory β) : Prop where
  view : ∀ {γ : Type} (v : β → γ), L.Ignored v → ∀ a, (h'.lookup a).map v = (h.lookup a).map v
  rest : ∀ a ∉ touched, h'.lookup a = h.lookup a

section Memory

variable {L : Links β} {h h' h'' : Memory β} {a b e head : Nat} {l r touched : List Nat} {n : β}

theorem modify_eq_some {f : β → β} (hn : h.lookup a = some n) :
    h.modify a f = some (h.insert a (f n)) := by
  rw [Memory.modify, hn, Option.map_some]

theorem modifyIf_zero {f : β → β} : h.modifyIf 0 f = some h := if_neg (not_not_intro rfl)

theorem modifyIf_eq_some {f : β → β} (ha : a ≠ 0) (hn : h.lookup a = some n) :
    h.modifyIf a f = some (h.insert a (f n)) :=
  (if_pos ha).trans (modify_eq_some hn)

theorem nextAt_eq (hn : h.lookup a = some n) : L.nextAt h a = L.next n := by
  simp [Links.nextAt, hn]

theorem prevAt_eq (hn : h.lookup a = some n) : L.prevAt h a = L.prev n := by
  simp [Links.prevAt, hn]

@[simp] theorem nextAt_insert_self : L.nextAt (h.insert a n) a = L.next n := by
  simp [Links.nextAt]

@[simp] theorem prevAt_insert_self : L.prevAt (h.insert a n) a = L.prev n := by
  simp [Links.prevAt]

theorem nextAt_insert_of_ne (hne : b ≠ a) : L.nextAt (h.insert a n) b = L.nextAt h b := by
  rw [Links.nextAt, Finmap.lookup_insert_of_ne _ hne, Links.nextAt]

theorem prevAt_insert_of_ne (hne : b ≠ a) : L.prevAt (h.insert a n) b = L.prevAt h b := by
  rw [Links.prevAt, Finmap.lookup_insert_of_ne _ hne, Links.prevAt]

/-! ## Frames -/

theorem Links.Relinks.refl (L : Links β) (touched : List Nat) (h : Memory β) :
    L.Relinks touched h h :=
  ⟨fun _ _ _ => rfl, fun _ _ => rfl⟩

theorem Links.Relinks.trans (h₁ : L.Relinks touched h h') (h₂ : L.Relinks touched h' h'') :
    L.Relinks touched h h'' :=
  ⟨fun v hv a => (h₂.view v hv a).trans (h₁.view v hv a),
    fun a ha => (h₂.rest a ha).trans (h₁.rest a ha)⟩

theorem Links.Relinks.insert {f : β → β} (hn : h.lookup a = some n) (ha : a ∈ touched)
    (hf : ∀ {γ : Type} (v : β → γ), L.Ignored v → v (f n) = v n) :
    L.Relinks touched h (h.insert a (f n)) := by
  constructor
  · intro γ v hv b
    by_cases hb : b = a
    · subst hb
      rw [Finmap.lookup_insert, hn, Option.map_some, Option.map_some, hf v hv]
    · rw [Finmap.lookup_insert_of_ne _ hb]
  · intro b hb
    have hne : b ≠ a := fun heq => hb (heq ▸ ha)
    exact Finmap.lookup_insert_of_ne _ hne

theorem Links.Relinks.mem_iff (hrel : L.Relinks touched h h') : a ∈ h' ↔ a ∈ h := by
  have hview := hrel.view (fun _ => ()) ⟨fun _ _ => rfl, fun _ _ => rfl⟩ a
  have hsome := congrArg Option.isSome hview
  rw [Option.isSome_map, Option.isSome_map] at hsome
  rw [← Finmap.lookup_isSome, ← Finmap.lookup_isSome, hsome]

/-- A list whose nodes have the links they had. -/
theorem Links.IsList.of_links (hl : L.IsList h head l)
    (hnext : ∀ a ∈ l, (h'.lookup a).map L.next = (h.lookup a).map L.next)
    (hprev : ∀ a ∈ l, (h'.lookup a).map L.prev = (h.lookup a).map L.prev) :
    L.IsList h' head l := by
  refine ⟨hl.head_eq, hl.linked.congr ?_ ?_, ?_, hl.nonnull, hl.nodup⟩
  · intro a ha
    rw [Links.nextAt, hnext a ha, Links.nextAt]
  · intro a ha
    rw [Links.prevAt, hprev a ha, Links.prevAt]
  · intro a ha
    have hsome := congrArg Option.isSome (hnext a ha)
    rw [Option.isSome_map, Option.isSome_map] at hsome
    rw [← Finmap.lookup_isSome, hsome, Finmap.lookup_isSome]
    exact hl.live a ha

/-- A list whose nodes are as before. -/
theorem Links.IsList.congr (hl : L.IsList h head l)
    (hsame : ∀ a ∈ l, h'.lookup a = h.lookup a) : L.IsList h' head l :=
  hl.of_links (fun a ha => by rw [hsame a ha]) fun a ha => by rw [hsame a ha]

/-- A list on other link fields. -/
theorem Links.IsList.of_relinks {M : Links β} (hl : M.IsList h head l)
    (hrel : L.Relinks touched h h') (hnext : L.Ignored M.next) (hprev : L.Ignored M.prev) :
    M.IsList h' head l :=
  hl.of_links (fun a _ => hrel.view _ hnext a) fun a _ => hrel.view _ hprev a

/-- A write beside the links. -/
theorem Links.IsList.write (hl : L.IsList h head l) {n' : β} (hn : h.lookup a = some n)
    (hnext : L.next n' = L.next n) (hprev : L.prev n' = L.prev n) :
    L.IsList (h.insert a n') head l := by
  have hsame : ∀ {f : β → Nat}, f n' = f n → ∀ b ∈ l,
      ((h.insert a n').lookup b).map f = (h.lookup b).map f := by
    intro f hf b _
    by_cases hb : b = a
    · subst hb
      rw [Finmap.lookup_insert, hn, Option.map_some, Option.map_some, hf]
    · rw [Finmap.lookup_insert_of_ne _ hb]
  exact hl.of_links (hsame hnext) (hsame hprev)

@[simp] theorem isList_nil : L.IsList h head [] ↔ head = 0 := by
  constructor
  · exact fun hl => hl.head_eq
  · intro hhead
    exact ⟨hhead, seg_nil.mpr ⟨fun hn => absurd rfl hn, fun hn => absurd rfl hn⟩,
      by simp, by simp, List.nodup_nil⟩

theorem Links.IsList.exists_node (hl : L.IsList h head l) (ha : a ∈ l) :
    a ≠ 0 ∧ ∃ n, h.lookup a = some n :=
  ⟨fun hz => hl.nonnull (hz ▸ ha), Finmap.mem_iff.mp (hl.live a ha)⟩

/-- A walk along a list is shorter than the memory. -/
theorem Links.IsList.length_le (hl : L.IsList h head l) : l.length ≤ h.keys.card := by
  rw [← List.toFinset_card_of_nodup hl.nodup]
  apply Finset.card_le_card
  intro a ha
  rw [Finmap.mem_keys]
  exact hl.live a (List.mem_toFinset.mp ha)

/-! ## Pushing -/

/-- **Pushing** a node that is on no list of these links. -/
theorem Links.IsList.pushFront (hl : L.IsList h head l) (he : e ∈ h) (hnull : e ≠ 0)
    (hfresh : e ∉ l) :
    ∃ h', L.pushFront head e h = some h' ∧ L.IsList h' e (e :: l) ∧
      L.Relinks (e :: l) h h' := by
  obtain ⟨n, hn⟩ := Finmap.mem_iff.mp he
  have hrel₁ : L.Relinks (e :: l) h (h.insert e (L.setNext head (L.setPrev 0 n))) :=
    Links.Relinks.insert (f := fun n => L.setNext head (L.setPrev 0 n)) hn List.mem_cons_self
      fun v hv => (hv.1 _ _).trans (hv.2 _ _)
  have hlist : ∀ {h'}, L.Relinks (e :: l) h h' →
      DoublyLinked 0 (L.nextAt h') (L.prevAt h') (e :: l) → L.IsList h' e (e :: l) := by
    intro h' hrel hlinked
    refine ⟨rfl, hlinked, ?_, ?_, List.nodup_cons.mpr ⟨hfresh, hl.nodup⟩⟩
    · intro a ha
      rw [hrel.mem_iff]
      rcases List.mem_cons.mp ha with rfl | ha
      · exact he
      · exact hl.live a ha
    · intro hz
      rcases List.mem_cons.mp hz with hz | hz
      · exact hnull hz.symm
      · exact hl.nonnull hz
  rw [Links.pushFront, modify_eq_some hn, Option.bind_eq_bind, Option.bind_some]
  cases l with
  | nil =>
    have hhead : head = 0 := hl.head_eq
    rw [hhead, modifyIf_zero]
    rw [hhead] at hrel₁
    refine ⟨_, rfl, hlist hrel₁ ?_, hrel₁⟩
    refine hl.linked.push ?_ (fun _ => ?_) (fun hz => absurd rfl hz) (by simp) (by simp)
    · rw [nextAt_insert_self, L.next_setNext]
      rfl
    · rw [prevAt_insert_self, L.prev_setNext, L.prev_setPrev]
  | cons b l =>
    obtain rfl : head = b := hl.head_eq
    obtain ⟨hbnull, nb, hnb⟩ := hl.exists_node List.mem_cons_self
    have hne : head ≠ e := fun heq => hfresh (heq ▸ List.mem_cons_self)
    have hnb₁ : (h.insert e (L.setNext head (L.setPrev 0 n))).lookup head = some nb := by
      rw [Finmap.lookup_insert_of_ne _ hne, hnb]
    have hrel := hrel₁.trans (Links.Relinks.insert (f := L.setPrev e) hnb₁
      (List.mem_cons_of_mem _ List.mem_cons_self) fun v hv => hv.2 _ _)
    rw [modifyIf_eq_some hbnull hnb₁]
    refine ⟨_, rfl, hlist hrel ?_, hrel⟩
    refine hl.linked.push ?_ (fun _ => ?_) (fun _ => ?_) ?_ ?_
    · rw [nextAt_insert_of_ne hne.symm, nextAt_insert_self, L.next_setNext]
      rfl
    · rw [prevAt_insert_of_ne hne.symm, prevAt_insert_self, L.prev_setNext, L.prev_setPrev]
    · exact prevAt_insert_self.trans (L.prev_setPrev _ _)
    · intro x hx
      have hxe : x ≠ e := fun heq => hfresh (heq ▸ hx)
      by_cases hxb : x = head
      · rw [hxb, nextAt_insert_self, L.next_setPrev, nextAt_eq hnb]
      · rw [nextAt_insert_of_ne hxb, nextAt_insert_of_ne hxe]
    · intro x hx
      have hxe : x ≠ e := fun heq => hfresh (heq ▸ List.mem_cons_of_mem _ hx)
      have hxb : x ≠ head := fun heq => (List.nodup_cons.mp hl.nodup).1 (heq ▸ hx)
      rw [prevAt_insert_of_ne hxb, prevAt_insert_of_ne hxe]

/-! ## Unlinking -/

/-- **Unlinking** a node; the head is the next node when it was the first. -/
theorem Links.IsList.unlink (hl : L.IsList h head (l ++ e :: r)) (hn : h.lookup e = some n) :
    ∃ h', L.unlink e h = some h' ∧
      L.IsList h' (if L.prev n ≠ 0 then head else L.next n) (l ++ r) ∧
      L.Relinks (l ++ r) h h' := by
  have hnull : e ≠ 0 := (hl.exists_node (by simp)).1
  have hnext : L.next n = r.head?.getD 0 := (nextAt_eq hn).symm.trans (hl.linked.next_eq hnull)
  have hprev : L.prev n = l.getLast?.getD 0 := (prevAt_eq hn).symm.trans (hl.linked.prev_eq hnull)
  have hnodup : (l ++ r).Nodup := hl.nodup.sublist (by simp)
  -- the left neighbour is linked to the right one
  obtain ⟨h₁, hrun₁, hrel₁, hnext₁, hrest₁, hprev₁⟩ : ∃ h₁,
      h.modifyIf (L.prev n) (L.setNext (L.next n)) = some h₁ ∧
      L.Relinks (l ++ r) h h₁ ∧ (∀ a, l.getLast? = some a → L.nextAt h₁ a = L.next n) ∧
      (∀ x, l.getLast? ≠ some x → L.nextAt h₁ x = L.nextAt h x) ∧
      ∀ x, L.prevAt h₁ x = L.prevAt h x := by
    cases hlast : l.getLast? with
    | none =>
      rw [hprev, hlast]
      exact ⟨h, modifyIf_zero, Links.Relinks.refl _ _ _, nofun, fun _ _ => rfl, fun _ => rfl⟩
    | some a =>
      have ha : a ∈ l := List.mem_of_getLast? hlast
      obtain ⟨hanull, na, hna⟩ := hl.exists_node (List.mem_append_left _ ha)
      have hpa : L.prev n = a := by rw [hprev, hlast, Option.getD_some]
      rw [hpa, modifyIf_eq_some hanull hna]
      refine ⟨_, rfl, Links.Relinks.insert hna (List.mem_append_left _ ha) fun v hv => hv.1 _ _,
        ?_, ?_, ?_⟩
      · rintro _ ⟨⟩
        rw [nextAt_insert_self, L.next_setNext]
      · intro x hx
        exact nextAt_insert_of_ne fun heq => hx (heq ▸ rfl)
      · intro x
        by_cases hx : x = a
        · rw [hx, prevAt_insert_self, L.prev_setNext, prevAt_eq hna]
        · exact prevAt_insert_of_ne hx
  -- the right neighbour is linked back to the left one
  obtain ⟨h₂, hrun₂, hrel₂, hprev₂, hrest₂, hnext₂⟩ : ∃ h₂,
      h₁.modifyIf (L.next n) (L.setPrev (L.prev n)) = some h₂ ∧
      L.Relinks (l ++ r) h₁ h₂ ∧ (L.next n ≠ 0 → L.prevAt h₂ (L.next n) = L.prev n) ∧
      (∀ x, x ≠ L.next n → L.prevAt h₂ x = L.prevAt h₁ x) ∧
      ∀ x, L.nextAt h₂ x = L.nextAt h₁ x := by
    by_cases hz : L.next n = 0
    · rw [hz]
      exact ⟨h₁, modifyIf_zero, Links.Relinks.refl _ _ _, fun hne => absurd rfl hne,
        fun _ _ => rfl, fun _ => rfl⟩
    · have hb : L.next n ∈ l ++ r := by
        rw [hnext] at hz ⊢
        cases r with
        | nil => exact absurd rfl hz
        | cons b r => simp
      have hmem : L.next n ∈ h₁ := by
        rw [hrel₁.mem_iff]
        refine hl.live _ ?_
        rcases List.mem_append.mp hb with hb | hb
        · exact List.mem_append_left _ hb
        · exact List.mem_append_right _ (List.mem_cons_of_mem _ hb)
      obtain ⟨nb, hnb⟩ := Finmap.mem_iff.mp hmem
      rw [modifyIf_eq_some hz hnb]
      refine ⟨_, rfl, Links.Relinks.insert hnb hb fun v hv => hv.2 _ _, fun _ => ?_,
        fun x hx => prevAt_insert_of_ne hx, fun x => ?_⟩
      · rw [prevAt_insert_self, L.prev_setPrev]
      · by_cases hx : x = L.next n
        · rw [hx, nextAt_insert_self, L.next_setPrev, nextAt_eq hnb]
        · exact nextAt_insert_of_ne hx
  have hrel := hrel₁.trans hrel₂
  refine ⟨h₂, ?_, ⟨?_, ?_, ?_, ?_, hnodup⟩, hrel⟩
  · rw [Links.unlink, hn, Option.bind_eq_bind, Option.bind_some, hrun₁]
    exact hrun₂
  · rw [hnext, hprev]
    rcases List.eq_nil_or_concat l with rfl | ⟨l, a, rfl⟩
    · exact if_neg (not_not_intro rfl)
    · have ha : a ≠ 0 := (hl.exists_node (by simp)).1
      rw [List.concat_eq_append, List.getLast?_concat, Option.getD_some, if_pos ha, hl.head_eq]
      cases l <;> rfl
  · refine hl.linked.remove ?_ ?_ ?_ ?_
    · intro a ha
      rw [hnext₂, hnext₁ a ha, hnext]
    · rw [← hnext, ← hprev]
      exact hprev₂
    · intro x hx
      rw [hnext₂, hrest₁]
      intro hlast
      obtain ⟨l', rfl⟩ : ∃ l', l = l' ++ [x] := List.getLast?_eq_some_iff.mp hlast
      rw [List.dropLast_concat] at hx
      have hdisj := List.nodup_append.mp hnodup
      have hxl := List.nodup_append.mp hdisj.1
      rcases List.mem_append.mp hx with hx | hx
      · exact hxl.2.2 x hx x (by simp) rfl
      · exact hdisj.2.2 x (by simp) x hx rfl
    · intro x hx
      rw [hrest₂, hprev₁]
      rw [hnext]
      rintro rfl
      cases r with
      | nil => exact hl.nonnull (by simpa using Or.inl hx)
      | cons b r =>
        have hdisj := List.nodup_append.mp hnodup
        rcases List.mem_append.mp hx with hx | hx
        · exact hdisj.2.2 b hx b List.mem_cons_self rfl
        · exact (List.nodup_cons.mp hdisj.2.1).1 hx
  · intro a ha
    rw [hrel.mem_iff]
    refine hl.live a ?_
    rcases List.mem_append.mp ha with ha | ha
    · exact List.mem_append_left _ ha
    · exact List.mem_append_right _ (List.mem_cons_of_mem _ ha)
  · intro hz
    refine hl.nonnull ?_
    rcases List.mem_append.mp hz with hz | hz
    · exact List.mem_append_left _ hz
    · exact List.mem_append_right _ (List.mem_cons_of_mem _ hz)

/-! ## Walking -/

/-- Walking right from an address, one meets these nodes and then null. -/
def Links.Walks (L : Links β) (h : Memory β) : Nat → List Nat → Prop
  | a, [] => a = 0
  | a, b :: l => a = b ∧ b ≠ 0 ∧ ∃ n, h.lookup b = some n ∧ L.Walks h (L.next n) l

theorem walks_of_seg (hseg : Seg 0 (L.nextAt h) (L.prevAt h) a l 0)
    (hlive : ∀ b ∈ l, b ≠ 0 ∧ b ∈ h) : L.Walks h (l.head?.getD 0) l := by
  induction l generalizing a with
  | nil => rfl
  | cons b l ih =>
    obtain ⟨hnull, hmem⟩ := hlive b List.mem_cons_self
    obtain ⟨n, hn⟩ := Finmap.mem_iff.mp hmem
    have hseg' := (seg_cons.mp hseg).2
    refine ⟨rfl, hnull, n, hn, ?_⟩
    rw [← nextAt_eq hn, hseg'.next_eq hnull]
    exact ih hseg' fun b hb => hlive b (List.mem_cons_of_mem _ hb)

theorem Links.IsList.walks (hl : L.IsList h head l) : L.Walks h head l := by
  rw [hl.head_eq]
  exact walks_of_seg hl.linked fun b hb => ⟨fun hz => hl.nonnull (hz ▸ hb), hl.live b hb⟩

/-- A search along the nodes of `l` finds the first one that satisfies the test. -/
theorem Links.Walks.findFrom_eq {γ : Type} {l : List γ} {addr : γ → Nat}
    (hw : L.Walks h a (l.map addr)) {fuel : Nat} (hfuel : l.length < fuel) {p : β → Bool}
    {q : γ → Bool} (hpq : ∀ x ∈ l, ∀ n, h.lookup (addr x) = some n → p n = q x) :
    findFrom L.next p h fuel a = some (((l.find? q).map addr).getD 0) := by
  induction l generalizing a fuel with
  | nil =>
    obtain ⟨fuel, rfl⟩ := Nat.exists_eq_succ_of_ne_zero (Nat.ne_of_gt hfuel)
    exact if_pos hw
  | cons x l ih =>
    obtain ⟨fuel, rfl⟩ := Nat.exists_eq_succ_of_ne_zero (Nat.ne_of_gt (Nat.zero_lt_of_lt hfuel))
    obtain ⟨rfl, hnull, n, hn, hw⟩ := hw
    rw [findFrom, if_neg hnull, hn, Option.bind_eq_bind, Option.bind_some, List.find?_cons,
      hpq x List.mem_cons_self n hn]
    cases hq : q x with
    | true => rfl
    | false =>
      exact ih hw (Nat.lt_of_succ_lt_succ hfuel) fun y hy => hpq y (List.mem_cons_of_mem _ hy)

end Memory

end MiniDb.Lib
