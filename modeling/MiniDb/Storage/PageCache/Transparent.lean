import Mathlib.Data.Finset.Card
import MiniDb.Storage.PageCache.FrameIndex

/-! # The page cache is transparent

The specification of the cache is a `PageView`: what was last written to each page, which pages are
pinned how often, and which of them were written and not yet marked dirty. `CacheInv` relates it to
the frames and the file: a cached page has its contents in its frame, and whatever the file does not
have is in a dirty frame or waits to be marked. Every operation of `pager.c` keeps it.

Page 0 is left out throughout: it is the header's, and `pager_flush_all` writes it past the cache. -/

set_option autoImplicit false

namespace MiniDb

open Lib

/-! ## The specification -/

/-- What a client of the cache knows. `pins` lists a page once for each pin. -/
structure PageView (β : Type) where
  contents : Nat → β
  header : DbHeader
  pins : List Nat
  unmarked : Finset Nat

namespace PageView

variable {β : Type}

def pin (v : PageView β) (pid : Nat) : PageView β := { v with pins := pid :: v.pins }

def unpin (v : PageView β) (pid : Nat) : PageView β := { v with pins := v.pins.erase pid }

def write (v : PageView β) (pid : Nat) (data : β) : PageView β :=
  { v with
    contents := Function.update v.contents pid data
    unmarked := insert pid v.unmarked }

def mark (v : PageView β) (pid : Nat) : PageView β := { v with unmarked := v.unmarked.erase pid }

/-- Fewer than 256 pages are pinned. -/
def HasFreeFrame (v : PageView β) : Prop := v.pins.dedup.length < maxFrames

instance (v : PageView β) : Decidable v.HasFreeFrame :=
  inferInstanceAs (Decidable (_ < _))

end PageView

/-! ## The invariant -/

section Inv

variable {β : Type}

/-- The cache and its file have what the view says. -/
structure CacheInv (c : PageCache β) (v : PageView β) : Prop where
  header : c.header = v.header
  index : c.index.Indexes c.bucketOf
  unique : ∀ i j pid, c.Holds i pid → c.Holds j pid → i = j
  pinCount : ∀ i pid, c.Holds i pid → (c.frames i).pinCount = v.pins.count pid
  pinned : ∀ pid ∈ v.pins, ∃ i, c.Holds i pid
  data : ∀ i pid, c.Holds i pid → pid ≠ 0 → (c.frames i).data = v.contents pid
  file : ∀ pid, pid ≠ 0 → c.file pid = v.contents pid ∨ pid ∈ v.unmarked ∨
    ∃ i, c.Holds i pid ∧ (c.frames i).isDirty = true
  unmarked : ∀ pid ∈ v.unmarked, pid ∈ v.pins

/-- Frames that hold a page still hold it. -/
def PageCache.Keeps (c c' : PageCache β) (pids : List Nat) : Prop :=
  ∀ i, ∀ pid ∈ pids, c.Holds i pid → c'.Holds i pid

variable {c c' : PageCache β} {v : PageView β} {i : Fin maxFrames} {pid : Nat}

theorem CacheInv.frameIndex (h : CacheInv c v) : FrameIndexInv c := ⟨h.index, h.unique⟩

/-- `find_frame` finds the frame that holds the page. -/
theorem CacheInv.findFrame (h : CacheInv c v) (pid : Nat) :
    ∃ r, findFrame c pid = some r ∧ (∀ i, r = some i → c.Holds i pid) ∧
      (r = none → ∀ i, ¬ c.Holds i pid) :=
  h.frameIndex.findFrame pid

/-- The page of another frame is another page. -/
theorem CacheInv.ne_of_holds (h : CacheInv c v) {j : Fin maxFrames} {p : Nat} (hi : c.Holds i pid)
    (hj : c.Holds j p) (hne : j ≠ i) : p ≠ pid := by
  rintro rfl
  exact hne (h.unique j i p hj hi)

theorem PageCache.Holds.pid_eq {p : Nat} (hi : c.Holds i pid) (hi' : c.Holds i p) : p = pid :=
  hi'.2.symm.trans hi.2

/-- One frame changes, but not its page, and the view changes at this page only. -/
structure FrameStep (c : PageCache β) (v : PageView β) (i : Fin maxFrames) (pid : Nat) (f : Frame β)
    (c' : PageCache β) (v' : PageView β) : Prop where
  frames : c'.frames = Function.update c.frames i f
  index : c'.index = c.index
  header : c'.header = v'.header
  page : f.isValid = true ∧ f.pageId = pid
  pinCount : f.pinCount = v'.pins.count pid
  data : pid ≠ 0 → f.data = v'.contents pid
  file : pid ≠ 0 → c'.file pid = v'.contents pid ∨ pid ∈ v'.unmarked ∨ f.isDirty = true
  unmarked : pid ∈ v'.unmarked → pid ∈ v'.pins
  others : ∀ p, p ≠ pid → v'.pins.count p = v.pins.count p ∧ v'.contents p = v.contents p ∧
    c'.file p = c.file p ∧ (p ∈ v'.unmarked ↔ p ∈ v.unmarked)

theorem FrameStep.holds {f : Frame β} {v' : PageView β} (hs : FrameStep c v i pid f c' v')
    (hi : c.Holds i pid) (j : Fin maxFrames) (p : Nat) : c'.Holds j p ↔ c.Holds j p := by
  by_cases hj : j = i
  · subst hj
    simp [PageCache.Holds, hs.frames, hs.page, hi.1, hi.2]
  · simp [PageCache.Holds, hs.frames, hj]

/-- **A change of one frame keeps the invariant.** -/
theorem CacheInv.frameStep (h : CacheInv c v) {f : Frame β} {v' : PageView β}
    (hi : c.Holds i pid) (hs : FrameStep c v i pid f c' v') : CacheInv c' v' := by
  have hholds := hs.holds hi
  have hself : c'.frames i = f := by simp [hs.frames]
  have hother : ∀ j, j ≠ i → c'.frames j = c.frames j := fun j hj => by simp [hs.frames, hj]
  have hmem : ∀ p, p ≠ pid → (p ∈ v'.pins ↔ p ∈ v.pins) := fun p hp => by
    rw [← List.count_pos_iff, (hs.others p hp).1, List.count_pos_iff]
  constructor
  case header => exact hs.header
  case index =>
    exact (h.frameIndex.congr hs.index hholds).index
  case unique =>
    exact (h.frameIndex.congr hs.index hholds).unique
  case pinCount =>
    intro j p hj
    rw [hholds] at hj
    by_cases hji : j = i
    · subst hji
      rw [hself, hi.pid_eq hj, hs.pinCount]
    · rw [hother j hji, h.pinCount j p hj, (hs.others p (h.ne_of_holds hi hj hji)).1]
  case pinned =>
    intro p hp
    simp only [hholds]
    by_cases hpp : p = pid
    · exact ⟨i, hpp ▸ hi⟩
    · exact h.pinned p ((hmem p hpp).mp hp)
  case data =>
    intro j p hj hp
    rw [hholds] at hj
    by_cases hji : j = i
    · subst hji
      obtain rfl := hi.pid_eq hj
      rw [hself, hs.data hp]
    · rw [hother j hji, h.data j p hj hp, (hs.others p (h.ne_of_holds hi hj hji)).2.1]
  case file =>
    intro p hp
    simp only [hholds]
    by_cases hpp : p = pid
    · subst hpp
      refine (hs.file hp).imp id (.imp id fun hd => ⟨i, hi, by rw [hself, hd]⟩)
    · obtain ⟨-, hcont, hfile, hunm⟩ := hs.others p hpp
      rw [hfile, hcont, hunm]
      refine (h.file p hp).imp id (.imp id ?_)
      rintro ⟨j, hj, hd⟩
      have hji : j ≠ i := by
        rintro rfl
        exact hpp (hi.pid_eq hj)
      exact ⟨j, hj, by rw [hother j hji, hd]⟩
  case unmarked =>
    intro p hp
    by_cases hpp : p = pid
    · subst hpp
      exact hs.unmarked hp
    · exact (hmem p hpp).mpr (h.unmarked p ((hs.others p hpp).2.2.2.mp hp))

/-! ### The steps -/

/-- Writing a frame to the file. -/
theorem CacheInv.flushFrame (h : CacheInv c v) (hi : c.Holds i pid) :
    FrameStep c v i pid { c.frames i with isDirty := false } (flushFrame c i) v := by
  have hfile : ∀ p, (MiniDb.flushFrame c i).file p =
      if p = pid then (c.frames i).data else c.file p := by
    intro p
    simp [MiniDb.flushFrame, PageCache.setFrame, PageCache.rawWrite, hi.2, Function.update_apply]
  refine ⟨rfl, rfl, h.header, ⟨hi.1, hi.2⟩, h.pinCount i pid hi, h.data i pid hi, ?_, h.unmarked pid,
    ?_⟩
  · intro hp
    refine .inl ?_
    rw [hfile, if_pos rfl, h.data i pid hi hp]
  · intro p hp
    refine ⟨rfl, rfl, ?_, .rfl⟩
    rw [hfile, if_neg hp]

/-- A hit pins the page once more. -/
theorem CacheInv.pinFrame (h : CacheInv c v) (hi : c.Holds i pid) (tick : Nat) :
    FrameStep c v i pid
      { c.frames i with pinCount := (c.frames i).pinCount + 1, usedTick := tick }
      { c.setFrame i { c.frames i with
          pinCount := (c.frames i).pinCount + 1, usedTick := tick } with tick := tick }
      (v.pin pid) := by
  refine ⟨rfl, rfl, h.header, ⟨hi.1, hi.2⟩, ?_, h.data i pid hi, ?_, ?_, ?_⟩
  · simp [PageView.pin, h.pinCount i pid hi]
  · intro hp
    refine (h.file pid hp).imp id (.imp id ?_)
    rintro ⟨j, hj, hd⟩
    rwa [h.unique j i pid hj hi] at hd
  · intro _
    exact List.mem_cons_self
  · intro p hp
    exact ⟨List.count_cons_of_ne (Ne.symm hp), rfl, rfl, .rfl⟩

theorem CacheInv.markFrame (h : CacheInv c v) (hi : c.Holds i pid) :
    FrameStep c v i pid { c.frames i with isDirty := true }
      (c.setFrame i { c.frames i with isDirty := true }) (v.mark pid) := by
  refine ⟨rfl, rfl, h.header, ⟨hi.1, hi.2⟩, h.pinCount i pid hi, h.data i pid hi,
    fun _ => .inr (.inr rfl), ?_, ?_⟩
  · intro hp
    simp [PageView.mark] at hp
  · intro p hp
    exact ⟨rfl, rfl, rfl, by simp [PageView.mark, hp]⟩

/-- Dropping a pin; the last one only of a page that is marked. -/
theorem CacheInv.unpinFrame (h : CacheInv c v) (hi : c.Holds i pid)
    (hlast : v.pins.count pid = 1 → pid ∉ v.unmarked) :
    FrameStep c v i pid { c.frames i with pinCount := (c.frames i).pinCount - 1 }
      (c.setFrame i { c.frames i with pinCount := (c.frames i).pinCount - 1 }) (v.unpin pid) := by
  refine ⟨rfl, rfl, h.header, ⟨hi.1, hi.2⟩, ?_, h.data i pid hi, ?_, ?_, ?_⟩
  · simp [PageView.unpin, h.pinCount i pid hi]
  · intro hp
    refine (h.file pid hp).imp id (.imp id ?_)
    rintro ⟨j, hj, hd⟩
    rwa [h.unique j i pid hj hi] at hd
  · intro hu
    have hpos := List.count_pos_iff.mpr (h.unmarked pid hu)
    have hne : v.pins.count pid ≠ 1 := fun heq => hlast heq hu
    rw [PageView.unpin, ← List.count_pos_iff, List.count_erase_self]
    omega
  · intro p hp
    exact ⟨List.count_erase_of_ne hp, rfl, rfl, .rfl⟩

theorem CacheInv.writeFrame (h : CacheInv c v) (hi : c.Holds i pid) (hpin : pid ∈ v.pins)
    (data : β) :
    FrameStep c v i pid { c.frames i with data := data } (c.writeAt i data) (v.write pid data) := by
  refine ⟨rfl, rfl, h.header, ⟨hi.1, hi.2⟩, h.pinCount i pid hi, ?_, ?_, fun _ => hpin, ?_⟩
  · intro _
    simp [PageView.write]
  · intro _
    exact .inr (.inl (by simp [PageView.write]))
  · intro p hp
    exact ⟨rfl, by simp [PageView.write, hp], rfl, by simp [PageView.write, hp]⟩

/-! ### The loops -/

/-- The search loop finds a candidate if there is one. -/
theorem lruFrame_spec (candidate : Frame β → Bool) :
    (∀ i, lruFrame c candidate = some i → candidate (c.frames i) = true) ∧
      (lruFrame c candidate = none → ∀ i, candidate (c.frames i) = false) := by
  have hfold : ∀ (l : List (Fin maxFrames)) (best : Option (Fin maxFrames)),
      (∀ i, best = some i → candidate (c.frames i) = true) →
      ∀ r, l.foldl (fun best i =>
        if candidate (c.frames i) &&
            best.all fun b => decide ((c.frames i).usedTick < (c.frames b).usedTick) then some i
        else best) best = r →
      (∀ i, r = some i → candidate (c.frames i) = true) ∧
        (r = none → best = none ∧ ∀ i ∈ l, candidate (c.frames i) = false) := by
    intro l
    induction l with
    | nil =>
      rintro best hbest r rfl
      exact ⟨hbest, fun hr => ⟨hr, by simp⟩⟩
    | cons j l ih =>
      intro best hbest r hr
      rw [List.foldl_cons] at hr
      by_cases hj : candidate (c.frames j) && best.all fun b =>
          decide ((c.frames j).usedTick < (c.frames b).usedTick)
      · rw [if_pos hj] at hr
        obtain ⟨h₁, h₂⟩ := ih (some j) (by
          rintro i hi
          cases hi
          exact (Bool.and_eq_true _ _ ▸ hj).1) r hr
        exact ⟨h₁, fun hnone => absurd (h₂ hnone).1 (by simp)⟩
      · rw [if_neg hj] at hr
        obtain ⟨h₁, h₂⟩ := ih best hbest r hr
        refine ⟨h₁, fun hnone => ?_⟩
        obtain ⟨rfl, hl⟩ := h₂ hnone
        refine ⟨rfl, fun i hi => ?_⟩
        rcases List.mem_cons.mp hi with rfl | hi
        · simpa using hj
        · exact hl i hi
  obtain ⟨h₁, h₂⟩ := hfold _ none (by simp) _ rfl
  exact ⟨h₁, fun hnone i => (h₂ hnone).2 i (List.mem_finRange i)⟩

/-- The watermark flush only moves contents to the file. -/
theorem CacheInv.flushDirtyLoop (h : CacheInv c v) (n : Nat) :
    CacheInv (flushDirtyLoop n c) v ∧
      ∀ j p, (MiniDb.flushDirtyLoop n c).Holds j p ↔ c.Holds j p := by
  induction n generalizing c with
  | zero => exact ⟨h, fun _ _ => .rfl⟩
  | succ n ih =>
    rw [MiniDb.flushDirtyLoop]
    cases hlru : lruFrame c fun f => f.isValid && f.isDirty && f.pinCount == 0 with
    | none => exact ⟨h, fun _ _ => .rfl⟩
    | some i =>
      have hcand := (lruFrame_spec _).1 i hlru
      simp only [Bool.and_eq_true] at hcand
      have hi : c.Holds i (c.frames i).pageId := ⟨hcand.1.1, rfl⟩
      have hs := h.flushFrame hi
      obtain ⟨h', hholds⟩ := ih (h.frameStep hi hs)
      exact ⟨h', fun j p => (hholds j p).trans (hs.holds hi j p)⟩

/-- The loop of `pager_flush_all` over some of the frames: they are clean then. -/
theorem CacheInv.flushFrames (h : CacheInv c v) (l : List (Fin maxFrames)) :
    CacheInv (l.foldl flushIfDirty c) v ∧
      (∀ j p, (l.foldl flushIfDirty c).Holds j p ↔ c.Holds j p) ∧
      ∀ j p, c.Holds j p → ((l.foldl flushIfDirty c).frames j).isDirty = true →
        (c.frames j).isDirty = true ∧ j ∉ l := by
  induction l generalizing c with
  | nil => exact ⟨h, fun _ _ => .rfl, fun j p _ hd => ⟨hd, by simp⟩⟩
  | cons i l ih =>
    rw [List.foldl_cons]
    by_cases hd : (c.frames i).isValid && (c.frames i).isDirty
    · have hi : c.Holds i (c.frames i).pageId := ⟨(Bool.and_eq_true _ _ ▸ hd).1, rfl⟩
      have hs := h.flushFrame hi
      have hstep : flushIfDirty c i = MiniDb.flushFrame c i := if_pos hd
      rw [hstep]
      obtain ⟨h', hholds, hclean⟩ := ih (h.frameStep hi hs)
      refine ⟨h', fun j p => (hholds j p).trans (hs.holds hi j p), fun j p hj hjd => ?_⟩
      obtain ⟨hdj, hjl⟩ := hclean j p ((hs.holds hi j p).mpr hj) hjd
      rw [hs.frames] at hdj
      by_cases hji : j = i
      · subst hji
        simp at hdj
      · rw [Function.update_of_ne hji] at hdj
        exact ⟨hdj, by simp [hji, hjl]⟩
    · have hstep : flushIfDirty c i = c := if_neg hd
      rw [hstep]
      obtain ⟨h', hholds, hclean⟩ := ih h
      refine ⟨h', hholds, fun j p hj hjd => ?_⟩
      obtain ⟨hdj, hjl⟩ := hclean j p hj hjd
      refine ⟨hdj, ?_⟩
      rw [List.mem_cons, not_or]
      refine ⟨?_, hjl⟩
      rintro rfl
      exact hd (by simp [hj.1, hdj])

/-! ### The operations -/

/-- `pager_mark_dirty`, with the watermark flush it may end in. -/
theorem CacheInv.markDirty (h : CacheInv c v) (pid : Nat) :
    ∃ c', c.markDirty pid = some c' ∧ CacheInv c' (v.mark pid) ∧
      ∀ j p, c'.Holds j p ↔ c.Holds j p := by
  -- the flush afterwards changes neither the view nor what frames hold
  have hflush : ∀ c₁ : PageCache β, CacheInv c₁ (v.mark pid) →
      (∀ j p, c₁.Holds j p ↔ c.Holds j p) →
      CacheInv (if c₁.dirtyHighWatermark > 0 ∧ countDirty c₁ ≥ c₁.dirtyHighWatermark then
        flushDirty c₁ c₁.dirtyLowWatermark else c₁) (v.mark pid) ∧
      ∀ j p, (if c₁.dirtyHighWatermark > 0 ∧ countDirty c₁ ≥ c₁.dirtyHighWatermark then
        flushDirty c₁ c₁.dirtyLowWatermark else c₁).Holds j p ↔ c.Holds j p := by
    intro c₁ h₁ hholds
    split
    · obtain ⟨h₂, hholds₂⟩ := h₁.flushDirtyLoop (countDirty c₁ - c₁.dirtyLowWatermark)
      exact ⟨h₂, fun j p => (hholds₂ j p).trans (hholds j p)⟩
    · exact ⟨h₁, hholds⟩
  obtain ⟨r, hfind, hsome, hnone⟩ := h.findFrame pid
  cases r with
  | some i =>
    have hi := hsome i rfl
    have hs := h.markFrame hi
    exact ⟨_, by simp [PageCache.markDirty, hfind], hflush _ (h.frameStep hi hs) (hs.holds hi)⟩
  | none =>
    have hpid : pid ∉ v.unmarked := fun hu => by
      obtain ⟨i, hi⟩ := h.pinned pid (h.unmarked pid hu)
      exact hnone rfl i hi
    have hview : v.mark pid = v := by rw [PageView.mark, Finset.erase_eq_of_notMem hpid]
    exact ⟨_, by simp [PageCache.markDirty, hfind], hflush c (by rw [hview]; exact h) fun _ _ => .rfl⟩

/-- `pager_unpin`. -/
theorem CacheInv.unpin (h : CacheInv c v) (hlast : v.pins.count pid = 1 → pid ∉ v.unmarked) :
    ∃ c', c.unpin pid = some c' ∧ CacheInv c' (v.unpin pid) ∧
      ∀ j p, c'.Holds j p ↔ c.Holds j p := by
  obtain ⟨r, hfind, hsome, hnone⟩ := h.findFrame pid
  cases r with
  | some i =>
    have hi := hsome i rfl
    by_cases hpos : (c.frames i).pinCount > 0
    · have hs := h.unpinFrame hi hlast
      exact ⟨_, by simp [PageCache.unpin, hfind, hpos], h.frameStep hi hs, hs.holds hi⟩
    · have hpid : pid ∉ v.pins := by
        rw [← List.count_pos_iff, ← h.pinCount i pid hi]
        exact hpos
      have hview : v.unpin pid = v := by rw [PageView.unpin, List.erase_of_not_mem hpid]
      exact ⟨c, by simp [PageCache.unpin, hfind, hpos], by rw [hview]; exact h, fun _ _ => .rfl⟩
  | none =>
    have hpid : pid ∉ v.pins := fun hp => by
      obtain ⟨i, hi⟩ := h.pinned pid hp
      exact hnone rfl i hi
    have hview : v.unpin pid = v := by rw [PageView.unpin, List.erase_of_not_mem hpid]
    exact ⟨c, by simp [PageCache.unpin, hfind], by rw [hview]; exact h, fun _ _ => .rfl⟩

/-- With fewer than 256 pages pinned, a cache without invalid frames has one that is not pinned. -/
theorem CacheInv.exists_unpinned (h : CacheInv c v) (hfree : v.HasFreeFrame)
    (hvalid : ∀ i, (c.frames i).isValid = true) : ∃ i, (c.frames i).pinCount = 0 := by
  by_contra hall
  push Not at hall
  have hmem : ∀ i, (c.frames i).pageId ∈ v.pins.toFinset := by
    intro i
    have := h.pinCount i _ ⟨hvalid i, rfl⟩
    rw [List.mem_toFinset, ← List.count_pos_iff, ← this]
    exact Nat.pos_of_ne_zero (hall i)
  have hcard := Finset.card_le_card_of_injOn (s := Finset.univ) (fun i => (c.frames i).pageId)
    (fun i _ => hmem i) fun i _ j _ hij => h.unique i j _ ⟨hvalid i, rfl⟩ ⟨hvalid j, hij.symm⟩
  rw [Finset.card_univ, Fintype.card_fin, List.card_toFinset] at hcard
  exact absurd hfree (not_lt.mpr hcard)

/-- `evict_frame` makes a frame free; pinned pages stay where they are. -/
theorem CacheInv.evictFrame (h : CacheInv c v) (hfree : v.HasFreeFrame) :
    ∃ i c', evictFrame c = some (some i, c') ∧ CacheInv c' v ∧ (c'.frames i).isValid = false ∧
      (∀ j p, c'.Holds j p → c.Holds j p) ∧ ∀ j, ∀ p ∈ v.pins, c.Holds j p → c'.Holds j p := by
  cases hinv : (List.finRange maxFrames).find? fun i => !(c.frames i).isValid with
  | some i =>
    have hi : (c.frames i).isValid = false := by simpa using List.find?_some hinv
    exact ⟨i, c, by simp [MiniDb.evictFrame, hinv], h, hi, fun _ _ hj => hj, fun _ _ _ hj => hj⟩
  | none =>
    have hvalid : ∀ i, (c.frames i).isValid = true := fun i => by
      simpa using List.find?_eq_none.mp hinv i (List.mem_finRange i)
    obtain ⟨i₀, hi₀⟩ := h.exists_unpinned hfree hvalid
    obtain ⟨hcand, hcand'⟩ := lruFrame_spec (c := c) fun f => f.pinCount == 0
    cases hlru : lruFrame c fun f => f.pinCount == 0 with
    | none =>
      have := hcand' hlru i₀
      simp [hi₀] at this
    | some best =>
      have hbest : (c.frames best).pinCount = 0 := by simpa using hcand best hlru
      set pid := (c.frames best).pageId
      have hheld : c.Holds best pid := ⟨hvalid best, rfl⟩
      have hunpinned : pid ∉ v.pins := by
        rw [← List.count_pos_iff, ← h.pinCount best pid hheld]
        omega
      -- the frame goes to the file first
      set c₁ := if (c.frames best).isDirty then MiniDb.flushFrame c best else c
      obtain ⟨h₁, hholds₁, hclean⟩ : CacheInv c₁ v ∧ (∀ j p, c₁.Holds j p ↔ c.Holds j p) ∧
          (c₁.frames best).isDirty = false := by
        by_cases hd : (c.frames best).isDirty
        · have hs := h.flushFrame hheld
          have hc₁ : c₁ = MiniDb.flushFrame c best := if_pos hd
          rw [hc₁]
          exact ⟨h.frameStep hheld hs, hs.holds hheld, by simp [hs.frames]⟩
        · have hc₁ : c₁ = c := if_neg hd
          rw [hc₁]
          exact ⟨h, fun _ _ => .rfl, by simpa using hd⟩
      have hheld₁ := (hholds₁ best pid).mpr hheld
      obtain ⟨index', hremove, hindex'⟩ := h₁.frameIndex.drop hheld₁
      set c₂ : PageCache β := { c₁ with index := index' }
      set c₃ := c₂.setFrame best { c₂.frames best with isValid := false }
      have hholds₃ : ∀ j p, c₃.Holds j p ↔ c.Holds j p ∧ j ≠ best := by
        intro j p
        by_cases hj : j = best
        · subst hj
          simp [c₃, PageCache.Holds]
        · rw [← hholds₁]
          simp [c₃, c₂, PageCache.Holds, setFrame_of_ne hj, hj]
      have hframes₃ : ∀ j, j ≠ best → c₃.frames j = c₁.frames j := fun j hj => by
        simp [c₃, c₂, setFrame_of_ne hj]
      refine ⟨best, c₃, ?_, ?_, by simp [c₃], fun j p hj => ((hholds₃ j p).mp hj).1, ?_⟩
      · simp only [MiniDb.evictFrame, hinv, hlru]
        rw [show (if (c.frames best).isDirty then MiniDb.flushFrame c best else c) = c₁ from rfl,
          hremove]
        rfl
      · constructor
        case header => exact h₁.header
        case index => exact hindex'.index
        case unique => exact hindex'.unique
        case pinCount =>
          intro j p hj
          obtain ⟨hj, hne⟩ := (hholds₃ j p).mp hj
          rw [hframes₃ j hne]
          exact h₁.pinCount j p ((hholds₁ j p).mpr hj)
        case pinned =>
          intro p hp
          obtain ⟨j, hj⟩ := h.pinned p hp
          refine ⟨j, (hholds₃ j p).mpr ⟨hj, ?_⟩⟩
          rintro rfl
          exact hunpinned (hheld.pid_eq hj ▸ hp)
        case data =>
          intro j p hj hp
          obtain ⟨hj, hne⟩ := (hholds₃ j p).mp hj
          rw [hframes₃ j hne]
          exact h₁.data j p ((hholds₁ j p).mpr hj) hp
        case file =>
          intro p hp
          refine (h₁.file p hp).imp id (.imp id ?_)
          rintro ⟨j, hj, hd⟩
          have hne : j ≠ best := by
            rintro rfl
            rw [hclean] at hd
            cases hd
          exact ⟨j, (hholds₃ j p).mpr ⟨(hholds₁ j p).mp hj, hne⟩, by rw [hframes₃ j hne, hd]⟩
        case unmarked => exact h.unmarked
      · intro j p hp hj
        refine (hholds₃ j p).mpr ⟨hj, ?_⟩
        rintro rfl
        exact hunpinned (hheld.pid_eq hj ▸ hp)

/-- **`pager_get_page`** returns a frame that holds the page; pinned pages stay where they are. -/
theorem CacheInv.getPage (h : CacheInv c v) (hfree : v.HasFreeFrame) (pid : Nat) :
    ∃ i c', c.getPage pid = some (some i, c') ∧ CacheInv c' (v.pin pid) ∧ c'.Holds i pid ∧
      ∀ j, ∀ p ∈ v.pins, c.Holds j p → c'.Holds j p := by
  obtain ⟨r, hfind, hsome, hnone⟩ := h.findFrame pid
  cases r with
  | some i =>
    have hi := hsome i rfl
    have hs := h.pinFrame hi (c.tick + 1)
    exact ⟨i, _, by simp [PageCache.getPage, hfind], h.frameStep hi hs,
      (hs.holds hi i pid).mpr hi, fun j p _ hj => (hs.holds hi j p).mpr hj⟩
  | none =>
    obtain ⟨i, c₁, hevict, h₁, hi, hback, hkeep⟩ := h.evictFrame hfree
    have habsent : ∀ j, ¬ c₁.Holds j pid := fun j hj => hnone rfl j (hback j pid hj)
    have hpid : pid ∉ v.pins := fun hp => by
      obtain ⟨j, hj⟩ := h₁.pinned pid hp
      exact habsent j hj
    set f : Frame β := ⟨pid, true, false, 1, c₁.tick + 1, c₁.file pid⟩
    set c₂ : PageCache β := { c₁.setFrame i f with tick := c₁.tick + 1 }
    set c₃ := frameIndexInsert c₂ i
    have hindex : FrameIndexInv c₃ := h₁.frameIndex.put hi habsent rfl rfl rfl rfl
    have hself : c₃.frames i = f := by simp [c₃, c₂, frameIndexInsert]
    have hother : ∀ j, j ≠ i → c₃.frames j = c₁.frames j := fun j hj => by
      simp [c₃, c₂, frameIndexInsert, setFrame_of_ne hj]
    have hholds : ∀ j p, c₃.Holds j p ↔ c₁.Holds j p ∨ j = i ∧ p = pid := by
      intro j p
      by_cases hj : j = i
      · subst hj
        simp [PageCache.Holds, hself, hi, f, eq_comm]
      · simp [PageCache.Holds, hother j hj, hj]
    have hne : ∀ j p, c₁.Holds j p → j ≠ i := by
      rintro j p hj rfl
      rw [hj.1] at hi
      cases hi
    refine ⟨i, c₃, by simp [PageCache.getPage, hfind, hevict, c₃, c₂, f], ?_,
      (hholds i pid).mpr (.inr ⟨rfl, rfl⟩), fun j p hp hj => (hholds j p).mpr (.inl (hkeep j p hp hj))⟩
    constructor
    case header => exact h₁.header
    case index => exact hindex.index
    case unique => exact hindex.unique
    case pinCount =>
      intro j p hj
      rcases (hholds j p).mp hj with hj₁ | ⟨rfl, rfl⟩
      · have hp : p ≠ pid := by
          rintro rfl
          exact habsent j hj₁
        rw [hother j (hne j p hj₁), h₁.pinCount j p hj₁, PageView.pin,
          List.count_cons_of_ne hp.symm]
      · rw [hself]
        simp [PageView.pin, List.count_eq_zero_of_not_mem hpid, f]
    case pinned =>
      intro p hp
      rcases List.mem_cons.mp hp with rfl | hp
      · exact ⟨i, (hholds i p).mpr (.inr ⟨rfl, rfl⟩)⟩
      · obtain ⟨j, hj⟩ := h₁.pinned p hp
        exact ⟨j, (hholds j p).mpr (.inl hj)⟩
    case data =>
      intro j p hj hp
      rcases (hholds j p).mp hj with hj₁ | ⟨rfl, rfl⟩
      · rw [hother j (hne j p hj₁)]
        exact h₁.data j p hj₁ hp
      · rw [hself]
        -- the page was not cached, so the file has its contents
        rcases h₁.file p hp with hf | hu | ⟨k, hk, -⟩
        · exact hf
        · exact absurd (h₁.unmarked p hu) hpid
        · exact absurd hk (habsent k)
    case file =>
      intro p hp
      refine (h₁.file p hp).imp id (.imp id ?_)
      rintro ⟨j, hj, hd⟩
      exact ⟨j, (hholds j p).mpr (.inl hj), by rw [hother j (hne j p hj), hd]⟩
    case unmarked =>
      intro p hp
      exact List.mem_cons_of_mem _ (h₁.unmarked p hp)

/-- **`pager_flush_all`** leaves in the file what was written and marked. -/
theorem CacheInv.flushAll (h : CacheInv c v) (codec : PageCodec β) :
    CacheInv (c.flushAll codec) v ∧ (∀ j p, (c.flushAll codec).Holds j p ↔ c.Holds j p) ∧
      ∀ p, p ≠ 0 → p ∉ v.unmarked → (c.flushAll codec).file p = v.contents p := by
  obtain ⟨h₁, hholds, hclean⟩ := h.flushFrames (List.finRange maxFrames)
  have hmem : ∀ j, j ∈ List.finRange maxFrames := List.mem_finRange
  simp only [PageCache.flushAll]
  generalize (List.finRange maxFrames).foldl flushIfDirty c = c₁ at h₁ hholds hclean ⊢
  have hfile : ∀ p, p ≠ 0 → (c₁.rawWrite 0 (codec.header c₁.header)).file p = c₁.file p :=
    fun p hp => Function.update_of_ne hp _ _
  refine ⟨⟨h₁.header, h₁.index, h₁.unique, h₁.pinCount, h₁.pinned, h₁.data, ?_, h₁.unmarked⟩, hholds,
    ?_⟩
  · intro p hp
    rw [hfile p hp]
    exact h₁.file p hp
  · intro p hp hu
    rw [hfile p hp]
    rcases h₁.file p hp with hf | hu' | ⟨j, hj, hd⟩
    · exact hf
    · exact absurd hu' hu
    · exact absurd (hmem j) (hclean j p ((hholds j p).mp hj) hd).2

/-- The header is not in a frame. -/
theorem CacheInv.setHeader (h : CacheInv c v) (hd : DbHeader) :
    CacheInv { c with header := hd } { v with header := hd } :=
  ⟨rfl, h.index, h.unique, h.pinCount, h.pinned, h.data, h.file, h.unmarked⟩

/-- How `pager_alloc_page` and `pager_free_page` end: the page they just pinned is overwritten,
marked and unpinned. -/
theorem CacheInv.overwrite (h : CacheInv c (v.pin pid)) (hi : c.Holds i pid) (data : β) :
    ∃ c₁ c₂, (c.writeAt i data).markDirty pid = some c₁ ∧ c₁.unpin pid = some c₂ ∧
      CacheInv c₂ ((v.write pid data).mark pid) ∧ ∀ j p, c₂.Holds j p ↔ c.Holds j p := by
  have hs := h.writeFrame hi (by simp [PageView.pin]) data
  obtain ⟨c₁, hrun₁, h₁, hholds₁⟩ := (h.frameStep hi hs).markDirty pid
  have hlast : ((v.pin pid |>.write pid data).mark pid).pins.count pid = 1 →
      pid ∉ ((v.pin pid |>.write pid data).mark pid).unmarked :=
    fun _ => by simp [PageView.mark]
  obtain ⟨c₂, hrun₂, h₂, hholds₂⟩ := h₁.unpin hlast
  have hview : (((v.pin pid).write pid data).mark pid).unpin pid = (v.write pid data).mark pid := by
    simp [PageView.pin, PageView.write, PageView.mark, PageView.unpin]
  rw [hview] at h₂
  exact ⟨c₁, c₂, hrun₁, hrun₂, h₂,
    fun j p => (hholds₂ j p).trans ((hholds₁ j p).trans (hs.holds hi j p))⟩

end Inv

/-! ## Sequences of calls -/

section Calls

variable {β : Type}

/-- The page that `pager_alloc_page` will return. -/
def PageView.allocPid (v : PageView β) : Nat :=
  if v.header.freePageHead ≠ 0 then v.header.freePageHead else v.header.nextPageId

/-- What a call makes of the view. -/
def CacheCall.next (codec : PageCodec β) : CacheCall β → PageView β → PageView β
  | .get pid, v => v.pin pid
  | .write pid data, v => v.write pid data
  | .markDirty pid, v => v.mark pid
  | .unpin pid, v => v.unpin pid
  | .alloc, v =>
    { (v.write v.allocPid codec.zero).mark v.allocPid with
      header :=
        if v.header.freePageHead ≠ 0 then
          { v.header with freePageHead := codec.nextFree (v.contents v.allocPid) }
        else { v.header with nextPageId := (v.header.nextPageId + 1) % pageIdCount } }
  | .free pid, v =>
    { (v.write pid (codec.free v.header.freePageHead)).mark pid with
      header := { v.header with freePageHead := pid } }
  | .flushAll, v => v

/-- A page is written only while it is pinned, and marked before its last unpin; at a get fewer than
256 pages are pinned. -/
def CacheCall.Allowed : CacheCall β → PageView β → Prop
  | .get _, v | .alloc, v | .free _, v => v.HasFreeFrame
  | .write pid _, v => pid ∈ v.pins
  | .unpin pid, v => v.pins.count pid = 1 → pid ∉ v.unmarked
  | .markDirty _, _ | .flushAll, _ => True

/-- The reply a client relies on, about all pages but the header page: a get returns the bytes last
written, and after `pager_flush_all` the file holds them, up to writes that still wait to be
marked. -/
def CacheCall.Right : CacheCall β → PageView β → CacheReply β → Prop
  | .get pid, v, r => ∃ data, r = .page data ∧ (pid ≠ 0 → data = v.contents pid)
  | .alloc, v, r => r = .pid v.allocPid
  | .flushAll, v, r =>
    ∃ file, r = .file file ∧ ∀ pid, pid ≠ 0 → pid ∉ v.unmarked → file pid = v.contents pid
  | _, _, r => r = .done

/-- The cache is as the view says, and the client's pointers to pinned pages are good. -/
structure SessionInv (s : CacheSession β) (v : PageView β) : Prop where
  cache : CacheInv s.cache v
  ptr : ∀ pid ∈ v.pins, ∃ i, s.ptr pid = some i ∧ s.cache.Holds i pid

variable {s : CacheSession β} {v v' : PageView β} {c : PageCache β}

/-- Pointers stay good when pinned pages keep their frames and no page is pinned anew. -/
theorem SessionInv.keep (h : SessionInv s v) (hc : CacheInv c v')
    (hpins : ∀ pid ∈ v'.pins, pid ∈ v.pins)
    (hkeep : ∀ j, ∀ pid ∈ v.pins, s.cache.Holds j pid → c.Holds j pid) :
    SessionInv { s with cache := c } v' := by
  refine ⟨hc, fun pid hp => ?_⟩
  obtain ⟨i, hptr, hi⟩ := h.ptr pid (hpins pid hp)
  exact ⟨i, hptr, hkeep i pid (hpins pid hp) hi⟩

theorem SessionInv.alloc (h : SessionInv s v) (codec : PageCodec β) (hfree : v.HasFreeFrame) :
    ∃ c, s.cache.allocPage codec = some (v.allocPid, c) ∧
      SessionInv { s with cache := c } (CacheCall.alloc.next codec v) := by
  obtain ⟨hcache, hptr⟩ := h
  have hheader := hcache.header
  by_cases hhead : v.header.freePageHead ≠ 0
  · have hpid : v.allocPid = v.header.freePageHead := if_pos hhead
    obtain ⟨i, c₁, hget, h₁, hi, hkeep⟩ := hcache.getPage hfree v.header.freePageHead
    have hdata := h₁.data i _ hi hhead
    have h₂ := h₁.setHeader
      { v.header with freePageHead := codec.nextFree (v.contents v.header.freePageHead) }
    obtain ⟨c₃, c₄, hmark, hunpin, h₄, hholds⟩ := CacheInv.overwrite (v := { v with
      header := { v.header with freePageHead := codec.nextFree (v.contents v.header.freePageHead) } })
      h₂ hi codec.zero
    refine ⟨c₄, ?_, SessionInv.keep ⟨hcache, hptr⟩ ?_ (fun _ hp => hp) ?_⟩
    · have hh₁ : c₁.header = v.header := h₁.header
      have hnext : codec.nextFree (c₁.frames i).data =
          codec.nextFree (v.contents v.header.freePageHead) := by rw [hdata]; rfl
      simp only [PageCache.allocPage, hheader, hhead, ne_eq, not_false_eq_true, if_true, hget,
        Option.bind_eq_bind, Option.bind_some, hh₁, hnext]
      rw [hmark]
      simp only [Option.bind_some, hunpin, hpid]
      rfl
    · simp only [CacheCall.next, hpid, hhead, ne_eq, not_false_eq_true, if_true]
      exact h₄
    · intro j pid hp hj
      exact (hholds j pid).mpr (hkeep j pid hp hj)
  · have hpid : v.allocPid = v.header.nextPageId := if_neg hhead
    have h₀ := hcache.setHeader
      { v.header with nextPageId := (v.header.nextPageId + 1) % pageIdCount }
    obtain ⟨i, c₁, hget, h₁, hi, hkeep⟩ := h₀.getPage hfree v.header.nextPageId
    obtain ⟨c₃, c₄, hmark, hunpin, h₄, hholds⟩ := CacheInv.overwrite (v := { v with
      header := { v.header with nextPageId := (v.header.nextPageId + 1) % pageIdCount } }) h₁ hi
      codec.zero
    refine ⟨c₄, ?_, SessionInv.keep ⟨hcache, hptr⟩ ?_ (fun _ hp => hp) ?_⟩
    · simp only [PageCache.allocPage, hheader, hhead, if_false]
      rw [hget]
      simp only [Option.bind_eq_bind, Option.bind_some, hmark, hunpin, hpid]
      rfl
    · simp only [CacheCall.next, hpid, hhead, if_false]
      exact h₄
    · intro j pid hp hj
      exact (hholds j pid).mpr (hkeep j pid hp hj)

theorem SessionInv.free (h : SessionInv s v) (codec : PageCodec β) (hfree : v.HasFreeFrame)
    (pid : Nat) :
    ∃ c, s.cache.freePage codec pid = some c ∧
      SessionInv { s with cache := c } ((CacheCall.free pid).next codec v) := by
  obtain ⟨i, c₁, hget, h₁, hi, hkeep⟩ := h.cache.getPage hfree pid
  obtain ⟨c₂, c₃, hmark, hunpin, h₃, hholds⟩ :=
    h₁.overwrite hi (codec.free v.header.freePageHead)
  have h₄ := h₃.setHeader { v.header with freePageHead := pid }
  have hh₁ : c₁.header = v.header := h₁.header
  have hh₃ : c₃.header = v.header := h₃.header
  refine ⟨_, ?_, h.keep h₄ (fun _ hp => hp) ?_⟩
  · simp only [PageCache.freePage, hget, Option.bind_eq_bind, Option.bind_some, hh₁, hmark, hunpin,
      hh₃]
    rfl
  · intro j p hp hj
    exact (hholds j p).mpr (hkeep j p hp hj)

/-- **Every allowed call of the cache does what the view says.** -/
theorem cacheCall_simulates (codec : PageCodec β) :
    Simulates SessionInv CacheCall.Allowed CacheCall.Right (CacheCall.next codec)
      (CacheCall.exec codec) := by
  intro call s v h hok
  cases call with
  | get pid =>
    obtain ⟨i, c, hget, hc, hi, hkeep⟩ := h.cache.getPage hok pid
    refine ⟨.page (c.frames i).data, { cache := c, ptr := Function.update s.ptr pid (some i) }, ?_,
      ⟨_, rfl, fun hp => hc.data i pid hi hp⟩, hc, ?_⟩
    · simp [CacheCall.exec, StateT.run, hget]
    · intro p hp
      by_cases hpp : p = pid
      · subst hpp
        exact ⟨i, by simp, hi⟩
      · obtain hp : p ∈ v.pins := by simpa [CacheCall.next, PageView.pin, hpp] using hp
        obtain ⟨j, hptr, hj⟩ := h.ptr p hp
        exact ⟨j, by simp [hpp, hptr], hkeep j p hp hj⟩
  | write pid data =>
    obtain ⟨i, hptr, hi⟩ := h.ptr pid hok
    have hs := h.cache.writeFrame hi hok data
    refine ⟨.done, _, by simp [CacheCall.exec, StateT.run, hptr]; rfl, rfl, ?_⟩
    exact h.keep (h.cache.frameStep hi hs) (fun _ hp => hp) fun j p _ hj =>
      (hs.holds hi j p).mpr hj
  | markDirty pid =>
    obtain ⟨c, hrun, hc, hholds⟩ := h.cache.markDirty pid
    refine ⟨.done, { s with cache := c }, by simp [CacheCall.exec, StateT.run, hrun], rfl, ?_⟩
    exact h.keep hc (fun _ hp => hp) fun j p _ hj => (hholds j p).mpr hj
  | unpin pid =>
    obtain ⟨c, hrun, hc, hholds⟩ := h.cache.unpin hok
    refine ⟨.done, { s with cache := c }, by simp [CacheCall.exec, StateT.run, hrun], rfl, ?_⟩
    exact h.keep hc (fun _ hp => List.mem_of_mem_erase hp) fun j p _ hj => (hholds j p).mpr hj
  | alloc =>
    obtain ⟨c, hrun, hc⟩ := h.alloc codec hok
    exact ⟨.pid v.allocPid, { s with cache := c }, by simp [CacheCall.exec, StateT.run, hrun], rfl,
      hc⟩
  | free pid =>
    obtain ⟨c, hrun, hc⟩ := h.free codec hok pid
    exact ⟨.done, { s with cache := c }, by simp [CacheCall.exec, StateT.run, hrun], rfl, hc⟩
  | flushAll =>
    obtain ⟨hc, hholds, hfile⟩ := h.cache.flushAll codec
    exact ⟨.file _, _, rfl, ⟨_, rfl, hfile⟩, h.keep hc (fun _ hp => hp)
      fun j p _ hj => (hholds j p).mpr hj⟩

/-- The view of a pager just opened: each page has the bytes of the file, none is pinned. -/
def PageView.opened (file : Nat → β) (header : DbHeader) : PageView β where
  contents := file
  header := header
  pins := []
  unmarked := ∅

theorem sessionInv_opened (codec : PageCodec β) (file : Nat → β) (header : DbHeader) :
    SessionInv (.opened codec file header) (.opened file header) := by
  have hnone : ∀ i pid, ¬ (PageCache.opened codec file header).Holds i pid := fun i pid hi =>
    Bool.false_ne_true hi.1
  refine ⟨⟨rfl, ?_, ?_, ?_, ?_, ?_, fun _ _ => .inl rfl, ?_⟩, ?_⟩
  · exact HashIndex.indexes_empty
  · exact fun i j pid hi => absurd hi (hnone i pid)
  · exact fun i pid hi => absurd hi (hnone i pid)
  · exact fun pid hp => absurd hp List.not_mem_nil
  · exact fun i pid hi => absurd hi (hnone i pid)
  · exact fun pid hp => absurd hp (Finset.notMem_empty pid)
  · exact fun pid hp => absurd hp List.not_mem_nil

/-- The replies a client would rely on if the header page were like any other and a write were in the
file before it is marked. -/
def CacheCall.RightEverywhere : CacheCall β → PageView β → CacheReply β → Prop
  | .get pid, v, r => r = .page (v.contents pid)
  | .alloc, v, r => r = .pid v.allocPid
  | .flushAll, v, r => r = .file v.contents
  | _, _, r => r = .done

/-- **The page cache is transparent.** Whatever the contents of pages are and whatever file the pager
is opened on, any sequence of allowed calls runs to its end with right replies. -/
theorem pageCache_transparent (codec : PageCodec β) (file : Nat → β) (header : DbHeader)
    (calls : List (CacheCall β))
    (hok : AllowedAll CacheCall.Allowed (CacheCall.next codec) calls (.opened file header)) :
    ∃ rs s, (runAll (CacheCall.exec codec) calls).run (.opened codec file header) = some (rs, s) ∧
      RightAll CacheCall.Right (CacheCall.next codec) calls (.opened file header) rs := by
  obtain ⟨rs, s, hrun, hright, -⟩ :=
    (cacheCall_simulates codec).runAll calls (sessionInv_opened codec file header) hok
  exact ⟨rs, s, hrun, hright⟩

end Calls

/-! ## The pager of `Storage/Pager` is the view -/

section Logical

/-- Decoded pages. What `header` gives does not matter: nobody reads page 0. -/
def decodedCodec : PageCodec Page where
  zero := .zero
  header _ := .zero
  free := .free
  nextFree
    | .free next => next
    | _ => 0

variable {st st' : Pager} {v : PageView Page} {pid : Nat}

/-- The clients' `pager_alloc_page` does to pages and header what the cache does to its view. -/
theorem pagerAllocPage_view (h : pagerAllocPage.run st = some (pid, st'))
    (hpages : v.contents = st.pages) (hheader : v.header = st.header) :
    v.allocPid = pid ∧ (CacheCall.alloc.next decodedCodec v).contents = st'.pages ∧
      (CacheCall.alloc.next decodedCodec v).header = st'.header := by
  by_cases hhead : st.header.freePageHead ≠ 0
  · cases hpage : st.pages st.header.freePageHead with
    | free next =>
      simp [pagerAllocPage, hhead, hpage] at h
      obtain ⟨rfl, rfl⟩ := h
      simp [PageView.allocPid, CacheCall.next, PageView.write, PageView.mark, hpages, hheader, hhead,
        decodedCodec, hpage]
    | _ => simp [pagerAllocPage, hhead, hpage] at h
  · rw [ne_eq, not_not] at hhead
    by_cases hids : st.header.nextPageId + 1 < pageIdCount
    · simp [pagerAllocPage, hhead, hids] at h
      obtain ⟨rfl, rfl⟩ := h
      simp [PageView.allocPid, CacheCall.next, PageView.write, PageView.mark, hpages, hheader,
        hhead, decodedCodec, Nat.mod_eq_of_lt hids]
    · simp [pagerAllocPage, hhead, hids] at h

/-- The same for `pager_free_page`. -/
theorem pagerFreePage_view (h : (pagerFreePage pid).run st = some ((), st'))
    (hpages : v.contents = st.pages) (hheader : v.header = st.header) :
    ((CacheCall.free pid).next decodedCodec v).contents = st'.pages ∧
      ((CacheCall.free pid).next decodedCodec v).header = st'.header := by
  simp [pagerFreePage] at h
  obtain rfl := h
  simp [CacheCall.next, PageView.write, PageView.mark, hpages, hheader, decodedCodec]

end Logical

section Examples

/-- A run on a new database with pages of 4096 bytes. -/
def runOnCreated (calls : List (CacheCall (List UInt8))) :
    Option (List (CacheReply (List UInt8)) × CacheSession (List UInt8)) :=
  (runAll (CacheCall.exec (byteCodec 4096)) calls).run
    (.opened (byteCodec 4096) (createdFile 4096) (pagerOpenCreate 4096).header)

def viewOfCreated : PageView (List UInt8) :=
  .opened (createdFile 4096) (pagerOpenCreate 4096).header

def onesPage : List UInt8 := List.replicate 4096 1

/-- The header page is read and dropped, a page is allocated, everything is flushed. -/
def headerPageCalls : List (CacheCall (List UInt8)) := [.get 0, .unpin 0, .alloc, .flushAll]

/-- Everything is flushed between a write and its mark. -/
def unmarkedPageCalls : List (CacheCall (List UInt8)) :=
  [.get 3, .write 3 onesPage, .flushAll, .markDirty 3, .unpin 3]

/-- The reply is a file with these bytes as page `pid`. -/
def CacheReply.fileHas (pid : Nat) (bytes : List UInt8) : CacheReply (List UInt8) → Bool
  | .file f => f pid == bytes
  | _ => false

theorem pageCache_transparent_created :
    ∃ rs s, runOnCreated [.get 3, .write 3 onesPage, .markDirty 3, .unpin 3, .flushAll, .get 3] =
        some (rs, s) ∧
      RightAll CacheCall.Right (CacheCall.next (byteCodec 4096))
        [.get 3, .write 3 onesPage, .markDirty 3, .unpin 3, .flushAll, .get 3] viewOfCreated rs := by
  refine pageCache_transparent (byteCodec 4096) (createdFile 4096) (pagerOpenCreate 4096).header _ ?_
  simp [AllowedAll, CacheCall.Allowed, CacheCall.next, PageView.opened, PageView.pin, PageView.write,
    PageView.mark, PageView.unpin, PageView.HasFreeFrame, maxFrames]

/-- Neither the header page nor a write that is not marked yet is covered: after these calls the file
does not hold what was last written to page 0, and to page 3. -/
theorem pageCache_not_everywhere :
    (AllowedAll CacheCall.Allowed (CacheCall.next (byteCodec 4096)) headerPageCalls viewOfCreated ∧
      ¬ ∃ rs s, runOnCreated headerPageCalls = some (rs, s) ∧
        RightAll CacheCall.RightEverywhere (CacheCall.next (byteCodec 4096)) headerPageCalls
          viewOfCreated rs) ∧
    (AllowedAll CacheCall.Allowed (CacheCall.next (byteCodec 4096)) unmarkedPageCalls
        viewOfCreated ∧
      ¬ ∃ rs s, runOnCreated unmarkedPageCalls = some (rs, s) ∧
        RightAll CacheCall.RightEverywhere (CacheCall.next (byteCodec 4096)) unmarkedPageCalls
          viewOfCreated rs) := by
  refine ⟨⟨?_, ?_⟩, ?_, ?_⟩
  · simp [headerPageCalls, AllowedAll, CacheCall.Allowed, CacheCall.next, PageView.pin,
      PageView.unpin, PageView.HasFreeFrame, maxFrames, viewOfCreated, PageView.opened]
  · rintro ⟨rs, s, hrun, _, _, rfl, -, _, _, rfl, -, _, _, rfl, -, _, _, rfl, rfl, rfl⟩
    have hfile : (runOnCreated headerPageCalls).any (fun x =>
        x.1[3]?.any (CacheReply.fileHas 0 (createdFile 4096 0))) = false := by decide +kernel
    rw [hrun] at hfile
    exact Bool.false_ne_true (hfile.symm.trans (beq_self_eq_true (createdFile 4096 0)))
  · simp [unmarkedPageCalls, AllowedAll, CacheCall.Allowed, CacheCall.next, PageView.pin,
      PageView.HasFreeFrame, maxFrames, viewOfCreated, PageView.opened,
      PageView.write, PageView.mark]
  · rintro ⟨rs, s, hrun, _, _, rfl, -, _, _, rfl, -, _, _, rfl, rfl, _, _, rfl, -, _, _, rfl, -, rfl⟩
    have hfile : (runOnCreated unmarkedPageCalls).any (fun x =>
        x.1[2]?.any (CacheReply.fileHas 3 onesPage)) = false := by decide +kernel
    rw [hrun] at hfile
    simp [CacheReply.fileHas, CacheCall.next, PageView.pin, PageView.write] at hfile

end Examples

end MiniDb
