import MiniDb.Lib.Simulation
import MiniDb.Storage.PageCache.Basic

/-! # The frame index

Every operation of the pager starts with `find_frame`, so all of them rest on the hash chains of the
frames: the chain of a bucket consists of the valid frames with a page of that bucket, each once, and
no two frames hold one page. An eviction unlinks a frame under its old page and links it under the
new one, and between the two the frame is invalid. -/

set_option autoImplicit false

namespace MiniDb

open Lib

variable {β : Type}

/-! ## The invariant -/

/-- The bucket of a frame that is in the index. -/
def PageCache.bucketOf (c : PageCache β) (i : Fin maxFrames) : Option (Fin frameHashBuckets) :=
  if (c.frames i).isValid then some (frameBucket (c.frames i).pageId) else none

/-- The frame holds the page. -/
def PageCache.Holds (c : PageCache β) (i : Fin maxFrames) (pid : Nat) : Prop :=
  (c.frames i).isValid = true ∧ (c.frames i).pageId = pid

/-- **The frame index invariant**: the chains lead through the valid frames and nothing else, and a
page has one frame. -/
structure FrameIndexInv (c : PageCache β) : Prop where
  index : c.index.Indexes c.bucketOf
  unique : ∀ i j pid, c.Holds i pid → c.Holds j pid → i = j

variable {c c' : PageCache β} {i : Fin maxFrames} {pid : Nat}

theorem bucketOf_eq_some {b : Fin frameHashBuckets} :
    c.bucketOf i = some b ↔ ∃ pid, c.Holds i pid ∧ frameBucket pid = b := by
  simp [PageCache.bucketOf, PageCache.Holds, and_assoc]

@[simp] theorem setFrame_self (f : Frame β) : (c.setFrame i f).frames i = f := by
  simp [PageCache.setFrame]

theorem setFrame_of_ne {j : Fin maxFrames} (hj : j ≠ i) (f : Frame β) :
    (c.setFrame i f).frames j = c.frames j := by
  simp [PageCache.setFrame, hj]

/-- A frame that stays valid or invalid and keeps its page. -/
theorem holds_setFrame {f : Frame β} (hvalid : f.isValid = (c.frames i).isValid)
    (hpage : f.pageId = (c.frames i).pageId) (j : Fin maxFrames) (p : Nat) :
    (c.setFrame i f).Holds j p ↔ c.Holds j p := by
  rw [PageCache.Holds, PageCache.Holds]
  by_cases hj : j = i
  · rw [hj, setFrame_self, hvalid, hpage]
  · rw [setFrame_of_ne hj]

theorem card_frames_lt : Fintype.card (Fin maxFrames) < maxFrames + 1 := by
  rw [Fintype.card_fin]
  exact Nat.lt_succ_self _

/-- `find_frame` ends, with the frame that holds the page. -/
theorem FrameIndexInv.findFrame (h : FrameIndexInv c) (pid : Nat) :
    ∃ r, findFrame c pid = some r ∧ (∀ i, r = some i → c.Holds i pid) ∧
      (r = none → ∀ i, ¬ c.Holds i pid) := by
  obtain ⟨r, hrun, hsome, hnone⟩ := h.index.find card_frames_lt (frameBucket pid)
    fun i => (c.frames i).isValid && (c.frames i).pageId == pid
  refine ⟨r, hrun, ?_, ?_⟩
  · intro i hi
    simpa [PageCache.Holds] using (hsome i hi).2
  · intro hr i hi
    have hmiss := hnone hr i (bucketOf_eq_some.mpr ⟨pid, hi, rfl⟩)
    simp [hi.1, hi.2] at hmiss

theorem FrameIndexInv.findFrame_iff (h : FrameIndexInv c) (pid : Nat) :
    ∃ r, MiniDb.findFrame c pid = some r ∧ ∀ i, r = some i ↔ c.Holds i pid := by
  obtain ⟨r, hrun, hsome, hnone⟩ := h.findFrame pid
  refine ⟨r, hrun, fun i => ⟨hsome i, fun hi => ?_⟩⟩
  cases r with
  | none => exact absurd hi (hnone rfl i)
  | some j => rw [h.unique j i pid (hsome j rfl) hi]

/-! ## Steps -/

/-- The index only depends on which frames hold which pages. -/
theorem FrameIndexInv.congr (h : FrameIndexInv c) (hindex : c'.index = c.index)
    (hholds : ∀ j p, c'.Holds j p ↔ c.Holds j p) : FrameIndexInv c' := by
  have hbucket : c'.bucketOf = c.bucketOf := by
    funext j
    apply Option.ext
    intro b
    rw [bucketOf_eq_some, bucketOf_eq_some]
    simp only [hholds]
  refine ⟨?_, fun j k p hj hk => h.unique j k p ((hholds j p).mp hj) ((hholds k p).mp hk)⟩
  rw [hindex, hbucket]
  exact h.index

theorem FrameIndexInv.setFrame (h : FrameIndexInv c) {f : Frame β}
    (hvalid : f.isValid = (c.frames i).isValid) (hpage : f.pageId = (c.frames i).pageId) :
    FrameIndexInv (c.setFrame i f) :=
  h.congr rfl (holds_setFrame hvalid hpage)

/-- A frame is unlinked under the page that it holds, and invalid afterwards. -/
theorem FrameIndexInv.drop (h : FrameIndexInv c) (hi : c.Holds i pid) :
    ∃ index', frameIndexRemove c i = some { c with index := index' } ∧
      FrameIndexInv (({ c with index := index' } : PageCache β).setFrame i
        { c.frames i with isValid := false }) := by
  have hbucket : c.bucketOf i = some (frameBucket (c.frames i).pageId) :=
    bucketOf_eq_some.mpr ⟨pid, hi, by rw [hi.2]⟩
  obtain ⟨index', hremove, hindex'⟩ := h.index.remove hbucket card_frames_lt
  refine ⟨index', ?_, ?_, ?_⟩
  · rw [frameIndexRemove, hremove]
    rfl
  · have hnew : (({ c with index := index' } : PageCache β).setFrame i
        { c.frames i with isValid := false }).bucketOf = Function.update c.bucketOf i none := by
      funext j
      by_cases hj : j = i
      · subst hj
        simp [PageCache.bucketOf]
      · rw [Function.update_of_ne hj, PageCache.bucketOf, setFrame_of_ne hj]
        rfl
    rw [hnew]
    exact hindex'
  · -- what a frame still holds it held before
    have hback : ∀ j p, (({ c with index := index' } : PageCache β).setFrame i
        { c.frames i with isValid := false }).Holds j p → c.Holds j p := by
      intro j p hj
      by_cases hji : j = i
      · subst hji
        rw [PageCache.Holds, setFrame_self] at hj
        exact absurd hj.1 Bool.false_ne_true
      · rw [PageCache.Holds, setFrame_of_ne hji] at hj
        exact hj
    exact fun j k p hj hk => h.unique j k p (hback j p hj) (hback k p hk)

/-- An invalid frame is linked under a page that no frame holds. -/
theorem FrameIndexInv.put (h : FrameIndexInv c) (hi : (c.frames i).isValid = false)
    (habsent : ∀ j, ¬ c.Holds j pid) {f : Frame β} (hvalid : f.isValid = true)
    (hpage : f.pageId = pid) (hindex : c'.index = c.index)
    (hframes : c'.frames = Function.update c.frames i f) :
    FrameIndexInv (frameIndexInsert c' i) := by
  have hself : c'.frames i = f := by rw [hframes, Function.update_self]
  have hother : ∀ j, j ≠ i → c'.frames j = c.frames j := fun j hj => by
    rw [hframes, Function.update_of_ne hj]
  have hholds : ∀ j p, (frameIndexInsert c' i).Holds j p → c.Holds j p ∨ j = i ∧ p = pid := by
    intro j p hj
    by_cases hji : j = i
    · subst hji
      exact .inr ⟨rfl, by rw [← hj.2, ← hpage, ← hself]; rfl⟩
    · refine .inl ?_
      rw [PageCache.Holds, ← hother j hji]
      exact hj
  constructor
  · have hbucket : (frameIndexInsert c' i).bucketOf =
        Function.update c.bucketOf i (some (frameBucket pid)) := by
      funext j
      by_cases hj : j = i
      · subst hj
        rw [Function.update_self, PageCache.bucketOf]
        simp [frameIndexInsert, hself, hvalid, hpage]
      · rw [Function.update_of_ne hj, PageCache.bucketOf, PageCache.bucketOf, ← hother j hj]
        rfl
    have hnone : c.bucketOf i = none := by simp [PageCache.bucketOf, hi]
    rw [hbucket]
    show (c'.index.insert (frameBucket (c'.frames i).pageId) i).Indexes _
    rw [hindex, hself, hpage]
    exact h.index.insert hnone _
  · intro j k p hj hk
    rcases hholds j p hj with hj | ⟨rfl, rfl⟩
    · rcases hholds k p hk with hk | ⟨-, rfl⟩
      · exact h.unique j k p hj hk
      · exact absurd hj (habsent j)
    · rcases hholds k p hk with hk | ⟨rfl, -⟩
      · exact absurd hk (habsent k)
      · rfl

theorem FrameIndexInv.flushFrame (h : FrameIndexInv c) (i : Fin maxFrames) :
    FrameIndexInv (flushFrame c i) := by
  have hwritten : FrameIndexInv (c.rawWrite (c.frames i).pageId (c.frames i).data) :=
    h.congr rfl fun _ _ => .rfl
  exact hwritten.setFrame rfl rfl

theorem FrameIndexInv.flushDirtyLoop (h : FrameIndexInv c) (n : Nat) :
    FrameIndexInv (flushDirtyLoop n c) := by
  induction n generalizing c with
  | zero => exact h
  | succ n ih =>
    rw [MiniDb.flushDirtyLoop]
    split
    · exact h
    · exact ih (h.flushFrame _)

/-! ## The operations -/

/-- `evict_frame` unlinks what it evicts. It fails when every frame is pinned. -/
theorem FrameIndexInv.evictFrame (h : FrameIndexInv c) :
    ∃ r c', evictFrame c = some (r, c') ∧ FrameIndexInv c' ∧
      (∀ j p, c'.Holds j p → c.Holds j p) ∧ ∀ i, r = some i → (c'.frames i).isValid = false := by
  rw [MiniDb.evictFrame]
  cases hinv : (List.finRange maxFrames).find? fun i => !(c.frames i).isValid with
  | some i =>
    refine ⟨some i, c, rfl, h, fun _ _ hj => hj, ?_⟩
    rintro _ ⟨⟩
    simpa using List.find?_some hinv
  | none =>
    have hvalid : ∀ i, (c.frames i).isValid = true := fun i => by
      simpa using List.find?_eq_none.mp hinv i (List.mem_finRange i)
    cases lruFrame c fun f => f.pinCount == 0 with
    | none => exact ⟨none, c, rfl, h, fun _ _ hj => hj, by simp⟩
    | some best =>
      -- the frame goes to the file first
      obtain ⟨c₁, hc₁⟩ : ∃ c₁, (if (c.frames best).isDirty then MiniDb.flushFrame c best else c) =
          c₁ := ⟨_, rfl⟩
      have h₁ : FrameIndexInv c₁ := by
        rw [← hc₁]
        split
        · exact h.flushFrame best
        · exact h
      have hholds₁ : ∀ j p, c₁.Holds j p ↔ c.Holds j p := by
        rw [← hc₁]
        split
        · exact holds_setFrame rfl rfl
        · exact fun _ _ => .rfl
      obtain ⟨index', hremove, h₂⟩ :=
        h₁.drop ((hholds₁ best _).mpr ⟨hvalid best, rfl⟩)
      refine ⟨some best, _, ?_, h₂, ?_, ?_⟩
      · dsimp only
        rw [hc₁, hremove]
        rfl
      · intro j p hj
        by_cases hjb : j = best
        · rw [hjb, PageCache.Holds, setFrame_self] at hj
          exact absurd hj.1 Bool.false_ne_true
        · rw [PageCache.Holds, setFrame_of_ne hjb] at hj
          exact (hholds₁ j p).mp hj
      · rintro _ ⟨⟩
        rw [setFrame_self]

/-- `pager_get_page` keeps the index, and returns a frame that holds the page. -/
theorem FrameIndexInv.getPage (h : FrameIndexInv c) (pid : Nat) :
    ∃ r c', c.getPage pid = some (r, c') ∧ FrameIndexInv c' ∧
      ∀ i, r = some i → c'.Holds i pid := by
  obtain ⟨r, hfind, hsome, hnone⟩ := h.findFrame pid
  rw [PageCache.getPage, hfind]
  cases r with
  | some i =>
    have hi := hsome i rfl
    set c₁ := c.setFrame i
      { c.frames i with pinCount := (c.frames i).pinCount + 1, usedTick := c.tick + 1 }
    have hholds : ∀ j p, c₁.Holds j p ↔ c.Holds j p := holds_setFrame rfl rfl
    refine ⟨some i, { c₁ with tick := c.tick + 1 }, rfl, h.congr rfl hholds, ?_⟩
    rintro _ ⟨⟩
    exact (hholds i pid).mpr hi
  | none =>
    obtain ⟨r, c₁, hevict, h₁, hback, hinvalid⟩ := h.evictFrame
    simp only [hevict, Option.bind_eq_bind, Option.bind_some]
    cases r with
    | none => exact ⟨none, c₁, rfl, h₁, by simp⟩
    | some i =>
      refine ⟨some i, _, rfl, h₁.put (hinvalid i rfl)
        (fun j hj => hnone rfl j (hback j pid hj)) rfl rfl rfl rfl, ?_⟩
      rintro _ ⟨⟩
      simp [PageCache.Holds, frameIndexInsert, PageCache.setFrame]

theorem FrameIndexInv.unpin (h : FrameIndexInv c) (pid : Nat) :
    ∃ c', c.unpin pid = some c' ∧ FrameIndexInv c' := by
  obtain ⟨r, hfind, -⟩ := h.findFrame pid
  rw [PageCache.unpin, hfind]
  cases r with
  | none => exact ⟨c, rfl, h⟩
  | some i =>
    refine ⟨_, rfl, ?_⟩
    split
    · exact h.setFrame rfl rfl
    · exact h

theorem FrameIndexInv.markDirty (h : FrameIndexInv c) (pid : Nat) :
    ∃ c', c.markDirty pid = some c' ∧ FrameIndexInv c' := by
  obtain ⟨r, hfind, -⟩ := h.findFrame pid
  have hmarked : ∀ c₁ : PageCache β, FrameIndexInv c₁ →
      FrameIndexInv (if c₁.dirtyHighWatermark > 0 ∧ countDirty c₁ ≥ c₁.dirtyHighWatermark then
        flushDirty c₁ c₁.dirtyLowWatermark else c₁) := by
    intro c₁ h₁
    split
    · exact h₁.flushDirtyLoop _
    · exact h₁
  rw [PageCache.markDirty, hfind]
  cases r with
  | none => exact ⟨_, rfl, hmarked c h⟩
  | some i => exact ⟨_, rfl, hmarked _ (h.setFrame rfl rfl)⟩

theorem FrameIndexInv.writeAt (h : FrameIndexInv c) (i : Fin maxFrames) (data : β) :
    FrameIndexInv (c.writeAt i data) :=
  h.setFrame rfl rfl

theorem FrameIndexInv.flushAll (h : FrameIndexInv c) (codec : PageCodec β) :
    FrameIndexInv (c.flushAll codec) := by
  have hfold : ∀ (l : List (Fin maxFrames)) {c : PageCache β}, FrameIndexInv c →
      FrameIndexInv (l.foldl flushIfDirty c) := by
    intro l
    induction l with
    | nil => exact fun h => h
    | cons i l ih =>
      intro c h
      rw [List.foldl_cons]
      apply ih
      rw [flushIfDirty]
      split
      · exact h.flushFrame i
      · exact h
  have hflushed := hfold (List.finRange maxFrames) h
  simp only [PageCache.flushAll]
  generalize (List.finRange maxFrames).foldl flushIfDirty c = c₁ at hflushed ⊢
  exact hflushed.congr rfl fun _ _ => .rfl

/-! ## Sequences of calls -/

theorem frameIndexInv_opened (codec : PageCodec β) (file : Nat → β) (header : DbHeader) :
    FrameIndexInv (.opened codec file header) := by
  refine ⟨HashIndex.indexes_empty, fun i j pid hi => ?_⟩
  exact absurd hi.1 Bool.false_ne_true

/-- The page that was got is overwritten, marked and unpinned. -/
theorem FrameIndexInv.overwrite (h : FrameIndexInv c) (i : Fin maxFrames) (data : β) (pid : Nat) :
    ∃ c₁ c₂, (c.writeAt i data).markDirty pid = some c₁ ∧ c₁.unpin pid = some c₂ ∧
      FrameIndexInv c₂ := by
  obtain ⟨c₁, hmark, h₁⟩ := (h.writeAt i data).markDirty pid
  obtain ⟨c₂, hunpin, h₂⟩ := h₁.unpin pid
  exact ⟨c₁, c₂, hmark, hunpin, h₂⟩

/-- A page is got and cleared, between them a step that keeps the index: the end of both branches
of `pager_alloc_page`. -/
theorem FrameIndexInv.clearPage (h : FrameIndexInv c) (codec : PageCodec β) {head : Nat}
    (next : Fin maxFrames → PageCache β → PageCache β)
    (hnext : ∀ i c, FrameIndexInv c → FrameIndexInv (next i c))
    (hrun : (do
      let (some i, c) ← c.getPage head | none
      let c ← ((next i c).writeAt i codec.zero).markDirty head
      let c ← c.unpin head
      return (head, c)) = some (pid, c')) : FrameIndexInv c' := by
  obtain ⟨r, c₁, hget, h₁, -⟩ := h.getPage head
  rw [hget] at hrun
  cases r with
  | none => cases hrun
  | some i =>
    obtain ⟨c₂, c₃, hmark, hunpin, h₃⟩ := (hnext i c₁ h₁).overwrite i codec.zero head
    simp only [Option.bind_eq_bind, Option.bind_some, hmark, hunpin] at hrun
    obtain ⟨-, rfl⟩ := Prod.mk.inj (Option.some.inj hrun)
    exact h₃

theorem FrameIndexInv.allocPage (h : FrameIndexInv c) (codec : PageCodec β)
    (hrun : c.allocPage codec = some (pid, c')) : FrameIndexInv c' := by
  rw [PageCache.allocPage] at hrun
  split at hrun
  · exact h.clearPage codec (fun i c => { c with
      header := { c.header with freePageHead := codec.nextFree (c.frames i).data } })
      (fun _ _ h => h.congr rfl fun _ _ => .rfl) hrun
  · have h₁ : FrameIndexInv { c with
        header := { c.header with nextPageId := (c.header.nextPageId + 1) % pageIdCount } } :=
      h.congr rfl fun _ _ => .rfl
    exact h₁.clearPage codec (fun _ c => c) (fun _ _ h => h) hrun

theorem FrameIndexInv.freePage (h : FrameIndexInv c) (codec : PageCodec β)
    (hrun : c.freePage codec pid = some c') : FrameIndexInv c' := by
  obtain ⟨r, c₁, hget, h₁, -⟩ := h.getPage pid
  rw [PageCache.freePage, hget] at hrun
  cases r with
  | none => cases hrun
  | some i =>
    obtain ⟨c₂, c₃, hmark, hunpin, h₃⟩ :=
      h₁.overwrite i (codec.free c₁.header.freePageHead) pid
    simp only [Option.bind_eq_bind, Option.bind_some, hmark, hunpin] at hrun
    obtain rfl := Option.some.inj hrun
    exact h₃.congr rfl fun _ _ => .rfl

/-- The pins and unpins: `pager_get_page` and `pager_unpin`. -/
def CacheCall.Pins : CacheCall β → Prop
  | .get _ | .unpin _ => True
  | _ => False

/-- What a call leaves behind, if it has an outcome. -/
theorem CacheCall.keeps_frameIndex (codec : PageCodec β) (call : CacheCall β) :
    Keeps (fun s s' : CacheSession β => FrameIndexInv s.cache → FrameIndexInv s'.cache)
      (call.exec codec) := by
  intro s r s' hrun h
  cases call with
  | get pid =>
    obtain ⟨i, c₁, hget, h₁, -⟩ := h.getPage pid
    simp only [CacheCall.exec, StateT.run, hget] at hrun
    cases i <;>
    · obtain ⟨-, rfl⟩ := Prod.mk.inj (Option.some.inj hrun)
      exact h₁
  | write pid data =>
    simp only [CacheCall.exec, StateT.run] at hrun
    split at hrun
    · obtain ⟨-, rfl⟩ := Prod.mk.inj (Option.some.inj hrun)
      exact h.writeAt _ data
    · cases hrun
  | markDirty pid =>
    obtain ⟨c₁, hmark, h₁⟩ := h.markDirty pid
    simp only [CacheCall.exec, StateT.run, hmark] at hrun
    obtain ⟨-, rfl⟩ := Prod.mk.inj (Option.some.inj hrun)
    exact h₁
  | unpin pid =>
    obtain ⟨c₁, hunpin, h₁⟩ := h.unpin pid
    simp only [CacheCall.exec, StateT.run, hunpin] at hrun
    obtain ⟨-, rfl⟩ := Prod.mk.inj (Option.some.inj hrun)
    exact h₁
  | alloc =>
    simp only [CacheCall.exec, StateT.run] at hrun
    obtain ⟨⟨pid, c₁⟩, halloc, hrun⟩ := Option.bind_eq_some_iff.mp hrun
    obtain ⟨-, rfl⟩ := Prod.mk.inj (Option.some.inj hrun)
    exact h.allocPage codec halloc
  | free pid =>
    simp only [CacheCall.exec, StateT.run] at hrun
    obtain ⟨c₁, hfree, hrun⟩ := Option.bind_eq_some_iff.mp hrun
    obtain ⟨-, rfl⟩ := Prod.mk.inj (Option.some.inj hrun)
    exact h.freePage codec hfree
  | flushAll =>
    obtain ⟨-, rfl⟩ := Prod.mk.inj (Option.some.inj hrun)
    exact h.flushAll codec

instance : IsPreorder (CacheSession β)
    fun s s' => FrameIndexInv s.cache → FrameIndexInv s'.cache where
  refl _ h := h
  trans _ _ _ h h' hs := h' (h hs)

/-- A get or an unpin always ends. -/
theorem CacheCall.pins_total (codec : PageCodec β) {call : CacheCall β} (hpins : call.Pins)
    {s : CacheSession β} (h : FrameIndexInv s.cache) :
    ∃ r s', (call.exec codec).run s = some (r, s') := by
  cases call with
  | get pid =>
    obtain ⟨i, c, hget, -⟩ := h.getPage pid
    simp only [CacheCall.exec, StateT.run, hget]
    cases i <;> exact ⟨_, _, rfl⟩
  | unpin pid =>
    obtain ⟨c, hunpin, -⟩ := h.unpin pid
    simp only [CacheCall.exec, StateT.run, hunpin]
    exact ⟨_, _, rfl⟩
  | _ => exact hpins.elim

theorem runAll_pins_total (codec : PageCodec β) {calls : List (CacheCall β)}
    (hpins : ∀ call ∈ calls, call.Pins) {s : CacheSession β} (h : FrameIndexInv s.cache) :
    ∃ rs s', (runAll (CacheCall.exec codec) calls).run s = some (rs, s') := by
  induction calls generalizing s with
  | nil => exact ⟨[], s, rfl⟩
  | cons call calls ih =>
    obtain ⟨r, s₁, hrun₁⟩ := CacheCall.pins_total codec (hpins call List.mem_cons_self) h
    have h₁ := CacheCall.keeps_frameIndex codec call _ _ _ hrun₁ h
    obtain ⟨rs, s₂, hrun₂⟩ := ih (fun c hc => hpins c (List.mem_cons_of_mem _ hc)) h₁
    refine ⟨r :: rs, s₂, ?_⟩
    rw [runAll, run_bind_of hrun₁, run_bind_of hrun₂]
    rfl

/-- **The frame index holds after any calls.** Whatever calls are made of a pager that has just been
opened, the chains lead through the valid frames, each once and in the bucket of its page, no two
frames hold one page, and `find_frame` ends with the frame of the page if it is cached. Gets and
unpins, with any number of pages pinned, always end. -/
theorem pageCache_frameIndex (codec : PageCodec β) (file : Nat → β) (header : DbHeader)
    (calls : List (CacheCall β)) :
    (∀ rs s, (runAll (CacheCall.exec codec) calls).run (.opened codec file header) =
        some (rs, s) →
      FrameIndexInv s.cache ∧
        ∀ pid, ∃ r, findFrame s.cache pid = some r ∧ ∀ i, r = some i ↔ s.cache.Holds i pid) ∧
    ((∀ call ∈ calls, call.Pins) →
      ∃ rs s, (runAll (CacheCall.exec codec) calls).run (.opened codec file header) =
        some (rs, s)) := by
  have hopened := frameIndexInv_opened codec file header
  constructor
  · intro rs s hrun
    have hs := Keeps.runAll (CacheCall.keeps_frameIndex codec) calls _ _ _ hrun hopened
    exact ⟨hs, hs.findFrame_iff⟩
  · exact fun hpins => runAll_pins_total codec hpins hopened

/-! ## How often a page is pinned -/

/-- No frame is pinned more often. -/
def PageCache.PinsUpTo (c : PageCache β) (n : Nat) : Prop := ∀ i, (c.frames i).pinCount ≤ n

section Pins

variable {n : Nat}

theorem PageCache.PinsUpTo.setFrame (h : c.PinsUpTo n) {f : Frame β} (hf : f.pinCount ≤ n) :
    (c.setFrame i f).PinsUpTo n := by
  intro j
  by_cases hj : j = i
  · rw [hj, setFrame_self]
    exact hf
  · rw [setFrame_of_ne hj]
    exact h j

theorem PageCache.PinsUpTo.congr (h : c.PinsUpTo n) (hframes : c'.frames = c.frames) :
    c'.PinsUpTo n := by
  intro i
  rw [hframes]
  exact h i

theorem PageCache.PinsUpTo.writeAt (h : c.PinsUpTo n) (i : Fin maxFrames) (data : β) :
    (c.writeAt i data).PinsUpTo n :=
  h.setFrame (f := { c.frames i with data }) (h i)

theorem PageCache.PinsUpTo.mono (h : c.PinsUpTo n) : c.PinsUpTo (n + 1) :=
  fun i => Nat.le_succ_of_le (h i)

theorem PageCache.PinsUpTo.flushFrame (h : c.PinsUpTo n) (i : Fin maxFrames) :
    (flushFrame c i).PinsUpTo n :=
  PageCache.PinsUpTo.setFrame (c := c.rawWrite _ _) h (h i)

theorem PageCache.PinsUpTo.flushDirtyLoop (h : c.PinsUpTo n) (m : Nat) :
    (flushDirtyLoop m c).PinsUpTo n := by
  induction m generalizing c with
  | zero => exact h
  | succ m ih =>
    rw [MiniDb.flushDirtyLoop]
    split
    · exact h
    · exact ih (h.flushFrame _)

theorem PageCache.PinsUpTo.evictFrame (h : c.PinsUpTo n) {r : Option (Fin maxFrames)}
    (hrun : evictFrame c = some (r, c')) : c'.PinsUpTo n := by
  rw [MiniDb.evictFrame] at hrun
  split at hrun
  · obtain ⟨-, rfl⟩ := Prod.mk.inj (Option.some.inj hrun)
    exact h
  · split at hrun
    · obtain ⟨-, rfl⟩ := Prod.mk.inj (Option.some.inj hrun)
      exact h
    · rename_i best _
      have hflush : (if (c.frames best).isDirty then MiniDb.flushFrame c best else c).PinsUpTo n := by
        split
        · exact h.flushFrame best
        · exact h
      obtain ⟨c₁, hremove, hrun⟩ := Option.bind_eq_some_iff.mp hrun
      obtain ⟨index, -, hc₁⟩ := Option.bind_eq_some_iff.mp hremove
      obtain rfl := Option.some.inj hc₁
      obtain ⟨-, rfl⟩ := Prod.mk.inj (Option.some.inj hrun)
      exact (hflush.congr rfl).setFrame (hflush best)

/-- Only `pager_get_page` pins, and once. -/
theorem PageCache.PinsUpTo.getPage (h : c.PinsUpTo n) {r : Option (Fin maxFrames)}
    (hrun : c.getPage pid = some (r, c')) : c'.PinsUpTo (n + 1) := by
  rw [PageCache.getPage] at hrun
  obtain ⟨found, -, hrun⟩ := Option.bind_eq_some_iff.mp hrun
  cases found with
  | some i =>
    obtain ⟨-, rfl⟩ := Prod.mk.inj (Option.some.inj hrun)
    exact h.mono.setFrame (Nat.succ_le_succ (h i))
  | none =>
    obtain ⟨⟨r, c₁⟩, hevict, hrun⟩ := Option.bind_eq_some_iff.mp hrun
    have h₁ := h.evictFrame hevict
    cases r with
    | none =>
      obtain ⟨-, rfl⟩ := Prod.mk.inj (Option.some.inj hrun)
      exact h₁.mono
    | some i =>
      obtain ⟨-, rfl⟩ := Prod.mk.inj (Option.some.inj hrun)
      exact h₁.mono.setFrame (Nat.succ_le_succ (Nat.zero_le n))

theorem PageCache.PinsUpTo.markDirty (h : c.PinsUpTo n) (hrun : c.markDirty pid = some c') :
    c'.PinsUpTo n := by
  rw [PageCache.markDirty] at hrun
  obtain ⟨found, -, hrun⟩ := Option.bind_eq_some_iff.mp hrun
  have hflush : ∀ c₁ : PageCache β, c₁.PinsUpTo n →
      (if c₁.dirtyHighWatermark > 0 ∧ countDirty c₁ ≥ c₁.dirtyHighWatermark then
        flushDirty c₁ c₁.dirtyLowWatermark else c₁).PinsUpTo n := by
    intro c₁ h₁
    split
    · exact h₁.flushDirtyLoop _
    · exact h₁
  obtain rfl := Option.some.inj hrun
  cases found with
  | none => exact hflush c h
  | some i => exact hflush _ (h.setFrame (f := { c.frames i with isDirty := true }) (h i))

theorem PageCache.PinsUpTo.unpin (h : c.PinsUpTo n) (hrun : c.unpin pid = some c') :
    c'.PinsUpTo n := by
  rw [PageCache.unpin] at hrun
  obtain ⟨found, -, hrun⟩ := Option.bind_eq_some_iff.mp hrun
  cases found with
  | none =>
    obtain rfl := Option.some.inj hrun
    exact h
  | some i =>
    obtain rfl := Option.some.inj hrun
    by_cases hpos : (c.frames i).pinCount > 0
    · rw [if_pos hpos]
      exact h.setFrame (le_trans (Nat.sub_le _ 1) (h i))
    · rw [if_neg hpos]
      exact h

/-- A page that is pinned, written, marked and unpinned. -/
theorem PageCache.PinsUpTo.overwrite (h : c.PinsUpTo n) (i : Fin maxFrames) (data : β)
    {c₁ : PageCache β} (hmark : (c.writeAt i data).markDirty pid = some c₁)
    (hunpin : c₁.unpin pid = some c') : c'.PinsUpTo n :=
  ((h.writeAt i data).markDirty hmark).unpin hunpin

theorem PageCache.PinsUpTo.allocPage (h : c.PinsUpTo n) (codec : PageCodec β)
    (hrun : c.allocPage codec = some (pid, c')) : c'.PinsUpTo (n + 1) := by
  rw [PageCache.allocPage] at hrun
  split at hrun
  · obtain ⟨⟨r, c₁⟩, hget, hrun⟩ := Option.bind_eq_some_iff.mp hrun
    cases r with
    | none => cases hrun
    | some i =>
      obtain ⟨c₂, hmark, hrun⟩ := Option.bind_eq_some_iff.mp hrun
      obtain ⟨c₃, hunpin, hrun⟩ := Option.bind_eq_some_iff.mp hrun
      obtain ⟨-, rfl⟩ := Prod.mk.inj (Option.some.inj hrun)
      refine PageCache.PinsUpTo.overwrite ?_ i _ hmark hunpin
      exact (h.getPage hget).congr rfl
  · obtain ⟨⟨r, c₁⟩, hget, hrun⟩ := Option.bind_eq_some_iff.mp hrun
    have h₁ : c₁.PinsUpTo (n + 1) := by
      refine PageCache.PinsUpTo.getPage ?_ hget
      exact h.congr rfl
    cases r with
    | none => cases hrun
    | some i =>
      obtain ⟨c₂, hmark, hrun⟩ := Option.bind_eq_some_iff.mp hrun
      obtain ⟨c₃, hunpin, hrun⟩ := Option.bind_eq_some_iff.mp hrun
      obtain ⟨-, rfl⟩ := Prod.mk.inj (Option.some.inj hrun)
      exact h₁.overwrite i _ hmark hunpin

theorem PageCache.PinsUpTo.freePage (h : c.PinsUpTo n) (codec : PageCodec β)
    (hrun : c.freePage codec pid = some c') : c'.PinsUpTo (n + 1) := by
  rw [PageCache.freePage] at hrun
  obtain ⟨⟨r, c₁⟩, hget, hrun⟩ := Option.bind_eq_some_iff.mp hrun
  cases r with
  | none => cases hrun
  | some i =>
    obtain ⟨c₂, hmark, hrun⟩ := Option.bind_eq_some_iff.mp hrun
    obtain ⟨c₃, hunpin, hrun⟩ := Option.bind_eq_some_iff.mp hrun
    obtain rfl := Option.some.inj hrun
    exact ((h.getPage hget).overwrite i _ hmark hunpin).congr rfl

theorem PageCache.PinsUpTo.flushAll (h : c.PinsUpTo n) (codec : PageCodec β) :
    (c.flushAll codec).PinsUpTo n := by
  have hloop : ∀ l : List (Fin maxFrames), (l.foldl flushIfDirty c).PinsUpTo n := by
    intro l
    induction l generalizing c with
    | nil => exact h
    | cons i l ih =>
      rw [List.foldl_cons]
      apply ih
      unfold flushIfDirty
      split
      · exact h.flushFrame i
      · exact h
  have hwrite : ∀ c₁ : PageCache β, c₁.PinsUpTo n →
      (c₁.rawWrite 0 (codec.header c₁.header)).PinsUpTo n := fun _ h₁ => h₁
  exact hwrite _ (hloop _)

/-- A call adds one pin at most. -/
theorem CacheCall.pinsUpTo (codec : PageCodec β) (call : CacheCall β) {s s' : CacheSession β}
    {r : CacheReply β} (h : s.cache.PinsUpTo n) (hrun : (call.exec codec).run s = some (r, s')) :
    s'.cache.PinsUpTo (n + 1) := by
  cases call with
  | get pid =>
    obtain ⟨⟨i, c₁⟩, hget, hrun⟩ := Option.bind_eq_some_iff.mp hrun
    have h₁ := h.getPage hget
    cases i <;>
    · obtain ⟨-, rfl⟩ := Prod.mk.inj (Option.some.inj hrun)
      exact h₁
  | write pid data =>
    simp only [CacheCall.exec, StateT.run] at hrun
    split at hrun
    · obtain ⟨-, rfl⟩ := Prod.mk.inj (Option.some.inj hrun)
      exact (h.writeAt _ data).mono
    · cases hrun
  | markDirty pid =>
    obtain ⟨c₁, hmark, hrun⟩ := Option.bind_eq_some_iff.mp hrun
    obtain ⟨-, rfl⟩ := Prod.mk.inj (Option.some.inj hrun)
    exact (h.markDirty hmark).mono
  | unpin pid =>
    obtain ⟨c₁, hunpin, hrun⟩ := Option.bind_eq_some_iff.mp hrun
    obtain ⟨-, rfl⟩ := Prod.mk.inj (Option.some.inj hrun)
    exact (h.unpin hunpin).mono
  | alloc =>
    obtain ⟨⟨pid, c₁⟩, halloc, hrun⟩ := Option.bind_eq_some_iff.mp hrun
    obtain ⟨-, rfl⟩ := Prod.mk.inj (Option.some.inj hrun)
    exact h.allocPage codec halloc
  | free pid =>
    obtain ⟨c₁, hfree, hrun⟩ := Option.bind_eq_some_iff.mp hrun
    obtain ⟨-, rfl⟩ := Prod.mk.inj (Option.some.inj hrun)
    exact h.freePage codec hfree
  | flushAll =>
    obtain ⟨-, rfl⟩ := Prod.mk.inj (Option.some.inj hrun)
    exact (h.flushAll codec).mono

/-- **As many calls, as many pins at most.** So `pin_count` takes `2 ^ 32` calls to wrap. -/
theorem pinsUpTo_length (codec : PageCodec β) (file : Nat → β) (header : DbHeader)
    {calls : List (CacheCall β)} {rs : List (CacheReply β)} {s : CacheSession β}
    (hrun : (runAll (CacheCall.exec codec) calls).run (.opened codec file header) =
      some (rs, s)) : s.cache.PinsUpTo calls.length := by
  have hstep : ∀ (calls : List (CacheCall β)) (n : Nat) (s₀ : CacheSession β) rs,
      s₀.cache.PinsUpTo n → (runAll (CacheCall.exec codec) calls).run s₀ = some (rs, s) →
        s.cache.PinsUpTo (n + calls.length) := by
    intro calls
    induction calls with
    | nil =>
      intro n s₀ rs h hrun
      obtain ⟨-, rfl⟩ := run_pure_eq_some.mp hrun
      exact h
    | cons call calls ih =>
      intro n s₀ rs h hrun
      obtain ⟨r, s₁, hcall, hrun⟩ := run_bind_eq_some.mp hrun
      obtain ⟨rs', s₂, hrest, hrun⟩ := run_bind_eq_some.mp hrun
      obtain ⟨-, rfl⟩ := run_pure_eq_some.mp hrun
      have h' := ih (n + 1) s₁ rs' (CacheCall.pinsUpTo codec call h hcall) hrest
      rwa [Nat.add_right_comm] at h'
  have h := hstep calls 0 _ rs (fun _ => le_refl 0) hrun
  rwa [Nat.zero_add] at h

end Pins

end MiniDb
