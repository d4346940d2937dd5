import MiniDb.Storage.FileFormat
import MiniDb.Storage.PageCache.Transparent

/-! # What a file keeps

`pager_close` writes the dirty frames and the header and forgets the cache; `pager_open` reads the
header from the first page and starts with empty frames. Between sessions whose pins have all been
given back this is not to be noticed: every page has the bytes last written to it. The walk of
`pager_open` along the heap chain is a sequence of calls like others. -/

set_option autoImplicit false

namespace MiniDb

open Lib

section Reopen

variable {β : Type}

/-- `pager_close`, then `pager_open` of the same file, where `readHeader` reads the first page. -/
def CacheSession.reopen (codec : PageCodec β) (readHeader : β → Option DbHeader) :
    StateT (CacheSession β) Option PUnit := do
  let file := ((← get).cache.flushAll codec).file
  match readHeader (file 0) with
  | some header => set (CacheSession.opened codec file header)
  | none => failure

/-- Sessions, with the file closed behind each and opened again. -/
def runCacheSessions (codec : PageCodec β) (readHeader : β → Option DbHeader) :
    List (List (CacheCall β)) → StateT (CacheSession β) Option (List (CacheReply β))
  | [] => return []
  | calls :: sessions => do
    let replies ← runAll (CacheCall.exec codec) calls
    CacheSession.reopen codec readHeader
    return replies ++ (← runCacheSessions codec readHeader sessions)

/-- The view behind some calls. -/
def PageView.after (codec : PageCodec β) (v : PageView β) (calls : List (CacheCall β)) : PageView β :=
  calls.foldl (fun v c => c.next codec v) v

/-- Behind each session all pins are given back and the header has the property. -/
def ClosedAll (codec : PageCodec β) (P : DbHeader → Prop) :
    List (List (CacheCall β)) → PageView β → Prop
  | [], _ => True
  | calls :: sessions, v =>
    ((v.after codec calls).pins = [] ∧ P (v.after codec calls).header) ∧
      ClosedAll codec P sessions (v.after codec calls)

variable {codec : PageCodec β} {readHeader : β → Option DbHeader} {s : CacheSession β}
  {v : PageView β}

/-- `pager_flush_all` writes the header last. -/
theorem flushAll_file_zero (codec : PageCodec β) (c : PageCache β) :
    (c.flushAll codec).file 0 = codec.header (c.flushAll codec).header := by
  simp only [PageCache.flushAll]
  generalize (List.finRange maxFrames).foldl flushIfDirty c = c₁
  exact Function.update_self 0 (codec.header c₁.header) c₁.file

/-- **The file has everything.** A cache that is opened on it stands for the same view. -/
theorem SessionInv.reopen (h : SessionInv s v) (hpins : v.pins = [])
    (hread : readHeader (codec.header v.header) = some v.header) :
    ∃ s', (CacheSession.reopen codec readHeader).run s = some ((), s') ∧ SessionInv s' v := by
  obtain ⟨hflush, -, hfile⟩ := h.cache.flushAll codec
  -- only what is pinned may wait to be marked
  have hunmarked : ∀ p, p ∉ v.unmarked := by
    intro p hp
    have hpin := h.cache.unmarked p hp
    rw [hpins] at hpin
    exact absurd hpin List.not_mem_nil
  have hheader : (s.cache.flushAll codec).file 0 = codec.header v.header := by
    rw [flushAll_file_zero, hflush.header]
  set file := (s.cache.flushAll codec).file with hfileDef
  refine ⟨.opened codec file v.header, ?_, ?_⟩
  · rw [CacheSession.reopen, run_bind_get]
    dsimp only
    rw [← hfileDef, hheader, hread]
    rfl
  · obtain ⟨hinv, hptr⟩ := sessionInv_opened codec file v.header
    have hnone : ∀ p, p ∉ v.pins := by
      intro p hp
      rw [hpins] at hp
      exact absurd hp List.not_mem_nil
    refine ⟨⟨rfl, hinv.index, hinv.unique, ?_, ?_, ?_, ?_, ?_⟩, ?_⟩
    · intro i p hi
      rw [hpins]
      exact hinv.pinCount i p hi
    · exact fun p hp => absurd hp (hnone p)
    · exact fun i p hi => absurd hi.1 Bool.false_ne_true
    · exact fun p hp => .inl (hfile p hp (hunmarked p))
    · exact fun p hp => absurd hp (hunmarked p)
    · exact fun p hp => absurd hp (hnone p)

/-- Every session goes on where the one before has ended. -/
theorem runCacheSessions_right {sessions : List (List (CacheCall β))} (h : SessionInv s v)
    (hok : AllowedAll CacheCall.Allowed (CacheCall.next codec) sessions.flatten v)
    (hclosed : ClosedAll codec (fun hdr => readHeader (codec.header hdr) = some hdr) sessions v) :
    ∃ rs s', (runCacheSessions codec readHeader sessions).run s = some (rs, s') ∧
      RightAll CacheCall.Right (CacheCall.next codec) sessions.flatten v rs := by
  induction sessions generalizing s v with
  | nil => exact ⟨[], s, rfl, rfl⟩
  | cons calls sessions ih =>
    obtain ⟨⟨hpins, hread⟩, hlater⟩ := hclosed
    rw [List.flatten_cons, allowedAll_append] at hok
    obtain ⟨rs, s₁, hrun, hright, hinv⟩ := (cacheCall_simulates codec).runAll calls h hok.1
    obtain ⟨s₂, hreopen, hinv₂⟩ := hinv.reopen hpins hread
    obtain ⟨qs, s₃, hrest, hrights⟩ := ih hinv₂ hok.2 hlater
    refine ⟨rs ++ qs, s₃, ?_, ?_⟩
    · rw [runCacheSessions, run_bind_of hrun, run_bind_of hreopen, run_bind_of hrest]
      rfl
    · rw [List.flatten_cons]
      exact hright.append hrights

end Reopen

/-- The first page as `pager_open` reads it, for frames of this size; `page_size` has to say so too. -/
def readHeaderPage (pageSize : Nat) (bytes : List UInt8) : Option DbHeader :=
  match openHeader bytes with
  | some (size, header) => if size = pageSize then some header else none
  | none => none

theorem readHeaderPage_header {pageSize : Nat} {hdr : DbHeader} (hlo : 4096 ≤ pageSize)
    (hhi : pageSize < 2 ^ 32) (hh : hdr.Storable) :
    readHeaderPage pageSize ((byteCodec pageSize).header hdr) = some hdr := by
  have hlen : (hdr.bytes pageSize).length ≤ pageSize :=
    (length_bytes_header hh).trans_le (le_trans (by decide) hlo)
  have hopen : openHeader ((byteCodec pageSize).header hdr) = some (pageSize, hdr) :=
    openHeader_bytes hh hhi hlen
  rw [readHeaderPage, hopen]
  exact if_pos rfl

/-- **What was written and marked is there when the file is opened again.** Calls made on a file of
bytes in any number of sessions, with `pager_close` and `pager_open` between them, get the replies
of one session in which nothing is ever closed, as long as each session gives back its pins and
leaves a header whose fields are inside their widths. -/
theorem pageCache_persistent (pageSize : Nat) (hlo : 4096 ≤ pageSize) (hhi : pageSize < 2 ^ 32)
    (file : Nat → List UInt8) (header : DbHeader) (sessions : List (List (CacheCall (List UInt8))))
    (hok : AllowedAll CacheCall.Allowed (CacheCall.next (byteCodec pageSize)) sessions.flatten
      (.opened file header))
    (hclosed : ClosedAll (byteCodec pageSize) DbHeader.Storable sessions (.opened file header)) :
    ∃ rs s, (runCacheSessions (byteCodec pageSize) (readHeaderPage pageSize)
        sessions).run (.opened (byteCodec pageSize) file header) = some (rs, s) ∧
      RightAll CacheCall.Right (CacheCall.next (byteCodec pageSize)) sessions.flatten
        (.opened file header) rs := by
  apply runCacheSessions_right (sessionInv_opened _ file header) hok
  generalize PageView.opened file header = v at hclosed
  clear hok
  induction sessions generalizing v with
  | nil => trivial
  | cons calls sessions ih =>
    obtain ⟨⟨hpins, hstorable⟩, hlater⟩ := hclosed
    exact ⟨⟨hpins, readHeaderPage_header hlo hhi hstorable⟩, ih _ hlater⟩

/-- A page is written in one session and read in the next. -/
def twoSessions : List (List (CacheCall (List UInt8))) :=
  [[.get 3, .write 3 onesPage, .markDirty 3, .unpin 3], [.get 3, .unpin 3]]

theorem pageCache_persistent_created :
    ∃ rs s, (runCacheSessions (byteCodec 4096) (readHeaderPage 4096)
        twoSessions).run
          (.opened (byteCodec 4096) (createdFile 4096) (pagerOpenCreate 4096).header) =
            some (rs, s) ∧
      RightAll CacheCall.Right (CacheCall.next (byteCodec 4096)) twoSessions.flatten
        (.opened (createdFile 4096) (pagerOpenCreate 4096).header) rs := by
  have hstorable : (pagerOpenCreate 4096).header.Storable := by
    refine ⟨?_, ?_, ?_, ?_, ?_, ?_, ?_, ?_, fun c hc => absurd hc List.not_mem_nil⟩ <;> decide
  apply pageCache_persistent 4096 (le_refl _) (by decide)
  · simp [twoSessions, AllowedAll, CacheCall.Allowed, CacheCall.next, PageView.opened, PageView.pin,
      PageView.write, PageView.mark, PageView.unpin, PageView.HasFreeFrame, maxFrames]
  · simp [twoSessions, ClosedAll, PageView.after, CacheCall.next, PageView.opened, PageView.pin,
      PageView.write, PageView.mark, PageView.unpin, hstorable]

end MiniDb
