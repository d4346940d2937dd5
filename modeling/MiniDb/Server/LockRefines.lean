import MiniDb.Server.LockMemory
import MiniDb.Server.LockSafety

/-! # The lock table in memory refines the one with lists

A memory holds a table when its nodes are the entries of the table and when walking along the links
of a bucket, of the range locks and of the list of each thread gives the table's lists. Every loop
then ends and sees what it sees on lists, every section runs to its end with the reply it has on
lists, and the memory it leaves holds the table that the section leaves. -/

set_option autoImplicit false

namespace MiniDb

open Lib

variable {τ : Type}

/-! ## The relation -/

/-- A node without its links. -/
def LockNode.entry (addr : Nat) (n : LockNode τ) : LockEntry τ :=
  ⟨addr, n.rowId, n.rangeHigh, n.mode, n.owner, n.isRange⟩

/-- The memory holds the table. -/
structure LockMem.Holds (m : LockMem τ) (lt : LockTable τ) : Prop where
  entries : ∀ e, e ∈ lt.entries ↔ (m.nodes.lookup e.addr).map (·.entry e.addr) = some e
  buckets : ∀ b, (globalLinks τ).IsList m.nodes (m.buckets b) ((lt.buckets b).map (·.addr))
  rangeLocks : (globalLinks τ).IsList m.nodes m.rangeLocks (lt.rangeLocks.map (·.addr))
  waitingWriters : m.waitingWriters = lt.waitingWriters

/-- The memory is that of the table, with the lists of the threads. -/
structure LockMem.Refines (m : LockMem τ) (s : LockSys τ) : Prop where
  table : m.Holds s.table
  held : ∀ t, (ownerLinks τ).IsList m.nodes (m.tlsHeldLocks t) (s.held t)
  heldTable : ∀ t, m.tlsHeldLockTable t = false → s.held t = []
  waiting : m.waiting = s.waiting

/-- Entries lie where they belong, and an address is that of one entry. -/
structure LockTable.Shape (lt : LockTable τ) : Prop where
  placed : lt.Placed
  addr : ∀ e ∈ lt.entries, ∀ e' ∈ lt.entries, e.addr = e'.addr → e = e'

/-- The threads' own variables are the same. -/
structure LockMem.SameThreads (m m' : LockMem τ) : Prop where
  tlsHeldLocks : m'.tlsHeldLocks = m.tlsHeldLocks
  tlsHeldLockTable : m'.tlsHeldLockTable = m.tlsHeldLockTable
  waiting : m'.waiting = m.waiting

section Lists

variable {m m' : LockMem τ} {lt : LockTable τ} {e e' : LockEntry τ} {a head : Nat}
  {l : List (LockEntry τ)} {b : Fin lockTableBuckets} {n : LockNode τ}

theorem LockInv.shape {s : LockSys τ} (hinv : LockInv s) : s.table.Shape := ⟨hinv.placed, hinv.addr⟩

theorem LockMem.Holds.exists_node (h : m.Holds lt) (he : e ∈ lt.entries) :
    ∃ n, m.nodes.lookup e.addr = some n ∧ n.entry e.addr = e :=
  Option.map_eq_some_iff.mp ((h.entries e).mp he)

theorem LockMem.Holds.entry_mem (h : m.Holds lt) (hn : m.nodes.lookup a = some n) :
    n.entry a ∈ lt.entries := by
  rw [h.entries]
  show (m.nodes.lookup a).map _ = _
  rw [hn]
  rfl

theorem LockMem.Holds.notMem (h : m.Holds lt) (ha : a ∉ m.nodes) : ∀ e ∈ lt.entries, e.addr ≠ a := by
  rintro e he rfl
  obtain ⟨n, hn, -⟩ := h.exists_node he
  exact ha (Finmap.mem_of_lookup_eq_some hn)

/-- A thread that acts on the table changes no list but the one it writes to. -/
theorem LockTable.Shape.disjoint_bucket (h : lt.Shape) {c : Fin lockTableBuckets} (hne : b ≠ c)
    (he : e ∈ lt.buckets b) : e.addr ∉ (lt.buckets c).map (·.addr) := by
  intro ha
  obtain ⟨e', he', heq⟩ := List.mem_map.mp ha
  obtain rfl := h.addr e' (mem_entries.mpr (.inl ⟨c, he'⟩)) e (mem_entries.mpr (.inl ⟨b, he⟩)) heq
  exact hne ((h.placed.bucket b e' he).1.symm.trans (h.placed.bucket c e' he').1)

theorem LockTable.Shape.disjoint_range (h : lt.Shape) (he : e ∈ lt.buckets b)
    (he' : e' ∈ lt.rangeLocks) : e.addr ≠ e'.addr := by
  intro heq
  obtain rfl := h.addr e (mem_entries.mpr (.inl ⟨b, he⟩)) e' (mem_entries.mpr (.inr he')) heq
  exact Bool.false_ne_true ((h.placed.bucket b e he).2.symm.trans (h.placed.range e he'))

/-! ## Loops -/

theorem LockMem.Holds.findFrom_eq (h : m.Holds lt) (hsub : ∀ e ∈ l, e ∈ lt.entries)
    (hl : (globalLinks τ).IsList m.nodes head (l.map (·.addr))) {p : LockNode τ → Bool}
    {q : LockEntry τ → Bool} (hpq : ∀ a n, p n = q (n.entry a)) :
    m.findFrom p head = some (((l.find? q).map (·.addr)).getD 0) := by
  have hlen : l.length ≤ m.nodes.keys.card := by
    rw [← List.length_map (f := (·.addr))]
    exact hl.length_le
  apply hl.walks.findFrom_eq (Nat.lt_succ_of_le hlen)
  intro e he n hn
  obtain ⟨n', hn', hentry⟩ := h.exists_node (hsub e he)
  obtain rfl : n = n' := Option.some.inj (hn.symm.trans hn')
  rw [hpq e.addr, hentry]

theorem LockMem.Holds.anyFrom_eq (h : m.Holds lt) (hsub : ∀ e ∈ l, e ∈ lt.entries)
    (hl : (globalLinks τ).IsList m.nodes head (l.map (·.addr))) {p : LockNode τ → Bool}
    {q : LockEntry τ → Bool} (hpq : ∀ a n, p n = q (n.entry a)) :
    m.anyFrom p head = some (l.any q) := by
  rw [LockMem.anyFrom, h.findFrom_eq hsub hl hpq, Option.bind_eq_bind, Option.bind_some]
  refine congrArg some ?_
  cases hfind : l.find? q with
  | none =>
    rw [List.find?_eq_none] at hfind
    symm
    simpa using hfind
  | some e =>
    have he := List.mem_of_find?_eq_some hfind
    have hnull := (hl.exists_node (List.mem_map.mpr ⟨e, he, rfl⟩)).1
    have hany : l.any q = true := List.any_eq_true.mpr ⟨e, he, List.find?_some hfind⟩
    rw [hany]
    simpa using hnull

theorem LockMem.Holds.anyBucket_eq (h : m.Holds lt) (b : Fin lockTableBuckets)
    {p : LockNode τ → Bool} {q : LockEntry τ → Bool} (hpq : ∀ a n, p n = q (n.entry a)) :
    m.anyFrom p (m.buckets b) = some ((lt.buckets b).any q) :=
  h.anyFrom_eq (fun _ he => mem_entries.mpr (.inl ⟨b, he⟩)) (h.buckets b) hpq

theorem LockMem.Holds.anyRange_eq (h : m.Holds lt) {p : LockNode τ → Bool}
    {q : LockEntry τ → Bool} (hpq : ∀ a n, p n = q (n.entry a)) :
    m.anyFrom p m.rangeLocks = some (lt.rangeLocks.any q) :=
  h.anyFrom_eq (fun _ he => mem_entries.mpr (.inr he)) h.rangeLocks hpq

theorem anyM_some {γ : Type} {f : γ → Option Bool} {g : γ → Bool} (h : ∀ x, f x = some (g x))
    (l : List γ) : l.anyM f = some (l.any g) := by
  induction l with
  | nil => rfl
  | cons x l ih =>
    rw [List.anyM, h x, Option.bind_eq_bind, Option.bind_some, List.any_cons]
    cases g x with
    | true => rfl
    | false => exact ih

end Lists

section Sections

variable [DecidableEq τ] {m m' : LockMem τ} {lt : LockTable τ} {s : LockSys τ} {e : LockEntry τ}
  {a : Nat} {self : τ} {mode : LockMode}

/-- **The conflict checks see what they see on lists.** -/
theorem LockMem.Holds.conflict_eq (h : m.Holds lt) (mode : LockMode) (self : τ)
    (req : LockRequest) : m.conflict mode self req = some (req.conflict lt mode self) := by
  have hor : ∀ {x y : Option Bool} {c d : Bool}, x = some c → y = some d →
      (do if ← x then return true
          y : Option Bool) = some (c || d) := by
    rintro _ _ c d rfl rfl
    cases c <;> rfl
  cases req with
  | point rowId =>
    exact hor (h.anyBucket_eq (hashRowId rowId) fun _ _ => rfl) (h.anyRange_eq fun _ _ => rfl)
  | range low high =>
    exact hor (h.anyRange_eq fun _ _ => rfl)
      (anyM_some (fun b => h.anyBucket_eq b fun _ _ => rfl) _)

/-! ## Writing to one list -/

omit [DecidableEq τ] in
theorem ignored_entry (a : Nat) : (globalLinks τ).Ignored (LockNode.entry (τ := τ) a) :=
  ⟨fun _ _ => rfl, fun _ _ => rfl⟩

omit [DecidableEq τ] in
theorem ignored_entry' (a : Nat) : (ownerLinks τ).Ignored (LockNode.entry (τ := τ) a) :=
  ⟨fun _ _ => rfl, fun _ _ => rfl⟩

omit [DecidableEq τ] in
theorem entry_eq_iff {n : LockNode τ} {a : Nat} {e : LockEntry τ} :
    (some (n.entry e.addr) = some e ∧ e.addr = a) ↔ e = n.entry a := by
  constructor
  · rintro ⟨heq, rfl⟩
    exact (Option.some.inj heq).symm
  · rintro rfl
    exact ⟨rfl, rfl⟩

/-- What pushing a new entry on one of the global lists does to the memory. -/
structure LockMem.Pushed (m : LockMem τ) (lt : LockTable τ) (a : Nat) (n : LockNode τ)
    (l : List (LockEntry τ)) (nodes : Memory (LockNode τ)) : Prop where
  mem : a ∈ nodes
  entries : ∀ e, (e = n.entry a ∨ e ∈ lt.entries) ↔
    (nodes.lookup e.addr).map (·.entry e.addr) = some e
  pushed : (globalLinks τ).IsList nodes a (a :: l.map (·.addr))
  others : ∀ head l', (globalLinks τ).IsList m.nodes head l' →
    (∀ x ∈ l', x ∉ l.map (·.addr)) → (globalLinks τ).IsList nodes head l'
  owners : ∀ head l', (ownerLinks τ).IsList m.nodes head l' →
    (ownerLinks τ).IsList nodes head l'

omit [DecidableEq τ] in
theorem LockMem.Holds.push (h : m.Holds lt) (ha : a ∉ m.nodes) (hnull : a ≠ 0) (n : LockNode τ)
    {head : Nat} {l : List (LockEntry τ)}
    (hl : (globalLinks τ).IsList m.nodes head (l.map (·.addr))) :
    ∃ nodes, (globalLinks τ).pushFront head a (m.nodes.insert a n) = some nodes ∧
      m.Pushed lt a n l nodes := by
  have hkeep : ∀ {L : Links (LockNode τ)} {head l}, L.IsList m.nodes head l →
      L.IsList (m.nodes.insert a n) head l := by
    intro L head l hl
    apply hl.congr
    intro c hc
    exact Finmap.lookup_insert_of_ne _ fun heq => ha (heq ▸ hl.live c hc)
  have hmem : a ∈ m.nodes.insert a n := Finmap.mem_insert.mpr (.inl rfl)
  have hfresh : a ∉ l.map (·.addr) := fun hc => ha (hl.live a hc)
  obtain ⟨nodes, hpush, hlist, hrel⟩ := (hkeep hl).pushFront hmem hnull hfresh
  refine ⟨nodes, hpush, hrel.mem_iff.mpr hmem, ?_, hlist, ?_, ?_⟩
  · intro e
    rw [hrel.view _ (ignored_entry e.addr) e.addr, h.entries e]
    by_cases he : e.addr = a
    · rw [he, Finmap.lookup_insert, Finmap.lookup_eq_none.mpr ha, Option.map_some, Option.map_none,
        ← entry_eq_iff, he]
      simp
    · rw [Finmap.lookup_insert_of_ne _ he]
      constructor
      · rintro (rfl | h)
        · exact absurd rfl he
        · exact h
      · exact .inr
  · intro head' l' hl' hdisj
    apply (hkeep hl').congr
    intro x hx
    refine hrel.rest x fun hmem => ?_
    rcases List.mem_cons.mp hmem with rfl | hmem
    · exact ha (hl'.live x hx)
    · exact hdisj x hx hmem
  · intro head' l' hl'
    exact (hkeep hl').of_relinks hrel ⟨fun _ _ => rfl, fun _ _ => rfl⟩
      ⟨fun _ _ => rfl, fun _ _ => rfl⟩

omit [DecidableEq τ] in
/-- A write to a block that has just been filled. -/
theorem modify_insert {nodes : Memory (LockNode τ)} {n : LockNode τ} (f : LockNode τ → LockNode τ) :
    Memory.modify (nodes.insert a n) a f = some (nodes.insert a (f n)) := by
  rw [modify_eq_some (Finmap.lookup_insert _), Finmap.insert_insert]

omit [DecidableEq τ] in
/-- `global_list_insert_point` of a new entry. -/
theorem LockMem.Holds.insertPoint (h : m.Holds lt) (hshape : lt.Shape) (ha : a ∉ m.nodes)
    (hnull : a ≠ 0) (b : Fin lockTableBuckets) (rowId : Nat) (mode : LockMode) (self : τ) :
    ∃ m', (m.newEntry a rowId 0 mode self).globalListInsertPoint b a = some m' ∧
      m'.Holds (MiniDb.globalListInsertPoint lt b ⟨a, rowId, 0, mode, self, false⟩) ∧
      m.SameThreads m' ∧ a ∈ m'.nodes ∧
      ∀ head l, (ownerLinks τ).IsList m.nodes head l → (ownerLinks τ).IsList m'.nodes head l := by
  obtain ⟨nodes, hpush, hpushed⟩ :=
    h.push ha hnull ⟨rowId, 0, mode, self, false, 0, 0, 0, 0⟩ (h.buckets b)
  refine ⟨{ m with nodes, buckets := Function.update m.buckets b a }, ?_, ⟨?_, ?_, ?_, ?_⟩,
    ⟨rfl, rfl, rfl⟩, hpushed.mem, hpushed.owners⟩
  · simp only [LockMem.globalListInsertPoint, LockMem.newEntry, modify_insert, Option.bind_eq_bind,
      Option.bind_some, hpush]
    rfl
  · intro e
    rw [mem_globalListInsertPoint]
    exact hpushed.entries e
  · intro c
    by_cases hc : c = b
    · subst hc
      simpa [MiniDb.globalListInsertPoint] using hpushed.pushed
    · have hlist := hpushed.others _ _ (h.buckets c) fun x hx hmem => by
        obtain ⟨e, he, rfl⟩ := List.mem_map.mp hx
        exact hshape.disjoint_bucket hc he hmem
      simpa [MiniDb.globalListInsertPoint, Function.update_of_ne hc] using hlist
  · apply hpushed.others _ _ h.rangeLocks
    intro x hx hmem
    obtain ⟨e, he, rfl⟩ := List.mem_map.mp hx
    obtain ⟨e', he', heq⟩ := List.mem_map.mp hmem
    exact hshape.disjoint_range he' he heq
  · exact h.waitingWriters

omit [DecidableEq τ] in
/-- `global_list_insert_range` of a new entry. -/
theorem LockMem.Holds.insertRange (h : m.Holds lt) (hshape : lt.Shape) (ha : a ∉ m.nodes)
    (hnull : a ≠ 0) (low high : Nat) (mode : LockMode) (self : τ) :
    ∃ m', (m.newEntry a low high mode self).globalListInsertRange a = some m' ∧
      m'.Holds (MiniDb.globalListInsertRange lt ⟨a, low, high, mode, self, true⟩) ∧
      m.SameThreads m' ∧ a ∈ m'.nodes ∧
      ∀ head l, (ownerLinks τ).IsList m.nodes head l → (ownerLinks τ).IsList m'.nodes head l := by
  obtain ⟨nodes, hpush, hpushed⟩ :=
    h.push ha hnull ⟨low, high, mode, self, true, 0, 0, 0, 0⟩ h.rangeLocks
  refine ⟨{ m with nodes, rangeLocks := a }, ?_, ⟨?_, ?_, ?_, ?_⟩,
    ⟨rfl, rfl, rfl⟩, hpushed.mem, hpushed.owners⟩
  · simp only [LockMem.globalListInsertRange, LockMem.newEntry, modify_insert, Option.bind_eq_bind,
      Option.bind_some, hpush]
    rfl
  · intro e
    rw [mem_globalListInsertRange]
    exact hpushed.entries e
  · intro c
    apply hpushed.others _ _ (h.buckets c)
    intro x hx hmem
    obtain ⟨e, he, rfl⟩ := List.mem_map.mp hx
    obtain ⟨e', he', heq⟩ := List.mem_map.mp hmem
    exact hshape.disjoint_range he he' heq.symm
  · exact hpushed.pushed
  · exact h.waitingWriters

/-! ## The lists of the threads -/

omit [DecidableEq τ] in
/-- The global lists do not see the links of the threads. -/
theorem LockMem.Holds.of_relinks (h : m.Holds lt) {touched : List Nat}
    (hrel : (ownerLinks τ).Relinks touched m.nodes m'.nodes) (hbuckets : m'.buckets = m.buckets)
    (hrange : m'.rangeLocks = m.rangeLocks) (hwriters : m'.waitingWriters = m.waitingWriters) :
    m'.Holds lt := by
  refine ⟨fun e => ?_, fun b => ?_, ?_, hwriters.trans h.waitingWriters⟩
  · rw [hrel.view _ (ignored_entry' e.addr) e.addr]
    exact h.entries e
  · rw [hbuckets]
    exact (h.buckets b).of_relinks hrel ⟨fun _ _ => rfl, fun _ _ => rfl⟩
      ⟨fun _ _ => rfl, fun _ _ => rfl⟩
  · rw [hrange]
    exact h.rangeLocks.of_relinks hrel ⟨fun _ _ => rfl, fun _ _ => rfl⟩
      ⟨fun _ _ => rfl, fun _ _ => rfl⟩

/-- `owner_list_push` of an entry that is on no thread's list. -/
theorem LockMem.Holds.ownerListPush (h : m.Holds lt) {held : τ → List Nat}
    (hlists : ∀ t, (ownerLinks τ).IsList m.nodes (m.tlsHeldLocks t) (held t))
    (hdisj : ∀ t ≠ self, ∀ x ∈ held t, x ∉ held self) (ha : a ∈ m.nodes) (hnull : a ≠ 0)
    (hfresh : ∀ t, a ∉ held t) :
    ∃ m', m.ownerListPush self a = some m' ∧ m'.Holds lt ∧
      (∀ t, (ownerLinks τ).IsList m'.nodes (m'.tlsHeldLocks t)
        (Function.update held self (a :: held self) t)) ∧
      m'.tlsHeldLockTable = Function.update m.tlsHeldLockTable self true ∧
      m'.waiting = m.waiting := by
  obtain ⟨nodes, hpush, hlist, hrel⟩ := (hlists self).pushFront ha hnull (hfresh self)
  refine ⟨{ m with
    nodes
    tlsHeldLocks := Function.update m.tlsHeldLocks self a
    tlsHeldLockTable := Function.update m.tlsHeldLockTable self true }, ?_, ?_, ?_, rfl, rfl⟩
  · rw [LockMem.ownerListPush, hpush]
    rfl
  · exact h.of_relinks hrel rfl rfl rfl
  · intro t
    by_cases ht : t = self
    · subst ht
      simpa using hlist
    · have hother : (ownerLinks τ).IsList nodes (m.tlsHeldLocks t) (held t) := by
        apply (hlists t).congr
        intro x hx
        refine hrel.rest x fun hmem => ?_
        rcases List.mem_cons.mp hmem with rfl | hmem
        · exact hfresh t hx
        · exact hdisj t ht x hx hmem
      simpa [Function.update_of_ne ht] using hother

omit [DecidableEq τ] in
/-- No entry is on the lists of two threads. -/
theorem LockInv.held_disjoint (hinv : LockInv s) {t : τ} (ht : t ≠ self) :
    ∀ x ∈ s.held t, x ∉ s.held self := by
  intro x hx hx'
  obtain ⟨e, he, rfl, rfl⟩ := (hinv.held t x).mp hx
  obtain ⟨e', he', rfl, haddr⟩ := (hinv.held self _).mp hx'
  exact ht (congrArg LockEntry.owner (hinv.addr e he e' he' haddr.symm))

/-! ## Removal -/

/-- What taking an entry out of a global list and freeing it does to the memory. -/
structure LockMem.Unlinked (m : LockMem τ) (lt : LockTable τ) (a head : Nat) (n : LockNode τ)
    (l : List (LockEntry τ)) (nodes : Memory (LockNode τ)) : Prop where
  entries : ∀ e, (e ∈ lt.entries ∧ e.addr ≠ a) ↔
    (nodes.lookup e.addr).map (·.entry e.addr) = some e
  unlinked : (globalLinks τ).IsList nodes (if n.prev ≠ 0 then head else n.next)
    ((l.filter (·.addr != a)).map (·.addr))
  others : ∀ head l', (globalLinks τ).IsList m.nodes head l' →
    (∀ x ∈ l', x ∉ l.map (·.addr)) → (globalLinks τ).IsList nodes head l'
  view : ∀ v : LockNode τ → Nat, (globalLinks τ).Ignored v → ∀ x ≠ a,
    (nodes.lookup x).map v = (m.nodes.lookup x).map v

omit [DecidableEq τ] in
theorem filter_addr {l r : List (LockEntry τ)} (h : ((l ++ e :: r).map (·.addr)).Nodup) :
    (l ++ e :: r).filter (·.addr != e.addr) = l ++ r := by
  rw [List.map_append, List.map_cons, List.nodup_append, List.nodup_cons] at h
  obtain ⟨-, ⟨hr, -⟩, hl⟩ := h
  rw [List.filter_append, List.filter_cons_of_neg (by simp)]
  congr 1
  · rw [List.filter_eq_self]
    intro e' he'
    rw [bne_iff_ne]
    exact hl _ (List.mem_map.mpr ⟨e', he', rfl⟩) _ List.mem_cons_self
  · rw [List.filter_eq_self]
    intro e' he'
    rw [bne_iff_ne]
    intro heq
    exact hr (List.mem_map.mpr ⟨e', he', heq⟩)

omit [DecidableEq τ] in
theorem LockMem.Holds.unlink (h : m.Holds lt) {head : Nat} {l : List (LockEntry τ)}
    (hl : (globalLinks τ).IsList m.nodes head (l.map (·.addr))) (he : e ∈ l) {n : LockNode τ}
    (hn : m.nodes.lookup e.addr = some n) :
    ∃ nodes, (globalLinks τ).unlink e.addr m.nodes = some nodes ∧
      m.Unlinked lt e.addr head n l (nodes.erase e.addr) := by
  obtain ⟨l, r, rfl⟩ := List.append_of_mem he
  have hnodup := hl.nodup
  have hfilter := filter_addr hnodup
  rw [List.map_append, List.map_cons] at hl
  obtain ⟨nodes, hrun, hlist, hrel⟩ := hl.unlink hn
  have herase : ∀ {L : Links (LockNode τ)} {head l}, L.IsList nodes head l → e.addr ∉ l →
      L.IsList (nodes.erase e.addr) head l := by
    intro L head l hl hnot
    apply hl.congr
    intro x hx
    exact Finmap.lookup_erase_ne fun heq => hnot (heq ▸ hx)
  rw [List.map_append, List.map_cons, List.nodup_append, List.nodup_cons] at hnodup
  have hnot : e.addr ∉ l.map (·.addr) ++ r.map (·.addr) := by
    intro hmem
    rcases List.mem_append.mp hmem with hmem | hmem
    · exact hnodup.2.2 _ hmem _ List.mem_cons_self rfl
    · exact hnodup.2.1.1 hmem
  have hview : ∀ {γ : Type} (v : LockNode τ → γ), (globalLinks τ).Ignored v → ∀ x ≠ e.addr,
      ((nodes.erase e.addr).lookup x).map v = (m.nodes.lookup x).map v := by
    intro γ v hv x hx
    rw [Finmap.lookup_erase_ne hx]
    exact hrel.view v hv x
  refine ⟨nodes, hrun, ?_, ?_, ?_, fun v => hview v⟩
  · intro e'
    by_cases ha : e'.addr = e.addr
    · rw [ha, Finmap.lookup_erase]
      simp
    · rw [hview _ (ignored_entry e'.addr) _ ha, h.entries e']
      exact and_iff_left ha
  · rw [hfilter, List.map_append]
    exact herase hlist hnot
  · intro head' l' hl' hdisj
    refine herase (hl'.congr fun x hx => hrel.rest x fun hmem => hdisj x hx ?_) fun hmem =>
      hdisj _ hmem (List.mem_map.mpr ⟨e, he, rfl⟩)
    rw [List.map_append, List.map_cons]
    rcases List.mem_append.mp hmem with hmem | hmem
    · exact List.mem_append_left _ hmem
    · exact List.mem_append_right _ (List.mem_cons_of_mem _ hmem)

omit [DecidableEq τ] in
/-- `global_list_remove` and `free`. -/
theorem LockMem.Holds.remove (h : m.Holds lt) (hshape : lt.Shape) (he : e ∈ lt.entries) :
    ∃ m', m.globalListRemove e.addr = some m' ∧
      (m'.free e.addr).Holds (MiniDb.globalListRemove lt e.addr) ∧
      m.SameThreads (m'.free e.addr) ∧
      ∀ v : LockNode τ → Nat, (globalLinks τ).Ignored v → ∀ x ≠ e.addr,
        ((m'.free e.addr).nodes.lookup x).map v = (m.nodes.lookup x).map v := by
  obtain ⟨n, hn, hentry⟩ := h.exists_node he
  have hrange : n.isRange = e.isRange := congrArg LockEntry.isRange hentry
  have hrow : n.rowId = e.rowId := congrArg LockEntry.rowId hentry
  -- a list without the entry stays
  have hself : ∀ {l : List (LockEntry τ)}, e.addr ∉ l.map (·.addr) →
      l.filter (·.addr != e.addr) = l := by
    intro l hnot
    rw [List.filter_eq_self]
    intro e' he'
    rw [bne_iff_ne]
    intro heq
    exact hnot (List.mem_map.mpr ⟨e', he', heq⟩)
  rcases mem_entries.mp he with ⟨b, hb⟩ | hr
  · obtain ⟨hhash, hpoint⟩ := hshape.placed.bucket b e hb
    obtain ⟨nodes, hrun, hout⟩ := h.unlink (h.buckets b) hb hn
    refine ⟨{ m with
      nodes
      buckets := if n.prev = 0 then Function.update m.buckets b n.next else m.buckets }, ?_,
      ⟨?_, ?_, ?_, h.waitingWriters⟩, ⟨rfl, rfl, rfl⟩, hout.view⟩
    · simp [LockMem.globalListRemove, hn, hrun, hrange, hpoint, hrow, hhash]
    · intro e'
      rw [mem_globalListRemove]
      exact hout.entries e'
    · intro c
      by_cases hc : c = b
      · subst hc
        have hhead : (if n.prev = 0 then Function.update m.buckets c n.next else m.buckets) c =
            if n.prev ≠ 0 then m.buckets c else n.next := by
          by_cases hp : n.prev = 0 <;> simp [hp]
        have hlist := hout.unlinked
        rw [← hhead] at hlist
        exact hlist
      · have hhead : (if n.prev = 0 then Function.update m.buckets b n.next else m.buckets) c =
            m.buckets c := by
          split
          · exact Function.update_of_ne hc _ _
          · rfl
        show (globalLinks τ).IsList _ ((if n.prev = 0 then _ else _ : _ → Nat) c)
          (((lt.buckets c).filter _).map _)
        rw [hhead, hself (hshape.disjoint_bucket (Ne.symm hc) hb)]
        apply hout.others _ _ (h.buckets c)
        intro x hx
        obtain ⟨e', he', rfl⟩ := List.mem_map.mp hx
        exact hshape.disjoint_bucket hc he'
    · show (globalLinks τ).IsList _ _ ((lt.rangeLocks.filter _).map _)
      rw [hself]
      · apply hout.others _ _ h.rangeLocks
        intro x hx hmem
        obtain ⟨e', he', rfl⟩ := List.mem_map.mp hx
        obtain ⟨e'', he'', heq⟩ := List.mem_map.mp hmem
        exact hshape.disjoint_range he'' he' heq
      · intro hmem
        obtain ⟨e', he', heq⟩ := List.mem_map.mp hmem
        exact hshape.disjoint_range hb he' heq.symm
  · have hkind := hshape.placed.range e hr
    obtain ⟨nodes, hrun, hout⟩ := h.unlink h.rangeLocks hr hn
    refine ⟨{ m with
      nodes
      rangeLocks := if n.prev = 0 then n.next else m.rangeLocks }, ?_,
      ⟨?_, ?_, ?_, h.waitingWriters⟩, ⟨rfl, rfl, rfl⟩, hout.view⟩
    · simp [LockMem.globalListRemove, hn, hrun, hrange, hkind]
    · intro e'
      rw [mem_globalListRemove]
      exact hout.entries e'
    · intro c
      show (globalLinks τ).IsList _ _ (((lt.buckets c).filter _).map _)
      rw [hself]
      · apply hout.others _ _ (h.buckets c)
        intro x hx hmem
        obtain ⟨e', he', rfl⟩ := List.mem_map.mp hx
        obtain ⟨e'', he'', heq⟩ := List.mem_map.mp hmem
        exact hshape.disjoint_range he' he'' heq.symm
      · intro hmem
        obtain ⟨e', he', heq⟩ := List.mem_map.mp hmem
        exact hshape.disjoint_range he' hr heq
    · have hhead : (if n.prev = 0 then n.next else m.rangeLocks) =
          if n.prev ≠ 0 then m.rangeLocks else n.next := by
        by_cases hp : n.prev = 0 <;> simp [hp]
      have hlist := hout.unlinked
      rw [← hhead] at hlist
      exact hlist

/-! ## Releasing -/

omit [DecidableEq τ] in
theorem LockTable.Shape.remove (h : lt.Shape) (a : Nat) : (globalListRemove lt a).Shape :=
  ⟨h.placed.remove [a], fun e he e' he' =>
    h.addr e (mem_globalListRemove.mp he).1 e' (mem_globalListRemove.mp he').1⟩

omit [DecidableEq τ] in
/-- Walks on the links of the threads only depend on these. -/
theorem ownerWalks_of_view {h h' : Memory (LockNode τ)} {l : List Nat} {a : Nat}
    (hw : (ownerLinks τ).Walks h a l)
    (hsame : ∀ x ∈ l, (h'.lookup x).map LockNode.ownerNext = (h.lookup x).map LockNode.ownerNext) :
    (ownerLinks τ).Walks h' a l := by
  induction l generalizing a with
  | nil => exact hw
  | cons b l ih =>
    obtain ⟨rfl, hnull, n, hn, hw⟩ := hw
    have hb := hsame a List.mem_cons_self
    rw [hn, Option.map_some] at hb
    obtain ⟨n', hn', hnext⟩ := Option.map_eq_some_iff.mp hb
    refine ⟨rfl, hnull, n', hn', ?_⟩
    show (ownerLinks τ).Walks h' n'.ownerNext l
    rw [hnext]
    exact ih hw fun x hx => hsame x (List.mem_cons_of_mem _ hx)

omit [DecidableEq τ] in
/-- **The loop of `lock_release_all`** frees the entries of the list one by one; the links of the
other threads' entries stay. -/
theorem LockMem.Holds.releaseFrom (h : m.Holds lt) (hshape : lt.Shape) {l : List Nat} {fuel : Nat}
    (hw : (ownerLinks τ).Walks m.nodes a l) (hnodup : l.Nodup)
    (hmem : ∀ x ∈ l, ∃ e ∈ lt.entries, e.addr = x) (hfuel : l.length < fuel) :
    ∃ m', LockMem.releaseFrom fuel m a = some m' ∧
      m'.Holds (l.foldl MiniDb.globalListRemove lt) ∧ m.SameThreads m' ∧
      ∀ v : LockNode τ → Nat, (globalLinks τ).Ignored v → ∀ x ∉ l,
        (m'.nodes.lookup x).map v = (m.nodes.lookup x).map v := by
  induction l generalizing m lt a fuel with
  | nil =>
    obtain ⟨fuel, rfl⟩ := Nat.exists_eq_succ_of_ne_zero (Nat.ne_of_gt hfuel)
    exact ⟨m, if_pos hw, h, ⟨rfl, rfl, rfl⟩, fun _ _ _ _ => rfl⟩
  | cons b l ih =>
    obtain ⟨fuel, rfl⟩ := Nat.exists_eq_succ_of_ne_zero (Nat.ne_of_gt (Nat.zero_lt_of_lt hfuel))
    obtain ⟨rfl, hnull, n, hn, hw⟩ := hw
    obtain ⟨hnot, hnodup'⟩ := List.nodup_cons.mp hnodup
    obtain ⟨e, he, rfl⟩ := hmem _ List.mem_cons_self
    obtain ⟨m₁, hrun₁, hholds₁, hthreads₁, hview₁⟩ := h.remove hshape he
    have hw₁ := ownerWalks_of_view hw fun x hx =>
      hview₁ LockNode.ownerNext ⟨fun _ _ => rfl, fun _ _ => rfl⟩ x fun heq => hnot (heq ▸ hx)
    have hmem₁ : ∀ x ∈ l, ∃ e' ∈ (MiniDb.globalListRemove lt e.addr).entries, e'.addr = x := by
      intro x hx
      obtain ⟨e', he', rfl⟩ := hmem x (List.mem_cons_of_mem _ hx)
      exact ⟨e', mem_globalListRemove.mpr ⟨he', fun heq => hnot (heq ▸ hx)⟩, rfl⟩
    obtain ⟨m₂, hrun₂, hholds₂, hthreads₂, hview₂⟩ :=
      ih hholds₁ (hshape.remove e.addr) hw₁ hnodup' hmem₁ (Nat.lt_of_succ_lt_succ hfuel)
    refine ⟨m₂, ?_, hholds₂, ⟨hthreads₂.1.trans hthreads₁.1, hthreads₂.2.trans hthreads₁.2,
      hthreads₂.3.trans hthreads₁.3⟩, ?_⟩
    · rw [LockMem.releaseFrom, if_neg hnull, hn, Option.bind_eq_bind, Option.bind_some, hrun₁]
      exact hrun₂
    · intro v hv x hx
      rw [List.mem_cons, not_or] at hx
      rw [hview₂ v hv x hx.2, hview₁ v hv x hx.1]

theorem LockMem.Refines.lockReleaseAll (h : m.Refines s) (hinv : LockInv s) (self : τ) :
    ∃ m', m.lockReleaseAll self = some m' ∧ m'.Refines (MiniDb.lockReleaseAll s self) := by
  by_cases htls : m.tlsHeldLockTable self = true
  · have hself := h.held self
    let m₀ : LockMem τ := { m with
      tlsHeldLocks := Function.update m.tlsHeldLocks self 0
      tlsHeldLockTable := Function.update m.tlsHeldLockTable self false }
    have hholds : m₀.Holds s.table := ⟨h.table.1, h.table.2, h.table.3, h.table.4⟩
    have hmem : ∀ x ∈ s.held self, ∃ e ∈ s.table.entries, e.addr = x := by
      intro x hx
      obtain ⟨e, he, -, haddr⟩ := (hinv.held self x).mp hx
      exact ⟨e, he, haddr⟩
    obtain ⟨m', hrun, hholds', hthreads, hview⟩ := hholds.releaseFrom hinv.shape hself.walks
      hself.nodup hmem (Nat.lt_succ_of_le hself.length_le)
    refine ⟨m', (if_pos htls).trans hrun, hholds', ?_, ?_, hthreads.waiting.trans h.waiting⟩
    · intro t
      rw [hthreads.tlsHeldLocks]
      by_cases ht : t = self
      · subst ht
        show (ownerLinks τ).IsList _ (Function.update m.tlsHeldLocks t 0 t)
          (Function.update s.held t [] t)
        rw [Function.update_self, Function.update_self, isList_nil]
      · show (ownerLinks τ).IsList _ (Function.update m.tlsHeldLocks self 0 t)
          (Function.update s.held self [] t)
        rw [Function.update_of_ne ht, Function.update_of_ne ht]
        exact (h.held t).of_links
          (fun x hx => hview _ ⟨fun _ _ => rfl, fun _ _ => rfl⟩ x (hinv.held_disjoint ht x hx))
          fun x hx => hview _ ⟨fun _ _ => rfl, fun _ _ => rfl⟩ x (hinv.held_disjoint ht x hx)
    · intro t htable
      rw [hthreads.tlsHeldLockTable] at htable
      show Function.update s.held self [] t = []
      by_cases ht : t = self
      · rw [ht, Function.update_self]
      · rw [Function.update_of_ne ht]
        refine h.heldTable t ?_
        rwa [show m₀.tlsHeldLockTable t = m.tlsHeldLockTable t from
          Function.update_of_ne ht _ _] at htable
  · have hnil : s.held self = [] := h.heldTable self (Bool.eq_false_of_not_eq_true htls)
    have hsame : MiniDb.lockReleaseAll s self = s := by
      rw [MiniDb.lockReleaseAll, hnil, List.foldl_nil, ← hnil, Function.update_eq_self]
    rw [hsame]
    exact ⟨m, if_neg htls, h⟩

/-! ## Critical sections -/

/-- Both run to their end, with the same reply. -/
def LockMem.Matches (x : Option (LockReply × LockMem τ)) (y : Option (LockReply × LockSys τ)) :
    Prop :=
  ∃ r m' s', x = some (r, m') ∧ y = some (r, s') ∧ m'.Refines s'

variable {w : LockWait} {alloc : Option Nat}

omit [DecidableEq τ] in
theorem LockMem.Refines.unregister (h : m.Refines s) (w : LockWait) :
    (m.waitingWriterUnregister w).Refines
      { s with table := MiniDb.waitingWriterUnregister s.table w } := by
  unfold LockMem.waitingWriterUnregister MiniDb.waitingWriterUnregister
  split
  · refine ⟨⟨h.table.1, h.table.2, h.table.3, ?_⟩, h.held, h.heldTable, h.waiting⟩
    show m.waitingWriters - 1 = s.table.waitingWriters - 1
    rw [h.table.waitingWriters]
  · exact h

omit [DecidableEq τ] in
theorem LockMem.Refines.register (h : m.Refines s) (w : LockWait) :
    (m.waitingWriterRegister w).2 = (MiniDb.waitingWriterRegister s.table w).2 ∧
      (m.waitingWriterRegister w).1.Refines
        { s with table := (MiniDb.waitingWriterRegister s.table w).1 } := by
  unfold LockMem.waitingWriterRegister MiniDb.waitingWriterRegister
  cases w.registered with
  | true => exact ⟨rfl, h⟩
  | false =>
    refine ⟨rfl, ⟨h.table.1, h.table.2, h.table.3, ?_⟩, h.held, h.heldTable, h.waiting⟩
    exact congrArg (· + 1) h.table.waitingWriters

theorem LockMem.Refines.setWaiting (h : m.Refines s) (self : τ) (w : Option LockWait) :
    LockMem.Refines { m with waiting := Function.update m.waiting self w }
      { s with waiting := Function.update s.waiting self w } :=
  ⟨⟨h.table.1, h.table.2, h.table.3, h.table.4⟩, h.held, h.heldTable,
    congrArg (Function.update · self w) h.waiting⟩

/-- A new entry goes on its thread's list. -/
theorem LockMem.Refines.granted (h : m.Refines s) (hinv : LockInv s) (ha : a ∉ m.nodes)
    (hnull : a ≠ 0) (self : τ) (w : LockWait) {lt : LockTable τ} (hholds : m'.Holds lt)
    (hthreads : m.SameThreads m') (hmem : a ∈ m'.nodes)
    (howners : ∀ head l, (ownerLinks τ).IsList m.nodes head l →
      (ownerLinks τ).IsList m'.nodes head l) :
    ∃ m'', m'.ownerListPush self a = some m'' ∧ (m''.waitingWriterUnregister w).Refines
      { s with
        table := MiniDb.waitingWriterUnregister lt w
        held := Function.update s.held self (a :: s.held self) } := by
  have hlists : ∀ t, (ownerLinks τ).IsList m'.nodes (m'.tlsHeldLocks t) (s.held t) := by
    intro t
    rw [hthreads.tlsHeldLocks]
    exact howners _ _ (h.held t)
  obtain ⟨m'', hrun, hholds', hheld, htable, hwaiting⟩ := hholds.ownerListPush hlists
    (fun t ht => hinv.held_disjoint ht) hmem hnull fun t hat => ha ((h.held t).live a hat)
  refine ⟨m'', hrun, LockMem.Refines.unregister (s := { s with
    table := lt
    held := Function.update s.held self (a :: s.held self) })
    ⟨hholds', hheld, fun t ht => ?_, (hwaiting.trans hthreads.waiting).trans h.waiting⟩ w⟩
  rw [htable, hthreads.tlsHeldLockTable] at ht
  have hne : t ≠ self := by
    rintro rfl
    rw [Function.update_self] at ht
    cases ht
  rw [Function.update_of_ne hne] at ht
  show Function.update s.held self _ t = []
  rw [Function.update_of_ne hne]
  exact h.heldTable t ht

theorem LockMem.Refines.grantPoint (h : m.Refines s) (hinv : LockInv s) (self : τ) (w : LockWait)
    (rowId : Nat) (halloc : ∀ a, alloc = some a → a ≠ 0 ∧ a ∉ m.nodes) :
    LockMem.Matches (m.grantPoint self w rowId alloc)
      (some (MiniDb.grantPoint s self w rowId alloc)) := by
  cases alloc with
  | none => exact ⟨_, m, s, rfl, rfl, h⟩
  | some a =>
    obtain ⟨hnull, ha⟩ := halloc a rfl
    obtain ⟨m₁, hrun₁, hholds, hthreads, hmem, howners⟩ :=
      h.table.insertPoint hinv.shape ha hnull (hashRowId rowId) rowId w.mode self
    obtain ⟨m₂, hrun₂, href⟩ := h.granted hinv ha hnull self w hholds hthreads hmem howners
    refine ⟨_, m₂.waitingWriterUnregister w, _, ?_, rfl, href⟩
    simp only [LockMem.grantPoint, hrun₁, hrun₂, Option.bind_eq_bind, Option.bind_some]
    rfl

theorem LockMem.Refines.grantRange (h : m.Refines s) (hinv : LockInv s) (self : τ) (w : LockWait)
    (low high : Nat) (halloc : ∀ a, alloc = some a → a ≠ 0 ∧ a ∉ m.nodes) :
    LockMem.Matches (m.grantRange self w low high alloc)
      (some (MiniDb.grantRange s self w low high alloc)) := by
  cases alloc with
  | none => exact ⟨_, m, s, rfl, rfl, h⟩
  | some a =>
    obtain ⟨hnull, ha⟩ := halloc a rfl
    obtain ⟨m₁, hrun₁, hholds, hthreads, hmem, howners⟩ :=
      h.table.insertRange hinv.shape ha hnull low high w.mode self
    obtain ⟨m₂, hrun₂, href⟩ := h.granted hinv ha hnull self w hholds hthreads hmem howners
    refine ⟨_, m₂.waitingWriterUnregister w, _, ?_, rfl, href⟩
    simp only [LockMem.grantRange, hrun₁, hrun₂, Option.bind_eq_bind, Option.bind_some]
    rfl

omit [DecidableEq τ] in
/-- `e->mode = mode` through a pointer to an entry. -/
theorem LockMem.Refines.setMode (h : m.Refines s) {n : LockNode τ}
    (hn : m.nodes.lookup a = some n) (mode : LockMode) :
    LockMem.Refines { m with nodes := m.nodes.insert a { n with mode := mode } }
      { s with table := s.table.setMode a mode } := by
  have hkeep : ∀ {L : Links (LockNode τ)} {head l}, L.IsList m.nodes head l →
      L.next { n with mode := mode } = L.next n → L.prev { n with mode := mode } = L.prev n →
      L.IsList (m.nodes.insert a { n with mode := mode }) head l :=
    fun hl hnext hprev => hl.write hn hnext hprev
  have haddr : ∀ l : List (LockEntry τ),
      (l.map fun e => if e.addr = a then { e with mode := mode } else e).map (·.addr) =
        l.map (·.addr) := by
    intro l
    rw [List.map_map]
    apply List.map_congr_left
    intro e _
    show (if e.addr = a then _ else e : LockEntry τ).addr = e.addr
    split <;> rfl
  refine ⟨⟨?_, ?_, ?_, h.table.4⟩, fun t => hkeep (h.held t) rfl rfl, h.heldTable, h.waiting⟩
  · intro e
    rw [mem_setMode]
    by_cases he : e.addr = a
    · subst he
      rw [Finmap.lookup_insert, Option.map_some]
      constructor
      · rintro ⟨e', he', heq⟩
        have haddr' : e'.addr = e.addr := by rw [← heq, (e'.setMode_fields _ _).1]
        obtain ⟨n', hn', hentry⟩ := h.table.exists_node he'
        rw [haddr'] at hn' hentry
        obtain rfl : n = n' := Option.some.inj (hn.symm.trans hn')
        rw [← heq, ← hentry]
        simp [LockEntry.setMode, LockNode.entry]
      · intro heq
        refine ⟨n.entry e.addr, h.table.entry_mem hn, ?_⟩
        rw [← Option.some.inj heq]
        simp [LockEntry.setMode, LockNode.entry]
    · rw [Finmap.lookup_insert_of_ne _ he, ← h.table.entries e]
      constructor
      · rintro ⟨e', he', heq⟩
        have haddr' : e'.addr = e.addr := by rw [← heq, (e'.setMode_fields _ _).1]
        rw [LockEntry.setMode, if_neg (haddr'.trans_ne he)] at heq
        exact heq ▸ he'
      · intro hmem
        exact ⟨e, hmem, if_neg he⟩
  · intro b
    show (globalLinks τ).IsList _ _ (((s.table.buckets b).map _).map _)
    rw [haddr]
    exact hkeep (h.table.buckets b) rfl rfl
  · show (globalLinks τ).IsList _ _ ((s.table.rangeLocks.map _).map _)
    rw [haddr]
    exact hkeep h.table.rangeLocks rfl rfl

theorem LockMem.Refines.lockGrant (h : m.Refines s) (hinv : LockInv s)
    (howns : w.Owns s.table self) (halloc : ∀ a, alloc = some a → a ≠ 0 ∧ a ∉ m.nodes) :
    LockMem.Matches (m.lockGrant self w alloc) (MiniDb.lockGrant s self w alloc) := by
  unfold LockMem.lockGrant MiniDb.lockGrant
  cases hreq : w.req with
  | range low high => exact h.grantRange hinv self w low high halloc
  | point rowId =>
    cases hentry : w.entry with
    | none => exact h.grantPoint hinv self w rowId halloc
    | some addr =>
      -- the entry is still there: nobody else frees it
      obtain ⟨e, he, rfl, -, -, -⟩ := howns addr hentry
      obtain ⟨n, hn, hnode⟩ := h.table.exists_node he
      have hfind : s.table.entries.find? (·.addr == e.addr) = some e := by
        cases hf : s.table.entries.find? (·.addr == e.addr) with
        | none => exact absurd (List.find?_eq_none.mp hf e he) (by simp)
        | some e' =>
          have haddr := List.find?_some hf
          exact congrArg some (hinv.addr e' (List.mem_of_find?_eq_some hf) e he
            (by simpa using haddr))
      have hrow : n.rowId = e.rowId := congrArg LockEntry.rowId hnode
      have howner : n.owner = e.owner := congrArg LockEntry.owner hnode
      simp only [hn, hfind, Option.bind_eq_bind, Option.bind_some, hrow, howner]
      by_cases hown : e.rowId = rowId ∧ e.owner = self
      · rw [if_pos hown, if_pos hown, modify_eq_some hn, Option.bind_some]
        exact ⟨_, _, _, rfl, rfl, (h.setMode hn w.mode).unregister w⟩
      · rw [if_neg hown, if_neg hown]
        exact h.grantPoint hinv self w rowId halloc

/-- One round of the wait loop. -/
theorem LockMem.Refines.lockWaitLoop (h : m.Refines s) (hinv : LockInv s)
    (howns : w.Owns s.table self) (halloc : ∀ a, alloc = some a → a ≠ 0 ∧ a ∉ m.nodes) :
    LockMem.Matches (m.lockWaitLoop self w alloc) (MiniDb.lockWaitLoop s self w alloc) := by
  have hreader : m.readerShouldWait w.mode = MiniDb.readerShouldWait s.table w.mode := by
    rw [LockMem.readerShouldWait, MiniDb.readerShouldWait, h.table.waitingWriters]
  rw [LockMem.lockWaitLoop, MiniDb.lockWaitLoop, h.table.conflict_eq, Option.bind_eq_bind,
    Option.bind_some, hreader]
  split
  · by_cases hx : w.mode = .x
    · rw [if_pos hx, if_pos hx]
      obtain ⟨hw, href⟩ := h.register w
      refine ⟨.blocked, _, _, ?_, rfl,
        href.setWaiting self (some (MiniDb.waitingWriterRegister s.table w).2)⟩
      rw [← hw]
      rfl
    · rw [if_neg hx, if_neg hx]
      exact ⟨_, _, _, rfl, rfl, h.setWaiting self (some w)⟩
  · exact (h.setWaiting self none).lockGrant (hinv.stopWaiting self) howns halloc

theorem LockMem.Refines.lockAcquire (h : m.Refines s) (hinv : LockInv s) (self : τ) (rowId : Nat)
    (mode : LockMode) (halloc : ∀ a, alloc = some a → a ≠ 0 ∧ a ∉ m.nodes) :
    LockMem.Matches (m.lockAcquire self rowId mode alloc)
      (MiniDb.lockAcquire s self rowId mode alloc) := by
  have hsub : ∀ e ∈ s.table.buckets (hashRowId rowId), e ∈ s.table.entries :=
    fun e he => mem_entries.mpr (.inl ⟨_, he⟩)
  have hfind := h.table.findFrom_eq hsub (h.table.buckets (hashRowId rowId))
    (p := fun e => e.rowId == rowId && e.owner == self)
    (q := fun e => e.rowId == rowId && e.owner == self) fun _ _ => rfl
  rw [LockMem.lockAcquire, MiniDb.lockAcquire, hfind, Option.bind_eq_bind, Option.bind_some]
  cases hf : (s.table.buckets (hashRowId rowId)).find? fun e => e.rowId == rowId && e.owner == self
    with
  | none => exact h.lockWaitLoop hinv nofun halloc
  | some e =>
    have he := hsub e (List.mem_of_find?_eq_some hf)
    obtain ⟨n, hn, hnode⟩ := h.table.exists_node he
    have hnull : e.addr ≠ 0 := ((h.table.buckets _).exists_node
      (List.mem_map.mpr ⟨e, List.mem_of_find?_eq_some hf, rfl⟩)).1
    have hmode : n.mode = e.mode := congrArg LockEntry.mode hnode
    have hown : e.rowId = rowId ∧ e.owner = self := by simpa using List.find?_some hf
    rw [Option.map_some, Option.getD_some, if_neg hnull, hn]
    show LockMem.Matches (if n.mode = .x ∨ mode = .s then _ else _) (if e.mode = .x ∨ _ then _ else _)
    rw [hmode]
    by_cases hdone : e.mode = .x ∨ mode = .s
    · rw [if_pos hdone]
      exact ⟨_, m, s, rfl, if_pos hdone, h⟩
    · rw [if_neg hdone]
      refine Eq.mpr (congrArg _ (if_neg hdone)) (h.lockWaitLoop hinv ?_ halloc)
      rintro _ ⟨⟩
      refine ⟨e, he, rfl, congrArg LockRequest.point hown.1.symm, hown.2, ?_⟩
      exact (hinv.placed.bucket _ e (List.mem_of_find?_eq_some hf)).2

theorem LockMem.Refines.lockAcquireRange (h : m.Refines s) (hinv : LockInv s) (self : τ)
    (low high : Nat) (mode : LockMode) (halloc : ∀ a, alloc = some a → a ≠ 0 ∧ a ∉ m.nodes) :
    LockMem.Matches (m.lockAcquireRange self low high mode alloc)
      (MiniDb.lockAcquireRange s self low high mode alloc) := by
  have hany := h.table.anyRange_eq
    (p := fun e => e.owner == self && decide (e.rowId ≤ low) && decide (e.rangeHigh ≥ high) &&
      (e.mode == .x || mode == .s))
    (q := fun e => e.owner == self && decide (e.rowId ≤ low) && decide (e.rangeHigh ≥ high) &&
      (e.mode == .x || mode == .s)) fun _ _ => rfl
  rw [LockMem.lockAcquireRange, MiniDb.lockAcquireRange, hany, Option.bind_eq_bind,
    Option.bind_some]
  split
  · exact ⟨_, m, s, rfl, rfl, h⟩
  · exact h.lockWaitLoop hinv nofun halloc

/-- **Every section does in memory what it does on lists.** -/
theorem LockMem.Refines.exec (h : m.Refines s) (hinv : LockInv s) {act : LockAction τ}
    (hen : LockMem.Enabled act m) :
    act.Enabled s ∧ LockMem.Matches (m.exec act) (act.exec s) := by
  obtain ⟨hwait, halloc⟩ := hen
  have hfree : ∀ addr, act.alloc = some addr → ∀ e ∈ s.table.entries, e.addr ≠ addr :=
    fun addr haddr => h.table.notMem (halloc addr haddr).2
  rw [h.waiting] at hwait
  refine ⟨⟨hwait, hfree⟩, ?_⟩
  cases act with
  | acquire self rowId mode alloc => exact h.lockAcquire hinv self rowId mode halloc
  | acquireRange self low high mode alloc => exact h.lockAcquireRange hinv self low high mode halloc
  | wake self alloc =>
    obtain ⟨w, hw⟩ := Option.isSome_iff_exists.mp hwait
    have hround := h.lockWaitLoop hinv (hinv.owns self w hw) halloc
    rw [LockMem.exec, LockMem.lockWake, LockAction.exec, MiniDb.lockWake, h.waiting, hw]
    exact hround
  | timeout self =>
    obtain ⟨w, hw⟩ := Option.isSome_iff_exists.mp hwait
    refine ⟨.failed, _, _, ?_, ?_, (h.unregister w).setWaiting self none⟩
    · simp only [LockMem.exec, LockMem.lockTimeout, h.waiting, hw, Option.bind_eq_bind,
        Option.bind_some]
      rfl
    · simp only [LockAction.exec, MiniDb.lockTimeout, hw, Option.bind_eq_bind, Option.bind_some]
      rfl
  | releaseAll self =>
    obtain ⟨m', hrun, href⟩ := h.lockReleaseAll hinv self
    exact ⟨.granted, m', _, congrArg (Option.map _) hrun, rfl, href⟩

end Sections

/-! ## Runs -/

section Runs

variable [DecidableEq τ] {m : LockMem τ}

omit [DecidableEq τ] in
theorem LockMem.refines_init : (LockMem.init τ).Refines (lockTableInit τ) := by
  refine ⟨⟨fun e => ?_, fun b => ?_, ?_, rfl⟩, fun t => ?_, fun _ _ => rfl, rfl⟩
  · rw [entries_init, LockMem.init, Finmap.lookup_empty]
    simp
  · exact isList_nil.mpr rfl
  · exact isList_nil.mpr rfl
  · exact isList_nil.mpr rfl

/-- A run in memory is a run on lists. -/
theorem LockMem.exists_refines (h : Relation.ReflTransGen LockMem.Step (LockMem.init τ) m) :
    ∃ s, Relation.ReflTransGen LockSys.Step (lockTableInit τ) s ∧ m.Refines s := by
  induction h with
  | refl => exact ⟨_, .refl, LockMem.refines_init⟩
  | tail hrun hstep ih =>
    obtain ⟨s, hreach, href⟩ := ih
    obtain ⟨act, hen, r, hexec⟩ := hstep
    obtain ⟨hen', r', m', s', hm, hs, href'⟩ := href.exec (lockInv_reachable hreach) hen
    obtain ⟨rfl, rfl⟩ := Prod.mk.inj (Option.some.inj (hexec.symm.trans hm))
    exact ⟨s', hreach.tail ⟨act, hen', r, hs⟩, href'⟩

end Runs

end MiniDb
