import MiniDb.Clients.Exclusion
import MiniDb.Db.Placement
import MiniDb.Lib.Counting

/-! # The rows under clients

Between two pieces of code a row may be half inserted or half deleted. The invariant of the system
says, for every thread, what index and heap have for the id it is at work on, and that they agree on
every other id; that no two threads are at work on one id; how far the row count is behind; and that
the rows are what the changes written down so far, one after the other, make of the rows at the
start. -/

set_option autoImplicit false

namespace MiniDb

open Lib

/-! ## Changes one after the other -/

/-- The bytes of the row of each id. -/
abbrev RowBytes := Nat → Option (List UInt8)

/-- A row read, one of its columns set, and the row written. -/
def assignRow (hdr : DbHeader) (stmt : Statement) (colIdx : Nat) (row : List UInt8) :
    Option (List UInt8) := do
  let values ← rowDeserialize hdr row
  let values ← applyUpdateToRow hdr values stmt colIdx
  rowSerialize hdr values

/-- A change of the rows. -/
def RowChange.apply (hdr : DbHeader) (rows : RowBytes) : RowChange → RowBytes
  | .inserted id row => Function.update rows id (some row)
  | .assigned id stmt colIdx =>
    Function.update rows id ((rows id).bind (assignRow hdr stmt colIdx))
  | .deleted id => Function.update rows id none

/-- The rows behind these changes. -/
def replay (hdr : DbHeader) (rows : RowBytes) (changes : List RowChange) : RowBytes :=
  changes.foldl (RowChange.apply hdr) rows

/-- The change in an entry of the log. -/
def ClientEvent.rowChange : ClientEvent → Option RowChange
  | .change c => some c
  | .ret _ => none

/-- The changes in a log, in their order. -/
def logChanges {τ : Type} (log : List (τ × ClientEvent)) : List RowChange :=
  log.filterMap (·.2.rowChange)

/-- The id that a change gives to a new row. -/
def RowChange.newId : RowChange → Option Nat
  | .inserted id _ => some id
  | _ => none

/-- The ids of the rows inserted so far. -/
def insertedIds {τ : Type} (log : List (τ × ClientEvent)) : List Nat :=
  (logChanges log).filterMap RowChange.newId

/-- The bytes in the heap. -/
def Placement.bytes (m : Placement) : RowBytes := fun id => (m.heap id).map Prod.snd

/-- Index and heap have the row of the id at this place. -/
def Placement.At (m : Placement) (id : Nat) (ref : RowRef) : Prop :=
  m.tree id = some ref ∧ ∃ row, m.heap id = some (ref, row)

/-! ## What a thread is at work on -/

/-- The id whose row the thread is at work on. -/
def Client.target : Client → Option Nat
  | .insertLocking _ id | .insertHeap _ id | .insertTree id _ | .insertCount id => some id
  | .deleteHeap id _ | .deleteTree id _ | .deleteCount id => some id
  | .updateFetch stmt _ _ | .updateWrite stmt _ _ _ => some stmt.predId
  | .scanFetch _ id _ _ _ | .scanDeleteHeap _ id _ _ _ | .scanDeleteTree _ id _ _ _
  | .scanDeleteCount _ id _ _ | .scanWrite _ _ id _ _ _ _ => some id
  | _ => none

/-- The id that the thread has been given and has not used. -/
def Client.newId : Client → Option Nat
  | .insertLocking _ id | .insertHeap _ id => some id
  | _ => none

/-- The row of the thread is not counted yet. -/
def Client.Uncounted : Client → Prop
  | .insertCount _ => True
  | _ => False

/-- The row of the thread is still counted. -/
def Client.Overcounted : Client → Prop
  | .deleteCount _ | .scanDeleteCount .. => True
  | _ => False

instance : DecidablePred Client.Uncounted := fun c => by
  cases c <;> simp only [Client.Uncounted] <;> infer_instance

instance : DecidablePred Client.Overcounted := fun c => by
  cases c <;> simp only [Client.Overcounted] <;> infer_instance

/-- The column of the scan may be updated. -/
def ScanJob.Valid (hdr : DbHeader) : ScanJob → Prop
  | .delete _ => True
  | .update stmt colIdx => validateUpdateTarget hdr stmt = .ok colIdx

/-- What the thread has read is the row of the id. -/
def Placement.Read (hdr : DbHeader) (m : Placement) (id : Nat) (ref : RowRef)
    (values : RowValues) : Prop :=
  m.tree id = some ref ∧ ∃ row, m.heap id = some (ref, row) ∧ rowDeserialize hdr row = some values

/-- **What index and heap have for the id that the thread is at work on.** -/
def Client.Knows (hdr : DbHeader) (m : Placement) : Client → Prop
  | .insertLocking _ id | .insertHeap _ id =>
    hdr.columns ≠ [] ∧ (1 ≤ id ∧ id < hdr.nextId) ∧ m.tree id = none ∧ m.heap id = none
  | .insertTree id ref => m.tree id = none ∧ ∃ row, m.heap id = some (ref, row)
  | .insertCount id => ∃ ref, m.At id ref
  | .deleteHeap id ref | .scanDeleteHeap _ id ref _ _ => m.At id ref
  | .deleteTree id ref | .scanDeleteTree _ id ref _ _ => m.tree id = some ref ∧ m.heap id = none
  | .deleteCount id | .scanDeleteCount _ id _ _ =>
    m.tree id = none ∧ m.heap id = none ∧ id < hdr.nextId
  | .updateFetch stmt colIdx ref => validateUpdateTarget hdr stmt = .ok colIdx ∧ m.At stmt.predId ref
  | .updateWrite stmt colIdx ref values =>
    validateUpdateTarget hdr stmt = .ok colIdx ∧ m.Read hdr stmt.predId ref values
  | .collecting job _ _ | .scanLocking job _ _ _ | .scanSearch job _ _ _ => job.Valid hdr
  | .scanFetch job id ref _ _ => job.Valid hdr ∧ m.At id ref
  | .scanWrite stmt colIdx id ref values _ _ =>
    validateUpdateTarget hdr stmt = .ok colIdx ∧ m.Read hdr id ref values
  | _ => True

/-- **The invariant of the system**, over a start with the schema of `hdr₀` and the rows `rows₀`. -/
structure Consistent {τ L : Type} (hdr₀ : DbHeader) (rows₀ : RowBytes) (s : DbSys τ L)
    (m : Placement) (entries : List (Nat × RowRef)) (chain : HeapChain) : Prop where
  store : RowStore s.pager m entries chain
  schema : SameSchema s.pager.header hdr₀
  started : hdr₀.nextId ≤ s.pager.header.nextId
  /-- the count lacks the rows that are not counted yet and has those that are still counted -/
  count : ∃ P D, Counts Client.Uncounted s.clients P ∧ Counts Client.Overcounted s.clients D ∧
    s.pager.header.rowCount + P.card = entries.length + D.card
  clients : ∀ t, (s.clients t).Knows s.pager.header m
  targets : ∀ t u id, (s.clients t).target = some id → (s.clients u).target = some id → t = u
  linked : ∀ id, (∀ t, (s.clients t).target ≠ some id) → m.Linked id
  replayed : m.bytes = replay hdr₀ rows₀ (logChanges s.log)
  /-- no id has been given to two rows -/
  inserted : (insertedIds s.log).Nodup ∧
    ∀ id ∈ insertedIds s.log, hdr₀.nextId ≤ id ∧ id < s.pager.header.nextId
  fresh : ∀ t id, (s.clients t).newId = some id → hdr₀.nextId ≤ id ∧ id ∉ insertedIds s.log

/-! ## Statements that are not DDL -/

/-- The thread is not on its way to a CREATE TABLE or DROP TABLE. -/
def Client.Plain : Client → Prop
  | .locking stmt _ | .entering stmt | .executing stmt => isDdl stmt.type = false
  | _ => True

section Client

variable {env : ExecEnv} {c c' : Client} {st st' : Pager} {hdr hdr' : DbHeader}
  {m m' : Placement} {stmt : Statement} {id : Nat} {ref : RowRef} {job : ScanJob}

theorem validateUpdateTarget_congr (h : SameSchema hdr hdr') :
    validateUpdateTarget hdr stmt = validateUpdateTarget hdr' stmt := by
  simp only [validateUpdateTarget, h.columns]

theorem rowDeserialize_congr (h : SameSchema hdr hdr') (row : List UInt8) :
    rowDeserialize hdr row = rowDeserialize hdr' row := by
  simp only [rowDeserialize, h.columns]

theorem rowSerialize_congr (h : SameSchema hdr hdr') (values : RowValues) :
    rowSerialize hdr values = rowSerialize hdr' values := by
  simp only [rowSerialize, h.columns, h.rowSize]

theorem applyUpdateToRow_congr (h : SameSchema hdr hdr') {values : RowValues} {colIdx : Nat} :
    applyUpdateToRow hdr values stmt colIdx = applyUpdateToRow hdr' values stmt colIdx := by
  simp only [applyUpdateToRow, h.columns]

theorem ScanJob.Valid.congr (h : SameSchema hdr hdr') (hv : job.Valid hdr') : job.Valid hdr := by
  cases job with
  | delete stmt => trivial
  | update stmt colIdx => exact (validateUpdateTarget_congr h).trans hv

/-- What a thread knows outlives the work of the others. -/
theorem Client.Knows.frame (h : c.Knows hdr m) (hs : SameSchema hdr' hdr)
    (hnext : hdr.nextId ≤ hdr'.nextId)
    (hsame : ∀ id, c.target = some id → m'.tree id = m.tree id ∧ m'.heap id = m.heap id) :
    c.Knows hdr' m' := by
  cases c with
  | insertLocking stmt id | insertHeap stmt id =>
    obtain ⟨htree, hheap⟩ := hsame id rfl
    obtain ⟨hcols, hid, htree', hheap'⟩ := h
    exact ⟨hs.columns ▸ hcols, ⟨hid.1, lt_of_lt_of_le hid.2 hnext⟩, htree.trans htree',
      hheap.trans hheap'⟩
  | insertTree id ref =>
    obtain ⟨htree, hheap⟩ := hsame id rfl
    obtain ⟨htree', row, hrow⟩ := h
    exact ⟨htree.trans htree', row, hheap.trans hrow⟩
  | insertCount id =>
    obtain ⟨htree, hheap⟩ := hsame id rfl
    obtain ⟨ref, htree', row, hrow⟩ := h
    exact ⟨ref, htree.trans htree', row, hheap.trans hrow⟩
  | deleteHeap id ref | scanDeleteHeap stmt id ref ids count =>
    obtain ⟨htree, hheap⟩ := hsame id rfl
    obtain ⟨htree', row, hrow⟩ := h
    exact ⟨htree.trans htree', row, hheap.trans hrow⟩
  | deleteTree id ref | scanDeleteTree stmt id ref ids count =>
    obtain ⟨htree, hheap⟩ := hsame id rfl
    exact ⟨htree.trans h.1, hheap.trans h.2⟩
  | deleteCount id | scanDeleteCount stmt id ids count =>
    obtain ⟨htree, hheap⟩ := hsame id rfl
    exact ⟨htree.trans h.1, hheap.trans h.2.1, lt_of_lt_of_le h.2.2 hnext⟩
  | updateFetch stmt colIdx ref =>
    obtain ⟨htree, hheap⟩ := hsame stmt.predId rfl
    obtain ⟨hcol, htree', row, hrow⟩ := h
    exact ⟨(validateUpdateTarget_congr hs).trans hcol, htree.trans htree', row, hheap.trans hrow⟩
  | updateWrite stmt colIdx ref values =>
    obtain ⟨htree, hheap⟩ := hsame stmt.predId rfl
    obtain ⟨hcol, htree', row, hrow, hread⟩ := h
    exact ⟨(validateUpdateTarget_congr hs).trans hcol, htree.trans htree', row, hheap.trans hrow,
      (rowDeserialize_congr hs row).trans hread⟩
  | collecting job pid ids => exact ScanJob.Valid.congr hs h
  | scanLocking job ids id rest => exact ScanJob.Valid.congr hs h
  | scanSearch job id ids count => exact ScanJob.Valid.congr hs h
  | scanFetch job id ref ids count =>
    obtain ⟨htree, hheap⟩ := hsame id rfl
    obtain ⟨hvalid, htree', row, hrow⟩ := h
    exact ⟨hvalid.congr hs, htree.trans htree', row, hheap.trans hrow⟩
  | scanWrite stmt colIdx id ref values ids count =>
    obtain ⟨htree, hheap⟩ := hsame id rfl
    obtain ⟨hcol, htree', row, hrow, hread⟩ := h
    exact ⟨(validateUpdateTarget_congr hs).trans hcol, htree.trans htree', row, hheap.trans hrow,
      (rowDeserialize_congr hs row).trans hread⟩
  | _ => trivial

/-- A thread at work on a row of the index has locked it. -/
theorem Client.Knows.owns (h : c.Knows hdr m) (ht : c.target = some id) (htree : m.tree id ≠ none) :
    c.Owns id := by
  cases c with
  | insertLocking stmt i | insertHeap stmt i =>
    obtain rfl := Option.some.inj ht
    exact absurd h.2.2.1 htree
  | insertTree i ref =>
    obtain rfl := Option.some.inj ht
    exact absurd h.1 htree
  | deleteCount i | scanDeleteCount stmt i ids count =>
    obtain rfl := Option.some.inj ht
    exact absurd h.1 htree
  | insertCount i | deleteHeap i ref | deleteTree i ref => exact (Option.some.inj ht).symm
  | updateFetch stmt colIdx ref | updateWrite stmt colIdx ref values => exact (Option.some.inj ht).symm
  | scanFetch job i ref ids count | scanDeleteHeap stmt i ref ids count
  | scanDeleteTree stmt i ref ids count | scanWrite stmt colIdx i ref values ids count =>
    obtain rfl := Option.some.inj ht
    exact List.mem_cons_self
  | _ => cases ht

/-- A new id is below the next one, and so is the id of every row. -/
theorem Client.Knows.lt_nextId {entries : List (Nat × RowRef)} {chain : HeapChain}
    (h : c.Knows st.header m) (hm : RowStore st m entries chain) (ht : c.target = some id) :
    id < st.header.nextId := by
  have hhas : m.Has id → id < st.header.nextId := fun hid => (hm.ids id hid).2
  cases c with
  | insertLocking stmt i | insertHeap stmt i =>
    obtain rfl := Option.some.inj ht
    exact h.2.1.2
  | insertTree i ref =>
    obtain rfl := Option.some.inj ht
    obtain ⟨-, row, hrow⟩ := h
    exact hhas (.inr (by simp [hrow]))
  | insertCount i =>
    obtain rfl := Option.some.inj ht
    obtain ⟨ref, htree, -⟩ := h
    exact hhas (.inl (by simp [htree]))
  | deleteHeap i ref | deleteTree i ref | scanDeleteHeap stmt i ref ids count
  | scanDeleteTree stmt i ref ids count =>
    obtain rfl := Option.some.inj ht
    exact hhas (.inl (by simp [h.1]))
  | deleteCount i | scanDeleteCount stmt i ids count =>
    obtain rfl := Option.some.inj ht
    exact h.2.2
  | updateFetch stmt colIdx ref | updateWrite stmt colIdx ref values =>
    obtain rfl := Option.some.inj ht
    exact hhas (.inl (by simp [h.2.1]))
  | scanFetch job i ref ids count | scanWrite stmt colIdx i ref values ids count =>
    obtain rfl := Option.some.inj ht
    exact hhas (.inl (by simp [h.2.1]))
  | _ => cases ht

theorem ActStep.plain {c c' : Client} {st st' : Pager} (h : ActStep env st c c' st') : c'.Plain := by
  have hnext : ∀ job count ids, (Client.nextRow job count ids).Plain := by
    intro job count ids
    cases ids <;> trivial
  have hend : ∀ job ids, (endCollecting job ids).Plain := by
    intro job ids
    unfold endCollecting
    split
    · trivial
    · unfold Client.lockNext
      split
      · trivial
      · split <;> trivial
  cases h with
  | collected => exact hend _ _
  | @collecting job pid ids ids' more next st' page run =>
    cases more
    · exact hend _ _
    · trivial
  | scanMiss run => exact hnext _ _ _
  | scanUnreadable run => exact hnext _ _ _
  | @scanFetch job id ref ids count row values st' run values_eq =>
    split
    · cases job <;> trivial
    · exact hnext _ _ _
  | scanDeleteHeap run =>
    split
    · trivial
    · exact hnext _ _ _
  | scanDeleteTree run =>
    split
    · trivial
    · exact hnext _ _ _
  | scanDeleteCount run => exact hnext _ _ _
  | scanWrite run => exact hnext _ _ _
  | _ => trivial

end Client

/-- A call that has begun does not turn into DDL. -/
theorem DbSys.Step.plain {τ : Type} [DecidableEq τ] {t : τ} {I : LockImpl τ}
    {s s' : DbSys τ I.State} (h : DbSys.Step I t s s')
    (hplain : (s.clients t).Plain)
    (hstart : (s.clients t).Quiet → (s'.clients t).Plain) : (s'.clients t).Plain := by
  cases h with
  | start sql c quiet starts => exact hstart quiet
  | lock env instr a self asks enabled exec done =>
    rename_i req mode next r locks
    have hself : (({ s with locks } : DbSys τ I.State).goto t
        (next (decide (r = .granted)))).clients t = next (decide (r = .granted)) :=
      Function.update_self ..
    rw [hself]
    generalize decide (r = .granted) = ok
    cases hc : s.clients t with
    | locking stmt need =>
      rw [hc] at instr hplain
      cases instr
      cases ok
      · trivial
      · exact hplain
    | insertLocking stmt id =>
      rw [hc] at instr
      cases instr
      cases ok <;> trivial
    | scanLocking job ids id rest =>
      rw [hc] at instr
      cases instr
      cases ok
      · trivial
      · show (Client.lockNext job ids rest).Plain
        unfold Client.lockNext
        split
        · trivial
        · split <;> trivial
    | _ =>
      rw [hc] at instr
      cases instr
  | wait env instr a self asks enabled exec => exact hplain
  | enter env instr free =>
    rename_i ddl next
    have hself : (s.goto t next).clients t = next := Function.update_self ..
    rw [hself]
    cases hc : s.clients t with
    | entering stmt =>
      rw [hc] at instr hplain
      cases instr
      exact hplain
    | _ =>
      rw [hc] at instr
      cases instr
  | act env instr run =>
    rename_i m c pager
    have hself : ({ s.goto t c with pager } : DbSys τ I.State).clients t = c :=
      Function.update_self ..
    rw [hself]
    exact (actStep_of_run instr run).plain
  | release env instr enabled exec =>
    rename_i next r locks
    have hself : (({ s with locks } : DbSys τ I.State).goto t next).clients t = next :=
      Function.update_self ..
    rw [hself]
    cases hc : s.clients t with
    | releasing res =>
      rw [hc] at instr
      cases instr
      trivial
    | _ =>
      rw [hc] at instr
      cases instr

end MiniDb
