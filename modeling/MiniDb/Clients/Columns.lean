import MiniDb.Clients.Serial
import MiniDb.Db.Effects

/-! # Concurrent assignments, column by column

An UPDATE writes a whole row, although it assigns one column. Because a row is read and written back
under its lock, in pieces that do not overlap, assignments to different columns do not undo each
other: each column has the value that was assigned to it last. -/

set_option autoImplicit false

namespace MiniDb

open Lib

/-- The id of the row that is deleted. -/
def RowChange.deletedId : RowChange → Option Nat
  | .deleted id => some id
  | _ => none

/-- The text assigned to this column of the row of this id. -/
def RowChange.assignedText (id colIdx : Nat) : RowChange → Option CString
  | .assigned id' stmt colIdx' => if id' = id ∧ colIdx' = colIdx then some stmt.updateValue else none
  | _ => none

/-- The text assigned last. -/
def lastAssigned (id colIdx : Nat) (changes : List RowChange) : Option CString :=
  (changes.filterMap (RowChange.assignedText id colIdx)).getLast?

/-- The value of a column behind these changes: what the text assigned last is stored as, or the
value at the start. -/
def assignedValue (columns : List ColumnMeta) (values : RowValues) (id colIdx : Nat)
    (changes : List RowChange) : Option RowValue :=
  match lastAssigned id colIdx changes with
  | some text => columns[colIdx]?.map fun col => storedValue col (col.type.ofText text)
  | none => values[colIdx]?

section Columns

variable {hdr : DbHeader} {rows : RowBytes} {changes : List RowChange} {values : RowValues}
  {id : Nat}

theorem length_storedRow {columns : List ColumnMeta} (h : WellTyped columns values) :
    (storedRow columns values).length = columns.length :=
  (storedRow_wellTyped h).length_eq.symm

theorem lastAssigned_append (c : RowChange) (i : Nat) : lastAssigned id i (changes ++ [c]) =
    (c.assignedText id i).or (lastAssigned id i changes) := by
  rw [lastAssigned, List.filterMap_append]
  cases hc : c.assignedText id i with
  | none => simp [hc, lastAssigned]
  | some text => simp [hc]

/-- **Each column has the value assigned to it last**, in a row that is not deleted. -/
theorem replay_columns (hs : SoundSchema hdr) (hwt : WellTyped hdr.columns values)
    (hrow : rows id = some (encodeRow hdr.columns values))
    (hlegal : LegalChanges hdr rows changes) (hkept : ∀ c ∈ changes, c.deletedId ≠ some id) :
    ∃ values', WellTyped hdr.columns values' ∧
      replay hdr rows changes id = some (encodeRow hdr.columns values') ∧
      ∀ i, (storedRow hdr.columns values')[i]? =
        assignedValue hdr.columns (storedRow hdr.columns values) id i changes := by
  induction changes using List.reverseRecOn with
  | nil => exact ⟨values, hwt, hrow, fun i => rfl⟩
  | append_singleton changes c ih =>
    obtain ⟨hlegal, hc, -⟩ := legalChanges_append.mp hlegal
    obtain ⟨values', hwt', hrow', hcols⟩ :=
      ih hlegal fun c hmem => hkept c (List.mem_append_left _ hmem)
    have hreplay : replay hdr rows (changes ++ [c]) = c.apply hdr (replay hdr rows changes) := by
      rw [replay, List.foldl_append]
      rfl
    -- a change of another row
    have hother : (∀ i, c.assignedText id i = none) →
        c.apply hdr (replay hdr rows changes) id = replay hdr rows changes id →
        ∃ values', WellTyped hdr.columns values' ∧
          replay hdr rows (changes ++ [c]) id = some (encodeRow hdr.columns values') ∧
          ∀ i, (storedRow hdr.columns values')[i]? =
            assignedValue hdr.columns (storedRow hdr.columns values) id i (changes ++ [c]) := by
      intro htext hsame
      refine ⟨values', hwt', by rw [hreplay, hsame, hrow'], fun i => ?_⟩
      rw [assignedValue, lastAssigned_append, htext i, Option.none_or]
      exact hcols i
    cases c with
    | inserted id' row =>
      apply hother (fun _ => rfl)
      have hne : id ≠ id' := by
        rintro rfl
        rw [RowChange.Legal, hrow'] at hc
        cases hc
      exact Function.update_of_ne hne _ _
    | deleted id' =>
      apply hother (fun _ => rfl)
      have hne : id ≠ id' := by
        rintro rfl
        exact hkept _ (List.mem_append_right _ List.mem_cons_self) rfl
      exact Function.update_of_ne hne _ _
    | assigned id' stmt colIdx =>
      by_cases hid : id' = id
      · subst hid
        obtain ⟨row, row', hold, hassign⟩ := hc
        obtain rfl := Option.some.inj (hrow'.symm.trans hold)
        have happlied : (RowChange.assigned id' stmt colIdx).apply hdr (replay hdr rows changes) id' =
            some row' := by
          rw [RowChange.apply, Function.update_self, hold, Option.bind_some, hassign]
        rw [assignRow, hs.rowDeserialize hwt'] at hassign
        obtain ⟨_, hread, hassign⟩ := Option.bind_eq_some_iff.mp hassign
        obtain rfl := Option.some.inj hread
        obtain ⟨new, happly, hserial⟩ := Option.bind_eq_some_iff.mp hassign
        obtain ⟨col, hcol, hnew⟩ := Option.bind_eq_some_iff.mp happly
        obtain rfl := Option.some.inj hnew
        have hwt'' := wellTyped_set (storedRow_wellTyped hwt') hcol
          (hasType_ofText stmt.updateValue _)
        rw [hs.rowSerialize hwt''] at hserial
        obtain rfl := Option.some.inj hserial
        refine ⟨_, hwt'', by rw [hreplay, happlied], fun i => ?_⟩
        rw [storedRow_set hcol, storedRow_storedRow, assignedValue, lastAssigned_append]
        by_cases hi : colIdx = i
        · subst hi
          have hlt : colIdx < (storedRow hdr.columns values').length := by
            rw [length_storedRow hwt']
            exact (List.getElem?_eq_some_iff.mp hcol).1
          simp [RowChange.assignedText, hcol, List.getElem?_set_self hlt]
        · rw [List.getElem?_set_ne hi, hcols i, assignedValue]
          simp [RowChange.assignedText, hi]
      · apply hother
        · intro i
          simp [RowChange.assignedText, hid]
        · exact Function.update_of_ne (Ne.symm hid) _ _

end Columns

/-- **Concurrent updates are all kept.** Over any database whose VARCHAR columns are usable, in
every state that threads reach by INSERT, DELETE, UPDATE and SELECT in any order of pieces that do
not overlap, and in which no call is running: a row that was there at the start and that no call has
deleted is there, and each of its columns has the value assigned to it last, or the one from the
start if there is none. -/
theorem updates_kept {τ : Type} [DecidableEq τ] {st : Pager} {s : DbSys τ (memLocks τ).State}
    {pageSize : Nat} (hps : IsPageSize pageSize) (hdb : DbReach pageSize st)
    (hrun : DbSys.DmlReach (memLocks τ) (DbSys.init (memLocks τ) st) s)
    (hquiet : ∀ t, (s.clients t).Quiet) (hv : VarcharUsable st.header.columns) {id : Nat}
    {row : List UInt8} (hrow : st.ReadsRow id row)
    (hkept : ∀ c ∈ logChanges s.log, c.deletedId ≠ some id) :
    ∃ values row' values', rowDeserialize st.header row = some values ∧
      s.pager.ReadsRow id row' ∧ rowDeserialize s.pager.header row' = some values' ∧
      ∀ i, values'[i]? =
        assignedValue st.header.columns values id i (logChanges s.log) := by
  obtain ⟨m₀, _, _, m, _, _, hstore, hlinked₀, hcons, hlegal, hlinked, -⟩ :=
    DbSys.DmlReach.quiet hps hdb hrun hquiet
  have hs := hstore.schema hv
  have hbytes := (hstore.readsRow_iff (hlinked₀ id) row).mp hrow
  obtain ⟨⟨ref, _⟩, hheap, rfl⟩ := Option.map_eq_some_iff.mp hbytes
  obtain ⟨vs, hwt, rfl⟩ := hstore.contents hs id ref _ hheap
  obtain ⟨vs', hwt', hreplay, hcols⟩ := replay_columns hs hwt hbytes hlegal hkept
  rw [← hcons.replayed] at hreplay
  refine ⟨_, _, _, hs.rowDeserialize hwt, (hcons.store.readsRow_iff (hlinked id) _).mpr hreplay, ?_,
    hcols⟩
  rw [rowDeserialize_congr hcons.schema]
  exact hs.rowDeserialize hwt'

/-- The turns of two UPDATEs of one row; the second one waits for the lock of the first one. -/
def twoUpdates : List (Turn Bool) :=
  [.call false (cstr "UPDATE t SET a = 5 WHERE id = 1"),
    .call true (cstr "UPDATE t SET a = 6 WHERE id = 1")] ++
  [.tick false 1, .tick true 2] ++ List.replicate 6 (.tick false 2) ++
  List.replicate 7 (.tick true 3)

/-- The system behind them. -/
def updatedByTwo : DbSys Bool (LockMem Bool) := DbSys.behind grantingEnv oneRowTable twoUpdates

theorem plain_twoUpdates : ∀ turn ∈ twoUpdates, turn.Plain := by
  have hfive : parse (cstr "UPDATE t SET a = 5 WHERE id = 1") =
      .ok { type := .update, tableName := cstr "t", updateField := cstr "a",
            updateValue := cstr "5", predicateKind := .idEq, predField := cstr "id",
            predValue := cstr "1", predId := 1 } := by
    decide +kernel
  have hsix : parse (cstr "UPDATE t SET a = 6 WHERE id = 1") =
      .ok { type := .update, tableName := cstr "t", updateField := cstr "a",
            updateValue := cstr "6", predicateKind := .idEq, predField := cstr "id",
            predValue := cstr "1", predId := 1 } := by
    decide +kernel
  simp only [twoUpdates, List.replicate, List.cons_append, List.nil_append, List.forall_mem_cons,
    List.not_mem_nil, false_implies, implies_true, and_true]
  refine ⟨Turn.plain_call hfive rfl, Turn.plain_call hsix rfl, ?_⟩
  simp only [Turn.Plain, and_self]

theorem readsRow_oneRowTable : oneRowTable.ReadsRow 1 [1, 0, 0, 0, 0, 0, 0, 0, 7, 0, 0, 0] := by
  have hsearch : ((bptreeSearch 1).run oneRowTable).map Prod.fst = some (some ⟨1, 0⟩) := by
    decide +kernel
  obtain ⟨⟨_, st₁⟩, hsearch, rfl⟩ := Option.map_eq_some_iff.mp hsearch
  have hfetch : (((bptreeSearch 1).run oneRowTable).bind fun x =>
      (heapFetch ⟨1, 0⟩ x.2.header.rowSize).run x.2).map Prod.fst =
        some (some [1, 0, 0, 0, 0, 0, 0, 0, 7, 0, 0, 0]) := by
    decide +kernel
  rw [hsearch] at hfetch
  obtain ⟨⟨_, st₂⟩, hfetch, rfl⟩ := Option.map_eq_some_iff.mp hfetch
  exact ⟨_, st₁, st₂, hsearch, hfetch⟩

theorem updates_kept_updatedByTwo :
    ∃ values row' values',
      rowDeserialize oneRowTable.header [1, 0, 0, 0, 0, 0, 0, 0, 7, 0, 0, 0] = some values ∧
        updatedByTwo.pager.ReadsRow 1 row' ∧
        rowDeserialize updatedByTwo.pager.header row' = some values' ∧
        ∀ i, values'[i]? = assignedValue oneRowTable.header.columns values 1 i
          (logChanges updatedByTwo.log) :=
  updates_kept ⟨12, le_refl _, rfl⟩ dbReach_oneRowTable
    (DbSys.dmlReach_behind plain_twoUpdates (by decide +kernel)) (by decide +kernel)
    (by unfold VarcharUsable; decide +kernel) readsRow_oneRowTable (by decide +kernel)

end MiniDb
