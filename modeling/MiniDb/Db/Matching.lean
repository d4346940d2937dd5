import MiniDb.Db.InStep

/-! # The rows that a predicate selects

A scan with a predicate hands to its callback the values of the rows that match, in the order of the
heap. The rows of a database can be read where every VARCHAR column has at most 255 bytes. -/

set_option autoImplicit false

namespace MiniDb

open Lib

/-- The values of a row that can be read. -/
def rowValues (hdr : DbHeader) (row : List UInt8) : RowValues := (rowDeserialize hdr row).getD []

/-- `match_predicate` on the bytes of a row. -/
def rowMatches (hdr : DbHeader) (stmt : Statement) (row : List UInt8) : Bool :=
  matchPredicate hdr (rowValues hdr row) stmt

/-- The rows that match, with their places. -/
def matchingRows (hdr : DbHeader) (stmt : Statement) (rows : List (RowRef × List UInt8)) :
    List (RowRef × List UInt8) :=
  rows.filter fun e => rowMatches hdr stmt e.2

/-- All rows can be read. -/
def Readable (hdr : DbHeader) (rows : List (RowRef × List UInt8)) : Prop :=
  ∀ e ∈ rows, ∃ values, rowDeserialize hdr e.2 = some values

/-- A callback behind the predicate, on one row after the other. -/
def visitMatches {γ : Type} (push : RowValues → γ → Bool × Option γ) : List RowValues → γ → Option γ
  | [], ctx => some ctx
  | v :: vs, ctx =>
    match push v ctx with
    | (true, some ctx) => visitMatches push vs ctx
    | (false, some ctx) => some ctx
    | (_, none) => none

section Scan

variable {γ : Type} {st st' : Pager} {entries : List (Nat × RowRef)} {chain : HeapChain}
  {hdr : DbHeader} {stmt : Statement} {rows : List (RowRef × List UInt8)} {row : List UInt8}
  {values : RowValues} {push : RowValues → γ → Bool × Option γ}

theorem rowValues_eq (h : rowDeserialize hdr row = some values) : rowValues hdr row = values := by
  rw [rowValues, h]
  rfl

/-- Once a row could not be read, the context stays undefined. -/
theorem visit_onMatch_none (rows : List (RowRef × List UInt8)) :
    (visit (onMatch hdr stmt push).onRow rows none).2 = none := by
  cases rows <;> rfl

theorem visit_onMatch (hread : Readable hdr rows) (ctx : γ) :
    (visit (onMatch hdr stmt push).onRow rows (some ctx)).2 =
      visitMatches push ((matchingRows hdr stmt rows).map fun e => rowValues hdr e.2) ctx := by
  induction rows generalizing ctx with
  | nil => rfl
  | cons e rows ih =>
    obtain ⟨values, hvalues⟩ := hread e List.mem_cons_self
    have hrest : Readable hdr rows := fun e he => hread e (List.mem_cons_of_mem _ he)
    have hcb : (onMatch hdr stmt push).onRow e (some ctx) =
        if matchPredicate hdr values stmt then push values ctx else (true, some ctx) := by
      simp only [ScanCallback.onRow, onMatch, hvalues]
    have hmatch : rowMatches hdr stmt e.2 = matchPredicate hdr values stmt := by
      rw [rowMatches, rowValues_eq hvalues]
    rw [visit, hcb]
    by_cases hm : matchPredicate hdr values stmt = true
    · have hcons : matchingRows hdr stmt (e :: rows) = e :: matchingRows hdr stmt rows :=
        List.filter_cons_of_pos (hmatch.trans hm)
      rw [if_pos hm, hcons, List.map_cons, visitMatches, rowValues_eq hvalues]
      rcases push values ctx with ⟨_ | _, _ | ctx'⟩
      · rfl
      · rfl
      · exact visit_onMatch_none rows
      · exact ih hrest ctx'
    · have hcons : matchingRows hdr stmt (e :: rows) = matchingRows hdr stmt rows :=
        List.filter_cons_of_neg (by rwa [hmatch])
      rw [if_neg hm, hcons]
      exact ih hrest ctx

/-- **A scan with a predicate** visits the rows that match. -/
theorem run_scanMatching (h : Stored st st.header.rowSize entries chain)
    (hread : Readable st.header (heapRows chain st.header.rowSize)) (env : ExecEnv) (stmt : Statement)
    (push : RowValues → γ → Bool × Option γ) (ctx : γ) :
    ∃ st', st.SameData st' ∧ (scanMatching env stmt push ctx).run st =
      (visitMatches push ((matchingRows st.header stmt (heapRows chain st.header.rowSize)).map
        fun e => rowValues st.header e.2) ctx).map fun ctx => (ctx, st') := by
  obtain ⟨st', hrun, hsame⟩ := h.run_scan env.pageCopy (onMatch st.header stmt push) (some ctx)
  refine ⟨st', hsame, ?_⟩
  rw [scanMatching, run_bind_get, run_bind_of hrun, visit_onMatch hread]
  cases visitMatches push _ ctx <;> rfl

/-- A callback that goes on to the end. -/
theorem visitMatches_all {f : γ → RowValues → γ} (vs : List RowValues) (ctx : γ) :
    visitMatches (fun v ctx => (true, some (f ctx v))) vs ctx = some (vs.foldl f ctx) := by
  induction vs generalizing ctx with
  | nil => rfl
  | cons v vs ih => exact ih (f ctx v)

end Scan

/-! ## Which rows can be read -/

section Readable

variable {st : Pager} {entries : List (Nat × RowRef)} {chain : HeapChain} {hdr : DbHeader}
  {row : List UInt8} {values : RowValues} {id : Nat} {ref : RowRef}

theorem mapM_getElem? {α β : Type} {f : α → Option β} {l : List α} {bs : List β}
    (h : l.mapM f = some bs) {i : Nat} {a : α} (ha : l[i]? = some a) :
    ∃ b, bs[i]? = some b ∧ f a = some b := by
  induction l generalizing bs i with
  | nil => cases ha
  | cons a' l ih =>
    rw [List.mapM_cons] at h
    obtain ⟨b, hb, hrest⟩ := Option.bind_eq_some_iff.mp h
    obtain ⟨bs', hbs, hcons⟩ := Option.bind_eq_some_iff.mp hrest
    obtain rfl : b :: bs' = bs := Option.some.inj hcons
    cases i with
    | zero =>
      obtain rfl : a' = a := Option.some.inj ha
      exact ⟨b, rfl, hb⟩
    | succ i => exact ih hbs ha

/-- A row is not read where a text would overrun a `str_val`. -/
theorem varchar_le_of_deserialize (h : rowDeserialize hdr row = some values) :
    ∀ c ∈ hdr.columns, c.type = .varchar → c.size ≤ 255 := by
  intro c hc ht
  obtain ⟨i, hi⟩ := List.mem_iff_getElem?.mp hc
  obtain ⟨v, -, hv⟩ := mapM_getElem? h hi
  rw [deserializeColumn, ht] at hv
  by_contra hbig
  have hno : ¬ c.size < strValSize := by
    rw [strValSize]
    omega
  simp [guard, hno] at hv

/-- The schema of a table with a row that can be read is sound. -/
theorem DbInv.sound_of_row (h : DbInv st entries chain) (hmem : (id, ref) ∈ entries)
    (hle : ∀ c ∈ st.header.columns, c.type = .varchar → c.size ≤ 255) : SoundSchema st.header :=
  h.schema fun c hc ht => ⟨h.sizes (List.ne_nil_of_mem hmem) c hc ht, hle c hc ht⟩

/-- The entry that a row is behind. -/
theorem DbInv.exists_entry (h : DbInv st entries chain)
    (hrow : (ref, row) ∈ heapRows chain st.header.rowSize) : ∃ id, (id, ref) ∈ entries := by
  have href : ref ∈ entries.map Prod.snd := h.refs.mem_iff.mpr (List.mem_map_of_mem hrow)
  obtain ⟨⟨id, ref'⟩, hmem, rfl⟩ := List.mem_map.mp href
  exact ⟨id, hmem⟩

/-- Where no VARCHAR column is too long, the rows can be read. -/
theorem DbInv.readable (h : DbInv st entries chain)
    (hle : ∀ c ∈ st.header.columns, c.type = .varchar → c.size ≤ 255) :
    Readable st.header (heapRows chain st.header.rowSize) := by
  rintro ⟨ref, row⟩ hrow
  obtain ⟨id, hmem⟩ := h.exists_entry hrow
  have hs := h.sound_of_row hmem hle
  obtain ⟨values, hvalues⟩ := (h.contents hs id ref row hmem hrow).deserialize hs
  exact ⟨_, hvalues⟩

/-- The id in the row behind an entry. -/
theorem DbInv.rowId_eq (h : DbInv st entries chain)
    (hle : ∀ c ∈ st.header.columns, c.type = .varchar → c.size ≤ 255) (hmem : (id, ref) ∈ entries)
    (hrow : (ref, row) ∈ heapRows chain st.header.rowSize) :
    rowId (rowValues st.header row) = toI64 id := by
  have hs := h.sound_of_row hmem hle
  obtain ⟨values, hvalues⟩ := (h.contents hs id ref row hmem hrow).deserialize hs
  rw [rowValues_eq hvalues, rowId]

end Readable

end MiniDb
