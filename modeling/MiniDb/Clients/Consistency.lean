import MiniDb.Clients.Rows

/-! # Clients keep the rows consistent

Every step of a thread keeps the invariant of the system. A thread changes index and heap at the id
it is at work on and at no other; it begins with an id that no other thread is at work on, for it is
new or locked; and it leaves an id on which index and heap agree. -/

set_option autoImplicit false

namespace MiniDb

open Lib

section Log

variable {τ L : Type} [DecidableEq τ] {s : DbSys τ L} {t : τ} {c : Client} {hdr : DbHeader}

omit [DecidableEq τ] in
theorem logChanges_append (l l' : List (τ × ClientEvent)) :
    logChanges (l ++ l') = logChanges l ++ logChanges l' :=
  List.filterMap_append

/-- What a step writes down of a change. -/
theorem logChanges_goto (s : DbSys τ L) (t : τ) (c : Client) : logChanges (s.goto t c).log =
    logChanges s.log ++ ((s.clients t).change s.pager.header).toList := by
  show logChanges (s.log ++ _ ++ _) = _
  rw [logChanges_append, logChanges_append, List.append_assoc]
  congr 1
  have hret : logChanges ((c.report.map (t, ClientEvent.ret ·)).toList) = [] := by
    cases c.report <;> rfl
  rw [hret, List.append_nil]
  cases (s.clients t).change s.pager.header <;> rfl

/-- The id of a row that is inserted is the thread's new id. -/
theorem Client.newId_of_change {id : Nat} {e : RowChange} (h : c.change hdr = some e)
    (hid : e.newId = some id) : c.newId = some id := by
  cases c with
  | insertHeap stmt i =>
    obtain ⟨row, -, rfl⟩ := Option.map_eq_some_iff.mp h
    exact hid
  | deleteHeap i ref | scanDeleteHeap stmt i ref ids count | updateWrite stmt colIdx ref values
  | scanWrite stmt colIdx i ref values ids count =>
    obtain rfl := Option.some.inj h
    cases hid
  | _ => cases h

/-- A thread that is at work on no row owes the count nothing. -/
theorem Client.counted_of_target (h : c.target = none) : ¬ c.Uncounted ∧ ¬ c.Overcounted := by
  cases c with
  | insertCount id | deleteCount id | scanDeleteCount stmt id ids count => cases h
  | _ => exact ⟨id, id⟩

theorem Client.target_of_newId {id : Nat} (h : c.newId = some id) : c.target = some id := by
  cases c with
  | insertLocking stmt i | insertHeap stmt i => exact h
  | _ => cases h

end Log

section Move

variable {τ L : Type} [DecidableEq τ] {hdr₀ : DbHeader} {rows₀ : RowBytes} {s s' : DbSys τ L}
  {m m' : Placement} {entries entries' : List (Nat × RowRef)} {chain chain' : HeapChain} {t : τ}
  {c c' : Client} {id : Nat}

/-- **A thread goes on.** It may have changed index and heap at the id it was at work on. -/
theorem Consistent.move (h : Consistent hdr₀ rows₀ s m entries chain) (hc : s.clients t = c)
    (hclients : s'.clients = Function.update s.clients t c')
    (hlog : logChanges s'.log = logChanges s.log ++ (c.change s.pager.header).toList)
    (hstore : RowStore s'.pager m' entries' chain')
    (hschema : SameSchema s'.pager.header s.pager.header)
    (hnext : s.pager.header.nextId ≤ s'.pager.header.nextId)
    (hcount : s'.pager.header.rowCount + entries.length + (if c'.Uncounted then 1 else 0) +
        (if c.Overcounted then 1 else 0) =
      s.pager.header.rowCount + entries'.length + (if c.Uncounted then 1 else 0) +
        (if c'.Overcounted then 1 else 0))
    (hframe : ∀ id, c.target ≠ some id → m'.tree id = m.tree id ∧ m'.heap id = m.heap id)
    (hknows : c'.Knows s'.pager.header m')
    (hlinked : ∀ id, c.target = some id → c'.target = some id ∨ m'.Linked id)
    (htarget : ∀ id, c'.target = some id → c.target = some id ∨
      ∀ u, u ≠ t → (s.clients u).target ≠ some id)
    (hnew : ∀ id, c'.newId = some id → c.change s.pager.header = none ∧
      (c.newId = some id ∨ id = s.pager.header.nextId))
    (hbytes : m'.bytes = replay hdr₀ m.bytes (c.change s.pager.header).toList) :
    Consistent hdr₀ rows₀ s' m' entries' chain' := by
  have hself : s'.clients t = c' := by rw [hclients, Function.update_self]
  have hother : ∀ u, u ≠ t → s'.clients u = s.clients u := fun u hu => by
    rw [hclients, Function.update_of_ne hu]
  -- the others are at work on other ids
  have hfree : ∀ u id, u ≠ t → (s.clients u).target = some id → c.target ≠ some id :=
    fun u id hu hid hself => hu (h.targets u t id hid (hc ▸ hself))
  have hinserted : insertedIds s'.log = insertedIds s.log ++
      (c.change s.pager.header).toList.filterMap RowChange.newId := by
    rw [insertedIds, hlog, List.filterMap_append, insertedIds]
  have hmem : ∀ id, id ∈ (c.change s.pager.header).toList.filterMap RowChange.newId →
      c.newId = some id := by
    intro id hid
    obtain ⟨e, he, heid⟩ := List.mem_filterMap.mp hid
    exact Client.newId_of_change (Option.mem_toList.mp he) heid
  constructor
  case store => exact hstore
  case schema => exact ⟨hschema.columns.trans h.schema.columns, hschema.rowSize.trans h.schema.rowSize⟩
  case started => exact le_trans h.started hnext
  case count =>
    obtain ⟨P, D, hP, hD, hsum⟩ := h.count
    obtain ⟨P', hP', hPcard⟩ := hP.update t c'
    obtain ⟨D', hD', hDcard⟩ := hD.update t c'
    rw [hc] at hPcard hDcard
    rw [← hclients] at hP' hD'
    exact ⟨P', D', hP', hD', by omega⟩
  case clients =>
    intro u
    by_cases hu : u = t
    · rw [hu, hself]
      exact hknows
    · rw [hother u hu]
      exact (h.clients u).frame hschema hnext fun id hid => hframe id (hfree u id hu hid)
  case targets =>
    have hnot : ∀ u id, u ≠ t → c'.target = some id → (s.clients u).target ≠ some id := by
      intro u id hu hid hid'
      rcases htarget id hid with hold | hnone
      · exact hfree u id hu hid' hold
      · exact hnone u hu hid'
    intro u v id hu hv
    by_cases hut : u = t
    · by_cases hvt : v = t
      · exact hut.trans hvt.symm
      · rw [hut, hself] at hu
        rw [hother v hvt] at hv
        exact absurd hv (hnot v id hvt hu)
    · rw [hother u hut] at hu
      by_cases hvt : v = t
      · rw [hvt, hself] at hv
        exact absurd hu (hnot u id hut hv)
      · rw [hother v hvt] at hv
        exact h.targets u v id hu hv
  case linked =>
    intro id hid
    by_cases hold : c.target = some id
    · rcases hlinked id hold with hin | hlink
      · exact absurd (hself ▸ hin) (hid t)
      · exact hlink
    · obtain ⟨htree, hheap⟩ := hframe id hold
      have hlink : m.Linked id := by
        apply h.linked
        intro u hu
        by_cases hut : u = t
        · rw [hut, hc] at hu
          exact hold hu
        · exact hid u (by rw [hother u hut]; exact hu)
      rw [Placement.Linked, htree, hheap]
      exact hlink
  case replayed =>
    rw [hlog, hbytes, h.replayed, replay, replay, replay, List.foldl_append]
  case inserted =>
    rw [hinserted]
    constructor
    · refine List.nodup_append.mpr ⟨h.inserted.1, ?_, ?_⟩
      · cases hchange : c.change s.pager.header with
        | none => exact List.nodup_nil
        | some e =>
          cases hid : e.newId with
          | none => simp [hid]
          | some id => simp [hid]
      · rintro id hid _ hid' rfl
        exact (h.fresh t id (hc ▸ hmem id hid')).2 hid
    · intro id hid
      rcases List.mem_append.mp hid with hid | hid
      · exact ⟨(h.inserted.2 id hid).1, lt_of_lt_of_le (h.inserted.2 id hid).2 hnext⟩
      · have hnewId := hmem id hid
        have hknows₀ := hc ▸ h.clients t
        exact ⟨(h.fresh t id (hc ▸ hnewId)).1, lt_of_lt_of_le
          (hknows₀.lt_nextId h.store (Client.target_of_newId hnewId)) hnext⟩
  case fresh =>
    intro u id hid
    rw [hinserted]
    by_cases hu : u = t
    · rw [hu, hself] at hid
      obtain ⟨hnone, hcase⟩ := hnew id hid
      rw [hnone]
      simp only [Option.toList_none, List.filterMap_nil, List.append_nil]
      rcases hcase with hold | rfl
      · exact h.fresh t id (hc ▸ hold)
      · exact ⟨h.started, fun hin => lt_irrefl _ (h.inserted.2 _ hin).2⟩
    · rw [hother u hu] at hid
      obtain ⟨hle, hnotin⟩ := h.fresh u id hid
      refine ⟨hle, fun hin => ?_⟩
      rcases List.mem_append.mp hin with hin | hin
      · exact hnotin hin
      · exact hfree u id hu (Client.target_of_newId hid) (Client.target_of_newId (hmem id hin))

/-- **A thread goes on and leaves the rows alone.** -/
theorem Consistent.stay (h : Consistent hdr₀ rows₀ s m entries chain) (hc : s.clients t = c)
    (hclients : s'.clients = Function.update s.clients t c')
    (hlog : logChanges s'.log = logChanges s.log ++ (c.change s.pager.header).toList)
    (hsame : s.pager.SameData s'.pager) (hchange : c.change s.pager.header = none)
    (hup : ¬ c.Uncounted ∧ ¬ c'.Uncounted) (hover : ¬ c.Overcounted ∧ ¬ c'.Overcounted)
    (hknows : c'.Knows s.pager.header m)
    (hlinked : ∀ id, c.target = some id → c'.target = some id ∨ m.Linked id)
    (htarget : ∀ id, c'.target = some id → c.target = some id ∨
      ∀ u, u ≠ t → (s.clients u).target ≠ some id)
    (hnew : ∀ id, c'.newId = some id → c.newId = some id) :
    Consistent hdr₀ rows₀ s' m entries chain := by
  have hheader : s'.pager.header = s.pager.header := by
    obtain ⟨tr, hp⟩ := hsame
    rw [hp]
  apply h.move hc hclients hlog (h.store.sameData hsame)
  · rw [hheader]
    exact ⟨rfl, rfl⟩
  · rw [hheader]
  · rw [hheader, if_neg hup.1, if_neg hup.2, if_neg hover.1, if_neg hover.2]
  · exact fun _ _ => ⟨rfl, rfl⟩
  · rw [hheader]
    exact hknows
  · exact hlinked
  · exact htarget
  · exact fun id hid => ⟨hchange, .inl (hnew id hid)⟩
  · rw [hchange]
    rfl

/-- A thread goes on and is at work on no row any more. -/
theorem Consistent.pass (h : Consistent hdr₀ rows₀ s m entries chain) (hc : s.clients t = c)
    (hclients : s'.clients = Function.update s.clients t c')
    (hlog : logChanges s'.log = logChanges s.log ++ (c.change s.pager.header).toList)
    (hsame : s.pager.SameData s'.pager) (hchange : c.change s.pager.header = none)
    (hup : ¬ c.Uncounted) (hover : ¬ c.Overcounted) (hknows : c'.Knows s.pager.header m)
    (htarget : c'.target = none) (hlinked : ∀ id, c.target = some id → m.Linked id) :
    Consistent hdr₀ rows₀ s' m entries chain := by
  obtain ⟨hup', hover'⟩ := Client.counted_of_target htarget
  apply h.stay hc hclients hlog hsame hchange ⟨hup, hup'⟩ ⟨hover, hover'⟩ hknows
  · exact fun id hid => .inr (hlinked id hid)
  · intro id hid
    rw [htarget] at hid
    cases hid
  · intro id hid
    rw [Client.target_of_newId hid] at htarget
    cases htarget

/-- Where index and heap have the row of an id, they agree on it. -/
theorem Placement.At.linked {ref : RowRef} (h : m.At id ref) : m.Linked id := by
  obtain ⟨htree, row, hrow⟩ := h
  rw [Placement.Linked, htree, hrow]
  rfl

end Move

/-! ## Pieces of code -/

section Act

variable {τ : Type} [DecidableEq τ] {hdr₀ : DbHeader} {rows₀ : RowBytes}
  {s : DbSys τ (listLocks τ).State} {m : Placement} {entries : List (Nat × RowRef)}
  {chain : HeapChain} {t : τ} {c c' : Client} {id : Nat} {ref : RowRef} {env : ExecEnv}
  {pager' : Pager} {stmt : Statement} {colIdx : Nat} {values : RowValues}

/-- What a statement does that is executed in one piece and is no DDL. -/
theorem execute_whole (env : ExecEnv) (hplain : isDdl stmt.type = false) (hwhole : stmt.Whole) :
    execute env stmt = execExplain stmt ∨ execute env stmt = execIndexLookup stmt ∨
      execute env stmt = execIndexRangeScan env stmt ∨
      execute env stmt = execTableScan env stmt := by
  rw [execute]
  by_cases hexplain : stmt.type = .explain
  · rw [if_pos hexplain]
    exact .inl rfl
  rw [if_neg hexplain]
  obtain ⟨hinsert, hdelete, hupdate, hscan⟩ := hwhole.resolve_left hexplain
  have hpath : stmt.Takes (plannerCreatePlan stmt) := ⟨hexplain, rfl⟩
  have hddl : plannerCreatePlan stmt ≠ .createTable ∧ plannerCreatePlan stmt ≠ .dropTable := by
    rw [← hpath.planByType]
    constructor <;>
    · intro hplan
      unfold MiniDb.planByType at hplan
      cases htype : stmt.type with
      | createTable | dropTable =>
        rw [htype] at hplain
        cases hplain
      | explain => exact hexplain htype
      | _ =>
        simp only [htype] at hplan
        repeat' split at hplan
        all_goals cases hplan
  cases hplan : plannerCreatePlan stmt with
  | createTable => exact absurd hplan hddl.1
  | dropTable => exact absurd hplan hddl.2
  | insert => exact absurd hplan hinsert
  | indexDelete => exact absurd hplan hdelete
  | indexUpdate => exact absurd hplan hupdate
  | indexLookup => exact .inr (.inl rfl)
  | indexRange => exact .inr (.inr (.inl rfl))
  | tableScan =>
    obtain ⟨hdel, hupd⟩ := hscan hplan
    dsimp only
    split
    · exact absurd (by assumption) hdel
    · exact absurd (by assumption) hupd
    · exact .inr (.inr (.inr rfl))

/-- Such a statement only reads. -/
theorem readOnly_execute_whole (hplain : isDdl stmt.type = false) (hwhole : stmt.Whole) :
    ReadOnly (execute env stmt) := by
  obtain h | h | h | h := execute_whole env hplain hwhole <;> rw [h]
  · exact readOnly_execExplain
  · exact readOnly_execIndexLookup
  · exact readOnly_execIndexRangeScan
  · exact readOnly_execTableScan

/-- Nobody else is at work on a row of the index that the thread has locked. -/
theorem Consistent.target_free (h : Consistent hdr₀ rows₀ s m entries chain) (hl : ClientLocks s)
    (ho : OwnsLocks s) (hown : (s.clients t).Owns id) (htree : m.tree id ≠ none) :
    ∀ u, u ≠ t → (s.clients u).target ≠ some id :=
  fun u hu hid => hu (ho.eq_of_owns hl ((h.clients u).owns hid htree) hown)

/-- A row of the index that no other thread is at work on is in the heap. -/
theorem Consistent.at_of_free (h : Consistent hdr₀ rows₀ s m entries chain)
    (hfree : ∀ u, u ≠ t → (s.clients u).target ≠ some id) (ht : (s.clients t).target ≠ some id)
    (htree : m.tree id = some ref) : m.At id ref := by
  have hlinked : m.Linked id := h.linked id fun u hu => by
    by_cases hut : u = t
    · exact ht (hut ▸ hu)
    · exact hfree u hut hu
  rw [Placement.Linked, htree] at hlinked
  obtain ⟨⟨_, row⟩, hrow, rfl⟩ := Option.map_eq_some_iff.mp hlinked.symm
  exact ⟨htree, row, hrow⟩

/-! Each piece that changes the rows, for all the places from which it is executed. -/

section Pieces

variable {s' : DbSys τ (listLocks τ).State} (h : Consistent hdr₀ rows₀ s m entries chain)
  (hc : s.clients t = c) (hclients : s'.clients = Function.update s.clients t c')
  (hlog : logChanges s'.log = logChanges s.log ++ (c.change s.pager.header).toList)

include h hc hclients hlog

/-- `heap_delete` of the row of an id. -/
theorem Consistent.heapDelete {rc : Int} (hat : m.At id ref) (htarget : c.target = some id)
    (htarget' : c'.target = some id) (hchange : c.change s.pager.header = some (.deleted id))
    (hup : ¬ c.Uncounted ∧ ¬ c'.Uncounted) (hover : ¬ c.Overcounted ∧ ¬ c'.Overcounted)
    (hnew : c'.newId = none)
    (hknows : ∀ hdr m', m'.tree id = some ref → m'.heap id = none → c'.Knows hdr m')
    (hrun : (heapDelete ref).run s.pager = some (rc, s'.pager)) :
    ∃ m' chain', Consistent hdr₀ rows₀ s' m' entries chain' := by
  obtain ⟨htree, row, hrow⟩ := hat
  obtain ⟨rfl, hsame, chain', hstore⟩ := h.store.deleteRow hrow hrun
  refine ⟨_, chain', h.move hc hclients hlog hstore ⟨hsame.columns, hsame.rowSize⟩
    hsame.nextId.ge ?_ ?_ ?_ ?_ ?_ ?_ ?_⟩
  · rw [hsame.rowCount, if_neg hup.1, if_neg hup.2, if_neg hover.1, if_neg hover.2]
  · intro i hi
    have hne : i ≠ id := fun heq => hi (heq ▸ htarget)
    exact ⟨rfl, Placement.setHeap_heap_of_ne hne⟩
  · exact hknows _ _ htree Placement.setHeap_heap_self
  · intro i hi
    rw [htarget] at hi
    exact .inl (htarget'.trans hi)
  · intro i hi
    rw [htarget'] at hi
    exact .inl (htarget.trans hi)
  · intro i hi
    rw [hnew] at hi
    cases hi
  · rw [hchange]
    funext i
    by_cases hi : i = id
    · subst hi
      simp [Placement.bytes, replay, RowChange.apply]
    · simp [Placement.bytes, replay, RowChange.apply, hi, Placement.setHeap_heap_of_ne hi]

/-- `bptree_delete` of an id whose row is no longer in the heap. -/
theorem Consistent.treeDelete {rc : Int} (htree : m.tree id = some ref) (hheap : m.heap id = none)
    (htarget : c.target = some id) (htarget' : c'.target = some id)
    (hchange : c.change s.pager.header = none) (hup : ¬ c.Uncounted ∧ ¬ c'.Uncounted)
    (hover : ¬ c.Overcounted ∧ c'.Overcounted) (hnew : c'.newId = none)
    (hknows : ∀ hdr m', m'.tree id = none → m'.heap id = none → id < hdr.nextId → c'.Knows hdr m')
    (hrun : (bptreeDelete id).run s.pager = some (rc, s'.pager)) :
    ∃ m' entries', Consistent hdr₀ rows₀ s' m' entries' chain := by
  have hid := h.store.ids id (.inl (by simp [htree]))
  obtain ⟨rfl, hsame, entries', hlen, hstore⟩ := h.store.deleteKey htree hrun
  refine ⟨_, entries', h.move hc hclients hlog hstore ⟨hsame.columns, hsame.rowSize⟩
    hsame.nextId.ge ?_ ?_ ?_ ?_ ?_ ?_ ?_⟩
  · rw [hsame.rowCount, if_neg hup.1, if_neg hup.2, if_neg hover.1, if_pos hover.2]
    omega
  · intro i hi
    have hne : i ≠ id := fun heq => hi (heq ▸ htarget)
    exact ⟨Placement.setTree_tree_of_ne hne, rfl⟩
  · exact hknows _ _ Placement.setTree_tree_self hheap (hsame.nextId ▸ hid.2)
  · intro i hi
    rw [htarget] at hi
    exact .inl (htarget'.trans hi)
  · intro i hi
    rw [htarget'] at hi
    exact .inl (htarget.trans hi)
  · intro i hi
    rw [hnew] at hi
    cases hi
  · rw [hchange]
    rfl

/-- `row_count--` for an id that is in neither. The count is not 0. -/
theorem Consistent.decrement (htree : m.tree id = none) (hheap : m.heap id = none)
    (htarget : c.target = some id) (htarget' : c'.target = none)
    (hchange : c.change s.pager.header = none) (hup : ¬ c.Uncounted) (hover : c.Overcounted)
    (hknows : c'.Knows s.pager.header m)
    (hrun : decrementRowCount.run s.pager = some ((), s'.pager)) :
    Consistent hdr₀ rows₀ s' m entries chain := by
  have hpos : s.pager.header.rowCount ≠ 0 := by
    obtain ⟨P, D, hP, hD, hsum⟩ := h.count
    -- rows that are not counted yet are in the index, each for a thread of its own
    have hP_le : P.card ≤ entries.length := by
      apply h.store.card_le P fun u => (s.clients u).target.getD 0
      · intro u hu v hv heq
        have hcount : ∀ w, (s.clients w).Uncounted → ∃ i, (s.clients w).target = some i := by
          intro w hw
          cases hcw : s.clients w with
          | insertCount i => exact ⟨i, rfl⟩
          | _ =>
            rw [hcw] at hw
            exact hw.elim
        obtain ⟨i, hi⟩ := hcount u ((hP u).mp hu)
        obtain ⟨j, hj⟩ := hcount v ((hP v).mp hv)
        simp only [hi, hj, Option.getD_some] at heq
        subst heq
        exact h.targets u v i hi hj
      · intro u hu
        have hunc := (hP u).mp hu
        have hknown := h.clients u
        cases hcu : s.clients u with
        | insertCount i =>
          rw [hcu] at hknown
          obtain ⟨ref, href, -⟩ := hknown
          simp [Client.target, href]
        | _ =>
          rw [hcu] at hunc
          exact hunc.elim
    have hD_pos : 0 < D.card := Finset.card_pos.mpr ⟨t, (hD t).mpr (hc ▸ hover)⟩
    omega
  have hst := run_modify_eq_some.mp hrun
  rw [if_neg hpos] at hst
  obtain ⟨hup', hover'⟩ := Client.counted_of_target htarget'
  have hstore : RowStore s'.pager m entries chain := hst ▸ h.store.setRowCount _
  have hheader : s'.pager.header =
      { s.pager.header with rowCount := s.pager.header.rowCount - 1 } := by
    rw [hst]
    rfl
  have hlink : m.Linked id := by
    rw [Placement.Linked, htree, hheap]
    rfl
  apply h.move hc hclients hlog hstore
  · rw [hheader]
    exact ⟨rfl, rfl⟩
  · rw [hheader]
  · rw [hheader, if_neg hup, if_neg hup', if_pos hover, if_neg hover']
    show s.pager.header.rowCount - 1 + entries.length + 0 + 1 = _
    omega
  · exact fun _ _ => ⟨rfl, rfl⟩
  · apply hknows.frame
    · rw [hheader]
      exact ⟨rfl, rfl⟩
    · rw [hheader]
    · exact fun _ _ => ⟨rfl, rfl⟩
  · intro i hi
    rw [htarget] at hi
    exact .inr (Option.some.inj hi ▸ hlink)
  · intro i hi
    rw [htarget'] at hi
    cases hi
  · intro i hi
    rw [Client.target_of_newId hi] at htarget'
    cases htarget'
  · rw [hchange]
    rfl

/-- A row written back that has been read. -/
theorem Consistent.rowWrite (hcol : validateUpdateTarget s.pager.header stmt = .ok colIdx)
    (hread : m.Read s.pager.header id ref values) (htarget : c.target = some id)
    (htarget' : c'.target = none)
    (hchange : c.change s.pager.header = some (.assigned id stmt colIdx))
    (hup : ¬ c.Uncounted) (hover : ¬ c.Overcounted)
    (hknows : ∀ hdr m', SameSchema hdr s.pager.header → c'.Knows hdr m')
    (hrun : (updateRow s.pager.header stmt colIdx ref values).run s.pager = some ((), s'.pager)) :
    ∃ m' chain', Consistent hdr₀ rows₀ s' m' entries chain' := by
  obtain ⟨htree, row, hrow, hvalues⟩ := hread
  obtain ⟨values', st₁, hvals, hrest⟩ := run_bind_eq_some.mp hrun
  obtain ⟨happly, rfl⟩ := orUndefined_eq_some hvals
  obtain ⟨row', st₂, hbytes, hwrite⟩ := run_bind_eq_some.mp hrest
  obtain ⟨hserial, rfl⟩ := orUndefined_eq_some hbytes
  have hhead := h.store.idFirst (h.store.used id (.inl (by simp [htree]))).2.1
  obtain ⟨hsame, chain', hstore⟩ := h.store.overwrite hrow (length_rowSerialize hserial)
    (fun hs => isRowOf_update hs hhead hcol (h.store.contents hs id ref row hrow) hvalues happly
      hserial) hwrite
  obtain ⟨hup', hover'⟩ := Client.counted_of_target htarget'
  have hschema : SameSchema s'.pager.header s.pager.header := ⟨hsame.columns, hsame.rowSize⟩
  refine ⟨_, chain', h.move hc hclients hlog hstore hschema hsame.nextId.ge ?_ ?_ ?_ ?_ ?_ ?_ ?_⟩
  · rw [hsame.rowCount, if_neg hup, if_neg hup', if_neg hover, if_neg hover']
  · intro i hi
    have hne : i ≠ id := fun heq => hi (heq ▸ htarget)
    exact ⟨rfl, Placement.setHeap_heap_of_ne hne⟩
  · exact hknows _ _ hschema
  · intro i hi
    rw [htarget] at hi
    obtain rfl := Option.some.inj hi
    right
    rw [Placement.Linked, Placement.setHeap_heap_self, Placement.setHeap_tree, htree]
    rfl
  · intro i hi
    rw [htarget'] at hi
    cases hi
  · intro i hi
    rw [Client.target_of_newId hi] at htarget'
    cases htarget'
  · have hassign : assignRow hdr₀ stmt colIdx row = some row' := by
      rw [assignRow, ← rowDeserialize_congr h.schema, hvalues]
      show (applyUpdateToRow hdr₀ values stmt colIdx).bind _ = some row'
      rw [← applyUpdateToRow_congr h.schema, happly]
      exact (rowSerialize_congr h.schema values').symm.trans hserial
    rw [hchange]
    funext i
    by_cases hi : i = id
    · subst hi
      simp [Placement.bytes, replay, RowChange.apply, hrow, hassign]
    · simp [Placement.bytes, replay, RowChange.apply, hi, Placement.setHeap_heap_of_ne hi]

/-- A search that finds the row of an id which the thread has locked: it is at work on it now. -/
theorem Consistent.found (hl : ClientLocks s) (ho : OwnsLocks s) (hown : c.Owns id)
    (hrun : (bptreeSearch id).run s.pager = some (some ref, s'.pager)) (htarget : c.target = none)
    (htarget' : c'.target = some id) (hchange : c.change s.pager.header = none)
    (hup : ¬ c.Uncounted ∧ ¬ c'.Uncounted) (hover : ¬ c.Overcounted ∧ ¬ c'.Overcounted)
    (hknows : m.At id ref → c'.Knows s.pager.header m) (hnew : c'.newId = none) :
    Consistent hdr₀ rows₀ s' m entries chain := by
  obtain ⟨hsame, href⟩ := h.store.search hrun
  have htree : m.tree id = some ref := href.symm
  have hfree := h.target_free hl ho (hc ▸ hown) (by rw [htree]; exact Option.some_ne_none ref)
  have hat : m.At id ref := h.at_of_free hfree (by rw [hc, htarget]; nofun) htree
  apply h.stay hc hclients hlog hsame hchange hup hover (hknows hat)
  · intro i hi
    rw [htarget] at hi
    cases hi
  · intro i hi
    obtain rfl := Option.some.inj (htarget'.symm.trans hi)
    exact .inr hfree
  · intro i hi
    rw [hnew] at hi
    cases hi

/-- A row that has been fetched: the thread stays at work on it. -/
theorem Consistent.fetched {row : List UInt8} {st' : Pager} (hat : m.At id ref)
    (hrun : (heapFetch ref s.pager.header.rowSize).run s.pager = some (some row, st'))
    (hvalues : rowDeserialize s.pager.header row = some values)
    (hlogged : s'.pager = st'.log (.unlatchR ref.pageId)) (htarget : c'.target = c.target)
    (hchange : c.change s.pager.header = none) (hup : ¬ c.Uncounted ∧ ¬ c'.Uncounted)
    (hover : ¬ c.Overcounted ∧ ¬ c'.Overcounted)
    (hknows : m.Read s.pager.header id ref values → c'.Knows s.pager.header m)
    (hnew : c'.newId = none) : Consistent hdr₀ rows₀ s' m entries chain := by
  obtain ⟨htree, row', hrow⟩ := hat
  obtain ⟨hsame, hres⟩ := h.store.fetch hrow hrun
  obtain rfl := Option.some.inj hres
  have hsame' : s.pager.SameData s'.pager := hlogged ▸ hsame.trans .log
  apply h.stay hc hclients hlog hsame' hchange hup hover (hknows ⟨htree, row, hrow, hvalues⟩)
  · exact fun i hi => .inl (htarget.trans hi)
  · exact fun i hi => .inl (htarget.symm.trans hi)
  · intro i hi
    rw [hnew] at hi
    cases hi

end Pieces

/-! The pieces of an INSERT. -/

section Insert

variable {s' : DbSys τ (listLocks τ).State} (h : Consistent hdr₀ rows₀ s m entries chain)

include h

/-- `next_id++`: nobody is at work on the new id, and it is nowhere. -/
theorem Consistent.takeId (hc : s.clients t = .executing stmt)
    (hclients : s'.clients = Function.update s.clients t (.insertLocking stmt id))
    (hlog : logChanges s'.log = logChanges s.log ++
      ((Client.executing stmt).change s.pager.header).toList)
    (hcols : s.pager.header.columns ≠ [])
    (hrun : takeNextId.run s.pager = some (id, s'.pager)) :
    Consistent hdr₀ rows₀ s' m entries chain := by
  obtain ⟨rfl, hnext, hschema, hrows, hstore⟩ := h.store.takeNextId hrun
  have hfree : ∀ u, (s.clients u).target ≠ some s.pager.header.nextId := fun u hu =>
    lt_irrefl _ ((h.clients u).lt_nextId h.store hu)
  have hnone : ¬ m.Has s.pager.header.nextId := fun hid => lt_irrefl _ (h.store.ids _ hid).2
  have hnone' := not_or.mp hnone
  refine h.move hc hclients hlog hstore hschema ?_ ?_ (fun _ _ => ⟨rfl, rfl⟩) ?_ nofun ?_ ?_ rfl
  · rw [hnext]
    exact Nat.le_succ _
  · show s'.pager.header.rowCount + _ + 0 + 0 = _
    rw [hrows]
    rfl
  · refine ⟨?_, ⟨h.store.nextId_pos, ?_⟩, not_not.mp hnone'.1, not_not.mp hnone'.2⟩
    · rw [hschema.columns]
      exact hcols
    · rw [hnext]
      exact Nat.lt_succ_self _
  · intro i hi
    obtain rfl := Option.some.inj hi
    exact .inr fun u _ => hfree u
  · intro i hi
    obtain rfl := Option.some.inj hi
    exact ⟨rfl, .inr rfl⟩

/-- `heap_insert` of the row of the new id. -/
theorem Consistent.heapInsert {row : List UInt8} (hc : s.clients t = .insertHeap stmt id)
    (hclients : s'.clients = Function.update s.clients t (.insertTree id ref))
    (hlog : logChanges s'.log = logChanges s.log ++
      ((Client.insertHeap stmt id).change s.pager.header).toList)
    (hrow : rowSerialize s.pager.header (insertRowValues s.pager.header id stmt) = some row)
    (hrun : (heapInsert env.rounds row).run s.pager = some (ref, s'.pager)) :
    ∃ m' chain', Consistent hdr₀ rows₀ s' m' entries chain' := by
  have hknows := h.clients t
  rw [hc] at hknows
  obtain ⟨hcols, hbounds, htree, hheap⟩ := hknows
  have hhead := h.store.idFirst hcols
  have hof : SoundSchema s.pager.header → IsRowOf s.pager.header.columns id row := by
    intro hs
    have hwt : WellTyped s.pager.header.columns (insertRowValues s.pager.header id stmt) :=
      insertRowValues_wellTyped hhead
    rw [hs.rowSerialize hwt] at hrow
    exact ⟨_, hwt, (Option.some.inj hrow).symm⟩
  obtain ⟨hsame, chain', hstore⟩ := h.store.insertRow hheap hbounds hcols
    (length_rowSerialize hrow) (varchar_pos_of_serialize hrow) hof hrun
  have hchange : (Client.insertHeap stmt id).change s.pager.header = some (.inserted id row) := by
    rw [Client.change, hrow]
    rfl
  refine ⟨_, chain', h.move hc hclients hlog hstore ⟨hsame.columns, hsame.rowSize⟩
    hsame.nextId.ge ?_ ?_ ⟨htree, row, Placement.setHeap_heap_self⟩ (fun _ hi => .inl hi)
    (fun _ hi => .inl hi) nofun ?_⟩
  · show s'.pager.header.rowCount + _ + 0 + 0 = _
    rw [hsame.rowCount]
    rfl
  · intro j hj
    have hne : j ≠ id := fun heq => hj (heq ▸ rfl)
    exact ⟨rfl, Placement.setHeap_heap_of_ne hne⟩
  · rw [hchange]
    funext j
    by_cases hj : j = id
    · subst hj
      simp [Placement.bytes, replay, RowChange.apply]
    · simp [Placement.bytes, replay, RowChange.apply, hj, Placement.setHeap_heap_of_ne hj]

/-- `bptree_insert` of the new id, which is not in the index. -/
theorem Consistent.treeInsert {rc : Int} (hc : s.clients t = .insertTree id ref)
    (hclients : s'.clients = Function.update s.clients t (.insertCount id))
    (hlog : logChanges s'.log = logChanges s.log ++
      ((Client.insertTree id ref).change s.pager.header).toList)
    (hrun : (bptreeInsert id ref).run s.pager = some (rc, s'.pager)) :
    ∃ m' entries', Consistent hdr₀ rows₀ s' m' entries' chain := by
  have hknows := h.clients t
  rw [hc] at hknows
  obtain ⟨htree, row, hrow⟩ := hknows
  obtain ⟨-, hsame, entries', hlen, hstore⟩ := h.store.insertKey htree hrow hrun
  refine ⟨_, entries', h.move hc hclients hlog hstore ⟨hsame.columns, hsame.rowSize⟩
    hsame.nextId.ge ?_ ?_ ⟨ref, Placement.setTree_tree_self, row, hrow⟩ (fun _ hi => .inl hi)
    (fun _ hi => .inl hi) nofun rfl⟩
  · show s'.pager.header.rowCount + entries.length + 1 + 0 = s.pager.header.rowCount + _ + 0 + 0
    rw [hsame.rowCount, hlen]
    omega
  · intro j hj
    have hne : j ≠ id := fun heq => hj (heq ▸ rfl)
    exact ⟨Placement.setTree_tree_of_ne hne, rfl⟩

/-- `row_count++` for an id that is in both. -/
theorem Consistent.increment {c' : Client} (hc : s.clients t = .insertCount id)
    (hclients : s'.clients = Function.update s.clients t c')
    (hlog : logChanges s'.log = logChanges s.log ++
      ((Client.insertCount id).change s.pager.header).toList)
    (htarget' : c'.target = none) (hknows : c'.Knows s'.pager.header m)
    (hrun : incrementRowCount.run s.pager = some ((), s'.pager)) :
    Consistent hdr₀ rows₀ s' m entries chain := by
  have hat := h.clients t
  rw [hc] at hat
  obtain ⟨ref, hat⟩ := hat
  have hst := run_modify_eq_some.mp hrun
  obtain ⟨hup', hover'⟩ := Client.counted_of_target htarget'
  have hstore : RowStore s'.pager m entries chain := hst ▸ h.store.setRowCount _
  have hheader : s'.pager.header =
      { s.pager.header with rowCount := s.pager.header.rowCount + 1 } := by
    rw [hst]
    rfl
  apply h.move hc hclients hlog hstore
  · rw [hheader]
    exact ⟨rfl, rfl⟩
  · rw [hheader]
  · rw [hheader, if_neg hup', if_neg hover']
    show s.pager.header.rowCount + 1 + entries.length + 0 + 0 =
      s.pager.header.rowCount + entries.length + 1 + 0
    omega
  · exact fun _ _ => ⟨rfl, rfl⟩
  · exact hknows
  · intro j hj
    obtain rfl := Option.some.inj hj
    exact .inr hat.linked
  · intro j hj
    rw [htarget'] at hj
    cases hj
  · intro j hj
    rw [Client.target_of_newId hj] at htarget'
    cases htarget'
  · rfl

end Insert

theorem target_nextRow (job : ScanJob) (count : Nat) (ids : List Nat) :
    (Client.nextRow job count ids).target = none := by
  cases ids <;> rfl

theorem target_lockNext (job : ScanJob) (ids rest : List Nat) :
    (Client.lockNext job ids rest).target = none := by
  cases rest with
  | cons i rest => rfl
  | nil => cases ids <;> rfl

theorem target_endCollecting (job : ScanJob) (ids : Collector Nat) :
    (endCollecting job ids).target = none := by
  unfold endCollecting
  split
  · rfl
  · exact target_lockNext _ _ _

theorem knows_nextRow {hdr : DbHeader} {job : ScanJob} (hv : job.Valid hdr) (count : Nat)
    (ids : List Nat) : (Client.nextRow job count ids).Knows hdr m := by
  cases ids with
  | nil => trivial
  | cons i ids => exact hv

theorem knows_lockNext {hdr : DbHeader} {job : ScanJob} (hv : job.Valid hdr) (ids rest : List Nat) :
    (Client.lockNext job ids rest).Knows hdr m := by
  cases rest with
  | cons i rest => exact hv
  | nil =>
    cases ids with
    | nil => trivial
    | cons i ids => exact hv

theorem knows_endCollecting {hdr : DbHeader} {job : ScanJob} (hv : job.Valid hdr)
    (ids : Collector Nat) : (endCollecting job ids).Knows hdr m := by
  unfold endCollecting
  split
  · trivial
  · exact knows_lockNext hv _ _

/-- **A piece of code keeps the invariant.** -/
theorem Consistent.act (h : Consistent hdr₀ rows₀ s m entries chain) (hl : ClientLocks s)
    (ho : OwnsLocks s) (hplain : (s.clients t).Plain)
    (hstep : ActStep env s.pager (s.clients t) c' pager') :
    ∃ m' entries' chain', Consistent hdr₀ rows₀
      ({ s.goto t c' with pager := pager' } : DbSys τ (listLocks τ).State) m' entries' chain' := by
  have hclients : ({ s.goto t c' with pager := pager' } : DbSys τ (listLocks τ).State).clients =
      Function.update s.clients t c' := rfl
  have hlog := logChanges_goto s t c'
  generalize hc : s.clients t = c at hstep
  rw [hc] at hplain hlog
  have hknows := h.clients t
  rw [hc] at hknows
  cases hstep with
  | whole path run =>
    have hsame := readOnly_execute_whole hplain path _ _ _ run
    exact ⟨m, entries, chain, h.pass hc hclients hlog hsame rfl id id trivial rfl nofun⟩
  | insertNoTable path =>
    exact ⟨m, entries, chain, h.pass hc hclients hlog .refl rfl id id trivial rfl nofun⟩
  | insertId path columns run =>
    exact ⟨m, entries, chain, h.takeId hc hclients hlog columns run⟩
  | deleteMiss path run =>
    obtain ⟨hsame, -⟩ := h.store.search run
    exact ⟨m, entries, chain, h.pass hc hclients hlog hsame rfl id id trivial rfl nofun⟩
  | deleteFound path run =>
    have hown := owns_executing (.inl path.indexDelete.1) path.indexDelete.2
    exact ⟨m, entries, chain, h.found hc hclients hlog hl ho hown run rfl rfl rfl ⟨id, id⟩ ⟨id, id⟩
      id rfl⟩
  | updateInvalid target =>
    exact ⟨m, entries, chain, h.pass hc hclients hlog .refl rfl id id trivial rfl nofun⟩
  | updateMiss path run =>
    obtain ⟨hsame, -⟩ := h.store.search run
    exact ⟨m, entries, chain, h.pass hc hclients hlog hsame rfl id id trivial rfl nofun⟩
  | updateFound path target run =>
    have hown := owns_executing (.inr path.indexUpdate.1) path.indexUpdate.2
    exact ⟨m, entries, chain, h.found hc hclients hlog hl ho hown run rfl rfl rfl ⟨id, id⟩ ⟨id, id⟩
      (fun hat => ⟨target, hat⟩) rfl⟩
  | scanDelete path type =>
    exact ⟨m, entries, chain, h.pass hc hclients hlog .refl rfl id id trivial rfl nofun⟩
  | scanUpdate path type target =>
    exact ⟨m, entries, chain, h.pass hc hclients hlog .refl rfl id id target rfl nofun⟩
  | insertHeap row_eq run =>
    obtain ⟨m', chain', h'⟩ := h.heapInsert hc hclients hlog row_eq run
    exact ⟨m', entries, chain', h'⟩
  | insertDup dup run =>
    obtain ⟨htree, row, hrow⟩ := hknows
    exact absurd (h.store.insertKey htree hrow run).1 dup
  | insertTree run =>
    obtain ⟨m', entries', h'⟩ := h.treeInsert hc hclients hlog run
    exact ⟨m', entries', chain, h'⟩
  | insertCount run =>
    exact ⟨m, entries, chain, h.increment hc hclients hlog rfl trivial run⟩
  | @deleteHeap i ref rc st' run =>
    obtain ⟨m', chain', h'⟩ := h.heapDelete hc hclients hlog hknows rfl rfl rfl ⟨id, id⟩ ⟨id, id⟩
      rfl (fun _ _ htree hheap => ⟨htree, hheap⟩) run
    exact ⟨m', entries, chain', h'⟩
  | @deleteTree i ref rc st' run =>
    obtain ⟨m', entries', h'⟩ := h.treeDelete hc hclients hlog hknows.1 hknows.2 rfl rfl rfl
      ⟨id, id⟩ ⟨id, trivial⟩ rfl (fun _ _ htree hheap hlt => ⟨htree, hheap, hlt⟩) run
    exact ⟨m', entries', chain, h'⟩
  | @deleteCount i st' run =>
    exact ⟨m, entries, chain, h.decrement hc hclients hlog hknows.1 hknows.2.1 rfl rfl rfl id
      trivial trivial run⟩
  | updateUnreadable run =>
    obtain ⟨-, row, hrow⟩ := hknows.2
    cases (h.store.fetch hrow run).2
  | updateFetch run values_eq =>
    obtain ⟨hcol, hat⟩ := hknows
    exact ⟨m, entries, chain, h.fetched hc hclients hlog hat run values_eq rfl rfl rfl ⟨id, id⟩
      ⟨id, id⟩ (fun hread => ⟨hcol, hread⟩) rfl⟩
  | @updateWrite stmt colIdx ref values st' run =>
    obtain ⟨m', chain', h'⟩ := h.rowWrite hc hclients hlog hknows.1 hknows.2 rfl rfl rfl id id
      (fun _ _ _ => trivial) run
    exact ⟨m', entries, chain', h'⟩
  | @collected job ids =>
    exact ⟨m, entries, chain, h.pass hc hclients hlog .refl rfl id id (knows_endCollecting hknows _)
      (target_endCollecting _ _) nofun⟩
  | @collecting job pid ids ids' more next st' page run =>
    have hsame := readOnly_scanPage _ _ _ _ _ _ _ _ run
    refine ⟨m, entries, chain, h.pass hc hclients hlog hsame rfl id id ?_ ?_ nofun⟩
    · cases more with
      | false => exact knows_endCollecting hknows _
      | true => exact hknows
    · cases more with
      | false => exact target_endCollecting _ _
      | true => rfl
  | scanMiss run =>
    obtain ⟨hsame, -⟩ := h.store.search run
    exact ⟨m, entries, chain, h.pass hc hclients hlog hsame rfl id id (knows_nextRow hknows _ _)
      (target_nextRow _ _ _) nofun⟩
  | scanFound run =>
    exact ⟨m, entries, chain, h.found hc hclients hlog hl ho List.mem_cons_self run rfl rfl rfl
      ⟨id, id⟩ ⟨id, id⟩ (fun hat => ⟨hknows, hat⟩) rfl⟩
  | scanUnreadable run =>
    obtain ⟨-, row, hrow⟩ := hknows.2
    cases (h.store.fetch hrow run).2
  | @scanFetch job i ref ids count row values st' run values_eq =>
    obtain ⟨hvalid, hat⟩ := hknows
    by_cases hmatch : matchPredicate s.pager.header values job.stmt = true
    · rw [if_pos hmatch] at hclients hlog ⊢
      cases job with
      | delete stmt =>
        exact ⟨m, entries, chain, h.fetched hc hclients hlog hat run values_eq rfl rfl rfl
          ⟨id, id⟩ ⟨id, id⟩ (fun _ => hat) rfl⟩
      | update stmt colIdx =>
        exact ⟨m, entries, chain, h.fetched hc hclients hlog hat run values_eq rfl rfl rfl
          ⟨id, id⟩ ⟨id, id⟩ (fun hread => ⟨hvalid, hread⟩) rfl⟩
    · rw [if_neg hmatch] at hclients hlog ⊢
      have hsame : s.pager.SameData st' := by
        obtain ⟨-, row', hrow⟩ := hat
        exact (h.store.fetch hrow run).1
      refine ⟨m, entries, chain, h.pass hc hclients hlog (hsame.trans .log) rfl id id
        (knows_nextRow hvalid _ _) (target_nextRow _ _ _) ?_⟩
      intro j hj
      obtain rfl := Option.some.inj hj
      exact hat.linked
  | @scanDeleteHeap stmt i ref ids count rc st' run =>
    have hat : m.At i ref := hknows
    obtain ⟨-, row, hrow⟩ := hat
    obtain ⟨rfl, -⟩ := h.store.deleteRow hrow run
    obtain ⟨m', chain', h'⟩ := h.heapDelete hc hclients hlog hknows rfl rfl rfl ⟨id, id⟩ ⟨id, id⟩
      rfl (fun _ _ htree hheap => ⟨htree, hheap⟩) run
    exact ⟨m', entries, chain', h'⟩
  | @scanDeleteTree stmt i ref ids count rc st' run =>
    obtain ⟨rfl, -⟩ := h.store.deleteKey hknows.1 run
    obtain ⟨m', entries', h'⟩ := h.treeDelete hc hclients hlog hknows.1 hknows.2 rfl rfl rfl
      ⟨id, id⟩ ⟨id, trivial⟩ rfl (fun _ _ htree hheap hlt => ⟨htree, hheap, hlt⟩) run
    exact ⟨m', entries', chain, h'⟩
  | @scanDeleteCount stmt i ids count st' run =>
    exact ⟨m, entries, chain, h.decrement hc hclients hlog hknows.1 hknows.2.1 rfl
      (target_nextRow _ _ _) rfl id trivial
      (knows_nextRow (show ScanJob.Valid _ (.delete stmt) from trivial) _ _) run⟩
  | @scanWrite stmt colIdx i ref values ids count st' run =>
    obtain ⟨m', chain', h'⟩ := h.rowWrite hc hclients hlog hknows.1 hknows.2 rfl
      (target_nextRow _ _ _) rfl id id
      (fun _ _ hs => knows_nextRow (show ScanJob.Valid _ (.update stmt colIdx) from
        (validateUpdateTarget_congr hs).trans hknows.1) _ _) run
    exact ⟨m', entries, chain', h'⟩
  | unlocking =>
    exact ⟨m, entries, chain, h.pass hc hclients hlog .refl rfl id id trivial rfl nofun⟩

end Act

/-! ## Runs without DDL -/

section Runs

variable {τ : Type} [DecidableEq τ]

/-- A step after which its thread is not on its way to a CREATE TABLE or DROP TABLE. -/
def DbSys.DmlStep (I : LockImpl τ) (s s' : DbSys τ I.State) : Prop :=
  ∃ t, DbSys.Step I t s s' ∧ (s'.clients t).Plain

/-- The states that threads lead to that execute no DDL. -/
def DbSys.DmlReach (I : LockImpl τ) (s s' : DbSys τ I.State) : Prop :=
  Relation.ReflTransGen (DbSys.DmlStep I) s s'

theorem DbSys.DmlReach.reach {I : LockImpl τ} {s s' : DbSys τ I.State}
    (h : DbSys.DmlReach I s s') : DbSys.Reach I s s' := by
  induction h with
  | refl => exact .refl
  | tail _ hstep ih =>
    obtain ⟨t, hstep, -⟩ := hstep
    exact ih.tail ⟨t, hstep⟩

/-- A step of one thread leaves the others where they are. -/
theorem DbSys.Step.clients_of_ne {I : LockImpl τ} {s s' : DbSys τ I.State} {t u : τ}
    (hstep : DbSys.Step I t s s') (hu : u ≠ t) : s'.clients u = s.clients u := by
  cases hstep <;> simp [DbSys.goto, hu]

theorem DbSys.DmlReach.plain {I : LockImpl τ} {st : Pager} {s : DbSys τ I.State}
    (h : DbSys.DmlReach I (DbSys.init I st) s) (t : τ) : (s.clients t).Plain := by
  induction h with
  | refl => trivial
  | tail _ hstep ih =>
    obtain ⟨u, hstep, hplain⟩ := hstep
    by_cases ht : t = u
    · exact ht ▸ hplain
    · rw [hstep.clients_of_ne ht]
      exact ih

variable {hdr₀ : DbHeader} {rows₀ : RowBytes} {s s' : DbSys τ (listLocks τ).State}
  {m : Placement} {entries : List (Nat × RowRef)} {chain : HeapChain} {t : τ}

theorem Client.Quiet.target_eq {c : Client} (h : c.Quiet) : c.target = none := by
  cases c with
  | idle | returned res => rfl
  | _ => exact h.elim

theorem Client.Quiet.change_eq {c : Client} (h : c.Quiet) (hdr : DbHeader) : c.change hdr = none := by
  cases c with
  | idle | returned res => rfl
  | _ => exact h.elim

theorem start_cases {sql : CString} {c : Client} (h : Client.start sql = some c) :
    c.target = none ∧ ∀ hdr m, c.Knows hdr m := by
  rw [Client.start] at h
  split at h
  · split at h
    · obtain rfl := Option.some.inj h
      exact ⟨rfl, fun _ _ => trivial⟩
    · obtain rfl := Option.some.inj h
      exact ⟨rfl, fun _ _ => trivial⟩
  · obtain rfl := Option.some.inj h
    exact ⟨rfl, fun _ _ => trivial⟩
  · cases h

/-- **Every step keeps the invariant.** -/
theorem Consistent.step (h : Consistent hdr₀ rows₀ s m entries chain) (hl : ClientLocks s)
    (ho : OwnsLocks s) (hplain : (s.clients t).Plain)
    (hstep : DbSys.Step (listLocks τ) t s s') :
    ∃ m' entries' chain', Consistent hdr₀ rows₀ s' m' entries' chain' := by
  have hknows := h.clients t
  cases hstep with
  | start sql c quiet starts =>
    obtain ⟨htarget, hknown⟩ := start_cases starts
    have hnot := Client.counted_of_target quiet.target_eq
    refine ⟨m, entries, chain, h.pass rfl rfl (logChanges_goto s t c) .refl
      (quiet.change_eq _) hnot.1 hnot.2 (hknown _ _) htarget fun i hi => ?_⟩
    rw [quiet.target_eq] at hi
    cases hi
  | lock env instr a self asks enabled exec done =>
    rename_i req mode next r locks
    have hlog := logChanges_goto ({ s with locks } : DbSys τ (listLocks τ).State) t
      (next (decide (r = .granted)))
    cases hc : s.clients t with
    | locking stmt need =>
      rw [hc] at instr
      cases instr
      refine ⟨m, entries, chain, h.pass hc rfl (hlog.trans (by rw [hc])) .refl rfl id id ?_ ?_ nofun⟩
      · dsimp only
        split <;> trivial
      · dsimp only
        split <;> rfl
    | insertLocking stmt i =>
      rw [hc] at instr hknows
      cases instr
      by_cases hr : r = .granted
      · subst hr
        exact ⟨m, entries, chain, h.stay hc rfl (hlog.trans (by rw [hc])) .refl rfl ⟨id, id⟩ ⟨id, id⟩
          hknows (fun _ hi => .inl hi) (fun _ hi => .inl hi) fun _ hi => hi⟩
      · rw [decide_eq_false hr] at hlog ⊢
        refine ⟨m, entries, chain, h.pass hc rfl (hlog.trans (by rw [hc])) .refl rfl id id trivial rfl
          fun j hj => ?_⟩
        obtain rfl := Option.some.inj hj
        rw [Placement.Linked, hknows.2.2.1, hknows.2.2.2]
        rfl
    | scanLocking job ids i rest =>
      rw [hc] at instr hknows
      cases instr
      refine ⟨m, entries, chain, h.pass hc rfl (hlog.trans (by rw [hc])) .refl rfl id id ?_ ?_ nofun⟩
      · dsimp only
        split
        · exact knows_lockNext hknows _ _
        · trivial
      · dsimp only
        split
        · exact target_lockNext _ _ _
        · rfl
    | _ =>
      rw [hc] at instr
      cases instr
  | wait env instr a self asks enabled exec =>
    exact ⟨m, entries, chain, h.store, h.schema, h.started, h.count, h.clients, h.targets, h.linked,
      h.replayed, h.inserted, h.fresh⟩
  | enter env instr free =>
    rename_i ddl next
    have hlog := logChanges_goto s t next
    cases hc : s.clients t with
    | entering stmt =>
      rw [hc] at instr
      cases instr
      exact ⟨m, entries, chain, h.pass hc rfl (hlog.trans (by rw [hc])) .refl rfl id id trivial rfl
        nofun⟩
    | _ =>
      rw [hc] at instr
      cases instr
  | act env instr run => exact h.act hl ho hplain (actStep_of_run instr run)
  | release env instr enabled exec =>
    rename_i next r locks
    have hlog := logChanges_goto ({ s with locks } : DbSys τ (listLocks τ).State) t next
    cases hc : s.clients t with
    | releasing res =>
      rw [hc] at instr
      cases instr
      exact ⟨m, entries, chain, h.pass hc rfl (hlog.trans (by rw [hc])) .refl rfl id id trivial rfl
        nofun⟩
    | _ =>
      rw [hc] at instr
      cases instr

/-- At the start, over a database. -/
theorem Consistent.init {st : Pager} (h : RowStore st m entries chain)
    (hlinked : ∀ id, m.Linked id) (hcount : st.header.rowCount = entries.length) :
    Consistent st.header m.bytes (DbSys.init (listLocks τ) st) m entries chain where
  store := h
  schema := ⟨rfl, rfl⟩
  started := le_refl _
  count := ⟨∅, ∅, counts_empty fun _ => id, counts_empty fun _ => id, by
    rw [Finset.card_empty]
    exact congrArg (· + 0) hcount⟩
  clients := fun _ => trivial
  targets := nofun
  linked := fun id _ => hlinked id
  replayed := rfl
  inserted := ⟨List.nodup_nil, fun _ hid => absurd hid List.not_mem_nil⟩
  fresh := nofun

/-- **Every run keeps it.** -/
theorem DbSys.DmlReach.consistent {st : Pager} (h : RowStore st m entries chain)
    (hlinked : ∀ id, m.Linked id) (hcount : st.header.rowCount = entries.length)
    (hrun : DbSys.DmlReach (listLocks τ) (DbSys.init (listLocks τ) st) s) :
    ∃ m' entries' chain', Consistent st.header m.bytes s m' entries' chain' := by
  induction hrun with
  | refl => exact ⟨m, entries, chain, .init h hlinked hcount⟩
  | tail hreach hstep ih =>
    obtain ⟨m', entries', chain', hcons⟩ := ih
    obtain ⟨t, hstep, -⟩ := hstep
    have hrun := DbSys.DmlReach.reach hreach
    exact hcons.step (DbSys.Reach.clientLocks hrun) (DbSys.Reach.ownsLocks hrun)
      (DbSys.DmlReach.plain hreach t) hstep

omit [DecidableEq τ] in
/-- Where no call is running, index and heap agree on every id and the count is right. -/
theorem Consistent.quiet {L : Type} {s : DbSys τ L} (h : Consistent hdr₀ rows₀ s m entries chain)
    (hquiet : ∀ t, (s.clients t).Quiet) :
    (∀ id, m.Linked id) ∧ s.pager.header.rowCount = entries.length := by
  have htarget : ∀ t, (s.clients t).target = none := fun t => (hquiet t).target_eq
  refine ⟨fun id => h.linked id fun t ht => ?_, ?_⟩
  · rw [htarget t] at ht
    cases ht
  · obtain ⟨P, D, hP, hD, hsum⟩ := h.count
    have hnone := fun t => Client.counted_of_target (htarget t)
    rw [hP.eq_empty fun t => (hnone t).1, hD.eq_empty fun t => (hnone t).2, Finset.card_empty] at hsum
    omega

end Runs

end MiniDb
