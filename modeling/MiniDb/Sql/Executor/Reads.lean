import MiniDb.Sql.Executor.Basic
import MiniDb.Storage.ReadOnly

/-! # The paths that only read

Every SELECT, the lookups of the two scan statements that write, and EXPLAIN. -/

set_option autoImplicit false

namespace MiniDb

open Lib

section

variable {α γ : Type} {hdr : DbHeader} {stmt : Statement} {env : ExecEnv}

theorem readOnly_orUndefined (o : Option α) : ReadOnly (orUndefined o) := by
  cases o with
  | none => exact keeps_failure
  | some a => exact keeps_pure

theorem readOnly_scanMatching (push : RowValues → γ → Bool × Option γ) (ctx : γ) :
    ReadOnly (scanMatching env stmt push ctx) :=
  keeps_get.bind fun _ => (readOnly_heapScan _ _ _ _).bind fun _ => readOnly_orUndefined _

/-! ## Lookups -/

theorem readOnly_execIndexLookup : ReadOnly (execIndexLookup stmt) := by
  unfold execIndexLookup
  refine keeps_get.bind fun st => ?_
  apply (readOnly_bptreeSearch _).bind
  intro ref
  split
  · apply (readOnly_heapFetch _ _).bind
    intro row
    split
    · exact (readOnly_orUndefined _).bind fun _ => (readOnly_pagerUnlatchR _).bind fun _ =>
        keeps_pure
    · exact keeps_pure
  · exact keeps_pure

theorem readOnly_fetchMatchingRowById (id : Nat) :
    ReadOnly (fetchMatchingRowById hdr id stmt) := by
  apply (readOnly_bptreeSearch _).bind
  intro ref
  split
  · apply (readOnly_heapFetch _ _).bind
    intro row
    split
    · exact (readOnly_orUndefined _).bind fun _ => (readOnly_pagerUnlatchR _).bind fun _ =>
        keeps_pure
    · exact keeps_pure
  · exact keeps_pure

/-! ## The range scan -/

theorem readOnly_latchRowPage (cur : Option Nat) (pid : Nat) : ReadOnly (latchRowPage cur pid) := by
  unfold latchRowPage
  split
  · exact readOnly_pagerGetPageRlatch _
  · split
    · exact (readOnly_pagerUnlatchR _).bind fun _ => readOnly_pagerGetPageRlatch _
    · exact keeps_pure

theorem readOnly_fetchRange (cur : Option Nat) (refs : List RowRef) :
    ReadOnly (fetchRange hdr cur refs) := by
  induction refs generalizing cur with
  | nil =>
    cases cur with
    | none => exact keeps_pure
    | some pid => exact (readOnly_pagerUnlatchR _).bind fun _ => keeps_pure
  | cons ref refs ih =>
    apply (readOnly_latchRowPage _ _).bind
    intro _
    apply (readOnly_readHeap _).bind
    intro hph
    apply (readOnly_orUndefined _).bind
    intro slot
    split
    · apply (readOnly_orUndefined _).bind
      intro row
      apply (readOnly_orUndefined _).bind
      intro values
      exact (ih _).bind fun _ => keeps_pure
    · exact ih _

theorem readOnly_execIndexRangeScan : ReadOnly (execIndexRangeScan env stmt) := by
  unfold execIndexRangeScan
  refine keeps_get.bind fun st => ?_
  split
  · exact keeps_pure
  · apply (readOnly_bptreeRangeScan _ _ _).bind
    intro found
    apply (readOnly_orUndefined _).bind
    intro rc
    split
    · exact keeps_pure
    · exact (readOnly_fetchRange _ _).bind fun _ => keeps_pure

/-! ## The table scan -/

theorem readOnly_printOrdered (cmp : RowValues → RowValues → Option Int) (rows : List RowValues) :
    ReadOnly (printOrdered hdr cmp stmt rows) := by
  unfold printOrdered
  dsimp only
  split
  · exact (readOnly_orUndefined _).bind fun _ => keeps_pure
  · exact (keeps_pure (a := rows)).bind fun _ => keeps_pure

theorem readOnly_execOrderedScan : ReadOnly (execOrderedScan env stmt) := by
  unfold execOrderedScan
  refine keeps_get.bind fun st => ?_
  dsimp only
  split
  · exact keeps_pure
  · split
    · split
      · exact keeps_pure
      · exact (readOnly_scanMatching _ _).bind fun _ => readOnly_printOrdered _ _
    · split
      · exact keeps_pure
      · apply (readOnly_scanMatching _ _).bind
        intro rc
        split
        · exact keeps_pure
        · exact readOnly_printOrdered _ _

theorem readOnly_execTableScan : ReadOnly (execTableScan env stmt) := by
  unfold execTableScan
  refine keeps_get.bind fun st => ?_
  split
  · split
    · exact keeps_pure
    · exact (readOnly_scanMatching _ _).bind fun _ => keeps_pure
  · split
    · exact keeps_pure
    · split
      · exact readOnly_execOrderedScan
      · exact (readOnly_scanMatching _ _).bind fun _ => keeps_pure

theorem readOnly_execExplain : ReadOnly (execExplain stmt) := keeps_pure

end

end MiniDb
