/-
  Nimbus.Core.Consumer
  ────────────────────
  **THE OFFSETS A POLL OF THE KAFKA CONSUMER COMMITS.**

  `_poll_and_dispatch` hands the fetched records one after another to
  `_handle_message` and remembers, for each partition, the offset after the
  last record that went through.

    • `dispatchBatch`, `committedOffsets` — the loops over a poll's records;
    • `dictGet_committedOffsets`          — **of each partition, the last record
                                            that went through.**
-/
import Nimbus.Core.Messaging

namespace Nimbus.Consumer

/-! ## §1. Offsets. -/

structure TopicPartition where
  topic : String
  partition : Nat
deriving DecidableEq

/-- A fetched record, and how `_handle_message` ends for it. -/
structure Handled where
  offset : Nat
  outcome : Except Exn Unit

/-- Whether `_handle_message` has returned. -/
def Handled.ok (r : Handled) : Bool :=
  match r.outcome with
  | .ok _ => true
  | .error _ => false

/-- The inner loop of `_poll_and_dispatch`, over the records of one partition. -/
def dispatchBatch (tp : TopicPartition) :
    List Handled → List (TopicPartition × Nat) → List (TopicPartition × Nat)
  | [], committed_offsets => committed_offsets
  | record :: batch, committed_offsets =>
      match record.outcome with
      | .ok _ => dispatchBatch tp batch (dictSet committed_offsets tp (record.offset + 1))
      -- logged; the offset is not updated
      | .error _ => dispatchBatch tp batch committed_offsets

/-- The outer loop: `committed_offsets` after all records. -/
def committedOffsets (records : List (TopicPartition × List Handled)) :
    List (TopicPartition × Nat) :=
  records.foldl (fun committed_offsets tb => dispatchBatch tb.1 tb.2 committed_offsets) []

/-- The last record that went through. -/
def lastOk (batch : List Handled) : Option Handled := (batch.filter Handled.ok).getLast?

theorem dictGet_dispatchBatch (tp : TopicPartition) (batch : List Handled)
    (d : List (TopicPartition × Nat)) (tp' : TopicPartition) :
    dictGet (dispatchBatch tp batch d) tp'
      = if tp' = tp then ((lastOk batch).map fun r => r.offset + 1).or (dictGet d tp')
        else dictGet d tp' := by
  induction batch generalizing d with
  | nil =>
      show dictGet d tp' = _
      rw [show lastOk [] = none from rfl]
      split <;> rfl
  | cons record batch ih =>
      unfold dispatchBatch
      cases ho : record.outcome with
      | error exc =>
          -- the offset of a record that failed is not stored
          have hno : record.ok = false := by
            unfold Handled.ok
            rw [ho]
          have hlast : lastOk (record :: batch) = lastOk batch := by
            unfold lastOk
            rw [List.filter_cons_of_neg (by simp [hno])]
          rw [hlast]
          exact ih d
      | ok u =>
          -- a later record of the batch overwrites the offset
          have hyes : record.ok = true := by
            unfold Handled.ok
            rw [ho]
          have hlast : lastOk (record :: batch) = (lastOk batch).or (some record) := by
            unfold lastOk
            rw [List.filter_cons_of_pos hyes, List.getLast?_cons]
            cases (batch.filter Handled.ok).getLast? <;> rfl
          show dictGet (dispatchBatch tp batch (dictSet d tp (record.offset + 1))) tp' = _
          rw [ih, dictGet_dictSet, hlast]
          by_cases htp : tp' = tp
          · rw [if_pos htp, if_pos htp, if_pos htp.symm]
            cases lastOk batch <;> rfl
          · rw [if_neg htp, if_neg htp, if_neg fun hc => htp hc.symm]

/-- **What a poll commits**: for every partition the offset after the last
record that went through, if there is one. -/
theorem dictGet_committedOffsets {records : List (TopicPartition × List Handled)}
    (h : (records.map Prod.fst).Nodup) (tp : TopicPartition) :
    dictGet (committedOffsets records) tp
      = ((dictGet records tp).bind lastOk).map fun r => r.offset + 1 := by
  have general : ∀ (records : List (TopicPartition × List Handled)) (d : List (TopicPartition × Nat)),
      (records.map Prod.fst).Nodup →
      dictGet (records.foldl (fun acc tb => dispatchBatch tb.1 tb.2 acc) d) tp
        = (((dictGet records tp).bind lastOk).map fun r => r.offset + 1).or (dictGet d tp) := by
    intro records
    induction records with
    | nil => intro d _; rfl
    | cons tb records ih =>
        intro d hnodup
        obtain ⟨hfirst, hrest⟩ := List.nodup_cons.mp hnodup
        rw [List.foldl_cons, ih _ hrest, dictGet_dispatchBatch, dictGet_cons]
        by_cases htp : tb.1 = tp
        · -- the other batches are of other partitions
          have hnone : dictGet records tp = none := by
            unfold dictGet
            rw [Option.map_eq_none_iff, List.find?_eq_none]
            intro kv hkv hc
            refine hfirst ?_
            rw [htp, ← of_decide_eq_true hc]
            exact List.mem_map_of_mem hkv
          rw [if_pos htp, if_pos htp.symm, hnone]
          rfl
        · rw [if_neg htp, if_neg fun hc => htp hc.symm]
  rw [committedOffsets, general records [] h]
  exact Option.or_none

end Nimbus.Consumer
