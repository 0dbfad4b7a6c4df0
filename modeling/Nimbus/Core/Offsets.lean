/-
  Nimbus.Core.Offsets
  ───────────────────
  **WHICH OFFSETS A CONSUMER COMMITS.**

  A poll commits, for each partition, the offset after the last record that
  went through; a record before it that raised is passed over.  From then on
  the group does not fetch that record again, whether or not the consumer is
  restarted.

    • `Group`, `step`   — in-memory positions, committed offsets, deliveries;
    • `OnlyRaised`      — a record that has never gone through;
    • `Safe`            — no such record is before a committed offset;
    • `offsets_iff`     — **a run is safe exactly when no poll whose commit goes
                          through handles a record after such a record.**
-/
import Nimbus.Core.Consumer
import Nimbus.Lib.Machine

namespace Nimbus.Consumer

open Lib

/-! ## §1. The group. -/

/-- A consumer of a group: where it fetches next, what the group has committed,
and every delivery so far. -/
structure Group where
  position : TopicPartition → Nat
  committed : TopicPartition → Nat
  delivered : List (TopicPartition × Handled)

/-- A consumer that has just been started. -/
def Group.init (committed : TopicPartition → Nat) : Group := ⟨committed, committed, []⟩

inductive GroupAction where
  /-- `_poll_and_dispatch`: what `getmany` returns and how each record ends, and
  whether the commit goes through. -/
  | poll (records : List (TopicPartition × List Handled)) (committed : Bool)
  | restart

/-- What `getmany` may return: records of distinct partitions, in the order of
their offsets, none before the position. -/
structure Fetched (G : Group) (records : List (TopicPartition × List Handled)) : Prop where
  nodup : (records.map Prod.fst).Nodup
  sorted : ∀ tb ∈ records, tb.2.Pairwise fun r r' => r.offset < r'.offset
  position : ∀ tb ∈ records, ∀ r ∈ tb.2, G.position tb.1 ≤ r.offset

instance (G : Group) (records : List (TopicPartition × List Handled)) :
    Decidable (Fetched G records) :=
  decidable_of_iff ((records.map Prod.fst).Nodup
      ∧ (∀ tb ∈ records, tb.2.Pairwise fun r r' => r.offset < r'.offset)
      ∧ ∀ tb ∈ records, ∀ r ∈ tb.2, G.position tb.1 ≤ r.offset)
    ⟨fun ⟨h₁, h₂, h₃⟩ => ⟨h₁, h₂, h₃⟩, fun h => ⟨h.nodup, h.sorted, h.position⟩⟩

/-- The deliveries of a poll. -/
def deliveries (records : List (TopicPartition × List Handled)) : List (TopicPartition × Handled) :=
  records.flatMap fun tb => tb.2.map fun r => (tb.1, r)

/-- Where the consumer fetches after `batch`. -/
def nextPosition (position : Nat) (batch : Option (List Handled)) : Nat :=
  ((batch.bind List.getLast?).map fun r => r.offset + 1).getD position

def step (G : Group) : GroupAction → Option Group
  | .poll records committed =>
      if Fetched G records then some {
        position := fun tp => nextPosition (G.position tp) (dictGet records tp)
        committed := fun tp =>
          if committed then (dictGet (committedOffsets records) tp).getD (G.committed tp)
          else G.committed tp
        delivered := G.delivered ++ deliveries records }
      else none
  -- a restarted consumer resumes at the committed offsets
  | .restart => some { G with position := G.committed }

def groupMachine : Machine Group GroupAction := ⟨step⟩

/-! ## §2. Records that have never gone through. -/

/-- The record at `offset` has been delivered, and has raised every time. -/
def OnlyRaised (delivered : List (TopicPartition × Handled)) (tp : TopicPartition) (offset : Nat) :
    Prop :=
  (∃ r, (tp, r) ∈ delivered ∧ r.offset = offset)
    ∧ ∀ r, (tp, r) ∈ delivered → r.offset = offset → r.ok = false

/-- No committed offset is past such a record. -/
def Safe (G : Group) : Prop :=
  ∀ tp offset, OnlyRaised G.delivered tp offset → G.committed tp ≤ offset

/-- The action is a poll whose commit goes through and that handles a record
after one of its partition that has never gone through. -/
def PassesUnhandled (G : Group) (a : GroupAction) : Prop :=
  ∃ records, a = .poll records true ∧ Fetched G records
    ∧ ∃ tb ∈ records, ∃ r ∈ tb.2, r.ok = true
      ∧ ∃ offset < r.offset, OnlyRaised (G.delivered ++ deliveries records) tb.1 offset

theorem mem_deliveries {records : List (TopicPartition × List Handled)} {tp : TopicPartition}
    {r : Handled} : (tp, r) ∈ deliveries records ↔ ∃ batch, (tp, batch) ∈ records ∧ r ∈ batch := by
  unfold deliveries
  rw [List.mem_flatMap]
  constructor
  · intro h
    obtain ⟨tb, htb, hr⟩ := h
    obtain ⟨r', hr', heq⟩ := List.mem_map.mp hr
    obtain ⟨rfl, rfl⟩ := Prod.mk.inj heq
    exact ⟨tb.2, htb, hr'⟩
  · intro h
    obtain ⟨batch, hb, hr⟩ := h
    exact ⟨(tp, batch), hb, List.mem_map.mpr ⟨r, hr, rfl⟩⟩

/-- The last record that went through is one of the batch. -/
theorem lastOk_mem {batch : List Handled} {r : Handled} (h : lastOk batch = some r) :
    r ∈ batch ∧ r.ok = true := by
  have hmem : r ∈ batch.filter Handled.ok := List.mem_of_getLast? h
  exact ⟨List.mem_of_mem_filter hmem, List.of_mem_filter hmem⟩

theorem getLast?_max {l : List Handled} (hs : l.Pairwise fun r r' => r.offset < r'.offset)
    {r r' : Handled} (hlast : l.getLast? = some r) (hmem : r' ∈ l) : r'.offset ≤ r.offset := by
  obtain ⟨front, rfl⟩ := List.getLast?_eq_some_iff.mp hlast
  rcases List.mem_append.mp hmem with h | h
  · have hlt := (List.pairwise_append.mp hs).2.2 r' h r List.mem_cons_self
    omega
  · rw [List.mem_singleton.mp h]

/-- It is the one with the greatest offset. -/
theorem lastOk_max {batch : List Handled} (hs : batch.Pairwise fun r r' => r.offset < r'.offset)
    {r r' : Handled} (hlast : lastOk batch = some r) (hmem : r' ∈ batch) (hok : r'.ok = true) :
    r'.offset ≤ r.offset :=
  getLast?_max (hs.sublist List.filter_sublist) hlast (List.mem_filter.mpr ⟨hmem, hok⟩)

theorem lastOk_isSome {batch : List Handled} {r : Handled} (hmem : r ∈ batch) (hok : r.ok = true) :
    ∃ r', lastOk batch = some r' := by
  have hne : batch.filter Handled.ok ≠ [] := List.ne_nil_of_mem (List.mem_filter.mpr ⟨hmem, hok⟩)
  exact ⟨_, List.getLast?_eq_some_getLast hne⟩

/-! ## §3. One step. -/

/-- Nothing committed is still to be fetched. -/
def Behind (G : Group) : Prop := ∀ tp, G.committed tp ≤ G.position tp

theorem le_nextPosition {G : Group} {records : List (TopicPartition × List Handled)}
    (hf : Fetched G records) (tp : TopicPartition) :
    G.position tp ≤ nextPosition (G.position tp) (dictGet records tp) := by
  unfold nextPosition
  cases hb : dictGet records tp with
  | none => exact le_refl _
  | some batch =>
      have hmem : (tp, batch) ∈ records := (dictGet_eq_some hf.nodup).mp hb
      cases hl : batch.getLast? with
      | none => simp [hl]
      | some r =>
          have hr := hf.position _ hmem r (List.mem_of_getLast? hl)
          simp only [Option.bind_some, hl, Option.map_some, Option.getD_some]
          show G.position tp ≤ r.offset + 1
          change G.position tp ≤ r.offset at hr
          omega

/-- What a poll commits is not past what it has fetched. -/
theorem lastOk_lt_nextPosition {G : Group} {records : List (TopicPartition × List Handled)}
    (hf : Fetched G records) {tp : TopicPartition} {batch : List Handled} {r : Handled}
    (hb : dictGet records tp = some batch) (hr : lastOk batch = some r) :
    r.offset + 1 ≤ nextPosition (G.position tp) (dictGet records tp) := by
  have hmem : (tp, batch) ∈ records := (dictGet_eq_some hf.nodup).mp hb
  have hin := (lastOk_mem hr).1
  unfold nextPosition
  rw [hb]
  have hl : batch.getLast? = some (batch.getLast (List.ne_nil_of_mem hin)) :=
    List.getLast?_eq_some_getLast _
  have hle := getLast?_max (hf.sorted _ hmem) hl hin
  simp only [Option.bind_some, hl, Option.map_some, Option.getD_some]
  omega

/-- The offset committed for `tp` by a poll whose commit goes through. -/
theorem committed_poll {G : Group} {records : List (TopicPartition × List Handled)}
    (hf : Fetched G records) (tp : TopicPartition) :
    (dictGet (committedOffsets records) tp).getD (G.committed tp) = G.committed tp
      ∨ ∃ batch r, (tp, batch) ∈ records ∧ dictGet records tp = some batch
        ∧ lastOk batch = some r
        ∧ (dictGet (committedOffsets records) tp).getD (G.committed tp) = r.offset + 1 := by
  rw [dictGet_committedOffsets hf.nodup]
  cases hb : dictGet records tp with
  | none => exact Or.inl rfl
  | some batch =>
      cases hr : lastOk batch with
      | none =>
          refine Or.inl ?_
          simp [hr]
      | some r =>
          refine Or.inr ⟨batch, r, (dictGet_eq_some hf.nodup).mp hb, rfl, hr, ?_⟩
          simp [hr]

/-- No step commits past the position. -/
theorem Behind.step {G G' : Group} {a : GroupAction} (hb : Behind G)
    (h : groupMachine.step G a = some G') : Behind G' := by
  cases a with
  | restart =>
      obtain rfl := Option.some.inj h
      -- a restart goes back to the committed offsets
      intro tp
      exact le_refl _
  | poll records committed =>
      change (if Fetched G records then _ else _) = _ at h
      by_cases hf : Fetched G records
      · rw [if_pos hf] at h
        obtain rfl := Option.some.inj h
        intro tp
        -- fetching goes on from the position, never back
        have hold : G.committed tp ≤ nextPosition (G.position tp) (dictGet records tp) :=
          (hb tp).trans (le_nextPosition hf tp)
        show (if committed then _ else _) ≤ nextPosition (G.position tp) (dictGet records tp)
        cases committed with
        | false => exact hold
        | true =>
            -- what is committed lies in the batch that was fetched
            rw [if_pos rfl]
            rcases committed_poll hf tp with hsame | ⟨batch, r, -, hget, hlast, hnew⟩
            · rw [hsame]
              exact hold
            · rw [hnew]
              exact lastOk_lt_nextPosition hf hget hlast
      · rw [if_neg hf] at h
        exact (nomatch h)

/-- A record that has only raised after a poll was not before the committed
offset when the poll began. -/
theorem committed_le_of_onlyRaised {G : Group} {records : List (TopicPartition × List Handled)}
    (hb : Behind G) (hs : Safe G) (hf : Fetched G records) {tp : TopicPartition} {offset : Nat}
    (h : OnlyRaised (G.delivered ++ deliveries records) tp offset) : G.committed tp ≤ offset := by
  obtain ⟨⟨r, hr, ho⟩, hraised⟩ := h
  rcases List.mem_append.mp hr with hold | hnew
  · -- delivered before, and it has only raised then too
    refine hs tp offset ⟨⟨r, hold, ho⟩, fun r' hr' => ?_⟩
    exact hraised r' (List.mem_append_left _ hr')
  · -- fetched by this poll, so not before the position
    obtain ⟨batch, hbatch, hin⟩ := mem_deliveries.mp hnew
    have hpos := hf.position _ hbatch r hin
    have hcom := hb tp
    change G.position tp ≤ r.offset at hpos
    omega

/-- **One step** commits past a record that has only raised exactly when it is a
poll that handles a record after one. -/
theorem safe_step {G : Group} (hb : Behind G) (hs : Safe G) (a : GroupAction) :
    Safe (groupMachine.next G a) ↔ ¬ PassesUnhandled G a := by
  cases a with
  | restart =>
      refine iff_of_true (fun tp offset h => hs tp offset h) ?_
      intro hpass
      obtain ⟨records, ha, -⟩ := hpass
      exact (nomatch ha)
  | poll records committed =>
      by_cases hf : Fetched G records
      · have hnext : groupMachine.next G (.poll records committed) = {
            position := fun tp => nextPosition (G.position tp) (dictGet records tp)
            committed := fun tp =>
              if committed then (dictGet (committedOffsets records) tp).getD (G.committed tp)
              else G.committed tp
            delivered := G.delivered ++ deliveries records } :=
          groupMachine.next_of_step (if_pos hf)
        rw [hnext]
        constructor
        · intro hsafe hpass
          obtain ⟨records', ha, -, tb, htb, r, hr, hok, offset, hlt, hraised⟩ := hpass
          obtain ⟨rfl, rfl⟩ := GroupAction.poll.inj ha
          -- the last record that went through is committed, and `offset` is before it
          have hle := hsafe tb.1 offset hraised
          obtain ⟨r', hr'⟩ := lastOk_isSome hr hok
          have hmax := lastOk_max (hf.sorted tb htb) hr' hr hok
          have hget : dictGet records tb.1 = some tb.2 := (dictGet_eq_some hf.nodup).mpr htb
          change (dictGet (committedOffsets records) tb.1).getD (G.committed tb.1) ≤ offset at hle
          rw [dictGet_committedOffsets hf.nodup, hget] at hle
          simp only [Option.bind_some, hr', Option.map_some, Option.getD_some] at hle
          omega
        · intro hno tp offset hraised
          have hold := committed_le_of_onlyRaised hb hs hf hraised
          show (if committed then _ else _) ≤ offset
          cases committed with
          | false => exact hold
          | true =>
              rw [if_pos rfl]
              rcases committed_poll hf tp with hsame | ⟨batch, r, hmem, -, hlast, hnew⟩
              · rw [hsame]
                exact hold
              · rw [hnew]
                obtain ⟨hin, hok⟩ := lastOk_mem hlast
                by_contra hgt
                rcases Nat.lt_or_eq_of_le (Nat.le_of_lt_succ (Nat.lt_of_not_le hgt)) with hlt | heq
                · exact hno ⟨records, rfl, hf, (tp, batch), hmem, r, hin, hok, offset, hlt, hraised⟩
                · -- the record at that offset went through
                  have hr : (tp, r) ∈ G.delivered ++ deliveries records :=
                    List.mem_append_right _ (mem_deliveries.mpr ⟨batch, hmem, hin⟩)
                  have hnok := hraised.2 r hr heq.symm
                  rw [hok] at hnok
                  exact (nomatch hnok)
      · have hnext : groupMachine.next G (.poll records committed) = G :=
          groupMachine.next_of_none (if_neg hf)
        rw [hnext]
        refine iff_of_true hs ?_
        intro hpass
        obtain ⟨records', ha, hf', -⟩ := hpass
        obtain ⟨rfl, -⟩ := GroupAction.poll.inj ha
        exact hf hf'

/-! ## §4. Runs. -/

/-- **A run never commits past a record that has only raised** exactly when none
of its polls, with its commit going through, handles a record after one. -/
theorem offsets_iff (committed : TopicPartition → Nat) (as : List GroupAction) :
    (∀ G ∈ groupMachine.trace (Group.init committed) as, Safe G)
      ↔ groupMachine.Along (fun G a => ¬ PassesUnhandled G a) (Group.init committed) as := by
  refine groupMachine.trace_forall_iff_along (I := Behind) (G := Safe)
    (fun G a G' hb h => hb.step h) (fun G a hb hs => safe_step hb hs a) as _ ?_ ?_
  · intro tp
    exact le_refl _
  · intro tp offset h
    obtain ⟨⟨r, hr, -⟩, -⟩ := h
    exact (nomatch hr)

/-! ### A failure followed by a success. -/

def onePartition : TopicPartition := ⟨"payments.events", 0⟩

/-- The first record raises, the second one goes through. -/
def raisedThenHandled : List (TopicPartition × List Handled) :=
  [(onePartition, [⟨0, .error ⟨.foreign "OperationalError", "", []⟩⟩, ⟨1, .ok ()⟩])]

/-- The poll commits offset 2, although the record at offset 0 has only raised. -/
theorem offsets_fails :
    ∃ G ∈ groupMachine.trace (Group.init fun _ => 0) [.poll raisedThenHandled true],
      OnlyRaised G.delivered onePartition 0 ∧ G.committed onePartition = 2 := by
  refine ⟨_, List.mem_cons_of_mem _ List.mem_cons_self, ⟨⟨_, List.mem_cons_self, rfl⟩, ?_⟩, by decide⟩
  intro r hr ho
  rcases List.mem_cons.mp hr with heq | hr
  · rw [(Prod.mk.inj heq).2]
    rfl
  · rcases List.mem_cons.mp hr with heq | hr
    · rw [(Prod.mk.inj heq).2] at ho
      exact (nomatch ho)
    · exact (nomatch hr)

end Nimbus.Consumer
