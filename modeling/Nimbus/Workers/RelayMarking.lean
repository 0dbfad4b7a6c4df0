/-
  Nimbus.Workers.RelayMarking
  ───────────────────────────
  **WHICH ROWS A RELAY MARKS AS PROCESSED.**

  `_publish_batch` tells `_mark_batch` how many rows were acknowledged, not
  which.  `_mark_batch` skips the rows that have failed and marks that many of
  the others from the front: a row whose publish raised an unexpected error is
  still among them.  When such a row comes before an acknowledged one, it is
  marked in its place, and its event is lost.

    • `Recorded`    — every processed row has been acknowledged;
    • `commit_iff`  — **one commit marks the acknowledged rows exactly when no
                        unexpected error comes before an acknowledgement**;
    • `relay_marks` — the same for every commit of every run, and runs where
                        every commit meets the condition lose nothing.
-/
import Nimbus.Workers.RelayRuns

namespace Nimbus.OutboxRelay

open Lib

variable {τ : Type} [DecidableEq τ] {settings : Settings}

/-! ## §1. One commit. -/

/-- The rows of the batch that are processed are those it has acknowledged. -/
def MarksAcked (settings : Settings) (k : Tick) (T : Table OutboxEvent) : Prop :=
  ∀ x ∈ k.batch, (∃ e, T.lookup x.1.id = some e ∧ e.processed = true)
    ↔ (outcomeOf settings x).isAcked = true

/-- **One commit.** -/
theorem commit_iff {P P' : State τ} {t : τ} {now : Int} {k : Tick} (hP : Locked P)
    (hk : P.tick t = some k) (h : step settings P (.commit t now) = some P') :
    MarksAcked settings k P'.table ↔ AcksFirst settings k.batch := by
  obtain ⟨rows, hlen, hrows, rfl⟩ := commit_cases hk h
  have hfresh : ∀ x ∈ k.batch, Fresh x.1 :=
    fun x hx => (hP.rows t k hk x.1 (Tick.row_mem hx)).2.2
  have hfound : ∀ {x row}, (x, row) ∈ k.batch.zip rows →
      (P.table.upsertAll rows).lookup x.1.id = some row :=
    fun hx => lookup_committed P.table (hP.nodup t k hk) hlen hrows hx
  -- the rows of the batch one by one, against their ids in the table
  rw [← marks_iff hfresh hrows, List.forall₂_iff_zip]
  constructor
  · intro hmarks
    refine ⟨(List.forall₂_iff_zip.mp (tickRows_settles hrows)).1, fun {x row} hx => ?_⟩
    have hx' := hmarks x (List.of_mem_zip hx).1
    constructor
    · intro hp
      exact hx'.mp ⟨row, hfound hx, hp⟩
    · intro hack
      obtain ⟨e, he, hp⟩ := hx'.mpr hack
      obtain rfl := Option.some.inj ((hfound hx).symm.trans he)
      exact hp
  · intro hall x hx
    obtain ⟨row, hzip⟩ := exists_committed hrows hx
    have hright := hall.2 hzip
    constructor
    · intro he
      obtain ⟨e, he, hp⟩ := he
      obtain rfl := Option.some.inj ((hfound hzip).symm.trans he)
      exact hright.mp hp
    · intro hack
      exact ⟨row, hfound hzip, hright.mpr hack⟩

/-! ## §2. Every run. -/

/-- What has been acknowledged is recorded as such, and every processed row has
been acknowledged. -/
structure Recorded (settings : Settings) (P : State τ) : Prop where
  locked : Locked P
  open_ticks : ∀ t k, P.tick t = some k → ∀ x ∈ k.batch,
    (outcomeOf settings x).isAcked = true → x.1.id ∈ P.acked
  processed : ∀ id e, P.table.lookup id = some e → e.processed = true → id ∈ P.acked

/-- The commits of a step mark the right rows. -/
def CommitsAcksFirst (settings : Settings) (P : State τ) (a : Action τ) : Prop :=
  ∀ t now k, a = .commit t now → P.tick t = some k → (step settings P a).isSome = true →
    AcksFirst settings k.batch

/-- **A step that marks the right rows keeps the record.** -/
theorem Recorded.step {P P' : State τ} {a : Action τ} (hP : Recorded settings P)
    (hC : CommitsAcksFirst settings P a) (h : OutboxRelay.step settings P a = some P') :
    Recorded settings P' := by
  refine ⟨hP.locked.step h, Logged.step hP.open_ticks h, fun id e he hp => ?_⟩
  rcases step_cases h with ⟨e', rfl, hnew, -, rfl⟩ | ⟨t, ids, rfl, -, -, -, rfl⟩ |
    ⟨t, answer, k, row, rfl, hk, hnext, rfl⟩ | ⟨t, now, k, rows, rfl, hk, hlen, hrows, hP'⟩ |
    ⟨t, k, rfl, -, rfl⟩
  · -- a producer commits a row
    by_cases hid : id = e'.id
    · rw [hid] at he
      obtain rfl := Option.some.inj ((Table.lookup_upsert_self rfl).symm.trans he)
      exact absurd (hnew.1.symm.trans hp) (by decide)
    · have hbefore : P.table.lookup id = some e := (Table.lookup_upsert_ne hid).symm.trans he
      exact hP.processed id e hbefore hp
  · exact hP.processed id e he hp
  · exact acked_mono h (hP.processed id e he hp)
  · -- a tick commits
    have hmarks := (commit_iff hP.locked hk h).mpr (hC t now k rfl hk (h ▸ rfl))
    subst hP'
    by_cases hid : id ∈ k.rows.map (·.id)
    · rw [← Tick.batch_ids hlen] at hid
      obtain ⟨x, hx, rfl⟩ := List.mem_map.mp hid
      exact hP.open_ticks t k hk x hx ((hmarks x hx).mp ⟨e, he, hp⟩)
    · have hbefore : P.table.lookup id = some e :=
        (lookup_uncommitted P.table hlen hrows hid).symm.trans he
      exact hP.processed id e hbefore hp
  · exact hP.processed id e he hp

/-- **Which rows a relay marks.**  In every run, a commit marks exactly the rows
its tick has acknowledged if and only if no unexpected error comes before an
acknowledgement in its batch; and where all commits of a run are such, every
processed row of every state has been acknowledged. -/
theorem relay_marks {T : Table OutboxEvent} (hT : ∀ e ∈ T.rows, e.processed = false)
    (as : List (Action τ)) :
    (∀ t now k P', (relayRun settings T as).tick t = some k →
        step settings (relayRun settings T as) (.commit t now) = some P' →
        (MarksAcked settings k P'.table ↔ AcksFirst settings k.batch))
    ∧ ((machine settings).Along (CommitsAcksFirst settings) (State.init T) as →
        ∀ P ∈ (machine settings).trace (State.init T) as,
          ∀ e ∈ P.table.rows, e.processed = true → e.id ∈ P.acked) := by
  refine ⟨fun t now k P' hk h => commit_iff (locked_run settings T as) hk h, fun halong P hmem e he hp => ?_⟩
  have hinit : Recorded settings (State.init T : State τ) := by
    refine ⟨locked_init T, fun _ _ hk => (nomatch hk), fun id e he hp => ?_⟩
    exact absurd ((hT e (Table.mem_of_lookup he)).symm.trans hp) (by decide)
  have hP := (machine settings).run_invariant_along (I := Recorded settings)
    (C := CommitsAcksFirst settings) (fun _ _ _ hP hC h => hP.step hC h) as _ hinit halong P hmem
  exact hP.processed e.id e (Table.lookup_some_iff.mpr ⟨he, rfl⟩) hp

/-- The first row meets an unexpected error, the second one is acknowledged. -/
def crashedFirst : List (Action Nat) :=
  [.claim 0 [Uuid.ofNat 1, Uuid.ofNat 2], .publish 0 crashed, .publish 0 acknowledged]

/-- And the tick commits. -/
def lostRun : List (Action Nat) := crashedFirst ++ [.commit 0 7]

/-- The first row is processed, and nobody has acknowledged it. -/
theorem relay_marks_fails_lost :
    ¬ ∀ P ∈ (machine relaySettings).trace (State.init twoRows) lostRun,
        ∀ e ∈ P.table.rows, e.processed = true → e.id ∈ P.acked := by
  intro h
  have hend := h _ (Machine.run_mem_trace _ _ lostRun)
  have hrow : (((relayRun relaySettings twoRows lostRun).table.lookup (Uuid.ofNat 1)).map
      (·.processed), (relayRun relaySettings twoRows lostRun).acked)
        = (some true, [Uuid.ofNat 2]) := by
    decide +kernel
  obtain ⟨hprocessed, hacked⟩ := Prod.mk.inj hrow
  obtain ⟨e, he, hp⟩ := Option.map_eq_some_iff.mp hprocessed
  have hmem := hend e (Table.mem_of_lookup he) hp
  have hid : e.id = Uuid.ofNat 1 := Table.key_of_lookup he
  have hnot : Uuid.ofNat 1 ∈ (relayRun relaySettings twoRows lostRun).acked := hid ▸ hmem
  rw [hacked] at hnot
  exact absurd hnot (by decide)

/-- The first row is acknowledged, the second one meets an unexpected error. -/
def ackedFirst : List (Action Nat) :=
  [.claim 0 [Uuid.ofNat 1, Uuid.ofNat 2], .publish 0 acknowledged, .publish 0 crashed, .commit 0 7]

theorem crashedFirst_commits : ∃ k P',
    (relayRun relaySettings twoRows crashedFirst).tick 0 = some k
      ∧ step relaySettings (relayRun relaySettings twoRows crashedFirst) (.commit 0 7) = some P'
      ∧ ¬ AcksFirst relaySettings k.batch :=
  ⟨_, _, rfl, rfl, by decide +kernel⟩

theorem ackedFirst_along :
    (machine relaySettings).Along (CommitsAcksFirst relaySettings) (State.init twoRows) ackedFirst := by
  refine ⟨?_, ?_, ?_, ?_, trivial⟩
  · intro t now k ha
    cases ha
  · intro t now k ha
    cases ha
  · intro t now k ha
    cases ha
  · intro t now k ha hk _
    cases ha
    cases hk
    decide +kernel

/-- The one commit marks other rows than those acknowledged; the other run records
nothing that was not. -/
theorem relay_marks_two :
    (∃ k P', (relayRun relaySettings twoRows crashedFirst).tick 0 = some k
      ∧ step relaySettings (relayRun relaySettings twoRows crashedFirst) (.commit 0 7) = some P'
      ∧ ¬ MarksAcked relaySettings k P'.table)
    ∧ ∀ P ∈ (machine relaySettings).trace (State.init twoRows) ackedFirst,
        ∀ e ∈ P.table.rows, e.processed = true → e.id ∈ P.acked := by
  obtain ⟨k, P', hk, hcommit, hnot⟩ := crashedFirst_commits
  have hT : ∀ e ∈ twoRows.rows, e.processed = false := fun e he => (twoRows_new e he).1
  exact ⟨⟨k, P', hk, hcommit, fun hmarks =>
      hnot (((relay_marks hT crashedFirst).1 0 7 k P' hk hcommit).mp hmarks)⟩,
    (relay_marks hT ackedFirst).2 ackedFirst_along⟩

end Nimbus.OutboxRelay
