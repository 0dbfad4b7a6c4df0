/-
  Nimbus.Workers.RelayStats
  ─────────────────────────
  **WHAT THE RELAYS REPORT.**

  Each relay counts for itself what its ticks have done (`RelayStats`): a counter
  is raised when a tick begins, and the others only when it ends, in one way for
  an empty queue, in another for an outage, in a third after the commit, and not
  at all when the claim or the commit has failed.  The counters of all relays
  together say what has become of the table.

    • `RelayStats`    — the counters of one relay;
    • `Counted.step`  — `_tick` with its counters, side by side with the others;
    • `tickRows_failed`, `tickRows_attempts` — what a commit does to the table is
                        what the batch has counted;
    • `stats_account` — **the counters of all relays account for the table.**
-/
import Nimbus.Workers.RelayProgress
import Mathlib.Algebra.BigOperators.Fin
import Mathlib.Data.Fintype.BigOperators

namespace Nimbus.OutboxRelay

open Lib

variable {settings : Settings}

/-! ## §1. The counters of a batch. -/

/-- The rows whose publish has raised an exception that the loop goes on after. -/
def raisedCount (settings : Settings) (batch : List (OutboxEvent × Answer)) : Nat :=
  batch.countP fun x => (outcomeOf settings x).isPermanent || (outcomeOf settings x).isUnexpected

/-- **What the loop counts while the broker is there**: `failed` for every exception,
`poison` for every row that it marks as failed. -/
theorem publishRows_failed {batch : List (OutboxEvent × Answer)} (h : Available settings batch)
    (hfresh : ∀ x ∈ batch, Fresh x.1) (total : Nat) (r : BatchResult) :
    (publishRows settings total batch r).failed = r.failed + raisedCount settings batch
      ∧ (publishRows settings total batch r).poison = r.poison + failedCount settings batch := by
  induction batch generalizing r with
  | nil => exact ⟨rfl, rfl⟩
  | cons x batch ih =>
      obtain ⟨row, answer⟩ := x
      have ih' := fun r => ih h.tail (fun y hy => hfresh y (List.mem_cons_of_mem _ hy)) r
      have hx := h (row, answer) List.mem_cons_self
      have hrow : row.failed = false := (hfresh (row, answer) List.mem_cons_self).2
      have hone : assigned settings (row, answer) = (outcome settings row answer).assign row := rfl
      have hraised : raisedCount settings ((row, answer) :: batch) = raisedCount settings batch
          + if (outcome settings row answer).isPermanent
              || (outcome settings row answer).isUnexpected then 1 else 0 := List.countP_cons
      have hfailed : failedCount settings ((row, answer) :: batch) = failedCount settings batch
          + if (assigned settings (row, answer)).failed then 1 else 0 := List.countP_cons
      unfold outcomeOf at hx
      unfold publishRows
      rw [hraised, hfailed, hone]
      cases ho : outcome settings row answer with
      | unavailable exc =>
          rw [ho] at hx
          cases hx
      | exceeded =>
          obtain ⟨hf, hp⟩ := ih' { r with
            rows := r.rows ++ [Outcome.exceeded.assign row], poison := r.poison + 1 }
          simp only [hf, hp]
          simp [Outcome.isPermanent, Outcome.isUnexpected, Outcome.assign]
          omega
      | acked =>
          obtain ⟨hf, hp⟩ := ih' { r with
            rows := r.rows ++ [Outcome.acked.assign row], published := r.published + 1 }
          simp only [hf, hp]
          simp [Outcome.isPermanent, Outcome.isUnexpected, Outcome.assign, hrow]
      | permanent exc =>
          obtain ⟨hf, hp⟩ := ih' { r with
            rows := r.rows ++ [(Outcome.permanent exc).assign row]
            failed := r.failed + 1
            poison := r.poison + 1 }
          simp only [hf, hp]
          simp [Outcome.isPermanent, Outcome.isUnexpected, Outcome.assign]
          omega
      | unexpected exc =>
          obtain ⟨hf, hp⟩ := ih' { r with
            rows := r.rows ++ [(Outcome.unexpected exc).assign row], failed := r.failed + 1 }
          simp only [hf, hp]
          simp [Outcome.isPermanent, Outcome.isUnexpected, Outcome.assign, hrow]
          omega

/-- A claimed row has one outcome of three kinds, or was passed over. -/
theorem counts_partition {batch : List (OutboxEvent × Answer)} (h : Available settings batch)
    (hfresh : ∀ x ∈ batch, Fresh x.1) :
    ackedCount settings batch + failedCount settings batch ≤ batch.length
      ∧ batch.length
        ≤ ackedCount settings batch + raisedCount settings batch + failedCount settings batch := by
  refine ⟨acked_failed_le h hfresh, ?_⟩
  induction batch with
  | nil => exact Nat.le_refl 0
  | cons x batch ih =>
      have hrest := ih h.tail fun y hy => hfresh y (List.mem_cons_of_mem _ hy)
      have hx := h x List.mem_cons_self
      have hcount : ackedCount settings (x :: batch) = ackedCount settings batch
          + if (outcomeOf settings x).isAcked then 1 else 0 := List.countP_cons
      have hraised : raisedCount settings (x :: batch) = raisedCount settings batch
          + if (outcomeOf settings x).isPermanent || (outcomeOf settings x).isUnexpected
              then 1 else 0 := List.countP_cons
      have hfailed : failedCount settings (x :: batch) = failedCount settings batch
          + if (assigned settings x).failed then 1 else 0 := List.countP_cons
      rw [hcount, hraised, hfailed, List.length_cons]
      have ha : assigned settings x = (outcomeOf settings x).assign x.1 := rfl
      rw [ha]
      cases ho : outcomeOf settings x with
      | unavailable exc =>
          rw [ho] at hx
          cases hx
      | _ =>
          simp only [Outcome.isAcked, Outcome.isPermanent, Outcome.isUnexpected, Outcome.assign]
          simp
          omega

/-! ## §2. What a commit does to the table. -/

/-- A commit marks as failed what the loop has marked. -/
theorem tickRows_failed {batch : List (OutboxEvent × Answer)} {now : Int} {rows : List OutboxEvent}
    (h : tickRows settings batch now = some rows) :
    rows.countP (fun row => row.failed) = failedCount settings batch := by
  have hsettles := tickRows_settles h
  clear h
  unfold failedCount
  induction hsettles with
  | nil => rfl
  | cons hs _ ih => rw [List.countP_cons, List.countP_cons, ih, hs.fields.1]

/-- The attempts that a list of rows has used. -/
def attempts (rows : List OutboxEvent) : Int := (rows.map fun row => row.attempt_count).sum

/-- A commit counts one attempt for every exception. -/
theorem tickRows_attempts {batch : List (OutboxEvent × Answer)} {now : Int}
    {rows : List OutboxEvent} (h : tickRows settings batch now = some rows) :
    attempts rows = attempts (batch.map Prod.fst) + raisedCount settings batch := by
  have hsettles := tickRows_settles h
  clear h
  unfold attempts raisedCount
  induction hsettles with
  | nil => rfl
  | @cons x row batch rows hs _ ih =>
      have hone : row.attempt_count = x.1.attempt_count
          + if (outcomeOf settings x).isPermanent || (outcomeOf settings x).isUnexpected
              then 1 else 0 := by
        have hx := hs.known
        rw [hs.fields.2.1]
        show ((outcomeOf settings x).assign x.1).attempt_count = _
        cases ho : outcomeOf settings x with
        | unavailable exc =>
            rw [ho] at hx
            cases hx
        | _ => simp [Outcome.isPermanent, Outcome.isUnexpected, Outcome.assign]
      rw [List.map_cons, List.map_cons, List.map_cons, List.sum_cons, List.sum_cons,
        List.countP_cons, ih, hone]
      push_cast
      omega

/-! ## §3. Relays that count. -/

/-- `RelayStats`: the counters of one relay. -/
structure RelayStats where
  polls : Nat := 0
  rows_seen : Nat := 0
  rows_published : Nat := 0
  rows_failed : Nat := 0
  rows_skipped_poison : Nat := 0
  ticks : Nat := 0
  last_tick_at : Int := 0
  last_publish_at : Int := 0

/-- What `_publish_batch` has counted so far in an open tick. -/
def Tick.result (settings : Settings) (k : Tick) : BatchResult :=
  publishRows settings k.rows.length k.batch ⟨[], 0, 0, 0, false⟩

/-- The relays with their counters. -/
structure Counted (τ : Type) where
  relay : State τ
  stats : τ → RelayStats

/-- What `_tick` can do next; `clock` is the reading of `time.time()`. -/
inductive Move (τ : Type) where
  /-- A producer commits a new row. -/
  | produce (e : OutboxEvent)
  /-- The SELECT of `_claim_batch` raises. -/
  | claimFailed (t : τ)
  /-- The SELECT returns no rows. -/
  | idle (t : τ) (clock : Int)
  /-- The SELECT returns the rows `ids`. -/
  | claim (t : τ) (ids : List Uuid)
  /-- The loop of `_publish_batch` comes to the next row. -/
  | publish (t : τ) (answer : Answer)
  /-- The loop was left at an outage, and the session has been rolled back. -/
  | failFast (t : τ) (clock : Int)
  /-- The batch is marked and the commit goes through. -/
  | commit (t : τ) (now clock : Int)
  /-- Marking, the commit or the rollback raises. -/
  | lost (t : τ)

variable {τ : Type} [DecidableEq τ]

namespace Counted

/-- The state with other counters for the relay `t`. -/
def replace (S : Counted τ) (P : State τ) (t : τ) (stats : RelayStats) : Counted τ :=
  ⟨P, Function.update S.stats t stats⟩

/-- `_tick`, one step; `none` when it is not possible. -/
def step (settings : Settings) (S : Counted τ) : Move τ → Option (Counted τ)
  | .produce e => (OutboxRelay.step settings S.relay (.produce e)).map fun P => ⟨P, S.stats⟩
  | .claimFailed t =>
      if (S.relay.tick t).isNone then
        some (S.replace S.relay t { S.stats t with polls := (S.stats t).polls + 1 })
      else none
  | .idle t clock =>
      if (S.relay.tick t).isNone ∧ Claims settings S.relay [] then
        some (S.replace S.relay t { S.stats t with
          polls := (S.stats t).polls + 1
          ticks := (S.stats t).ticks + 1
          last_tick_at := clock })
      else none
  | .claim t ids =>
      (OutboxRelay.step settings S.relay (.claim t ids)).map fun P =>
        S.replace P t { S.stats t with polls := (S.stats t).polls + 1 }
  | .publish t answer =>
      (OutboxRelay.step settings S.relay (.publish t answer)).map fun P => ⟨P, S.stats⟩
  | .failFast t clock =>
      match S.relay.tick t with
      | none => none
      | some k =>
          if (k.result settings).fail_fast then
            (OutboxRelay.step settings S.relay (.rollback t)).map fun P =>
              S.replace P t { S.stats t with
                rows_failed := (S.stats t).rows_failed + (k.result settings).failed
                last_tick_at := clock }
          else none
  | .commit t now clock =>
      match S.relay.tick t with
      | none => none
      | some k =>
          (OutboxRelay.step settings S.relay (.commit t now)).map fun P =>
            S.replace P t { S.stats t with
              rows_seen := (S.stats t).rows_seen + k.rows.length
              rows_published := (S.stats t).rows_published + (k.result settings).published
              rows_failed := (S.stats t).rows_failed + (k.result settings).failed
              rows_skipped_poison := (S.stats t).rows_skipped_poison + (k.result settings).poison
              last_tick_at := clock
              last_publish_at := if 0 < (k.result settings).published then clock
                else (S.stats t).last_publish_at }
  | .lost t =>
      (OutboxRelay.step settings S.relay (.rollback t)).map fun P => ⟨P, S.stats⟩

def machine (settings : Settings) : Machine (Counted τ) (Move τ) := ⟨step settings⟩

/-- The relays after the moves `ms`, from the committed rows `T` and counters at zero. -/
def countedRun (settings : Settings) (T : Table OutboxEvent) (ms : List (Move τ)) : Counted τ :=
  (machine settings).run ⟨State.init T, fun _ => {}⟩ ms

/-! ## §4. What each move adds. -/

/-- The counters of one relay after a move that has settled a batch of `seen` rows
with these counts; `failed` may count the rows of an outage, too. -/
structure Adds (seen published failed poison : Nat) (stats stats' : RelayStats) : Prop where
  seen : stats'.rows_seen = stats.rows_seen + seen
  published : stats'.rows_published = stats.rows_published + published
  failed : stats'.rows_failed = stats.rows_failed + failed
  poison : stats'.rows_skipped_poison = stats.rows_skipped_poison + poison
  ticks : stats.ticks ≤ stats.polls → stats'.ticks ≤ stats'.polls

variable {S S' : Counted τ} {m : Move τ}

/-- A move that settles no batch: the table stays as it is, and one relay at most
counts something. -/
structure Quiet (settings : Settings) (S S' : Counted τ) : Prop where
  relay : S'.relay = S.relay ∨ ∃ a, OutboxRelay.step settings S.relay a = some S'.relay
  table : S'.relay.table = S.relay.table
  stats : ∃ t stats' failed,
    S'.stats = Function.update S.stats t stats' ∧ Adds 0 0 failed 0 (S.stats t) stats'

/-- A step of the relays that settles no batch. -/
theorem Quiet.of_step {a : Action τ} {P : State τ} {t : τ} {stats' : RelayStats} {failed : Nat}
    (hP : OutboxRelay.step settings S.relay a = some P) (hproduce : ∀ e, a ≠ .produce e)
    (hcommit : ∀ t now, a ≠ .commit t now) (hadds : Adds 0 0 failed 0 (S.stats t) stats') :
    Quiet settings S (S.replace P t stats') := by
  refine ⟨Or.inr ⟨a, hP⟩, ?_, t, stats', failed, rfl, hadds⟩
  rcases table_step hP with hsame | ⟨e, he⟩ | ⟨u, now, _, hc, -⟩
  · exact hsame
  · exact absurd he (hproduce e)
  · exact absurd hc (hcommit u now)

/-- A relay that counts nothing. -/
theorem Adds.zero (stats : RelayStats) : Adds 0 0 0 0 stats stats := ⟨rfl, rfl, rfl, rfl, id⟩

theorem replace_self (P : State τ) (t : τ) : S.replace P t (S.stats t) = ⟨P, S.stats⟩ :=
  congrArg (Counted.mk P) (Function.update_eq_self t S.stats)

/-- **What each move does**: a producer inserts a row; a batch is settled, and
counted; or neither. -/
theorem step_cases (h : step settings S m = some S') :
    (∃ e, OutboxRelay.step settings S.relay (.produce e) = some S'.relay ∧ S'.stats = S.stats)
    ∨ Quiet settings S S'
    ∨ ∃ t now k stats', S.relay.tick t = some k
        ∧ OutboxRelay.step settings S.relay (.commit t now) = some S'.relay
        ∧ S'.stats = Function.update S.stats t stats'
        ∧ Adds k.rows.length (k.result settings).published (k.result settings).failed
            (k.result settings).poison (S.stats t) stats' := by
  have hpolled : ∀ t, Adds 0 0 0 0 (S.stats t) { S.stats t with polls := (S.stats t).polls + 1 } :=
    fun t => ⟨rfl, rfl, rfl, rfl, fun hle => Nat.le_succ_of_le hle⟩
  cases m with
  | produce e =>
      obtain ⟨P, hP, rfl⟩ := Option.map_eq_some_iff.mp h
      exact Or.inl ⟨e, hP, rfl⟩
  | claimFailed t =>
      simp only [step] at h
      split at h
      next =>
        obtain rfl := Option.some.inj h
        exact Or.inr (Or.inl ⟨Or.inl rfl, rfl, t, _, 0, rfl, hpolled t⟩)
      next => cases h
  | idle t clock =>
      simp only [step] at h
      split at h
      next =>
        obtain rfl := Option.some.inj h
        exact Or.inr (Or.inl ⟨Or.inl rfl, rfl, t, _, 0, rfl,
          ⟨rfl, rfl, rfl, rfl, fun hle => Nat.succ_le_succ hle⟩⟩)
      next => cases h
  | claim t ids =>
      obtain ⟨P, hP, rfl⟩ := Option.map_eq_some_iff.mp h
      exact Or.inr (Or.inl (Quiet.of_step hP (fun e hc => by cases hc) (fun u now hc => by cases hc)
        (hpolled t)))
  | publish t answer =>
      obtain ⟨P, hP, rfl⟩ := Option.map_eq_some_iff.mp h
      rw [← replace_self P t]
      exact Or.inr (Or.inl (Quiet.of_step hP (fun e hc => by cases hc) (fun u now hc => by cases hc)
        (Adds.zero _)))
  | failFast t clock =>
      simp only [step] at h
      split at h
      next => cases h
      next k hk =>
        split at h
        next =>
          obtain ⟨P, hP, rfl⟩ := Option.map_eq_some_iff.mp h
          exact Or.inr (Or.inl (Quiet.of_step hP (fun e hc => by cases hc)
            (fun u now hc => by cases hc) ⟨rfl, rfl, rfl, rfl, id⟩))
        next => cases h
  | commit t now clock =>
      simp only [step] at h
      split at h
      next => cases h
      next k hk =>
        obtain ⟨P, hP, rfl⟩ := Option.map_eq_some_iff.mp h
        exact Or.inr (Or.inr ⟨t, now, k, _, hk, hP, rfl, ⟨rfl, rfl, rfl, rfl, id⟩⟩)
  | lost t =>
      obtain ⟨P, hP, rfl⟩ := Option.map_eq_some_iff.mp h
      rw [← replace_self P t]
      exact Or.inr (Or.inl (Quiet.of_step hP (fun e hc => by cases hc) (fun u now hc => by cases hc)
        (Adds.zero _)))

/-! ## §5. Every run. -/

/-- What a relay has counted can be read off the rows it has committed. -/
structure Consistent (stats : RelayStats) : Prop where
  settled : stats.rows_published + stats.rows_skipped_poison ≤ stats.rows_seen
  covered : stats.rows_seen
    ≤ stats.rows_published + stats.rows_failed + stats.rows_skipped_poison
  ticks : stats.ticks ≤ stats.polls

/-- The counters of the other relays stay as they are. -/
theorem consistent_update {t : τ} {stats' : RelayStats} (h : ∀ u, Consistent (S.stats u))
    (hstats : S'.stats = Function.update S.stats t stats') (ht : Consistent stats') :
    ∀ u, Consistent (S'.stats u) := by
  intro u
  rw [hstats]
  by_cases hu : u = t
  · subst hu
    rw [Function.update_self]
    exact ht
  · rw [Function.update_of_ne hu]
    exact h u

/-- The rows with a property, as a sum. -/
theorem countP_sum (p : OutboxEvent → Bool) (rows : List OutboxEvent) :
    (rows.map fun e => if p e then (1 : Int) else 0).sum = rows.countP p := by
  induction rows with
  | nil => rfl
  | cons e rows ih =>
      rw [List.map_cons, List.sum_cons, ih, List.countP_cons]
      push_cast
      omega

/-- **A commit adds to the rows with a property** what its batch has gained. -/
theorem commit_count {P P' : State τ} (hP : Locked P) {t : τ} {now : Int} {k : Tick}
    (hk : P.tick t = some k) (h : OutboxRelay.step settings P (.commit t now) = some P')
    {p : OutboxEvent → Bool} (hp : ∀ row ∈ k.rows, p row = false) :
    ∃ rows, k.answers.length = k.rows.length ∧ tickRows settings k.batch now = some rows
      ∧ P'.table.rows.countP p = P.table.rows.countP p + rows.countP p := by
  obtain ⟨rows, hlen, hrows, hsum⟩ := commit_sum hP hk h fun e => if p e then (1 : Int) else 0
  refine ⟨rows, hlen, hrows, ?_⟩
  have hnone : k.rows.countP p = 0 := List.countP_eq_zero.mpr fun row hrow => by simp [hp row hrow]
  unfold Table.sum at hsum
  rw [countP_sum, countP_sum, countP_sum, countP_sum, hnone] at hsum
  omega

/-- A row that comes in has been neither processed nor failed, nor tried. -/
theorem produced_rows {P P' : State τ} {e : OutboxEvent}
    (h : OutboxRelay.step settings P (.produce e) = some P') :
    New e ∧ P'.table.rows = P.table.rows ++ [e] := by
  simp only [OutboxRelay.step] at h
  split at h
  next hc =>
    obtain rfl := Option.some.inj h
    exact ⟨hc.1, Table.rows_upsert_new (Option.isNone_iff_eq_none.mp hc.2)⟩
  next => cases h

variable [Fintype τ]

/-- One counter, over all relays. -/
def overall (S : Counted τ) (counter : RelayStats → Nat) : Nat := ∑ t, counter (S.stats t)

/-- The counters account for what has become of the rows `T`. -/
structure Accounted (T : Table OutboxEvent) (S : Counted τ) : Prop where
  locked : Locked S.relay
  published : S.overall (·.rows_published) + processedCount T.rows
    = processedCount S.relay.table.rows
  poison : S.overall (·.rows_skipped_poison) + T.rows.countP (fun e => e.failed)
    = S.relay.table.rows.countP (fun e => e.failed)
  attempts : attempts S.relay.table.rows ≤ attempts T.rows + S.overall (·.rows_failed)
  each : ∀ t, Consistent (S.stats t)

/-- One relay has counted. -/
theorem overall_update (counter : RelayStats → Nat) {t : τ} {stats' : RelayStats} {n : Nat}
    (hstats : S'.stats = Function.update S.stats t stats')
    (hn : counter stats' = counter (S.stats t) + n) :
    S'.overall counter = S.overall counter + n := by
  unfold overall
  have hread : ∀ u, counter (S'.stats u) = counter (S.stats u) + if u = t then n else 0 := by
    intro u
    rw [hstats]
    by_cases hu : u = t
    · subst hu
      rw [Function.update_self, if_pos rfl, hn]
    · rw [Function.update_of_ne hu, if_neg hu, Nat.add_zero]
  simp only [hread]
  rw [Finset.sum_add_distrib, Finset.sum_ite_eq' Finset.univ t fun _ => n,
    if_pos (Finset.mem_univ t)]

/-- What a relay counts keeps its counters consistent. -/
theorem Consistent.adds {seen published failed poison : Nat} {stats stats' : RelayStats}
    (h : Consistent stats) (hadds : Adds seen published failed poison stats stats')
    (hsettled : published + poison ≤ seen) (hcovered : seen ≤ published + failed + poison) :
    Consistent stats' := by
  obtain ⟨hseen, hpub, hfail, hpoison, hticks⟩ := hadds
  have h₁ := h.settled
  have h₂ := h.covered
  exact ⟨by omega, by omega, hticks h.ticks⟩

/-- **A committed batch is counted as it has changed the table.** -/
theorem Accounted.commit {T : Table OutboxEvent} (hS : Accounted T S) {t : τ} {now : Int} {k : Tick}
    {stats' : RelayStats} (hk : S.relay.tick t = some k)
    (h : OutboxRelay.step settings S.relay (.commit t now) = some S'.relay)
    (hstats : S'.stats = Function.update S.stats t stats')
    (hadds : Adds k.rows.length (k.result settings).published (k.result settings).failed
      (k.result settings).poison (S.stats t) stats') : Accounted T S' := by
  have hfresh : ∀ row ∈ k.rows, Fresh row := fun row hrow => (hS.locked.rows t k hk row hrow).2.2
  have hbatch : ∀ x ∈ k.batch, Fresh x.1 := fun x hx => hfresh x.1 (Tick.row_mem hx)
  obtain ⟨rows, hlen, hrows, hpub⟩ := commit_count hS.locked hk h
    (p := fun e => e.processed) fun row hrow => (hfresh row hrow).1
  obtain ⟨rows₂, -, hrows₂, hpoison⟩ := commit_count hS.locked hk h
    (p := fun e => e.failed) fun row hrow => (hfresh row hrow).2
  obtain ⟨rows₃, -, hrows₃, hattempts⟩ := commit_sum hS.locked hk h fun e => e.attempt_count
  obtain rfl := Option.some.inj (hrows.symm.trans hrows₂)
  obtain rfl := Option.some.inj (hrows.symm.trans hrows₃)
  -- the counters of the batch
  have havail := (tickRows_eq_some.mp hrows).1
  have hacked : (k.result settings).published = ackedCount settings k.batch :=
    ((publishRows_available havail k.rows.length ⟨[], 0, 0, 0, false⟩).2.1).trans (Nat.zero_add _)
  obtain ⟨hfailed, hmarked⟩ := publishRows_failed havail hbatch k.rows.length ⟨[], 0, 0, 0, false⟩
  have hfailed' : (k.result settings).failed = raisedCount settings k.batch :=
    hfailed.trans (Nat.zero_add _)
  have hmarked' : (k.result settings).poison = failedCount settings k.batch :=
    hmarked.trans (Nat.zero_add _)
  have hsize : k.batch.length = k.rows.length := by
    rw [← Tick.batch_rows hlen, List.length_map]
  obtain ⟨hle, hcover⟩ := counts_partition havail hbatch
  -- and what it makes of the rows
  have hprocessed := tickRows_processed hbatch hrows
  have hfailedRows := tickRows_failed hrows
  have hattemptRows := tickRows_attempts hrows
  rw [Tick.batch_rows hlen] at hattemptRows
  unfold processedCount at hprocessed
  unfold Table.sum at hattempts
  have h₁ := overall_update (·.rows_published) hstats hadds.published
  have h₂ := overall_update (·.rows_skipped_poison) hstats hadds.poison
  have h₃ := overall_update (·.rows_failed) hstats hadds.failed
  have hold₁ := hS.published
  have hold₂ := hS.poison
  have hold₃ := hS.attempts
  refine ⟨hS.locked.step h, ?_, ?_, ?_, ?_⟩
  · unfold processedCount at hold₁ ⊢
    omega
  · omega
  · unfold OutboxRelay.attempts at hold₃ hattemptRows ⊢
    omega
  · exact consistent_update hS.each hstats
      ((hS.each t).adds hadds (by omega) (by omega))

theorem Accounted.step {T : Table OutboxEvent} (hS : Accounted T S)
    (h : Counted.step settings S m = some S') : Accounted T S' := by
  rcases step_cases h with ⟨e, hP, hstats⟩ | hquiet | ⟨t, now, k, stats', hk, hP, hstats, hadds⟩
  · obtain ⟨hnew, hrows⟩ := produced_rows hP
    have hproc : processedCount S'.relay.table.rows = processedCount S.relay.table.rows := by
      unfold processedCount
      rw [hrows, List.countP_append, List.countP_singleton, hnew.1]
      rfl
    have hfail : S'.relay.table.rows.countP (fun e => e.failed)
        = S.relay.table.rows.countP fun e => e.failed := by
      rw [hrows, List.countP_append, List.countP_singleton, hnew.2.1]
      rfl
    have htried : OutboxRelay.attempts S'.relay.table.rows
        = OutboxRelay.attempts S.relay.table.rows := by
      unfold OutboxRelay.attempts
      rw [hrows, List.map_append, List.sum_append, List.map_singleton, List.sum_singleton, hnew.2.2]
      exact Int.add_zero _
    have hsame : ∀ counter, S'.overall counter = S.overall counter := by
      intro counter
      unfold overall
      rw [hstats]
    exact ⟨hS.locked.step hP, by rw [hsame, hproc]; exact hS.published,
      by rw [hsame, hfail]; exact hS.poison, by rw [hsame, htried]; exact hS.attempts,
      by rw [hstats]; exact hS.each⟩
  · obtain ⟨hrelay, htable, t, stats', failed, hstats, hadds⟩ := hquiet
    have h₁ := overall_update (·.rows_published) hstats hadds.published
    have h₂ := overall_update (·.rows_skipped_poison) hstats hadds.poison
    have h₃ := overall_update (·.rows_failed) hstats hadds.failed
    have hold := hS.attempts
    refine ⟨?_, ?_, ?_, ?_, ?_⟩
    · rcases hrelay with hsame | ⟨a, ha⟩
      · rw [hsame]
        exact hS.locked
      · exact hS.locked.step ha
    · rw [htable, h₁]
      exact hS.published
    · rw [htable, h₂]
      exact hS.poison
    · rw [htable, h₃]
      omega
    · exact consistent_update hS.each hstats
        ((hS.each t).adds hadds (Nat.le_refl 0) (Nat.zero_le _))
  · exact hS.commit hk hP hstats hadds

/-- **The counters of all relays account for the table.**  In every run of any number
of relays, whatever the broker answers, whichever commits are lost and whichever
SELECTs fail: `rows_published` over all relays is the number of rows that have
become processed, and `rows_skipped_poison` that of the rows that have become
failed; no attempt is counted at a row that is not in `rows_failed`; and no relay
has published or given up more rows than it has seen. -/
theorem stats_account (T : Table OutboxEvent) (ms : List (Move τ)) :
    (countedRun settings T ms).overall (·.rows_published) + processedCount T.rows
        = processedCount (countedRun settings T ms).relay.table.rows
      ∧ (countedRun settings T ms).overall (·.rows_skipped_poison)
          + T.rows.countP (fun e => e.failed)
        = (countedRun settings T ms).relay.table.rows.countP (fun e => e.failed)
      ∧ attempts (countedRun settings T ms).relay.table.rows
        ≤ attempts T.rows + (countedRun settings T ms).overall (·.rows_failed)
      ∧ ∀ t, Consistent ((countedRun settings T ms).stats t) := by
  have hinit : Accounted T (⟨State.init T, fun _ => {}⟩ : Counted τ) := by
    refine ⟨locked_init T, ?_, ?_, ?_, fun _ => ⟨Nat.le_refl 0, Nat.le_refl 0, Nat.le_refl 0⟩⟩
    · simp [overall, State.init]
    · simp [overall, State.init]
    · simp [overall, State.init]
  have hrun : Accounted T (countedRun settings T ms) :=
    (machine settings).run_invariant (fun _ _ _ hS h => hS.step h) ms _ hinit
  exact ⟨hrun.published, hrun.poison, hrun.attempts, hrun.each⟩

/-- Two relays: the first meets an outage at its second row, and its broker then
comes back; the second finds the queue locked. -/
def outageMoves : List (Move (Fin 2)) :=
  [.claim 0 [Uuid.ofNat 1, Uuid.ofNat 2], .idle 1 3, .publish 0 acknowledged,
    .publish 0 unreachable, .failFast 0 4, .claimFailed 0,
    .claim 0 [Uuid.ofNat 1, Uuid.ofNat 2], .publish 0 acknowledged, .publish 0 crashed,
    .commit 0 5 6]

/-- The row that was acknowledged twice is counted once. -/
example : (countedRun relaySettings twoRows outageMoves).overall (·.rows_published) = 1
    ∧ (countedRun relaySettings twoRows outageMoves).overall (·.rows_failed) = 2
    ∧ ((countedRun relaySettings twoRows outageMoves).stats 0).polls = 3
    ∧ ((countedRun relaySettings twoRows outageMoves).stats 1).ticks = 1 := by
  decide +kernel

end Counted

end Nimbus.OutboxRelay
