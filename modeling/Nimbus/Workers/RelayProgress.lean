/-
  Nimbus.Workers.RelayProgress
  ────────────────────────────
  **THE RELAY GETS THE OUTBOX DONE.**

  A row that waits has a number of attempts left, and one more tick that passes
  it over.  A tick that commits takes at least half of its batch out of this
  work, even where `_mark_batch` marks the wrong rows: what it leaves unmarked
  are rows that were acknowledged, and another row has been marked for each.

    • `rowWork`, `work`   — what is left to do;
    • `commit_work`       — **a tick that commits pays for its batch**;
    • `Held`              — whoever holds a row lock has an open tick;
    • `work_bound`        — **how many rows all ticks together commit**;
    • `drains`            — **whatever the broker answers, short of an outage,
                            the relays can settle every row.**
-/
import Nimbus.Workers.RelayLifecycle
import Nimbus.Lib.Potential

namespace Nimbus.OutboxRelay

open Lib

variable {settings : Settings}

/-! ## §1. What is left to do. -/

/-- A row is settled when no SELECT of the relay returns it any more. -/
def Settled (row : OutboxEvent) : Prop := row.processed = true ∨ row.failed = true

instance (row : OutboxEvent) : Decidable (Settled row) := by
  unfold Settled
  infer_instance

/-- The attempts a row has left, and the tick that passes it over. -/
def rowWork (settings : Settings) (row : OutboxEvent) : Int :=
  if Settled row then 0 else settings.outbox_relay_max_attempts + 1 - row.attempt_count

theorem rowWork_settled {row : OutboxEvent} (h : Settled row) : rowWork settings row = 0 := if_pos h

theorem rowWork_fresh (settings : Settings) {row : OutboxEvent} (h : Fresh row) :
    rowWork settings row = settings.outbox_relay_max_attempts + 1 - row.attempt_count := by
  refine if_neg fun hc => ?_
  rcases hc with hc | hc
  · exact absurd (h.1.symm.trans hc) (by decide)
  · exact absurd (h.2.symm.trans hc) (by decide)

/-- What is left to do for a whole table. -/
def work (settings : Settings) (T : Table OutboxEvent) : Int := T.sum (rowWork settings)

/-! ## §2. What a batch pays. -/

/-- The work of the rows of a batch. -/
def batchWork (settings : Settings) (rows : List OutboxEvent) : Int :=
  (rows.map (rowWork settings)).sum

theorem batchWork_cons (row : OutboxEvent) (rows : List OutboxEvent) :
    batchWork settings (row :: rows) = rowWork settings row + batchWork settings rows := by
  simp [batchWork]

/-- A claimed row with a lawful number of attempts. -/
def Waiting (settings : Settings) (x : OutboxEvent × Answer) : Prop :=
  Fresh x.1 ∧ x.1.attempt_count ≤ settings.outbox_relay_max_attempts

theorem Waiting.pos {x : OutboxEvent × Answer} (h : Waiting settings x) :
    1 ≤ rowWork settings x.1 := by
  rw [rowWork_fresh settings h.1]
  have := h.2
  omega

/-- What the loop body takes out of the work of a row: an acknowledgement nothing,
every other outcome at least one. -/
theorem assigned_work {x : OutboxEvent × Answer} (h : Waiting settings x)
    (hx : (outcomeOf settings x).isUnavailable = false) :
    rowWork settings (assigned settings x) + 1
      ≤ rowWork settings x.1 + if (outcomeOf settings x).isAcked then 1 else 0 := by
  have hpos := h.pos
  have hwork := rowWork_fresh settings h.1
  have ha : assigned settings x = (outcomeOf settings x).assign x.1 := rfl
  rw [ha]
  cases ho : outcomeOf settings x with
  | unavailable exc =>
      rw [ho] at hx
      cases hx
  | acked => exact Int.le_refl _
  | exceeded =>
      rw [rowWork_settled (Or.inr rfl)]
      simpa [Outcome.isAcked] using hpos
  | permanent exc =>
      rw [rowWork_settled (Or.inr rfl)]
      simpa [Outcome.isAcked] using hpos
  | unexpected exc =>
      have hfresh : Fresh ((Outcome.unexpected exc).assign x.1) := h.1
      rw [rowWork_fresh settings hfresh, hwork]
      simp only [Outcome.assign, Outcome.isAcked, Bool.false_eq_true, ↓reduceIte]
      omega

/-- **What a settled row pays**: a mark pays for the acknowledgement that did not. -/
theorem Settles.work {x : OutboxEvent × Answer} {row : OutboxEvent} (h : Settles settings x row)
    (hx : Waiting settings x) :
    2 * rowWork settings row + 1 + (if row.processed then 1 else 0)
      ≤ 2 * rowWork settings x.1 + if (outcomeOf settings x).isAcked then 1 else 0 := by
  have hpos := hx.pos
  have hpay := assigned_work hx h.known
  rcases h.row with rfl | ⟨-, now, rfl⟩
  · -- not marked
    have hproc : (assigned settings x).processed = false :=
      (Outcome.assign_processed _ _).trans hx.1.1
    have hle : (if (outcomeOf settings x).isAcked then 1 else 0 : Int) ≤ 1 := by split <;> omega
    rw [hproc, if_neg Bool.false_ne_true]
    omega
  · have hzero : rowWork settings
        { assigned settings x with processed := true, processed_at := some now } = 0 :=
      rowWork_settled (Or.inl rfl)
    have hle : (0 : Int) ≤ if (outcomeOf settings x).isAcked then 1 else 0 := by split <;> omega
    rw [hzero, if_pos rfl]
    omega

/-- The rows of a list that are processed. -/
def processedCount (rows : List OutboxEvent) : Nat := rows.countP fun row => row.processed

/-- The rows of a batch that the loop has marked as failed. -/
def failedCount (settings : Settings) (batch : List (OutboxEvent × Answer)) : Nat :=
  batch.countP fun x => (assigned settings x).failed

/-- As long as there are rows that have not failed, each mark finds one. -/
theorem markRows_processed {batch : List (OutboxEvent × Answer)} (now : Int)
    (hfresh : ∀ x ∈ batch, Fresh x.1) {count seen : Nat}
    (hcount : count + failedCount settings batch ≤ seen + batch.length) :
    processedCount (markRows now count seen (batch.map (assigned settings))) = count - seen := by
  unfold processedCount
  induction batch generalizing seen with
  | nil =>
      have hle : count ≤ seen := by simpa [failedCount] using hcount
      show 0 = _
      omega
  | cons x batch ih =>
      have ih' := @ih fun y hy => hfresh y (List.mem_cons_of_mem _ hy)
      have hproc : (assigned settings x).processed = false :=
        (Outcome.assign_processed _ _).trans (hfresh x List.mem_cons_self).1
      have hfailed : failedCount settings (x :: batch) = failedCount settings batch
          + if (assigned settings x).failed then 1 else 0 := List.countP_cons
      rw [hfailed, List.length_cons] at hcount
      rw [List.map_cons]
      by_cases hf : (assigned settings x).failed = true
      · -- a failed row is passed over
        rw [if_pos hf] at hcount
        rw [markRows_kept (Or.inl hf), List.countP_cons, hproc, @ih' seen (by omega)]
        rfl
      · rw [if_neg hf] at hcount
        by_cases hmore : seen < count
        · rw [markRows_marked (eq_false_of_ne_true hf) hmore, List.countP_cons,
            @ih' (seen + 1) (by omega)]
          show count - (seen + 1) + 1 = _
          omega
        · -- all marks have been set
          have hbound : failedCount settings batch ≤ batch.length := List.countP_le_length
          rw [markRows_kept (Or.inr (by omega)), List.countP_cons, hproc,
            @ih' seen (by omega)]
          rfl

/-- An acknowledged row has not failed. -/
theorem acked_failed_le {batch : List (OutboxEvent × Answer)} (h : Available settings batch)
    (hfresh : ∀ x ∈ batch, Fresh x.1) :
    ackedCount settings batch + failedCount settings batch ≤ batch.length := by
  induction batch with
  | nil => exact Nat.le_refl 0
  | cons x batch ih =>
      have hrest := ih h.tail fun y hy => hfresh y (List.mem_cons_of_mem _ hy)
      have hcount : ackedCount settings (x :: batch) = ackedCount settings batch
          + if (outcomeOf settings x).isAcked then 1 else 0 := List.countP_cons
      have hfailed : failedCount settings (x :: batch) = failedCount settings batch
          + if (assigned settings x).failed then 1 else 0 := List.countP_cons
      rw [hcount, hfailed, List.length_cons]
      rcases fresh_cases (h x List.mem_cons_self) (hfresh x List.mem_cons_self).2 with
        ⟨hf, hack, -⟩ | ⟨hf, hack, -⟩ | ⟨hf, hack, -⟩ <;> simp only [hf, hack] <;> simp <;> omega

/-- **A tick that commits marks as many rows as were acknowledged**, be they these
rows or others. -/
theorem tickRows_processed {batch : List (OutboxEvent × Answer)} {now : Int}
    {rows : List OutboxEvent} (hfresh : ∀ x ∈ batch, Fresh x.1)
    (h : tickRows settings batch now = some rows) :
    processedCount rows = ackedCount settings batch := by
  obtain ⟨havail, rfl⟩ := tickRows_eq_some.mp h
  have hle := acked_failed_le havail hfresh
  exact markRows_processed now hfresh (by omega)

/-- **A tick that commits takes at least half of its batch out of the work.** -/
theorem tickRows_work {batch : List (OutboxEvent × Answer)} {now : Int} {rows : List OutboxEvent}
    (hwait : ∀ x ∈ batch, Waiting settings x) (h : tickRows settings batch now = some rows) :
    batch.length + 2 * batchWork settings rows
      ≤ 2 * batchWork settings (batch.map Prod.fst) := by
  have hmarks := tickRows_processed (fun x hx => (hwait x hx).1) h
  have hall : 2 * batchWork settings rows + batch.length + processedCount rows
      ≤ 2 * batchWork settings (batch.map Prod.fst) + ackedCount settings batch := by
    have hsettles := tickRows_settles h
    clear h hmarks
    unfold processedCount ackedCount
    induction hsettles with
    | nil => exact Int.le_refl _
    | @cons x row batch rows hs _ ih =>
        have hone := hs.work (hwait x List.mem_cons_self)
        have hrest := ih fun y hy => hwait y (List.mem_cons_of_mem _ hy)
        rw [List.map_cons, batchWork_cons, batchWork_cons, List.countP_cons, List.countP_cons,
          List.length_cons]
        push_cast
        omega
  omega

/-! ## §3. What a commit pays. -/

variable {τ : Type} {P P' : State τ}

theorem claimed_waiting (hP : Locked P) (hT : AllSound settings P.table) {t : τ} {k : Tick}
    (hk : P.tick t = some k) : ∀ x ∈ k.batch, Waiting settings x := by
  intro x hx
  obtain ⟨-, hlookup, hfresh⟩ := hP.rows t k hk x.1 (Tick.row_mem hx)
  exact ⟨hfresh, (hT _ _ hlookup).attempts⟩

section Commit

variable [DecidableEq τ]

/-- **A commit changes a sum over the table by its rows**: the claimed rows go, those
that `_mark_batch` has left come. -/
theorem commit_sum (hP : Locked P) {t : τ} {now : Int} {k : Tick} (hk : P.tick t = some k)
    (h : step settings P (.commit t now) = some P') (f : OutboxEvent → Int) :
    ∃ rows, k.answers.length = k.rows.length ∧ tickRows settings k.batch now = some rows
      ∧ P'.table.sum f = P.table.sum f - (k.rows.map f).sum + (rows.map f).sum := by
  obtain ⟨rows, hlen, hrows, rfl⟩ := commit_cases hk h
  have hkeys : rows.map key = k.rows.map (·.id) := (tickRows_ids hrows).trans (Tick.batch_ids hlen)
  have hold : (rows.map fun r => P.table.weight f (key r)) = k.rows.map f := by
    have hread : (rows.map fun r => P.table.weight f (key r))
        = (rows.map key).map (P.table.weight f) := by
      rw [List.map_map]
      rfl
    rw [hread, hkeys, List.map_map]
    refine List.map_congr_left fun row hrow => ?_
    exact Table.weight_of_lookup (hP.rows t k hk row hrow).2.1
  have hnodup : (rows.map key).Nodup := by
    rw [hkeys]
    exact hP.nodup t k hk
  refine ⟨rows, hlen, hrows, ?_⟩
  show (P.table.upsertAll rows).sum f = _
  rw [Table.sum_upsertAll _ _ hnodup, hold]

/-- **A commit takes at least half of its rows out of the work of the table.** -/
theorem commit_work (hP : Locked P) (hT : AllSound settings P.table) {t : τ} {now : Int} {k : Tick}
    (hk : P.tick t = some k) (h : step settings P (.commit t now) = some P') :
    k.rows.length + 2 * work settings P'.table ≤ 2 * work settings P.table := by
  obtain ⟨rows, hlen, hrows, hsum⟩ := commit_sum hP hk h (rowWork settings)
  have hpaid := tickRows_work (claimed_waiting hP hT hk) hrows
  have hsize : k.batch.length = k.rows.length := by
    rw [← Tick.batch_rows hlen, List.length_map]
  rw [Tick.batch_rows hlen] at hpaid
  unfold work
  unfold batchWork at hpaid
  omega

end Commit

/-! ## §4. Whoever holds a lock has an open tick. -/

/-- Every row lock is held by a tick that has claimed the row, and no open tick
has claimed nothing. -/
structure Held (P : State τ) : Prop where
  holder : ∀ id t, P.lock id = some t → ∃ k, P.tick t = some k ∧ id ∈ k.rows.map (·.id)
  nonempty : ∀ t k, P.tick t = some k → k.rows ≠ []

theorem held_init (T : Table OutboxEvent) : Held (State.init T : State τ) :=
  ⟨fun _ _ h => (nomatch h), fun _ _ h => (nomatch h)⟩

section Runs

variable [DecidableEq τ]

theorem lock_of_unlocked {t u : τ} {id : Uuid} (h : P.unlocked t id = some u) :
    u ≠ t ∧ P.lock id = some u := by
  unfold State.unlocked at h
  split at h
  next => cases h
  next hne =>
    refine ⟨fun hc => hne ?_, h⟩
    rw [h, hc]

/-- The locks of the others stay with their ticks when the session of `t` ends. -/
theorem Held.unlocked (hP : Held P) {t : τ} {T : Table OutboxEvent} :
    Held { P with table := T, lock := P.unlocked t, tick := Function.update P.tick t none } := by
  constructor
  · intro id u hlock
    obtain ⟨hne, hold⟩ := lock_of_unlocked hlock
    obtain ⟨k, hk, hmem⟩ := hP.holder id u hold
    exact ⟨k, (Function.update_of_ne hne _ _).trans hk, hmem⟩
  · intro u k hk
    rcases tick_update hk with ⟨-, hnone⟩ | ⟨-, hold⟩
    · cases hnone
    · exact hP.nonempty u k hold

theorem Held.step (hP : Held P) {a : Action τ} (h : OutboxRelay.step settings P a = some P') :
    Held P' := by
  rcases step_cases h with ⟨e, rfl, -, -, rfl⟩ | ⟨t, ids, rfl, hidle, hne, hclaims, rfl⟩ |
    ⟨t, answer, k, row, rfl, hk, -, rfl⟩ | ⟨t, now, k, rows, rfl, -, -, -, rfl⟩ |
    ⟨t, k, rfl, -, rfl⟩
  · exact ⟨hP.holder, hP.nonempty⟩
  · -- the rows it has locked are the rows it has claimed
    constructor
    · intro id u hlock
      have hlock' : (if id ∈ ids then some t else P.lock id) = some u := hlock
      by_cases hid : id ∈ ids
      · rw [if_pos hid] at hlock'
        obtain rfl := Option.some.inj hlock'
        refine ⟨_, Function.update_self .., ?_⟩
        show id ∈ (claimed P ids).map (·.id)
        rw [hclaims.ids]
        exact hid
      · rw [if_neg hid] at hlock'
        obtain ⟨k, hk, hmem⟩ := hP.holder id u hlock'
        have hu : u ≠ t := by
          intro hc
          rw [hc, hidle] at hk
          cases hk
        exact ⟨k, (Function.update_of_ne hu _ _).trans hk, hmem⟩
    · intro u k hk hc
      rcases tick_update hk with ⟨-, hnew⟩ | ⟨-, hold⟩
      · obtain rfl := Option.some.inj hnew
        have hnil : claimed P ids = [] := hc
        have hids := hclaims.ids
        rw [hnil] at hids
        exact hne hids.symm
      · exact hP.nonempty u k hold hc
  · -- publishing a row claims nothing
    constructor
    · intro id u hlock
      obtain ⟨k', hk', hmem⟩ := hP.holder id u hlock
      by_cases hu : u = t
      · subst hu
        obtain rfl := Option.some.inj (hk.symm.trans hk')
        exact ⟨_, Function.update_self .., hmem⟩
      · exact ⟨k', (Function.update_of_ne hu _ _).trans hk', hmem⟩
    · intro u k' hk'
      rcases tick_update hk' with ⟨rfl, hnew⟩ | ⟨-, hold⟩
      · obtain rfl := Option.some.inj hnew
        exact hP.nonempty u k hk
      · exact hP.nonempty u k' hold
  · exact hP.unlocked
  · exact hP.unlocked

/-! ## §5. Every run. -/

/-- The invariants that the rest needs. -/
structure Healthy (settings : Settings) (P : State τ) : Prop where
  locked : Locked P
  held : Held P
  sound : AllSound settings P.table

theorem Healthy.step (hP : Healthy settings P) {a : Action τ}
    (h : OutboxRelay.step settings P a = some P') : Healthy settings P' :=
  ⟨hP.locked.step h, hP.held.step h, sound_step hP.locked hP.sound h⟩

theorem healthy_run {T : Table OutboxEvent} (hT : AllSound settings T) (as : List (Action τ)) :
    Healthy settings (relayRun settings T as) :=
  (machine settings).run_invariant (fun _ _ _ hP h => hP.step h) as _
    ⟨locked_init T, held_init T, hT⟩

/-- The rows that a step commits. -/
def committedRows (P : State τ) : Action τ → Int
  | .commit t _ => match P.tick t with
      | none => 0
      | some k => k.rows.length
  | _ => 0

def isCommit : Action τ → Bool
  | .commit _ _ => true
  | _ => false

def isProduce : Action τ → Bool
  | .produce _ => true
  | _ => false

/-- The steps of a run of one kind, such as its commits. -/
def steps (settings : Settings) (T : Table OutboxEvent) (p : Action τ → Bool)
    (as : List (Action τ)) : Int :=
  (machine settings).total (fun _ a => if p a then 1 else 0) (State.init T) as

theorem rowWork_pos {row : OutboxEvent} (h : Sound settings row) :
    0 ≤ rowWork settings row ∧ (rowWork settings row = 0 ↔ Settled row) := by
  have hcount := h.attempts
  unfold rowWork
  split
  next hs => exact ⟨Int.le_refl 0, iff_of_true rfl hs⟩
  next hs => exact ⟨by omega, iff_of_false (by omega) hs⟩

/-- **A new row brings all its attempts, and only commits take work away.** -/
theorem work_step (hP : Healthy settings P) {a : Action τ}
    (h : OutboxRelay.step settings P a = some P') :
    committedRows P a + 2 * work settings P'.table ≤ 2 * work settings P.table
      + 2 * (settings.outbox_relay_max_attempts + 1) * if isProduce a then 1 else 0 := by
  rcases step_cases h with ⟨e, rfl, hnew, hnone, rfl⟩ | ⟨t, ids, rfl, -, -, -, rfl⟩ |
    ⟨t, answer, k, row, rfl, -, -, rfl⟩ | ⟨t, now, k, rows, rfl, hk, -, -, -⟩ |
    ⟨t, k, rfl, -, rfl⟩
  · have hfresh : rowWork settings e = settings.outbox_relay_max_attempts + 1 := by
      rw [rowWork_fresh settings ⟨hnew.1, hnew.2.1⟩, hnew.2.2]
      omega
    have hsum : work settings (P.table.upsert e)
        = work settings P.table + (settings.outbox_relay_max_attempts + 1) := by
      have hweight : P.table.weight (rowWork settings) (key e) = 0 := Table.weight_of_none hnone
      unfold work
      rw [Table.sum_upsert, hweight, hfresh]
      omega
    show 0 + 2 * work settings (P.table.upsert e) ≤ 2 * work settings P.table + _ * 1
    rw [hsum]
    omega
  · show 0 + 2 * work settings P.table ≤ 2 * work settings P.table + _ * 0
    omega
  · show 0 + 2 * work settings P.table ≤ 2 * work settings P.table + _ * 0
    omega
  · have hpaid := commit_work hP.locked hP.sound hk h
    have hrows : committedRows P (.commit t now) = k.rows.length := by
      simp only [committedRows, hk]
    rw [hrows]
    show _ ≤ 2 * work settings P.table + _ * 0
    omega
  · show 0 + 2 * work settings P.table ≤ 2 * work settings P.table + _ * 0
    omega

/-- No work is left exactly when every row is settled. -/
theorem work_zero_iff {T : Table OutboxEvent} (hT : AllSound settings T) :
    0 ≤ work settings T ∧ (work settings T = 0 ↔ ∀ e ∈ T.rows, Settled e) := by
  have hrow : ∀ e ∈ T.rows, 0 ≤ rowWork settings e ∧ (rowWork settings e = 0 ↔ Settled e) :=
    fun e he => rowWork_pos (hT e.id e (Table.lookup_some_iff.mpr ⟨he, rfl⟩))
  have hlist : ∀ l : List OutboxEvent,
      (∀ e ∈ l, 0 ≤ rowWork settings e ∧ (rowWork settings e = 0 ↔ Settled e)) →
      0 ≤ batchWork settings l ∧ (batchWork settings l = 0 ↔ ∀ e ∈ l, Settled e) := by
    intro l
    induction l with
    | nil => intro _; exact ⟨Int.le_refl 0, by simp [batchWork]⟩
    | cons e l ih =>
        intro hl
        obtain ⟨hpos, hzero⟩ := hl e List.mem_cons_self
        obtain ⟨hpos', hzero'⟩ := ih fun e' he' => hl e' (List.mem_cons_of_mem _ he')
        rw [batchWork_cons, List.forall_mem_cons, ← hzero, ← hzero']
        exact ⟨by omega, by omega⟩
  exact hlist T.rows hrow

/-- A tick that commits takes something out of the work. -/
theorem commit_step (hP : Healthy settings P) {a : Action τ}
    (h : OutboxRelay.step settings P a = some P') :
    (if isCommit a then 1 else 0) + work settings P'.table ≤ work settings P.table
      + (settings.outbox_relay_max_attempts + 1) * if isProduce a then 1 else 0 := by
  have hwork := work_step hP h
  rcases step_cases h with ⟨e, rfl, -, -, -⟩ | ⟨t, ids, rfl, -⟩ | ⟨t, answer, k, row, rfl, -⟩ |
    ⟨t, now, k, rows, rfl, hk, -⟩ | ⟨t, k, rfl, -⟩
  · simp only [committedRows, isProduce, isCommit] at hwork ⊢
    simp at hwork ⊢
    omega
  · simp only [committedRows, isProduce, isCommit] at hwork ⊢
    simp at hwork ⊢
    omega
  · simp only [committedRows, isProduce, isCommit] at hwork ⊢
    simp at hwork ⊢
    omega
  · -- a tick that commits has claimed a row
    have hrows : 0 < k.rows.length := List.length_pos_iff.mpr (hP.held.nonempty t k hk)
    simp only [committedRows, isProduce, isCommit, hk] at hwork ⊢
    simp at hwork ⊢
    omega
  · simp only [committedRows, isProduce, isCommit] at hwork ⊢
    simp at hwork ⊢
    omega

/-- **All ticks together.**  In every run of any number of relays, whatever the
broker answers and whichever transactions are lost: the ticks that commit have
committed no more rows than twice the work there was and came in, and there
were no more of them than the work; work is left as long as a row waits. -/
theorem work_bound {T : Table OutboxEvent} (hT : AllSound settings T) (as : List (Action τ)) :
    (machine settings).total committedRows (State.init T) as
        + 2 * work settings (relayRun settings T as).table
      ≤ 2 * work settings T
        + 2 * (settings.outbox_relay_max_attempts + 1) * steps settings T isProduce as
    ∧ steps settings T isCommit as + work settings (relayRun settings T as).table
      ≤ work settings T
        + (settings.outbox_relay_max_attempts + 1) * steps settings T isProduce as
    ∧ 0 ≤ work settings (relayRun settings T as).table
    ∧ (work settings (relayRun settings T as).table = 0
        ↔ ∀ e ∈ (relayRun settings T as).table.rows, Settled e) := by
  have hinit : Healthy settings (State.init T : State τ) := ⟨locked_init T, held_init T, hT⟩
  have hcredit : ∀ c : Int, (machine settings).total
      (fun _ a => c * if isProduce a then 1 else 0) (State.init T) as
        = c * steps settings T isProduce as :=
    fun c => (machine settings).total_map (AddMonoidHom.mulLeft c) _ as _
  have hrows := (machine settings).total_potential (fun P : State τ => 2 * work settings P.table)
    (fun _ _ _ hP h => hP.step h) (fun _ _ _ hP h => work_step hP h) as _ hinit
  have hcommits := (machine settings).total_potential (fun P : State τ => work settings P.table)
    (fun _ _ _ hP h => hP.step h) (fun _ _ _ hP h => commit_step hP h) as _ hinit
  rw [hcredit] at hrows hcommits
  exact ⟨hrows, hcommits, work_zero_iff (healthy_run hT as).sound⟩

end Runs

/-! ## §6. The outbox can always be drained. -/

/-- The rows that can be selected, oldest first. -/
def selectableSorted (P : State τ) : List OutboxEvent :=
  (selectable P).mergeSort fun e e' => decide (e.created_at ≤ e'.created_at)

/-- The oldest of them, at most `outbox_relay_batch_size`. -/
def oldestRows (settings : Settings) (P : State τ) : List OutboxEvent :=
  (selectableSorted P).take settings.outbox_relay_batch_size

theorem mem_selectableSorted {e : OutboxEvent} : e ∈ selectableSorted P ↔ e ∈ selectable P :=
  List.mem_mergeSort

theorem mem_oldestRows {e : OutboxEvent} (h : e ∈ oldestRows settings P) : e ∈ selectable P :=
  mem_selectableSorted.mp (List.mem_of_mem_take h)

theorem selectableSorted_pairwise (P : State τ) :
    (selectableSorted P).Pairwise fun e e' => e.created_at ≤ e'.created_at := by
  have hsorted := @List.pairwise_mergeSort OutboxEvent
    (fun e e' => decide (e.created_at ≤ e'.created_at))
    (fun a b c hab hbc => by simp at hab hbc ⊢; omega) (fun a b => by simp; omega) (selectable P)
  exact hsorted.imp fun h => by simpa using h

theorem claimed_selectable (P : State τ) {rows : List OutboxEvent} (h : ∀ e ∈ rows, e ∈ selectable P) :
    claimed P (rows.map (·.id)) = rows := by
  unfold claimed
  induction rows with
  | nil => rfl
  | cons e rows ih =>
      have he : P.table.lookup e.id = some e := (mem_selectable.mp (h e List.mem_cons_self)).1
      rw [List.map_cons, List.filterMap_cons, he]
      show e :: _ = _
      rw [ih fun e' he' => h e' (List.mem_cons_of_mem _ he')]

/-- **The SELECT has an answer.** -/
theorem oldestRows_claims (settings : Settings) (P : State τ) :
    Claims settings P ((oldestRows settings P).map (·.id)) := by
  have hclaimed := @claimed_selectable _ P (oldestRows settings P)
    fun e he => mem_oldestRows he
  have hpair := selectableSorted_pairwise P
  refine ⟨?_, ?_, ?_, ?_, ?_⟩
  · have hperm : (selectableSorted P).Perm (selectable P) := List.mergeSort_perm _ _
    have hnodup : ((selectable P).map (·.id)).Nodup :=
      P.table.nodup.sublist (List.filter_sublist.map _)
    exact ((hperm.map _).nodup_iff.mpr hnodup).sublist ((List.take_sublist _ _).map _)
  · intro id hid
    obtain ⟨e, he, rfl⟩ := List.mem_map.mp hid
    exact List.mem_map.mpr ⟨e, mem_oldestRows he, rfl⟩
  · unfold oldestRows selectableSorted
    rw [List.length_map, List.length_take, List.length_mergeSort]
  · rw [hclaimed]
    exact hpair.sublist (List.take_sublist _ _)
  · -- what is left out comes later in the order
    intro e he hout e' he'
    rw [hclaimed] at he'
    have hmem := mem_selectableSorted.mpr he
    rw [← List.take_append_drop settings.outbox_relay_batch_size (selectableSorted P)] at hmem hpair
    rcases List.mem_append.mp hmem with hin | hlater
    · exact absurd (List.mem_map.mpr ⟨e, hin, rfl⟩) hout
    · exact (List.pairwise_append.mp hpair).2.2 e' he' e hlater

/-- The relays act on their own, no row comes in, and every publish ends as `env`
says. -/
def Answered (settings : Settings) (env : State τ → OutboxEvent → Answer) (P : State τ) :
    Action τ → Prop
  | .produce _ => False
  | .publish t answer => ∀ k row, P.tick t = some k → k.next settings = some row →
      answer = env P row
  | _ => True

/-- No publish ever says that the broker is not there. -/
def BrokerThere (env : State τ → OutboxEvent → Answer) : Prop :=
  ∀ P row exc, (env P row).publish = .error exc → exc.isA .brokerUnavailableError = false

theorem BrokerThere.outcome {env : State τ → OutboxEvent → Answer} (h : BrokerThere env)
    (P : State τ) (row : OutboxEvent) :
    (OutboxRelay.outcome settings row (env P row)).isUnavailable = false := by
  have hraised : ∀ exc, publishOne row (env P row) = .error exc →
      exc.isA .brokerUnavailableError = false := by
    intro exc hexc
    unfold publishOne at hexc
    split at hexc
    next =>
      obtain rfl := Except.error.inj hexc
      rfl
    next => exact h P row exc hexc
  unfold OutboxRelay.outcome
  split
  next => rfl
  next =>
    split
    next => rfl
    next exc hexc =>
      rw [hraised exc hexc, if_neg Bool.false_ne_true]
      split <;> rfl

variable [DecidableEq τ]

section Drain

variable {env : State τ → OutboxEvent → Answer} {t : τ} {k : Tick}

/-- The loop of an open tick that has met no outage goes on. -/
theorem exists_next (havail : Available settings k.batch)
    (hlt : k.answers.length < k.rows.length) : ∃ row, k.next settings = some row := by
  have hfast : (publishBatch settings k.batch).fail_fast = false :=
    (publishRows_available havail _ _).2.2
  unfold Tick.next
  rw [if_neg (by rw [hfast]; decide)]
  exact ⟨_, List.getElem?_eq_getElem hlt⟩

/-- **An open tick that has met no outage can publish its rows to the end.** -/
theorem publish_rest (henv : BrokerThere env) :
    ∀ (n : Nat) (P : State τ) (k : Tick), P.tick t = some k →
      k.answers.length + n = k.rows.length → Available settings k.batch →
      ∃ as k', (machine settings).Along (Answered settings env) P as
        ∧ ((machine settings).run P as).table = P.table
        ∧ ((machine settings).run P as).tick t = some k'
        ∧ k'.answers.length = k'.rows.length ∧ Available settings k'.batch := by
  intro n
  induction n with
  | zero =>
      intro P k hk hlen havail
      exact ⟨[], k, trivial, rfl, hk, hlen, havail⟩
  | succ n ih =>
      intro P k hk hlen havail
      obtain ⟨row, hnext⟩ := exists_next havail (by omega)
      let answer := env P row
      obtain ⟨P₁, hstep, htable₁, htick₁⟩ : ∃ P₁, step settings P (.publish t answer) = some P₁
          ∧ P₁.table = P.table
          ∧ P₁.tick t = some { k with answers := k.answers ++ [answer] } := by
        simp only [step, hk, hnext, Option.map_some]
        exact ⟨_, rfl, rfl, Function.update_self ..⟩
      have havail₁ : Available settings (Tick.batch { k with answers := k.answers ++ [answer] }) := by
        rw [Tick.batch_publish hnext]
        intro x hx
        rcases List.mem_append.mp hx with hx | hx
        · exact havail x hx
        · rw [List.mem_singleton.mp hx]
          exact henv.outcome P _
      have hlen₁ : (k.answers ++ [answer]).length + n = k.rows.length := by
        rw [List.length_append, List.length_singleton]
        omega
      obtain ⟨as, k', halong, htable, htick, hdone, havail'⟩ := ih P₁ _ htick₁ hlen₁ havail₁
      have hnextState : (machine settings).next P (.publish t answer) = P₁ :=
        (machine settings).next_of_step hstep
      refine ⟨.publish t answer :: as, k', ⟨?_, hnextState ▸ halong⟩, ?_, ?_, hdone, havail'⟩
      · intro k₂ row₂ hk₂ hrow₂
        obtain rfl := Option.some.inj (hk.symm.trans hk₂)
        rw [← Option.some.inj (hnext.symm.trans hrow₂)]
      · rw [Machine.run_cons, hnextState, htable, htable₁]
      · rw [Machine.run_cons, hnextState, htick]

/-- **A row that waits can be freed**: some relay is between two ticks, and the row
can be selected. -/
theorem exists_idle [Nonempty τ] (env : State τ → OutboxEvent → Answer) (hP : Healthy settings P) {e : OutboxEvent}
    (he : e ∈ P.table.rows) (hwait : ¬ Settled e) :
    ∃ as t, (machine settings).Along (Answered settings env) P as
      ∧ ((machine settings).run P as).table = P.table
      ∧ ((machine settings).run P as).tick t = none
      ∧ e ∈ selectable ((machine settings).run P as) := by
  have hlookup : P.table.lookup e.id = some e := Table.lookup_some_iff.mpr ⟨he, rfl⟩
  have hfresh : Fresh e := by
    unfold Settled at hwait
    exact ⟨eq_false_of_ne_true fun hc => hwait (Or.inl hc),
      eq_false_of_ne_true fun hc => hwait (Or.inr hc)⟩
  -- the relay that holds the row, or any one
  obtain ⟨t, ht⟩ : ∃ t, P.lock e.id = none ∨ P.lock e.id = some t := by
    cases hlock : P.lock e.id with
    | none => exact ⟨Classical.arbitrary τ, Or.inl rfl⟩
    | some t => exact ⟨t, Or.inr rfl⟩
  cases htick : P.tick t with
  | none =>
      refine ⟨[], t, trivial, rfl, htick, mem_selectable.mpr ⟨hlookup, hfresh, ?_⟩⟩
      rcases ht with hfree | hheld
      · exact hfree
      · obtain ⟨k, hk, -⟩ := hP.held.holder _ _ hheld
        rw [htick] at hk
        cases hk
  | some k =>
      have hstep : step settings P (.rollback t) = some { P with
          lock := P.unlocked t
          tick := Function.update P.tick t none } := by
        simp only [step, htick]
      have hrun : (machine settings).run P [.rollback t] = _ := (machine settings).next_of_step hstep
      refine ⟨[.rollback t], t, ⟨trivial, trivial⟩, ?_, ?_, ?_⟩
      · rw [hrun]
      · rw [hrun]
        exact Function.update_self ..
      · rw [hrun]
        refine mem_selectable.mpr ⟨hlookup, hfresh, ?_⟩
        show P.unlocked t e.id = none
        unfold State.unlocked
        rcases ht with hfree | hheld
        · rw [hfree]
          refine if_neg ?_
          intro hc
          cases hc
        · exact if_pos hheld

/-- **A round**: where a row waits, some relay can claim, publish and commit a batch. -/
theorem exists_round [Nonempty τ] (hsize : 0 < settings.outbox_relay_batch_size)
    (henv : BrokerThere env) (hP : Healthy settings P)
    (hwait : ¬ ∀ e ∈ P.table.rows, Settled e) :
    ∃ as, (machine settings).Along (Answered settings env) P as
      ∧ Healthy settings ((machine settings).run P as)
      ∧ (work settings ((machine settings).run P as).table).toNat
        < (work settings P.table).toNat := by
  have hkeeps : ∀ (as : List (Action τ)) {Q : State τ}, Healthy settings Q →
      Healthy settings ((machine settings).run Q as) :=
    fun as Q hQ => (machine settings).run_invariant (fun _ _ _ hQ h => hQ.step h) as Q hQ
  push Not at hwait
  obtain ⟨e, he, hunsettled⟩ := hwait
  -- free the row
  obtain ⟨as₁, t, halong₁, htable₁, hidle, hsel⟩ := exists_idle env hP he hunsettled
  -- claim the oldest rows
  let P₁ := (machine settings).run P as₁
  let ids := (oldestRows settings P₁).map (·.id)
  have hids : ids ≠ [] := by
    have hmem : 0 < (selectable P₁).length := List.length_pos_of_mem hsel
    have hlen : ids.length = min settings.outbox_relay_batch_size (selectable P₁).length :=
      (oldestRows_claims settings P₁).size
    intro hc
    rw [hc, List.length_nil] at hlen
    omega
  obtain ⟨P₂, hclaim, htable₂, htick₂⟩ : ∃ P₂, step settings P₁ (.claim t ids) = some P₂
      ∧ P₂.table = P₁.table ∧ P₂.tick t = some ⟨claimed P₁ ids, []⟩ := by
    refine ⟨_, if_pos ⟨Option.isNone_iff_eq_none.mpr hidle, hids, oldestRows_claims settings P₁⟩,
      rfl, Function.update_self ..⟩
  have hnext₂ : (machine settings).next P₁ (.claim t ids) = P₂ :=
    (machine settings).next_of_step hclaim
  have hnone : Tick.batch ⟨claimed P₁ ids, []⟩ = [] := List.zip_nil_right
  -- publish them
  obtain ⟨as₃, k, halong₃, htable₃, htick₃, hdone, havail⟩ := publish_rest henv (t := t)
    (claimed P₁ ids).length P₂ _ htick₂ (Nat.zero_add _)
    (fun x hx => by rw [hnone] at hx; cases hx)
  -- and commit
  let P₃ := (machine settings).run P₂ as₃
  obtain ⟨P₄, hcommit⟩ : ∃ P₄, step settings P₃ (.commit t 0) = some P₄ := by
    obtain ⟨rows, hrows⟩ : ∃ rows, tickRows settings k.batch 0 = some rows :=
      ⟨_, tickRows_eq_some.mpr ⟨havail, rfl⟩⟩
    simp only [step, P₃, htick₃, hdone, ↓reduceIte, hrows, Option.map_some]
    exact ⟨_, rfl⟩
  have hrun : (machine settings).run P (as₁ ++ .claim t ids :: (as₃ ++ [.commit t 0])) = P₄ := by
    rw [Machine.run_append, Machine.run_cons, hnext₂, Machine.run_append]
    exact (machine settings).next_of_step hcommit
  refine ⟨as₁ ++ .claim t ids :: (as₃ ++ [.commit t 0]), ?_, hkeeps _ hP, ?_⟩
  · refine (Machine.along_append _).mpr ⟨halong₁, trivial, ?_⟩
    rw [hnext₂]
    exact (Machine.along_append _).mpr ⟨halong₃, trivial, trivial⟩
  · have hP₁ : Healthy settings P₁ := hkeeps as₁ hP
    have hP₃ : Healthy settings P₃ := hkeeps as₃ (hP₁.step hclaim)
    have hpaid := commit_step hP₃ hcommit
    have hnonneg := (work_zero_iff (hP₃.step hcommit).sound).1
    have hsame : P₃.table = P.table := htable₃.trans (htable₂.trans htable₁)
    rw [hrun]
    rw [hsame] at hpaid
    simp only [isCommit, isProduce] at hpaid
    simp at hpaid
    omega

end Drain

/-- **The outbox can always be drained.**  After every run of any number of
relays from a sound table, ticks that were lost in the middle included, and whatever the broker
answers from then on, short of being away: the relays can go on, without any
help of a producer, to a state where every row is processed or failed. -/
theorem drains [Nonempty τ] (hsize : 0 < settings.outbox_relay_batch_size)
    {T : Table OutboxEvent} (hT : AllSound settings T) (as : List (Action τ))
    {env : State τ → OutboxEvent → Answer} (henv : BrokerThere env) :
    ∃ bs, (machine settings).Along (Answered settings env) (relayRun settings T as) bs
      ∧ ∀ e ∈ (relayRun settings T (as ++ bs)).table.rows, Settled e := by
  have hdrain := (machine settings).exists_drained
    (fun P : State τ => ∀ e ∈ P.table.rows, Settled e)
    (fun P : State τ => (work settings P.table).toNat)
    (fun P hP hwait => exists_round hsize henv hP hwait) _ (healthy_run hT as)
  obtain ⟨bs, halong, hend⟩ := hdrain
  refine ⟨bs, halong, ?_⟩
  have hrun : relayRun settings T (as ++ bs)
      = (machine settings).run (relayRun settings T as) bs := Machine.run_append _ _ _ _
  rw [hrun]
  exact hend

theorem twoRows_sound : AllSound relaySettings twoRows := by
  intro id e he
  exact (twoRows_new e (Table.mem_of_lookup he)).sound

/-- The tick that met the outage commits nothing; the next one commits two rows. -/
theorem work_bound_outage :
    (machine relaySettings).total committedRows (State.init twoRows) outageRun
        + 2 * work relaySettings (relayRun relaySettings twoRows outageRun).table
      ≤ 2 * work relaySettings twoRows
        + 2 * (relaySettings.outbox_relay_max_attempts + 1)
          * steps relaySettings twoRows isProduce outageRun :=
  (work_bound twoRows_sound outageRun).1

example : (machine relaySettings).total committedRows (State.init twoRows) outageRun = 2
    ∧ work relaySettings (relayRun relaySettings twoRows outageRun).table = 20
    ∧ work relaySettings twoRows = 22 := by
  decide +kernel

/-- The relays can go on after that run when everything they publish crashes. -/
theorem drains_crashing :
    ∃ bs, (machine relaySettings).Along (Answered relaySettings fun _ _ => crashed)
        (relayRun relaySettings twoRows outageRun) bs
      ∧ ∀ e ∈ (relayRun relaySettings twoRows (outageRun ++ bs)).table.rows, Settled e :=
  drains (by decide) twoRows_sound outageRun fun _ _ exc hexc => by
    obtain rfl := Except.error.inj hexc
    rfl

end Nimbus.OutboxRelay
