/-
  Nimbus.Workers.RelayCounts
  ──────────────────────────
  **WHAT THE COUNTERS OF A BATCH SAY.**

  `_publish_batch` returns how many rows it published and how many failed.  When
  the broker is gone it counts the rows it leaves out as failed, and finds their
  number by subtracting the three counters from the length of the batch.  A
  permanent error stands in two of these counters, so that each one met before
  the outage hides one of the rows left out.

    • `fates`          — how the loop left each row of the batch;
    • `Accounts`       — every row is counted once;
    • `publishRows_counts` — the counters, with what the subtraction loses;
    • `accounting_iff` — **the counters account for the batch exactly when no
                         permanent error comes before an outage that leaves
                         rows out.**
-/
import Nimbus.Workers.RelayRuns

namespace Nimbus.OutboxRelay

variable {settings : Settings}

/-! ## §1. The fate of a row. -/

namespace Outcome

def isExceeded : Outcome → Bool
  | .exceeded => true
  | _ => false

end Outcome

/-- How the loop left each row: `none` for the rows that come after an outage,
which it did not try. -/
def fates (settings : Settings) : List (OutboxEvent × Answer) → List (Option Outcome)
  | [] => []
  | x :: rest =>
      some (outcomeOf settings x) ::
        if (outcomeOf settings x).isUnavailable then rest.map fun _ => none
        else fates settings rest

/-- The rows the broker has acknowledged. -/
def acknowledgedRows (settings : Settings) (batch : List (OutboxEvent × Answer)) : Nat :=
  (fates settings batch).countP fun f => f.any Outcome.isAcked

/-- The rows passed over for having reached `max_attempts`. -/
def skippedRows (settings : Settings) (batch : List (OutboxEvent × Answer)) : Nat :=
  (fates settings batch).countP fun f => f.any Outcome.isExceeded

/-- The rows that are neither: an exception was raised, or they come after an
outage. -/
def unsentRows (settings : Settings) (batch : List (OutboxEvent × Answer)) : Nat :=
  (fates settings batch).countP fun f => !f.any Outcome.isAcked && !f.any Outcome.isExceeded

/-- The rows marked for a permanent error. -/
def permanentRows (settings : Settings) (batch : List (OutboxEvent × Answer)) : Nat :=
  (fates settings batch).countP fun f => f.any Outcome.isPermanent

/-- The rows that come after an outage. -/
def leftOutRows (settings : Settings) (batch : List (OutboxEvent × Answer)) : Nat :=
  (fates settings batch).countP Option.isNone

/-- **The counters account for the batch**: every row stands in exactly one of
published, failed and skipped. -/
structure Accounts (settings : Settings) (batch : List (OutboxEvent × Answer))
    (r : BatchResult) : Prop where
  published : r.published = acknowledgedRows settings batch
  failed : r.failed = unsentRows settings batch
  once : r.published + r.failed + skippedRows settings batch = batch.length

/-- Where an outage leaves rows out, no permanent error comes before it. -/
def CleanOutage (settings : Settings) (batch : List (OutboxEvent × Answer)) : Prop :=
  ∀ before x after, batch = before ++ x :: after → Available settings before →
    (outcomeOf settings x).isUnavailable = true →
    after = [] ∨ ∀ y ∈ before, (outcomeOf settings y).isPermanent = false

/-! ## §2. Counting fates. -/

/-- What an outage leaves: the row that met it, and nothing of the others. -/
theorem countP_fates_unavailable {p : Option Outcome → Bool} {x : OutboxEvent × Answer}
    (hx : (outcomeOf settings x).isUnavailable = true) (rest : List (OutboxEvent × Answer)) :
    (fates settings (x :: rest)).countP p
      = (if p (some (outcomeOf settings x)) then 1 else 0)
        + if p none then rest.length else 0 := by
  unfold fates
  rw [if_pos hx, List.countP_cons, List.countP_map, Nat.add_comm]
  congr 1
  cases hp : p none with
  | true =>
      rw [if_pos rfl, List.countP_eq_length]
      exact fun _ _ => hp
  | false =>
      rw [if_neg (by decide), List.countP_eq_zero]
      exact fun _ _ hc => nomatch hp.symm.trans hc

/-- The loop goes on past every other outcome. -/
theorem countP_fates_cons {p : Option Outcome → Bool} {x : OutboxEvent × Answer}
    (hx : (outcomeOf settings x).isUnavailable = false) (rest : List (OutboxEvent × Answer)) :
    (fates settings (x :: rest)).countP p
      = (if p (some (outcomeOf settings x)) then 1 else 0) + (fates settings rest).countP p := by
  rw [fates, if_neg (by rw [hx]; decide), List.countP_cons, Nat.add_comm]

theorem fates_length (batch : List (OutboxEvent × Answer)) :
    (fates settings batch).length = batch.length := by
  induction batch with
  | nil => rfl
  | cons x rest ih =>
      unfold fates
      split
      next => simp
      next => rw [List.length_cons, List.length_cons, ih]

/-- **Every row has one fate.** -/
theorem fates_partition (batch : List (OutboxEvent × Answer)) :
    acknowledgedRows settings batch + unsentRows settings batch + skippedRows settings batch
      = batch.length := by
  have hone : ∀ fs : List (Option Outcome),
      fs.countP (fun f => f.any Outcome.isAcked)
        + fs.countP (fun f => !f.any Outcome.isAcked && !f.any Outcome.isExceeded)
        + fs.countP (fun f => f.any Outcome.isExceeded) = fs.length := by
    intro fs
    induction fs with
    | nil => rfl
    | cons f fs ih =>
        rw [List.countP_cons, List.countP_cons, List.countP_cons, List.length_cons]
        rcases f with _ | o
        · -- not reached
          simp only [Option.any_none, Bool.not_false, Bool.and_self, Bool.false_eq_true, ↓reduceIte]
          omega
        · cases o <;> simp [Outcome.isAcked, Outcome.isExceeded] <;> omega
  have hlength : (fates settings batch).length = batch.length := fates_length batch
  rw [← hlength]
  exact hone _

/-! ## §3. The counters of the loop. -/

/-- **The counters.**  The loop has counted every row so far once and every
permanent error, `permanents` of them, twice; the rows it is yet to come to are
`batch`.  Then it counts the acknowledged rows, and loses of the rows an outage
leaves out as many as there are permanent errors. -/
theorem publishRows_counts (batch : List (OutboxEvent × Answer)) {total permanents : Nat}
    {r : BatchResult}
    (hr : r.published + r.failed + r.poison + batch.length = total + permanents) :
    (publishRows settings total batch r).published
        = r.published + acknowledgedRows settings batch
      ∧ (publishRows settings total batch r).failed
          + min (permanents + permanentRows settings batch) (leftOutRows settings batch)
        = r.failed + unsentRows settings batch := by
  unfold acknowledgedRows permanentRows leftOutRows unsentRows
  induction batch generalizing permanents r with
  | nil => exact ⟨rfl, by simp [fates, publishRows]⟩
  | cons x rest ih =>
      obtain ⟨row, answer⟩ := x
      rw [List.length_cons] at hr
      by_cases hx : (outcomeOf settings (row, answer)).isUnavailable = true
      · -- what is left out is found by subtraction
        simp only [countP_fates_unavailable hx]
        unfold publishRows
        unfold outcomeOf at hx ⊢
        cases ho : outcome settings row answer with
        | unavailable exc =>
            dsimp only
            simp [Outcome.isAcked, Outcome.isExceeded, Outcome.isPermanent]
            omega
        | _ =>
            rw [ho] at hx
            cases hx
      · have hx' := eq_false_of_ne_true hx
        simp only [countP_fates_cons hx']
        unfold publishRows
        unfold outcomeOf at hx' ⊢
        cases ho : outcome settings row answer with
        | unavailable exc =>
            rw [ho] at hx'
            cases hx'
        | exceeded =>
            obtain ⟨hpub, hfail⟩ := @ih permanents { r with
              rows := r.rows ++ [Outcome.exceeded.assign row], poison := r.poison + 1 }
              (by dsimp only; omega)
            dsimp only at hpub hfail ⊢
            simp [Outcome.isAcked, Outcome.isExceeded, Outcome.isPermanent]
            omega
        | acked =>
            obtain ⟨hpub, hfail⟩ := @ih permanents { r with
              rows := r.rows ++ [Outcome.acked.assign row], published := r.published + 1 }
              (by dsimp only; omega)
            dsimp only at hpub hfail ⊢
            simp [Outcome.isAcked, Outcome.isExceeded, Outcome.isPermanent]
            omega
        | permanent exc =>
            -- the one outcome that two counters count
            obtain ⟨hpub, hfail⟩ := @ih (permanents + 1) { r with
              rows := r.rows ++ [(Outcome.permanent exc).assign row]
              failed := r.failed + 1
              poison := r.poison + 1 }
              (by dsimp only; omega)
            dsimp only at hpub hfail ⊢
            simp [Outcome.isAcked, Outcome.isExceeded, Outcome.isPermanent]
            omega
        | unexpected exc =>
            obtain ⟨hpub, hfail⟩ := @ih permanents { r with
              rows := r.rows ++ [(Outcome.unexpected exc).assign row], failed := r.failed + 1 }
              (by dsimp only; omega)
            dsimp only at hpub hfail ⊢
            simp [Outcome.isAcked, Outcome.isExceeded, Outcome.isPermanent]
            omega

/-! ## §4. When the counters account for the batch. -/

/-- The fates of a batch whose first outage is known. -/
theorem fates_outage {before after : List (OutboxEvent × Answer)} {x : OutboxEvent × Answer}
    (hbefore : Available settings before) (hx : (outcomeOf settings x).isUnavailable = true) :
    fates settings (before ++ x :: after)
      = before.map (fun y => some (outcomeOf settings y))
        ++ some (outcomeOf settings x) :: after.map fun _ => none := by
  induction before with
  | nil =>
      show fates settings (x :: after) = _
      rw [fates, if_pos hx]
      rfl
  | cons y before ih =>
      have hy := hbefore y List.mem_cons_self
      show fates settings (y :: (before ++ x :: after)) = _
      rw [fates, if_neg (by rw [hy]; decide), ih hbefore.tail]
      rfl

/-- A batch that met an outage has a first one. -/
theorem exists_outage {batch : List (OutboxEvent × Answer)} (h : ¬ Available settings batch) :
    ∃ before x after, batch = before ++ x :: after ∧ Available settings before
      ∧ (outcomeOf settings x).isUnavailable = true := by
  induction batch with
  | nil => exact absurd (fun x hx => nomatch hx) h
  | cons y rest ih =>
      by_cases hy : (outcomeOf settings y).isUnavailable = true
      · exact ⟨[], y, rest, rfl, fun _ hz => (nomatch hz), hy⟩
      · have hrest : ¬ Available settings rest := by
          intro hrest
          refine h fun z hz => ?_
          rcases List.mem_cons.mp hz with rfl | hz
          · exact eq_false_of_ne_true hy
          · exact hrest z hz
        obtain ⟨before, x, after, rfl, hbefore, hx⟩ := ih hrest
        refine ⟨y :: before, x, after, rfl, fun z hz => ?_, hx⟩
        rcases List.mem_cons.mp hz with rfl | hz
        · exact eq_false_of_ne_true hy
        · exact hbefore z hz

theorem leftOutRows_available {batch : List (OutboxEvent × Answer)}
    (h : Available settings batch) : leftOutRows settings batch = 0 := by
  unfold leftOutRows
  induction batch with
  | nil => rfl
  | cons x rest ih =>
      rw [countP_fates_cons (h x List.mem_cons_self), ih h.tail]
      rfl

/-- The two numbers that decide, at the first outage. -/
theorem lost_outage {before : List (OutboxEvent × Answer)} (after : List (OutboxEvent × Answer))
    {x : OutboxEvent × Answer} (hbefore : Available settings before) (hx : (outcomeOf settings x).isUnavailable = true) :
    leftOutRows settings (before ++ x :: after) = after.length
      ∧ permanentRows settings (before ++ x :: after)
        = before.countP fun y => (outcomeOf settings y).isPermanent := by
  have hperm : (outcomeOf settings x).isPermanent = false := by
    cases ho : outcomeOf settings x with
    | unavailable exc => rfl
    | _ =>
        rw [ho] at hx
        cases hx
  unfold leftOutRows permanentRows
  rw [fates_outage hbefore hx]
  constructor
  · rw [List.countP_append, List.countP_cons, List.countP_map, List.countP_map]
    simp [Function.comp_def]
  · rw [List.countP_append, List.countP_cons, List.countP_map, List.countP_map]
    simp [Function.comp_def, hperm]

theorem cleanOutage_iff (batch : List (OutboxEvent × Answer)) :
    CleanOutage settings batch
      ↔ min (permanentRows settings batch) (leftOutRows settings batch) = 0 := by
  constructor
  · intro h
    by_cases havail : Available settings batch
    · rw [leftOutRows_available havail, Nat.min_zero]
    · obtain ⟨before, x, after, rfl, hbefore, hx⟩ := exists_outage havail
      obtain ⟨hleft, hperm⟩ := lost_outage after hbefore hx
      rw [hleft, hperm]
      rcases h before x after rfl hbefore hx with rfl | hclean
      · exact Nat.min_zero _
      · rw [List.countP_eq_zero.mpr fun y hy => by rw [hclean y hy]; decide, Nat.zero_min]
  · rintro h before x after rfl hbefore hx
    obtain ⟨hleft, hperm⟩ := lost_outage after hbefore hx
    rw [hleft, hperm] at h
    rcases Nat.min_eq_zero_iff.mp h with hnone | hnone
    · refine Or.inr fun y hy => ?_
      exact eq_false_of_ne_true (List.countP_eq_zero.mp hnone y hy)
    · exact Or.inl (List.eq_nil_of_length_eq_zero hnone)

/-- **The accounting of a batch.**  Whatever is published and however it ends, the
counters account for every row exactly when no permanent error comes before an
outage that leaves rows out. -/
theorem accounting_iff (settings : Settings) (batch : List (OutboxEvent × Answer)) :
    Accounts settings batch (publishBatch settings batch) ↔ CleanOutage settings batch := by
  have hcounts := @publishRows_counts settings batch batch.length 0 ⟨[], 0, 0, 0, false⟩ (by simp)
  obtain ⟨hpub, hfail⟩ : (publishBatch settings batch).published = acknowledgedRows settings batch
      ∧ (publishBatch settings batch).failed
          + min (permanentRows settings batch) (leftOutRows settings batch)
        = unsentRows settings batch := by
    simpa [publishBatch] using hcounts
  have hpart : acknowledgedRows settings batch + unsentRows settings batch
      + skippedRows settings batch = batch.length := fates_partition batch
  rw [cleanOutage_iff]
  constructor
  · intro h
    have hfailed := h.failed
    omega
  · intro hnone
    exact ⟨hpub, by omega, by omega⟩

/-- The broker refuses the first row for good, and is gone at the second; the
third is left out. -/
def outageBatch : List (OutboxEvent × Answer) :=
  [(waitingRow 1, ⟨Uuid.ofNat 0, .error ⟨.infrastructureError, "Kafka rejected the message.", []⟩⟩),
   (waitingRow 2, unreachable), (waitingRow 3, acknowledged)]

/-- Two rows are counted of the three. -/
theorem accounting_fails :
    ¬ Accounts relaySettings outageBatch (publishBatch relaySettings outageBatch) := by
  intro h
  have honce := h.once
  have hcounted : (publishBatch relaySettings outageBatch).published
      + (publishBatch relaySettings outageBatch).failed
      + skippedRows relaySettings outageBatch = 2 := by
    decide +kernel
  rw [hcounted] at honce
  exact absurd honce (by decide)

end Nimbus.OutboxRelay
