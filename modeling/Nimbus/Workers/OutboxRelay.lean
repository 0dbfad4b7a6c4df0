/-
  Nimbus.Workers.OutboxRelay
  ──────────────────────────
  **ONE BATCH OF THE OUTBOX RELAY.**

  `_publish_batch` sends the claimed rows one after another and leaves a mark
  on every row it cannot send; `_mark_batch` then sets `processed` on as many
  rows as were acknowledged, counted from the front of the batch.

    • `publishOne`, `outcome`  — how the loop body ends for a row;
    • `publishBatch`           — the loop with its counters;
    • `markBatch`              — which rows become processed;
    • `Settles`                — **what a tick that commits makes of each row**;
    • `marks_iff`              — **the rows it marks are the acknowledged ones
                                 exactly when no unexpected error comes before
                                 an acknowledgement.**
-/
import Nimbus.Modules.Models

namespace Nimbus.OutboxRelay

/-! ## §1. One row. -/

/-- What the relay reads of the settings. -/
structure Settings where
  outbox_relay_batch_size : Nat
  outbox_relay_max_attempts : Nat

/-- The environment's part in publishing a row: the UUID that `model_validate`
would draw for an absent `event_id`, and how `KafkaProducer.publish` ends. -/
structure Answer where
  fresh : Uuid
  publish : Except Exn Unit

/-- `_publish_one`. -/
def publishOne (row : OutboxEvent) (answer : Answer) : Except Exn Unit :=
  match EventEnvelope.modelValidate answer.fresh row.payload with
  | .error exc => .error ⟨.infrastructureError,
      "Outbox row payload does not deserialize to EventEnvelope.",
      [("outbox_id", .str row.id.str), ("event_type", .str row.event_type), ("error", .str exc.msg)]⟩
  | .ok _ => answer.publish

/-- How the loop body of `_publish_batch` ends for a row. -/
inductive Outcome where
  | exceeded
  | acked
  | unavailable (exc : Exn)
  | permanent (exc : Exn)
  | unexpected (exc : Exn)

def outcome (settings : Settings) (row : OutboxEvent) (answer : Answer) : Outcome :=
  if (settings.outbox_relay_max_attempts : Int) ≤ row.attempt_count then .exceeded
  else match publishOne row answer with
    | .ok _ => .acked
    | .error exc =>
        -- the order of the `except` clauses: every BrokerUnavailableError is an
        -- InfrastructureError, too
        if exc.isA .brokerUnavailableError then .unavailable exc
        else if exc.isA .infrastructureError then .permanent exc
        else .unexpected exc

namespace Outcome

def isAcked : Outcome → Bool
  | .acked => true
  | _ => false

def isUnavailable : Outcome → Bool
  | .unavailable _ => true
  | _ => false

def isUnexpected : Outcome → Bool
  | .unexpected _ => true
  | _ => false

def isPermanent : Outcome → Bool
  | .permanent _ => true
  | _ => false

/-- `s[:1024]`. -/
def truncated (s : String) : String := String.ofList (s.toList.take 1024)

/-- What the loop body assigns to the attributes of the row. -/
def assign (o : Outcome) (row : OutboxEvent) : OutboxEvent :=
  match o with
  | .exceeded => { row with failed := true, last_error := some "max_attempts_exceeded" }
  | .acked => row
  | .unavailable exc =>
      { row with attempt_count := row.attempt_count + 1, last_error := some (truncated exc.msg) }
  | .permanent exc =>
      { row with
        attempt_count := row.attempt_count + 1
        last_error := some (truncated exc.msg)
        failed := true }
  | .unexpected exc =>
      { row with
        attempt_count := row.attempt_count + 1
        last_error := some (truncated ("unexpected: " ++ exc.cls.name ++ ": " ++ exc.msg)) }

@[simp] theorem assign_id (o : Outcome) (row : OutboxEvent) : (o.assign row).id = row.id := by
  cases o <;> rfl

@[simp] theorem assign_processed (o : Outcome) (row : OutboxEvent) :
    (o.assign row).processed = row.processed := by
  cases o <;> rfl

end Outcome

/-- A row that had attempts left has one attempt more than before at most. -/
theorem assign_attempts {settings : Settings} {row : OutboxEvent} (answer : Answer)
    (h : row.attempt_count ≤ settings.outbox_relay_max_attempts) :
    row.attempt_count ≤ ((outcome settings row answer).assign row).attempt_count
      ∧ ((outcome settings row answer).assign row).attempt_count
        ≤ settings.outbox_relay_max_attempts := by
  by_cases hmax : (settings.outbox_relay_max_attempts : Int) ≤ row.attempt_count
  · have ho : outcome settings row answer = .exceeded := if_pos hmax
    rw [ho]
    exact ⟨Int.le_refl _, h⟩
  · -- whatever happens to it, it counts one attempt more at most
    have hone : ∀ o : Outcome, row.attempt_count ≤ (o.assign row).attempt_count
        ∧ (o.assign row).attempt_count ≤ row.attempt_count + 1 := by
      intro o
      cases o <;> simp [Outcome.assign]
    obtain ⟨hlow, hhigh⟩ := hone (outcome settings row answer)
    exact ⟨hlow, by omega⟩

/-- Why a row becomes `failed`. -/
theorem assign_failed {settings : Settings} {row : OutboxEvent} {answer : Answer}
    (hrow : row.failed = false)
    (h : ((outcome settings row answer).assign row).failed = true) :
    (settings.outbox_relay_max_attempts : Int) ≤ row.attempt_count
    ∨ ∃ exc, publishOne row answer = .error exc ∧ exc.isA .infrastructureError = true
        ∧ exc.isA .brokerUnavailableError = false := by
  by_cases hmax : (settings.outbox_relay_max_attempts : Int) ≤ row.attempt_count
  · exact Or.inl hmax
  · refine Or.inr ?_
    unfold outcome at h
    rw [if_neg hmax] at h
    cases hp : publishOne row answer with
    | ok _ =>
        rw [hp] at h
        exact absurd (hrow.symm.trans h) (by decide)
    | error exc =>
        rw [hp] at h
        simp only at h
        split at h
        next => exact absurd (hrow.symm.trans h) (by decide)
        next hb =>
          split at h
          next hi => exact ⟨exc, rfl, hi, by simpa using hb⟩
          next => exact absurd (hrow.symm.trans h) (by decide)

/-- The outcome of a row and what came of sending it. -/
def outcomeOf (settings : Settings) (x : OutboxEvent × Answer) : Outcome :=
  outcome settings x.1 x.2

/-- The row as the loop body leaves it. -/
def assigned (settings : Settings) (x : OutboxEvent × Answer) : OutboxEvent :=
  (outcomeOf settings x).assign x.1

/-! ## §2. The loop. -/

/-- What `_publish_batch` returns, with the objects of the batch as it leaves
them. -/
structure BatchResult where
  rows : List OutboxEvent
  published : Nat
  failed : Nat
  poison : Nat
  fail_fast : Bool

/-- The loop of `_publish_batch` over the rows still to come, `total` being the
length of the batch. -/
def publishRows (settings : Settings) (total : Nat) :
    List (OutboxEvent × Answer) → BatchResult → BatchResult
  | [], r => r
  | (row, answer) :: rest, r =>
      let o := outcome settings row answer
      let rows := r.rows ++ [o.assign row]
      match o with
      | .exceeded => publishRows settings total rest { r with rows := rows, poison := r.poison + 1 }
      | .acked => publishRows settings total rest { r with rows := rows, published := r.published + 1 }
      | .unavailable _ =>
          -- `max(0, remaining)`: the subtraction stops at zero
          { r with
            rows := rows ++ rest.map Prod.fst
            failed := r.failed + 1 + (total - r.published - (r.failed + 1) - r.poison)
            fail_fast := true }
      | .permanent _ =>
          publishRows settings total rest
            { r with rows := rows, failed := r.failed + 1, poison := r.poison + 1 }
      | .unexpected _ => publishRows settings total rest { r with rows := rows, failed := r.failed + 1 }

/-- `_publish_batch`. -/
def publishBatch (settings : Settings) (batch : List (OutboxEvent × Answer)) : BatchResult :=
  publishRows settings batch.length batch ⟨[], 0, 0, 0, false⟩

/-- The loop of `_mark_batch`. -/
def markRows (now : Int) (published_count : Nat) : Nat → List OutboxEvent → List OutboxEvent
  | _, [] => []
  | published_seen, row :: rows =>
      if row.failed then row :: markRows now published_count published_seen rows
      else if published_seen < published_count then
        { row with processed := true, processed_at := some now }
          :: markRows now published_count (published_seen + 1) rows
      else row :: markRows now published_count published_seen rows

/-- `_mark_batch`. -/
def markBatch (rows : List OutboxEvent) (published_count poison_count : Nat) (now : Int) :
    List OutboxEvent :=
  if published_count = 0 ∧ poison_count = 0 then rows else markRows now published_count 0 rows

/-- The rows that `_tick` commits for a batch; `none` where it rolls back. -/
def tickRows (settings : Settings) (batch : List (OutboxEvent × Answer)) (now : Int) :
    Option (List OutboxEvent) :=
  let r := publishBatch settings batch
  if r.fail_fast then none else some (markBatch r.rows r.published r.poison now)

/-! ## §3. The loop as a whole. -/

variable {settings : Settings}

/-- No publish of the batch has met a broker that is not there. -/
def Available (settings : Settings) (batch : List (OutboxEvent × Answer)) : Prop :=
  ∀ x ∈ batch, (outcomeOf settings x).isUnavailable = false

/-- How many rows of the batch have been acknowledged. -/
def ackedCount (settings : Settings) (batch : List (OutboxEvent × Answer)) : Nat :=
  batch.countP fun x => (outcomeOf settings x).isAcked

theorem Available.tail {x : OutboxEvent × Answer} {batch : List (OutboxEvent × Answer)}
    (h : Available settings (x :: batch)) : Available settings batch :=
  fun y hy => h y (List.mem_cons_of_mem _ hy)

/-- **With the broker there, the loop goes through the whole batch**, and counts
the acknowledged rows. -/
theorem publishRows_available {batch : List (OutboxEvent × Answer)}
    (h : Available settings batch) (total : Nat) (r : BatchResult) :
    (publishRows settings total batch r).rows = r.rows ++ batch.map (assigned settings)
      ∧ (publishRows settings total batch r).published = r.published + ackedCount settings batch
      ∧ (publishRows settings total batch r).fail_fast = r.fail_fast := by
  induction batch generalizing r with
  | nil => exact ⟨(List.append_nil _).symm, rfl, rfl⟩
  | cons x batch ih =>
      obtain ⟨row, answer⟩ := x
      have hx := h (row, answer) List.mem_cons_self
      have hone : assigned settings (row, answer) = (outcome settings row answer).assign row := rfl
      have hcount : ackedCount settings ((row, answer) :: batch) = ackedCount settings batch
          + if (outcome settings row answer).isAcked then 1 else 0 := List.countP_cons
      unfold outcomeOf at hx
      unfold publishRows
      rw [List.map_cons, hone, hcount]
      cases ho : outcome settings row answer with
      | unavailable exc =>
          rw [ho] at hx
          cases hx
      | exceeded =>
          -- every other outcome is counted, and the loop goes on
          obtain ⟨hrows, hpub, hfast⟩ := ih h.tail { r with
            rows := r.rows ++ [Outcome.exceeded.assign row], poison := r.poison + 1 }
          exact ⟨by rw [hrows]; exact List.append_assoc .., hpub, hfast⟩
      | acked =>
          obtain ⟨hrows, hpub, hfast⟩ := ih h.tail { r with
            rows := r.rows ++ [Outcome.acked.assign row], published := r.published + 1 }
          refine ⟨by rw [hrows]; exact List.append_assoc .., ?_, hfast⟩
          rw [hpub]
          show r.published + 1 + _ = r.published + (_ + 1)
          omega
      | permanent exc =>
          obtain ⟨hrows, hpub, hfast⟩ := ih h.tail { r with
            rows := r.rows ++ [(Outcome.permanent exc).assign row]
            failed := r.failed + 1
            poison := r.poison + 1 }
          exact ⟨by rw [hrows]; exact List.append_assoc .., hpub, hfast⟩
      | unexpected exc =>
          obtain ⟨hrows, hpub, hfast⟩ := ih h.tail { r with
            rows := r.rows ++ [(Outcome.unexpected exc).assign row], failed := r.failed + 1 }
          exact ⟨by rw [hrows]; exact List.append_assoc .., hpub, hfast⟩

/-- **A broker that is not there ends the loop.** -/
theorem publishRows_unavailable {batch : List (OutboxEvent × Answer)}
    (h : ¬ Available settings batch) (total : Nat) (r : BatchResult) :
    (publishRows settings total batch r).fail_fast = true := by
  induction batch generalizing r with
  | nil => exact absurd (fun x hx => nomatch hx) h
  | cons x batch ih =>
      obtain ⟨row, answer⟩ := x
      have hrest : (outcome settings row answer).isUnavailable = false →
          ¬ Available settings batch := by
        intro hx hbatch
        refine h fun y hy => ?_
        rcases List.mem_cons.mp hy with rfl | hy
        · exact hx
        · exact hbatch y hy
      unfold publishRows
      cases ho : outcome settings row answer with
      | unavailable exc => rfl
      | exceeded => exact ih (hrest (ho ▸ rfl)) _
      | acked => exact ih (hrest (ho ▸ rfl)) _
      | permanent exc => exact ih (hrest (ho ▸ rfl)) _
      | unexpected exc => exact ih (hrest (ho ▸ rfl)) _

/-- A row stays as it is when it has failed, or when enough rows are marked. -/
theorem markRows_kept {now : Int} {count seen : Nat} {row : OutboxEvent} {rows : List OutboxEvent}
    (h : row.failed = true ∨ count ≤ seen) :
    markRows now count seen (row :: rows) = row :: markRows now count seen rows := by
  rw [markRows]
  split
  next => rfl
  next hf =>
    rcases h with h | h
    · exact absurd h hf
    · rw [if_neg (by omega)]

theorem markRows_marked {now : Int} {count seen : Nat} {row : OutboxEvent}
    {rows : List OutboxEvent} (hf : row.failed = false) (h : seen < count) :
    markRows now count seen (row :: rows)
      = { row with processed := true, processed_at := some now }
        :: markRows now count (seen + 1) rows := by
  rw [markRows, hf, if_neg Bool.false_ne_true, if_pos h]

/-- Where nothing was acknowledged, nothing is marked. -/
theorem markRows_zero (now : Int) (seen : Nat) (rows : List OutboxEvent) :
    markRows now 0 seen rows = rows := by
  induction rows with
  | nil => rfl
  | cons row rows ih =>
      rw [markRows_kept (Or.inr (Nat.zero_le seen)), ih]

/-- **What `_tick` commits**: with the broker there, the first rows that have
not failed are marked, as many as were acknowledged. -/
theorem tickRows_eq_some {batch : List (OutboxEvent × Answer)} {now : Int}
    {rows : List OutboxEvent} :
    tickRows settings batch now = some rows ↔ Available settings batch
      ∧ rows = markRows now (ackedCount settings batch) 0 (batch.map (assigned settings)) := by
  by_cases h : Available settings batch
  · obtain ⟨hrows, hpub, hfast⟩ := publishRows_available h batch.length ⟨[], 0, 0, 0, false⟩
    have hrows' : (publishBatch settings batch).rows = batch.map (assigned settings) := hrows
    have hpub' : (publishBatch settings batch).published = ackedCount settings batch :=
      hpub.trans (Nat.zero_add _)
    have hfast' : (publishBatch settings batch).fail_fast = false := hfast
    -- without acknowledgements `_mark_batch` may return early, and marks nothing in any case
    have hmark : markBatch (publishBatch settings batch).rows (publishBatch settings batch).published
        (publishBatch settings batch).poison now
          = markRows now (ackedCount settings batch) 0 (batch.map (assigned settings)) := by
      unfold markBatch
      rw [hrows', hpub']
      split
      next hzero => rw [hzero.1, markRows_zero]
      next => rfl
    unfold tickRows
    simp only [hfast', hmark, Bool.false_eq_true, ↓reduceIte, Option.some.injEq]
    constructor
    · intro he
      exact ⟨h, he.symm⟩
    · intro he
      exact he.2.symm
  · have hfast : (publishBatch settings batch).fail_fast = true :=
      publishRows_unavailable h batch.length _
    unfold tickRows
    simp only [hfast, ↓reduceIte]
    constructor
    · intro he
      cases he
    · intro he
      exact absurd he.1 h

/-! ## §4. What becomes of each row. -/

/-- What a tick that commits makes of a claimed row: the row as the loop has
left it, which may have been marked as processed if it has not failed. -/
structure Settles (settings : Settings) (x : OutboxEvent × Answer) (row : OutboxEvent) : Prop where
  known : (outcomeOf settings x).isUnavailable = false
  row : row = assigned settings x
    ∨ ((assigned settings x).failed = false
        ∧ ∃ now, row = { assigned settings x with processed := true, processed_at := some now })

theorem markRows_settles {batch : List (OutboxEvent × Answer)} (h : Available settings batch)
    (now : Int) (count seen : Nat) :
    List.Forall₂ (Settles settings) batch
      (markRows now count seen (batch.map (assigned settings))) := by
  induction batch generalizing seen with
  | nil => exact List.Forall₂.nil
  | cons x batch ih =>
      have hx := h x List.mem_cons_self
      rw [List.map_cons]
      unfold markRows
      split
      next => exact List.Forall₂.cons ⟨hx, Or.inl rfl⟩ (ih h.tail seen)
      next hf =>
        have hf' : (assigned settings x).failed = false := by simpa using hf
        split
        next => exact List.Forall₂.cons ⟨hx, Or.inr ⟨hf', now, rfl⟩⟩ (ih h.tail (seen + 1))
        next => exact List.Forall₂.cons ⟨hx, Or.inl rfl⟩ (ih h.tail seen)

/-- **A tick settles every row of its batch.** -/
theorem tickRows_settles {batch : List (OutboxEvent × Answer)} {now : Int}
    {rows : List OutboxEvent} (h : tickRows settings batch now = some rows) :
    List.Forall₂ (Settles settings) batch rows := by
  obtain ⟨havail, rfl⟩ := tickRows_eq_some.mp h
  exact markRows_settles havail now _ _

theorem Settles.id {x : OutboxEvent × Answer} {row : OutboxEvent} (h : Settles settings x row) :
    row.id = x.1.id := by
  have hid : (assigned settings x).id = x.1.id := Outcome.assign_id _ _
  rcases h.row with rfl | ⟨-, now, rfl⟩
  · exact hid
  · exact hid

/-! ## §5. Which rows are marked. -/

/-- No unexpected error comes before an acknowledgement. -/
def AcksFirst (settings : Settings) (batch : List (OutboxEvent × Answer)) : Prop :=
  batch.Pairwise fun x y => (outcomeOf settings x).isUnexpected = true →
    (outcomeOf settings y).isAcked = false

instance (settings : Settings) (batch : List (OutboxEvent × Answer)) :
    Decidable (AcksFirst settings batch) :=
  inferInstanceAs (Decidable (batch.Pairwise _))

/-- A claimed row: neither processed nor failed. -/
def Fresh (row : OutboxEvent) : Prop := row.processed = false ∧ row.failed = false

/-- The row is processed exactly when it was acknowledged. -/
def MarkedRight (settings : Settings) (x : OutboxEvent × Answer) (row : OutboxEvent) : Prop :=
  row.processed = true ↔ (outcomeOf settings x).isAcked = true

/-- The three kinds of claimed rows while the broker is there: acknowledged, hit by
an unexpected error, and failed. -/
theorem fresh_cases {x : OutboxEvent × Answer}
    (hx : (outcomeOf settings x).isUnavailable = false) (hfail : x.1.failed = false) :
    ((assigned settings x).failed = false ∧ (outcomeOf settings x).isAcked = true
        ∧ (outcomeOf settings x).isUnexpected = false)
      ∨ ((assigned settings x).failed = false ∧ (outcomeOf settings x).isAcked = false
        ∧ (outcomeOf settings x).isUnexpected = true)
      ∨ ((assigned settings x).failed = true ∧ (outcomeOf settings x).isAcked = false
        ∧ (outcomeOf settings x).isUnexpected = false) := by
  have ha : assigned settings x = (outcomeOf settings x).assign x.1 := rfl
  rw [ha]
  cases ho : outcomeOf settings x with
  | unavailable exc =>
      rw [ho] at hx
      cases hx
  | acked => exact Or.inl ⟨hfail, rfl, rfl⟩
  | unexpected exc => exact Or.inr (Or.inl ⟨hfail, rfl, rfl⟩)
  | exceeded => exact Or.inr (Or.inr ⟨rfl, rfl, rfl⟩)
  | permanent exc => exact Or.inr (Or.inr ⟨rfl, rfl, rfl⟩)

theorem ackedCount_eq_zero_iff {batch : List (OutboxEvent × Answer)} :
    ackedCount settings batch = 0 ↔ ∀ y ∈ batch, (outcomeOf settings y).isAcked = false := by
  unfold ackedCount
  rw [List.countP_eq_zero]
  exact forall₂_congr fun y _ => by simp

theorem acksFirst_cons {x : OutboxEvent × Answer} {batch : List (OutboxEvent × Answer)} :
    AcksFirst settings (x :: batch) ↔ ((outcomeOf settings x).isUnexpected = true →
      ∀ y ∈ batch, (outcomeOf settings y).isAcked = false) ∧ AcksFirst settings batch := by
  unfold AcksFirst
  rw [List.pairwise_cons]
  exact and_congr_left' ⟨fun h hc y hy => h y hy hc, fun h y hy hc => h hc y hy⟩

/-- A row that stays as it is, not having been acknowledged. -/
theorem right_kept {x : OutboxEvent × Answer} {batch : List (OutboxEvent × Answer)}
    {rows : List OutboxEvent} (hproc : x.1.processed = false)
    (hack : (outcomeOf settings x).isAcked = false) :
    List.Forall₂ (MarkedRight settings) (x :: batch) (assigned settings x :: rows)
      ↔ List.Forall₂ (MarkedRight settings) batch rows := by
  have hkeep : (assigned settings x).processed = false :=
    (Outcome.assign_processed _ _).trans hproc
  have hright : MarkedRight settings x (assigned settings x) := by
    unfold MarkedRight
    rw [hkeep, hack]
  rw [List.forall₂_cons]
  exact and_iff_right hright

theorem markRows_right_iff {batch : List (OutboxEvent × Answer)} (h : Available settings batch)
    (hfresh : ∀ x ∈ batch, Fresh x.1) (now : Int) (seen : Nat) :
    List.Forall₂ (MarkedRight settings) batch
        (markRows now (seen + ackedCount settings batch) seen (batch.map (assigned settings)))
      ↔ AcksFirst settings batch := by
  induction batch generalizing seen with
  | nil => exact ⟨fun _ => List.Pairwise.nil, fun _ => List.Forall₂.nil⟩
  | cons x batch ih =>
      obtain ⟨hproc, hfail⟩ := hfresh x List.mem_cons_self
      have ih' := fun seen => ih h.tail (fun y hy => hfresh y (List.mem_cons_of_mem _ hy)) seen
      have hcount : ackedCount settings (x :: batch) = ackedCount settings batch
          + if (outcomeOf settings x).isAcked then 1 else 0 := List.countP_cons
      rw [List.map_cons, acksFirst_cons, hcount]
      rcases fresh_cases (h x List.mem_cons_self) hfail with
        ⟨hf, hack, hexp⟩ | ⟨hf, hack, hexp⟩ | ⟨hf, hack, hexp⟩
      · -- one more row to mark, and it is this one
        have hnext : seen + (ackedCount settings batch + 1) = seen + 1 + ackedCount settings batch := by
          omega
        have hright : MarkedRight settings x
            { assigned settings x with processed := true, processed_at := some now } :=
          iff_of_true rfl hack
        rw [hack, if_pos rfl, hnext, markRows_marked hf (by omega), List.forall₂_cons,
          and_iff_right hright, ih', hexp]
        exact (and_iff_right fun hc => nomatch hc).symm
      · rw [hack, if_neg Bool.false_ne_true, Nat.add_zero]
        by_cases hzero : ackedCount settings batch = 0
        · -- nothing more to mark
          rw [markRows_kept (Or.inr (by omega)), right_kept hproc hack, ih']
          exact (and_iff_right fun _ => ackedCount_eq_zero_iff.mp hzero).symm
        · -- the row is marked in the place of one that comes later
          rw [markRows_marked hf (by omega), List.forall₂_cons]
          constructor
          · intro hb
            have hwrong := hb.1.mp rfl
            rw [hack] at hwrong
            cases hwrong
          · intro hb
            exact absurd (ackedCount_eq_zero_iff.mpr (hb.1 hexp)) hzero
      · -- a row that has failed is passed over
        rw [hack, if_neg Bool.false_ne_true, Nat.add_zero, markRows_kept (Or.inl hf),
          right_kept hproc hack, ih', hexp]
        exact (and_iff_right fun hc => nomatch hc).symm

/-- **A tick that commits marks the acknowledged rows exactly when no unexpected
error comes before an acknowledgement.** -/
theorem marks_iff {batch : List (OutboxEvent × Answer)} {now : Int} {rows : List OutboxEvent}
    (hfresh : ∀ x ∈ batch, Fresh x.1) (h : tickRows settings batch now = some rows) :
    List.Forall₂ (MarkedRight settings) batch rows ↔ AcksFirst settings batch := by
  obtain ⟨havail, rfl⟩ := tickRows_eq_some.mp h
  have hright := markRows_right_iff havail hfresh now 0
  rw [Nat.zero_add] at hright
  exact hright

end Nimbus.OutboxRelay
