/-
  Nimbus.Workers.WorkerLoops
  ──────────────────────────
  **WHAT ENDS THE LOOP OF A WORKER.**

  The relay and the consumer each run a loop in a task of their own, which
  should end only when the worker is stopped or its task cancelled.  Both loops
  catch every `Exception` of a round.  But the consumer connects before its
  loop, outside the inner `try`: there the first exception ends the task.

    • `Relay.worker`                      — `OutboxRelay._run_forever`;
    • `Consumer.worker`                   — `KafkaConsumer._run_forever`;
    • `publishRows_eval`, `dispatch_eval` — the rounds do what the models of a
                                            batch and of a poll say;
    • `loops_iff`                         — **no run ends the relay, and a run ends the
                                            consumer exactly where its first
                                            connection raises.**
-/
import Nimbus.Core.Consumer
import Nimbus.Core.Dedupe
import Nimbus.Lib.Tasks
import Nimbus.Workers.OutboxRelay

namespace Nimbus.WorkerLoops

open Lib

/-! ## §1. What a task can be answered. -/

/-- An exception that `except Exception` takes. -/
def IsException (e : Raised) : Prop := ∃ exc, e = .exception exc

/-- What `asyncio` raises into a task: CancelledError only where it has been
cancelled, and otherwise the exceptions in `raises`. -/
def raisable (cancelled : Bool) (raises : Exn → Bool) : Raised → Bool
  | .exception exc => raises exc
  | .cancelledError => cancelled
  | .generatorExit => false

theorem raisable_false {raises : Exn → Bool} {e : Raised} (h : raisable false raises e = true) :
    ∃ exc, e = .exception exc ∧ raises exc = true := by
  cases e with
  | exception exc => exact ⟨exc, rfl, h⟩
  | cancelledError => cases h
  | generatorExit => cases h

/-- `wait_for` of an event raises TimeoutError and nothing else. -/
def isTimeout (exc : Exn) : Bool := decide (exc.cls = .builtinTimeoutError)

/-- `suppress(TimeoutError)`. -/
def suppressTimeout {Op : Type} {Ans : Op → Type} : Raised → Prog Op Ans Raised Unit
  | .exception exc => if exc.isA .builtinTimeoutError then pure () else throw (.exception exc)
  | e => throw e

theorem suppressTimeout_timeout {Op : Type} {Ans : Op → Type} {exc : Exn} (h : isTimeout exc = true) :
    (suppressTimeout (.exception exc) : Prog Op Ans Raised Unit) = pure () := by
  have hisA : exc.isA .builtinTimeoutError = true := Exn.isA_of_cls (of_decide_eq_true h) _
  exact if_pos hisA

section

variable {Op : Type} {Ans : Op → Type} {P : Op → Prop}
  {possible : Bool → (op : Op) → Except Raised (Ans op) → Bool}

/-- An operation that raises as a task does raises nothing but exceptions. -/
theorem comes_op_raisable {op : Op} (hop : P op)
    (h : ∀ e, possible false op (.error e) = true → ∃ raises, raisable false raises e = true) :
    Prog.Comes possible P (Prog.Raising IsException) (.call op .ret) := by
  refine Prog.comes_op hop fun e hpossible => ?_
  obtain ⟨raises, hraise⟩ := h e hpossible
  obtain ⟨exc, he, -⟩ := raisable_false hraise
  exact ⟨exc, he⟩

/-- `_sleep`: a wait that can only time out returns. -/
theorem comes_suppressTimeout {wait : Prog Op Ans Raised Unit}
    (hwait : Prog.Comes possible P
      (Prog.Raising fun e => ∃ exc, e = .exception exc ∧ isTimeout exc = true) wait) :
    Prog.Comes possible P (· = .ok ()) (tryCatch wait suppressTimeout) := by
  refine Prog.comes_tryCatch hwait (fun _ => rfl) fun e he => ?_
  obtain ⟨exc, rfl, htimeout⟩ := he
  rw [suppressTimeout_timeout htimeout]
  exact Prog.comes_ret rfl

end

/-- `except Exception: …` -/
def exceptException {Op : Type} {Ans : Op → Type} {α : Type} (handler : Exn → Prog Op Ans Raised α) :
    Raised → Prog Op Ans Raised α
  | .exception exc => handler exc
  | e => throw e

/-! ## §2. The relay. -/

namespace Relay

open OutboxRelay

/-- What the loop reads of the settings. -/
structure LoopSettings extends OutboxRelay.Settings where
  outbox_relay_poll_interval_seconds : Rat

inductive Op where
  | claimBatch
  | publishOne (row : OutboxEvent)
  | now
  | flush (rows : List OutboxEvent)
  | commit (rows : List OutboxEvent)
  | rollback
  | closeSession
  /-- `wait_for(self._stop_event.wait(), seconds)`. -/
  | wait (seconds : Rat)

def Ans : Op → Type
  | .claimBatch => List OutboxEvent
  | .now => Int
  | _ => Unit

/-- Any exception at any operation, but for the clock and the stop event. -/
def possible (cancelled : Bool) : (op : Op) → Except Raised (Ans op) → Bool
  | .now, .error _ => false
  | .wait _, .error e => raisable cancelled isTimeout e
  | _, .error e => raisable cancelled (fun _ => true) e
  | _, .ok _ => true

abbrev RelayProg := Prog Op Ans Raised

def call (op : Op) : RelayProg (Ans op) := .call op .ret

/-- `_sleep`. -/
def sleep (seconds : Rat) : RelayProg Unit := tryCatch (call (.wait seconds)) suppressTimeout

variable (settings : LoopSettings)

/-- How `_publish_one` has ended, under the `except` clauses of the loop. -/
def ending : Except Exn Unit → Outcome
  | .ok _ => .acked
  | .error exc =>
      if exc.isA .brokerUnavailableError then .unavailable exc
      else if exc.isA .infrastructureError then .permanent exc
      else .unexpected exc

/-- The counters after one more row, and whether the loop goes on. -/
def count (total : Nat) (row : OutboxEvent) (rest : List OutboxEvent) (r : BatchResult) :
    Outcome → BatchResult ⊕ BatchResult
  | .exceeded => .inr { r with rows := r.rows ++ [Outcome.exceeded.assign row], poison := r.poison + 1 }
  | .acked => .inr { r with rows := r.rows ++ [Outcome.acked.assign row], published := r.published + 1 }
  | .unavailable exc => .inl { r with
      rows := r.rows ++ [(Outcome.unavailable exc).assign row] ++ rest
      failed := r.failed + 1 + (total - r.published - (r.failed + 1) - r.poison)
      fail_fast := true }
  | .permanent exc => .inr { r with
      rows := r.rows ++ [(Outcome.permanent exc).assign row]
      failed := r.failed + 1
      poison := r.poison + 1 }
  | .unexpected exc => .inr { r with
      rows := r.rows ++ [(Outcome.unexpected exc).assign row], failed := r.failed + 1 }

/-- `return`, or on with the next row. -/
def goOn (loop : BatchResult → RelayProg BatchResult) :
    BatchResult ⊕ BatchResult → RelayProg BatchResult
  | .inl r => pure r
  | .inr r => loop r

/-- The loop of `_publish_batch`. -/
def publishRows (total : Nat) : List OutboxEvent → BatchResult → RelayProg BatchResult
  | [], r => pure r
  | row :: rest, r =>
      if (settings.outbox_relay_max_attempts : Int) ≤ row.attempt_count then
        goOn (publishRows total rest) (count total row rest r .exceeded)
      else (call (.publishOne row)).handle fun
        | .ok _ => goOn (publishRows total rest) (count total row rest r (ending (.ok ())))
        | .error (.exception exc) =>
            goOn (publishRows total rest) (count total row rest r (ending (.error exc)))
        | .error e => throw e

/-- `_mark_batch`. -/
def markBatch (r : BatchResult) : RelayProg (List OutboxEvent) :=
  if r.published = 0 ∧ r.poison = 0 then pure r.rows
  else do
    let now ← call .now
    let rows := markRows now r.published 0 r.rows
    let _ ← call (.flush rows)
    pure rows

/-- What the tick returns where `except OperationalError` takes the exception. -/
def unlessOperational {α : Type} (fallback : α) : Raised → RelayProg α :=
  exceptException fun exc =>
    if exc.isA .operationalError then pure fallback else throw (.exception exc)

/-- `_tick` for the rows it has claimed. -/
def publishAndMark (rows : List OutboxEvent) : RelayProg Nat := do
  let r ← publishRows settings rows.length rows ⟨[], 0, 0, 0, false⟩
  if r.fail_fast then do
    let _ ← call .rollback
    pure 0
  else do
    let rows ← markBatch r
    tryCatch (do
      let _ ← call (.commit rows)
      pure r.published) (unlessOperational 0)

/-- `_tick`: how many rows were published. -/
def tick : RelayProg Nat :=
  Prog.finally_ (do
    let claimed ← tryCatch (do
      let rows ← call .claimBatch
      pure (some rows)) (unlessOperational none)
    match claimed with
    | none | some [] => pure 0
    | some rows => publishAndMark settings rows)
    (call .closeSession)

/-- One round of `_run_forever`. -/
def round : RelayProg Unit :=
  tryCatch (do
    let processed ← tick settings
    sleep (if 0 < processed then settings.outbox_relay_poll_interval_seconds / 2
      else settings.outbox_relay_poll_interval_seconds))
    (exceptException fun _ => sleep settings.outbox_relay_poll_interval_seconds)

/-- `_run_forever`. -/
def worker : Worker Op Ans Raised := ⟨pure (), round settings, possible⟩

/-- Whatever it is answered, the part raises nothing but exceptions. -/
abbrev Plain {α : Type} (p : RelayProg α) : Prop :=
  Prog.Comes possible (fun _ => ¬ False) (Prog.Raising IsException) p

theorem op_plain (op : Op) : Plain (call op) := by
  apply comes_op_raisable id
  intro e h
  cases op <;> first | exact ⟨_, h⟩ | exact nomatch h

theorem sleep_ok (seconds : Rat) :
    Prog.Comes possible (fun _ => ¬ False) (· = .ok ()) (sleep seconds) :=
  comes_suppressTimeout (Prog.comes_op id fun _ h => raisable_false h)

theorem publishRows_plain (total : Nat) (rows : List OutboxEvent) (r : BatchResult) :
    Plain (publishRows settings total rows r) := by
  induction rows generalizing r with
  | nil => exact Prog.comes_pure r
  | cons row rest ih =>
      have hgo : ∀ x, Plain (goOn (publishRows settings total rest) x) := by
        intro x
        cases x with
        | inl r => exact Prog.comes_pure r
        | inr r => exact ih r
      unfold publishRows
      split
      next => exact hgo _
      next =>
          refine Prog.comes_handle (op_plain (.publishOne row)) fun answer hanswer => ?_
          cases answer with
          | ok _ => exact hgo _
          | error e =>
              obtain ⟨exc, rfl⟩ := hanswer e rfl
              exact hgo _

theorem unlessOperational_plain {α : Type} (fallback : α) {e : Raised} (he : IsException e) :
    Plain (unlessOperational fallback e) := by
  obtain ⟨exc, rfl⟩ := he
  show Plain (if exc.isA .operationalError then pure fallback else throw (.exception exc))
  split
  next => exact Prog.comes_pure fallback
  next => exact Prog.comes_raise ⟨exc, rfl⟩

theorem markBatch_plain (r : BatchResult) : Plain (markBatch r) := by
  unfold markBatch
  split
  next => exact Prog.comes_pure r.rows
  next =>
      refine Prog.comes_bind (op_plain .now) fun now => ?_
      exact Prog.comes_bind (op_plain (.flush _)) fun _ => Prog.comes_pure _

/-- What may raise in `try … except OperationalError`. -/
theorem tryOperational_plain {α : Type} {p : RelayProg α} (hp : Plain p) (fallback : α) :
    Plain (tryCatch p (unlessOperational fallback)) :=
  Prog.comes_tryCatch hp (fun _ _ h => nomatch h) fun _ he => unlessOperational_plain fallback he

theorem publishAndMark_plain (rows : List OutboxEvent) : Plain (publishAndMark settings rows) := by
  unfold publishAndMark
  refine Prog.comes_bind (publishRows_plain settings _ rows _) fun r => ?_
  split
  next => exact Prog.comes_bind (op_plain .rollback) fun _ => Prog.comes_pure 0
  next =>
      refine Prog.comes_bind (markBatch_plain r) fun rows => ?_
      exact tryOperational_plain
        (Prog.comes_bind (op_plain (.commit rows)) fun _ => Prog.comes_pure _) 0

theorem tick_plain : Plain (tick settings) := by
  unfold tick
  refine Prog.comes_finally (Prog.comes_bind ?_ fun claimed => ?_) (op_plain .closeSession)
  · exact tryOperational_plain
      (Prog.comes_bind (op_plain .claimBatch) fun rows => Prog.comes_pure (some rows)) none
  · split
    next => exact Prog.comes_pure 0
    next => exact Prog.comes_pure 0
    next => exact publishAndMark_plain settings _

/-- **A round of the relay goes through**, whatever its operations raise. -/
theorem round_ok : Prog.Comes possible (fun _ => ¬ False) (· = .ok ()) (round settings) := by
  have hsleep : ∀ seconds, Plain (sleep seconds) := fun seconds =>
    Prog.wlp_mono (fun r _ hr e he => nomatch hr.symm.trans he) (sleep_ok seconds)
  refine Prog.comes_tryCatch (Prog.comes_bind (tick_plain settings) fun _ => hsleep _)
    (fun _ => rfl) fun e he => ?_
  obtain ⟨exc, rfl⟩ := he
  exact sleep_ok _

/-- One row of a batch, by the same counters. -/
theorem publishRows_cons (settings : OutboxRelay.Settings) (total : Nat) (row : OutboxEvent)
    (answer : Answer) (rest : List (OutboxEvent × Answer)) (r : BatchResult) :
    OutboxRelay.publishRows settings total ((row, answer) :: rest) r
      = (match count total row (rest.map Prod.fst) r (outcome settings row answer) with
        | .inl r => r
        | .inr r => OutboxRelay.publishRows settings total rest r) := by
  rw [OutboxRelay.publishRows]
  cases outcome settings row answer with
  | exceeded => rfl
  | acked => rfl
  | unavailable exc => rfl
  | permanent exc => rfl
  | unexpected exc => rfl

theorem outcome_eq (settings : OutboxRelay.Settings) (row : OutboxEvent) (answer : Answer) :
    outcome settings row answer
      = if (settings.outbox_relay_max_attempts : Int) ≤ row.attempt_count then .exceeded
        else ending (OutboxRelay.publishOne row answer) := by
  unfold outcome ending
  cases OutboxRelay.publishOne row answer with
  | ok _ => rfl
  | error exc => rfl

/-- The loop of `_publish_batch`, run alone, is that of the model of a batch. -/
theorem publishRows_eval {σ : Type} (exec : (op : Op) → σ → Except Raised (Ans op) × σ)
    (answer : OutboxEvent → Answer)
    (h : ∀ row s, exec (.publishOne row) s
      = (((OutboxRelay.publishOne row (answer row)).mapError .exception : Except Raised Unit), s))
    (total : Nat) (rows : List OutboxEvent) (r : BatchResult) (s : σ) :
    (publishRows settings total rows r).eval exec s
      = (.ok (OutboxRelay.publishRows settings.toSettings total
          (rows.map fun row => (row, answer row)) r), s) := by
  induction rows generalizing r s with
  | nil => rfl
  | cons row rest ih =>
      have hrest : (rest.map fun row => (row, answer row)).map Prod.fst = rest := by
        rw [List.map_map]
        exact List.map_id' rest
      -- where the loop goes on, by the induction
      have hgo : ∀ o : Outcome, (goOn (publishRows settings total rest)
            (count total row rest r o)).eval exec s
          = (.ok (match count total row rest r o with
            | .inl r => r
            | .inr r => OutboxRelay.publishRows settings.toSettings total
                (rest.map fun row => (row, answer row)) r), s) := by
        intro o
        cases count total row rest r o with
        | inl r => rfl
        | inr r => exact ih r s
      rw [List.map_cons, publishRows_cons, hrest, outcome_eq]
      unfold publishRows
      by_cases hmax : (settings.outbox_relay_max_attempts : Int) ≤ row.attempt_count
      · rw [if_pos hmax, if_pos hmax]
        -- no attempt is left
        exact hgo .exceeded
      · rw [if_neg hmax, if_neg hmax]
        show (Prog.call _ _).eval exec s = _
        rw [Prog.eval_call, h]
        cases OutboxRelay.publishOne row (answer row) with
        | ok _ => exact hgo (ending (.ok ()))
        | error exc => exact hgo (ending (.error exc))

end Relay

/-! ## §3. The consumer. -/

namespace Consumer

open Nimbus.Consumer (TopicPartition ConsumerRecord Handled dispatchBatch committedOffsets)

/-- What the loop reads of the consumer and its settings. -/
structure Settings where
  kafka_bootstrap_servers : List String
  topics : List String

/-- A fetched record. -/
structure Fetched where
  offset : Nat
  record : ConsumerRecord

inductive Op where
  | newConsumer
  | startConsumer
  | subscribe (topics : List String)
  | getmany
  | handleMessage (record : ConsumerRecord)
  | commit (offsets : List (TopicPartition × Nat))
  /-- `wait_for(self._stop_event.wait(), seconds)`. -/
  | wait (seconds : Rat)

def Ans : Op → Type
  | .getmany => List (TopicPartition × List Fetched)
  | _ => Unit

def possible (cancelled : Bool) : (op : Op) → Except Raised (Ans op) → Bool
  | .wait _, .error e => raisable cancelled isTimeout e
  | _, .error e => raisable cancelled (fun _ => true) e
  | _, .ok _ => true

/-- The operations of `_connect`. -/
def Connecting : Op → Prop
  | .newConsumer | .startConsumer | .subscribe _ => True
  | _ => False

abbrev ConsumerProg := Prog Op Ans Raised

def call (op : Op) : ConsumerProg (Ans op) := .call op .ret

/-- `_sleep`. -/
def sleep (seconds : Rat) : ConsumerProg Unit := tryCatch (call (.wait seconds)) suppressTimeout

variable (settings : Settings)

/-- What `_connect` raises for an exception of the consumer's start. -/
def connectFailed (exc : Exn) : Exn :=
  if exc.isA .kafkaError then
    ⟨.brokerUnavailableError, "Cannot connect to Kafka cluster.",
      [("bootstrap_servers", .list (settings.kafka_bootstrap_servers.map .str)),
        ("driver_error", .str exc.msg)]⟩
  else exc

/-- `_connect`. -/
def connect : ConsumerProg Unit := do
  let _ ← call .newConsumer
  let _ ← tryCatch (call .startConsumer) (exceptException fun exc =>
    throw (.exception (connectFailed settings exc)))
  call (.subscribe settings.topics)

/-- The inner loop of `_poll_and_dispatch`. -/
def dispatchRecords (tp : TopicPartition) :
    List Fetched → List (TopicPartition × Nat) → ConsumerProg (List (TopicPartition × Nat))
  | [], committed_offsets => pure committed_offsets
  | fetched :: batch, committed_offsets => (call (.handleMessage fetched.record)).handle fun
      | .ok _ => dispatchRecords tp batch (dictSet committed_offsets tp (fetched.offset + 1))
      | .error (.exception _) => dispatchRecords tp batch committed_offsets
      | .error e => throw e

/-- The outer loop. -/
def dispatch : List (TopicPartition × List Fetched) → List (TopicPartition × Nat) →
    ConsumerProg (List (TopicPartition × Nat))
  | [], committed_offsets => pure committed_offsets
  | (tp, batch) :: records, committed_offsets => do
      let committed_offsets ← dispatchRecords tp batch committed_offsets
      dispatch records committed_offsets

/-- `_poll_and_dispatch`, of a consumer that `_connect` has made. -/
def pollAndDispatch : ConsumerProg Unit := do
  let records ← call .getmany
  let committed_offsets ← dispatch records []
  match committed_offsets with
  | [] => pure ()
  | _ => tryCatch (call (.commit committed_offsets)) (exceptException fun _ => pure ())

/-- One round of `_run_forever`. -/
def round : ConsumerProg Unit := tryCatch pollAndDispatch (exceptException fun _ => sleep 1)

/-- `_run_forever`. -/
def worker : Worker Op Ans Raised := ⟨connect settings, round, possible⟩

/-! After the connection everything that is raised is an exception of a round. -/

/-- Whatever it is answered, the part raises nothing but exceptions, and does not
connect. -/
abbrev Plain {α : Type} (p : ConsumerProg α) : Prop :=
  Prog.Comes possible (fun op => ¬ Connecting op) (Prog.Raising IsException) p

theorem op_plain {op : Op} (hop : ¬ Connecting op) : Plain (call op) := by
  apply comes_op_raisable (P := fun op => ¬ Connecting op) hop
  intro e h
  cases op <;> exact ⟨_, h⟩

theorem sleep_ok (seconds : Rat) :
    Prog.Comes possible (fun op => ¬ Connecting op) (· = .ok ()) (sleep seconds) :=
  comes_suppressTimeout (Prog.comes_op id fun _ h => raisable_false h)

theorem dispatchRecords_plain (tp : TopicPartition) (batch : List Fetched)
    (committed_offsets : List (TopicPartition × Nat)) :
    Plain (dispatchRecords tp batch committed_offsets) := by
  induction batch generalizing committed_offsets with
  | nil => exact Prog.comes_pure committed_offsets
  | cons fetched batch ih =>
      refine Prog.comes_handle (op_plain id) fun answer hanswer => ?_
      cases answer with
      | ok _ => exact ih _
      | error e =>
          obtain ⟨exc, rfl⟩ := hanswer e rfl
          exact ih committed_offsets

theorem dispatch_plain (records : List (TopicPartition × List Fetched))
    (committed_offsets : List (TopicPartition × Nat)) :
    Plain (dispatch records committed_offsets) := by
  induction records generalizing committed_offsets with
  | nil => exact Prog.comes_pure committed_offsets
  | cons tb records ih =>
      exact Prog.comes_bind (dispatchRecords_plain tb.1 tb.2 committed_offsets) fun _ => ih _

theorem pollAndDispatch_plain : Plain pollAndDispatch := by
  refine Prog.comes_bind (op_plain id) fun records => ?_
  refine Prog.comes_bind (dispatch_plain records []) fun committed_offsets => ?_
  split
  next => exact Prog.comes_pure ()
  next =>
      refine Prog.comes_tryCatch (op_plain id) (fun _ _ h => nomatch h) fun e he => ?_
      obtain ⟨exc, rfl⟩ := he
      exact Prog.comes_pure ()

/-- **A round of the consumer goes through**, whatever its operations raise. -/
theorem round_ok :
    Prog.Comes possible (fun op => ¬ Connecting op) (· = .ok ()) round := by
  refine Prog.comes_tryCatch pollAndDispatch_plain (fun _ => rfl) fun e he => ?_
  obtain ⟨exc, rfl⟩ := he
  exact sleep_ok 1

/-- **Every exception ends `_connect`**, and nothing takes it. -/
theorem connect_fragile : Prog.Fragile possible Connecting (connect settings) := by
  refine ⟨trivial, fun e _ => ⟨e, rfl⟩, fun _ => ⟨trivial, fun e he => ?_, fun _ =>
    ⟨trivial, fun e _ => ⟨e, rfl⟩, fun _ => rfl⟩⟩⟩
  obtain ⟨exc, rfl, -⟩ := raisable_false he
  exact ⟨.exception (connectFailed settings exc), rfl⟩

section

variable {σ : Type} (exec : (op : Op) → σ → Except Raised (Ans op) × σ)
  (handled : ConsumerRecord → Except Exn Unit)
  (h : ∀ record s, exec (.handleMessage record) s
    = (((handled record).mapError .exception : Except Raised Unit), s))

include h

theorem dispatchRecords_eval (tp : TopicPartition) (batch : List Fetched)
    (committed_offsets : List (TopicPartition × Nat)) (s : σ) :
    (dispatchRecords tp batch committed_offsets).eval exec s
      = (.ok (dispatchBatch tp (batch.map fun fetched =>
          ⟨fetched.offset, handled fetched.record⟩) committed_offsets), s) := by
  induction batch generalizing committed_offsets with
  | nil => rfl
  | cons fetched batch ih =>
      show (Prog.call _ _).eval exec s = _
      rw [Prog.eval_call, h, List.map_cons]
      unfold dispatchBatch
      cases handled fetched.record with
      | ok _ => exact ih _
      | error exc => exact ih committed_offsets

/-- The loops of `_poll_and_dispatch`, run alone, are those of the model of a
poll. -/
theorem dispatch_eval (records : List (TopicPartition × List Fetched)) (s : σ) :
    (dispatch records []).eval exec s
      = (.ok (committedOffsets (records.map fun tb =>
          (tb.1, tb.2.map fun fetched => ⟨fetched.offset, handled fetched.record⟩))), s) := by
  -- the induction is on the batches, over any offsets that are there already
  have general : ∀ (records : List (TopicPartition × List Fetched)) committed_offsets,
      (dispatch records committed_offsets).eval exec s
        = (.ok ((records.map fun tb => (tb.1, tb.2.map fun fetched =>
            (⟨fetched.offset, handled fetched.record⟩ : Handled))).foldl
              (fun acc tb => dispatchBatch tb.1 tb.2 acc) committed_offsets), s) := by
    intro records
    induction records with
    | nil => intro committed_offsets; rfl
    | cons tb records ih =>
        intro committed_offsets
        show Prog.eval exec (Prog.handle _ _) s = _
        rw [Prog.eval_handle, dispatchRecords_eval exec handled h]
        exact ih _
  exact general records []

end

end Consumer

/-! ## §4. Both loops. -/

/-- **Both workers end on request only, but for the connection**: in no run does
an exception end the relay, and in a run of the consumer exactly where one is
raised while it connects. -/
theorem loops_iff (relay : Relay.LoopSettings) (consumer : Consumer.Settings)
    (ticks : List (TaskEvent Relay.Op Relay.Ans Raised))
    (polls : List (TaskEvent Consumer.Op Consumer.Ans Raised)) :
    (∀ s ∈ (Relay.worker relay).machine.trace (Relay.worker relay).spawn ticks, s.OnRequest)
      ∧ ((∀ s ∈ (Consumer.worker consumer).machine.trace (Consumer.worker consumer).spawn polls,
            s.OnRequest)
          ↔ (Consumer.worker consumer).machine.Along
              (Worker.FirstHolds (Consumer.worker consumer) Consumer.Connecting)
              (Consumer.worker consumer).spawn polls) := by
  constructor
  · have hiff := @Worker.onRequest_iff _ _ _ (Relay.worker relay) (fun _ => False)
      (Relay.round_ok relay) rfl ticks
    refine hiff.mpr ?_
    -- the relay has no first part
    have hnothing : ∀ s a, Worker.FirstHolds (Relay.worker relay) (fun _ => False) s a := by
      intro s a
      cases a with
      | stop => trivial
      | cancel => trivial
      | answer oracle => exact fun _ _ _ hc => hc.elim
    exact (Relay.worker relay).machine.along_of_trace (G := fun _ => True)
      (fun s a _ => hnothing s a) ticks _ fun _ _ => trivial
  · exact Worker.onRequest_iff Consumer.round_ok (Consumer.connect_fragile consumer) polls

/-- Everything answers but the broker, at the first connection. -/
def noBroker : Oracle Consumer.Op Consumer.Ans Raised
  | .startConsumer => .error (.exception ⟨.kafkaError, "Unable to bootstrap from localhost:9092", []⟩)
  | .getmany => .ok []
  | .newConsumer | .subscribe _ | .handleMessage _ | .commit _ | .wait _ => .ok ()

/-- A broker that is not there yet ends the consumer for good. -/
theorem loops_dead :
    ¬ ∀ (consumer : Consumer.Settings) (polls : List (TaskEvent Consumer.Op Consumer.Ans Raised)),
        ∀ s ∈ (Consumer.worker consumer).machine.trace (Consumer.worker consumer).spawn polls,
          s.OnRequest := by
  intro h
  have hend := h ⟨["localhost:9092"], ["payments.events"]⟩ [.answer noBroker, .answer noBroker] _
    (Machine.run_mem_trace _ _ _)
  rcases hend _ rfl with hc | hc
  · cases hc
  · cases hc

end Nimbus.WorkerLoops
