/-
  Nimbus.Workers.Shutdown
  ───────────────────────
  **WHAT IS STOPPED WHEN THE APPLICATION STOPS.**

  `stop` sets the worker's stop event and waits for its task.  Where that takes
  too long, `wait_for` cancels the task, and the `except TimeoutError` awaits it
  once more, under a suppression of `Exception`.  But a cancelled task raises
  CancelledError, which is none: it leaves `stop`, and the `finally` of the
  application's `lifespan` with it.

    • `stop`, `relayStop`, `consumerStop`, `producerStop`, `shutdown`
    • `final`        — what the task of a worker comes to within a timeout;
    • `stop_eval`    — **what a `stop` comes to is decided by that alone**;
    • `shutdown_iff` — **when a `stop` returns, and when the application stops
                       everything that was started.**
-/
import Mathlib.Logic.Function.Basic
import Nimbus.Workers.WorkerLoops

namespace Nimbus.Shutdown

open Lib WorkerLoops

/-! ## §1. Operations. -/

/-- The two workers. -/
inductive Which where
  | relay
  | consumer
deriving DecidableEq

inductive Op where
  /-- The worker of `lifespan` is not None. -/
  | isBuilt (w : Which)
  /-- `self._task` is not None. -/
  | hasTask (w : Which)
  | setStopEvent (w : Which)
  | waitFor (w : Which) (timeout : Rat)
  | cancelTask (w : Which)
  | awaitTask (w : Which)
  | clearTask (w : Which)
  /-- `self._consumer` is not None. -/
  | hasClient
  | stopClient
  | clearClient
  | started
  | flush
  | stopClientOfProducer
  | clearProducer

abbrev Ans : Op → Type
  | .isBuilt _ | .hasTask _ | .hasClient | .started => Bool
  | _ => Unit

abbrev StopProg := Prog Op Ans Raised

def call (op : Op) : StopProg (Ans op) := .call op .ret

/-! ## §2. Stopping. -/

/-- `given or default`. -/
def orDefault (given : Option Rat) (default : Rat) : Rat :=
  match given with
  | none => default
  | some timeout => if timeout = 0 then default else timeout

/-- `with suppress(Exception): …`, and `_Suppress(Exception)`. -/
def suppressException (p : StopProg Unit) : StopProg Unit :=
  tryCatch p (exceptException fun _ => pure ())

/-- `except TimeoutError` of the two `stop`s. -/
def onTimeout (w : Which) : Raised → StopProg Unit :=
  exceptException fun exc =>
    if exc.isA .builtinTimeoutError then do
      let _ ← call (.cancelTask w)
      suppressException (call (.awaitTask w))
    else throw (.exception exc)

/-- The `stop` of a worker that closes `close` before it forgets its task. -/
def stop (w : Which) (timeout : Rat) (close : StopProg Unit) : StopProg Unit := do
  let running ← call (.hasTask w)
  if running = true then do
    let _ ← call (.setStopEvent w)
    Prog.finally_ (tryCatch (call (.waitFor w timeout)) (onTimeout w)) do
      let _ ← close
      call (.clearTask w)
  else pure ()

/-- `outbox_relay_graceful_shutdown_timeout_seconds`. -/
structure Settings where
  outbox_relay_graceful_shutdown_timeout_seconds : Rat

/-- `OutboxRelay.stop`. -/
def relayStop (settings : Settings) (shutdown_timeout_sec : Option Rat) : StopProg Unit :=
  stop .relay (orDefault shutdown_timeout_sec settings.outbox_relay_graceful_shutdown_timeout_seconds)
    (pure ())

/-- `_close_consumer`. -/
def closeConsumer : StopProg Unit := do
  let client ← call .hasClient
  if client = true then do
    suppressException (call .stopClient)
    call .clearClient
  else pure ()

/-- `KafkaConsumer.stop`. -/
def consumerStop (shutdown_timeout : Option Rat) : StopProg Unit :=
  stop .consumer (orDefault shutdown_timeout 10) closeConsumer

/-- `if relay is not None: …`, and the same of the consumer. -/
def whenBuilt (w : Which) (p : StopProg Unit) : StopProg Unit := do
  let built ← call (.isBuilt w)
  if built = true then p else pure ()

/-- `if producer.started: …` -/
def whenStarted (p : StopProg Unit) : StopProg Unit := do
  let started ← call .started
  if started = true then p else pure ()

/-- `KafkaProducer.stop`. -/
def producerStop : StopProg Unit :=
  whenStarted (Prog.finally_ (call .flush) do
    let _ ← call .stopClientOfProducer
    call .clearProducer)

/-- The `try` in the `finally` of `lifespan`. -/
def stopKafka : StopProg Unit := do
  let _ ← whenStarted producerStop
  whenBuilt .consumer (consumerStop none)

/-- The `finally` of `lifespan`. -/
def shutdown (settings : Settings) : StopProg Unit := do
  let _ ← whenBuilt .relay (relayStop settings none)
  suppressException stopKafka

/-! ## §3. What is in flight. -/

/-- The task of a worker: what it has come to if it is done, its stop event, and
whether the worker has made its Kafka client. -/
structure TaskState where
  result : Option (Except Raised Unit)
  stop_event : Bool
  client : Bool

/-- A worker as `lifespan` has it: not built, built without a task, or with one. -/
inductive Slot where
  | absent
  | idle
  | active (t : TaskState)

structure State where
  slot : Which → Slot
  /-- The producer is started. -/
  producer : Bool

/-- The work a task has in flight: how long it goes on after a stop (for ever,
where there is no number) and what the task then comes to, and what it comes to
when it is cancelled before. -/
structure Work where
  lasts : Option Rat
  result : Except Raised Unit
  whenCancelled : Except Raised Unit

/-- The work comes to its end in time. -/
def Work.InTime (work : Work) (timeout : Rat) : Prop := ∃ d, work.lasts = some d ∧ d ≤ timeout

instance (work : Work) (timeout : Rat) : Decidable (work.InTime timeout) :=
  match h : work.lasts with
  | none => isFalse fun ⟨_, hc, _⟩ => nomatch h.symm.trans hc
  | some d => decidable_of_iff (d ≤ timeout)
      ⟨fun hd => ⟨d, h, hd⟩, fun ⟨_, hd', hle⟩ => Option.some.inj (h.symm.trans hd') ▸ hle⟩

/-- The work in flight, and what the Kafka clients raise. -/
structure Behaviour where
  work : Which → Work
  stopClient : Option Exn
  flush : Option Exn
  stopProducer : Option Exn

/-- **What the task of a worker comes to** when it is waited for. -/
def final (work : Work) (timeout : Rat) (t : TaskState) : Except Raised Unit :=
  match t.result with
  | some r => r
  | none => if work.InTime timeout then work.result else work.whenCancelled

/-- What `wait_for` comes to: a task that it has cancelled, and that is cancelled,
is a timeout. -/
def waited (work : Work) (timeout : Rat) (t : TaskState) : Except Raised Unit :=
  match t.result with
  | some r => r
  | none =>
      if work.InTime timeout then work.result
      else match work.whenCancelled with
        | .error .cancelledError => .error (.exception ⟨.builtinTimeoutError, "", []⟩)
        | r => r

namespace State

/-- The state with another task of a worker. -/
def put (s : State) (w : Which) (t : TaskState) : State :=
  { s with slot := Function.update s.slot w (.active t) }

/-- The state without the task of a worker. -/
def clear (s : State) (w : Which) : State := { s with slot := Function.update s.slot w .idle }

@[simp] theorem put_slot (s : State) (w : Which) (t : TaskState) :
    (s.put w t).slot w = .active t := Function.update_self w _ s.slot

@[simp] theorem put_put (s : State) (w : Which) (t t' : TaskState) :
    (s.put w t).put w t' = s.put w t' :=
  congrArg (State.mk · s.producer) (Function.update_idem ..)

@[simp] theorem clear_put (s : State) (w : Which) (t : TaskState) :
    (s.put w t).clear w = s.clear w :=
  congrArg (State.mk · s.producer) (Function.update_idem ..)

theorem put_self {s : State} {w : Which} {t : TaskState} (h : s.slot w = .active t) :
    s.put w t = s := by
  unfold put
  rw [← h, Function.update_eq_self]

end State

/-- An operation on a Kafka client. -/
def raising : Option Exn → Except Raised Unit
  | none => .ok ()
  | some exc => .error (.exception exc)

/-- An operation on the task of a worker. -/
def onTask (s : State) (w : Which) (f : TaskState → Except Raised Unit × TaskState) :
    Except Raised Unit × State :=
  match s.slot w with
  | .active t => ((f t).1, s.put w (f t).2)
  | _ => (.ok (), s)

def Behaviour.exec (env : Behaviour) : (op : Op) → State → Except Raised (Ans op) × State
  | .isBuilt w, s => (.ok (match s.slot w with | .absent => false | _ => true), s)
  | .hasTask w, s => (.ok (match s.slot w with | .active _ => true | _ => false), s)
  | .setStopEvent w, s => onTask s w fun t => (.ok (), { t with stop_event := true })
  | .waitFor w timeout, s => onTask s w fun t =>
      (waited (env.work w) timeout t, { t with result := some (final (env.work w) timeout t) })
  | .cancelTask w, s => onTask s w fun t =>
      (.ok (), { t with result := some (t.result.getD (env.work w).whenCancelled) })
  | .awaitTask w, s => onTask s w fun t =>
      (t.result.getD (env.work w).result, { t with result := some (t.result.getD (env.work w).result) })
  | .clearTask w, s => (.ok (), match s.slot w with | .active _ => s.clear w | _ => s)
  | .hasClient, s => (.ok (match s.slot .consumer with | .active t => t.client | _ => false), s)
  | .stopClient, s => (raising env.stopClient, s)
  | .clearClient, s => onTask s .consumer fun t => (.ok (), { t with client := false })
  | .started, s => (.ok s.producer, s)
  | .flush, s => (raising env.flush, s)
  | .stopClientOfProducer, s => (raising env.stopProducer, s)
  | .clearProducer, s => (.ok (), { s with producer := false })

/-! ## §4. One worker. -/

variable (env : Behaviour)

/-- What `stop` makes of what the task has come to. -/
def verdict : Except Raised Unit → Except Raised Unit
  | .ok _ => .ok ()
  | .error (.exception exc) =>
      if exc.isA .builtinTimeoutError then .ok () else .error (.exception exc)
  | .error e => .error e

/-- `wait_for` raises what the task has come to, or a timeout for a task that it
has cancelled. -/
theorem waited_cases (work : Work) (timeout : Rat) (t : TaskState) :
    waited work timeout t = final work timeout t
      ∨ (final work timeout t = .error .cancelledError
        ∧ waited work timeout t = .error (.exception ⟨.builtinTimeoutError, "", []⟩)) := by
  unfold waited final
  cases t.result with
  | some r => exact Or.inl rfl
  | none =>
      by_cases htime : work.InTime timeout
      · exact Or.inl (by rw [if_pos htime, if_pos htime])
      · simp only [if_neg htime]
        split
        next hcancelled => exact Or.inr ⟨hcancelled, rfl⟩
        next => exact Or.inl rfl

theorem onTask_put (s : State) (w : Which) (t : TaskState)
    (f : TaskState → Except Raised Unit × TaskState) :
    onTask (s.put w t) w f = ((f t).1, s.put w (f t).2) := by
  unfold onTask
  rw [State.put_slot]
  exact congrArg (Prod.mk _) (State.put_put s w t _)

/-- What a suppression of `Exception` makes of an outcome. -/
def suppressed : Except Raised Unit → Except Raised Unit
  | .error (.exception _) => .ok ()
  | r => r

theorem suppress_eval {p : StopProg Unit} {s s' : State} {r : Except Raised Unit}
    (h : p.eval env.exec s = (r, s')) :
    (suppressException p).eval env.exec s = (suppressed r, s') := by
  cases r with
  | ok _ => exact Prog.eval_tryCatch_ok h _
  | error e =>
      refine (Prog.eval_tryCatch_error h _).trans ?_
      cases e with
      | exception exc => rfl
      | cancelledError => rfl
      | generatorExit => rfl

/-- A task that is done raises what it has come to again; an exception is
suppressed. -/
theorem onTimeout_eval (s : State) (w : Which) {t : TaskState} {r : Except Raised Unit}
    (hr : t.result = some r) {exc : Exn} (hexc : exc.isA .builtinTimeoutError = true) :
    (onTimeout w (.exception exc)).eval env.exec (s.put w t)
      = (suppressed r, s.put w t) := by
  have ht : ∀ r', { t with result := some (t.result.getD r') } = t := fun r' => by
    rw [hr]
    exact congrArg (fun x => { t with result := x }) hr.symm
  have hcancel : (call (.cancelTask w)).eval env.exec (s.put w t) = (.ok (), s.put w t) := by
    refine (onTask_put s w t _).trans ?_
    rw [ht]
  have hawait : (call (.awaitTask w)).eval env.exec (s.put w t) = (r, s.put w t) := by
    refine (onTask_put s w t _).trans ?_
    rw [ht, hr]
    rfl
  unfold onTimeout exceptException
  show Prog.eval env.exec (if exc.isA .builtinTimeoutError then _ else _) _ = _
  rw [if_pos hexc]
  exact (Prog.eval_bind_ok hcancel _).trans (suppress_eval env hawait)

/-- **Waiting for a task**, with the `except` clause: what it comes to decides. -/
theorem wait_eval (s : State) (w : Which) (timeout : Rat) (t : TaskState) :
    (tryCatch (call (.waitFor w timeout)) (onTimeout w)).eval env.exec (s.put w t)
      = (verdict (final (env.work w) timeout t),
        s.put w { t with result := some (final (env.work w) timeout t) }) := by
  have hwait : (call (.waitFor w timeout)).eval env.exec (s.put w t)
      = (waited (env.work w) timeout t,
        s.put w { t with result := some (final (env.work w) timeout t) }) := onTask_put s w t _
  rcases waited_cases (env.work w) timeout t with hsame | ⟨hfinal, htimeout⟩
  · rw [hsame] at hwait
    cases hr : final (env.work w) timeout t with
    | ok _ =>
        rw [hr] at hwait
        exact Prog.eval_tryCatch_ok hwait _
    | error e =>
        rw [hr] at hwait
        refine (Prog.eval_tryCatch_error hwait _).trans ?_
        cases e with
        | exception exc =>
            by_cases hexc : exc.isA .builtinTimeoutError = true
            · rw [onTimeout_eval env s w rfl hexc]
              show _ = (if exc.isA .builtinTimeoutError then _ else _, _)
              rw [if_pos hexc]
              rfl
            · show Prog.eval env.exec (if exc.isA .builtinTimeoutError then _ else _) _
                = (if exc.isA .builtinTimeoutError then _ else _, _)
              rw [if_neg hexc, if_neg hexc]
              rfl
        | cancelledError => rfl
        | generatorExit => rfl
  · -- `wait_for` has cancelled the task, and awaiting it raises that
    rw [htimeout] at hwait
    rw [Prog.eval_tryCatch_error hwait, onTimeout_eval env s w rfl rfl, hfinal]
    rfl

/-- A `close` that raises nothing and changes the task at most. -/
def Closes (w : Which) (close : StopProg Unit) : Prop :=
  ∀ (s : State) (t : TaskState), ∃ t', close.eval env.exec (s.put w t) = (.ok (), s.put w t')

/-- **What a `stop` comes to.**  The worker has no task afterwards, and the `stop`
raises what the task has come to, but for a TimeoutError. -/
theorem stop_eval {w : Which} {close : StopProg Unit} (hclose : Closes env w close)
    {s : State} {t : TaskState} (h : s.slot w = .active t) (timeout : Rat) :
    (stop w timeout close).eval env.exec s
      = (verdict (final (env.work w) timeout t), s.clear w) := by
  have htask : (call (.hasTask w)).eval env.exec s = (.ok true, s) := by
    show ((.ok (match s.slot w with | .active _ => true | _ => false) : Except Raised Bool), s) = _
    rw [h]
  -- the stop event is set
  have hevent : (call (.setStopEvent w)).eval env.exec s
      = (.ok (), s.put w { t with stop_event := true }) := by
    have hput := onTask_put s w t fun t => (.ok (), { t with stop_event := true })
    rw [State.put_self h] at hput
    exact hput
  -- the task is waited for, and the client closed, and the task forgotten
  have hwait := wait_eval env s w timeout { t with stop_event := true }
  obtain ⟨t', hclosed⟩ := hclose s
    { t with stop_event := true, result := some (final (env.work w) timeout t) }
  have hclear : (call (.clearTask w)).eval env.exec (s.put w t') = (.ok (), s.clear w) := by
    show ((.ok () : Except Raised Unit),
      match (s.put w t').slot w with | .active _ => (s.put w t').clear w | _ => s.put w t') = _
    rw [State.put_slot, ← State.clear_put s w t']
  have hfin := (Prog.eval_bind_ok hclosed fun _ => call (.clearTask w)).trans hclear
  unfold stop
  rw [Prog.eval_bind_ok htask, if_pos rfl, Prog.eval_bind_ok hevent, Prog.eval_finally, hwait]
  refine (congrArg (fun x : Except Raised Unit × State => (x.1.bind fun _ => _, x.2)) hfin).trans ?_
  rfl

/-- The worker has a task. -/
def Slot.isActive : Slot → Bool
  | .active _ => true
  | _ => false

/-- Without a task there is nothing to stop. -/
theorem stop_inactive {w : Which} {s : State} (h : (s.slot w).isActive = false) (timeout : Rat)
    (close : StopProg Unit) : (stop w timeout close).eval env.exec s = (.ok (), s) := by
  have htask : (call (.hasTask w)).eval env.exec s = (.ok false, s) := by
    show ((.ok (s.slot w).isActive : Except Raised Bool), s) = _
    rw [h]
  unfold stop
  rw [Prog.eval_bind_ok htask]
  rfl

theorem closes_relay : Closes env .relay (pure ()) := fun _ t => ⟨t, rfl⟩

theorem closes_consumer : Closes env .consumer closeConsumer := by
  intro s t
  have hclient : (call .hasClient).eval env.exec (s.put .consumer t)
      = (.ok t.client, s.put .consumer t) := by
    show ((.ok (match (s.put .consumer t).slot .consumer with
      | .active t => t.client
      | _ => false) : Except Raised Bool), s.put .consumer t) = _
    rw [State.put_slot]
  unfold closeConsumer
  rw [Prog.eval_bind_ok hclient]
  cases t.client with
  | false => exact ⟨t, rfl⟩
  | true =>
      -- the client may raise, which is suppressed
      have hstop : (suppressException (call .stopClient)).eval env.exec (s.put .consumer t)
          = (.ok (), s.put .consumer t) := by
        have hraised : (call .stopClient).eval env.exec (s.put .consumer t)
            = (raising env.stopClient, s.put .consumer t) := rfl
        rw [suppress_eval env hraised]
        cases env.stopClient with
        | none => rfl
        | some exc => rfl
      refine ⟨{ t with client := false }, ?_⟩
      rw [if_pos rfl, Prog.eval_bind_ok hstop]
      have hclear := onTask_put s .consumer t fun t => (.ok (), { t with client := false })
      exact hclear

/-- The task has returned or raised a TimeoutError. -/
def Settled (r : Except Raised Unit) : Prop :=
  ∀ e, r = .error e → ∃ exc, e = .exception exc ∧ exc.isA .builtinTimeoutError = true

theorem verdict_ok_iff (r : Except Raised Unit) : verdict r = .ok () ↔ Settled r := by
  cases r with
  | ok _ => exact iff_of_true rfl fun _ hc => nomatch hc
  | error e =>
      cases e with
      | exception exc =>
          -- a TimeoutError of the task itself is taken for that of the wait
          show (if exc.isA .builtinTimeoutError then _ else _) = _ ↔ _
          by_cases hexc : exc.isA .builtinTimeoutError = true
          · rw [if_pos hexc]
            refine iff_of_true rfl fun e he => ⟨exc, (Except.error.inj he).symm, hexc⟩
          · rw [if_neg hexc]
            refine iff_of_false (fun hc => nomatch hc) fun hc => ?_
            obtain ⟨exc', he, hexc'⟩ := hc _ rfl
            obtain rfl := Raised.exception.inj he
            exact hexc hexc'
      | cancelledError =>
          refine iff_of_false (fun hc => nomatch hc) fun hc => ?_
          obtain ⟨exc, he, -⟩ := hc _ rfl
          cases he
      | generatorExit =>
          refine iff_of_false (fun hc => nomatch hc) fun hc => ?_
          obtain ⟨exc, he, -⟩ := hc _ rfl
          cases he

/-- A `stop` that returns, with no worker running. -/
def Stops (env : Behaviour) (w : Which) (p : StopProg Unit) (s : State) : Prop :=
  (p.eval env.exec s).1 = .ok () ∧ ((p.eval env.exec s).2.slot w).isActive = false

theorem stops_iff {w : Which} {close : StopProg Unit} (hclose : Closes env w close) (s : State)
    (timeout : Rat) :
    Stops env w (stop w timeout close) s
      ↔ ∀ t, s.slot w = .active t → Settled (final (env.work w) timeout t) := by
  unfold Stops
  cases hs : (s.slot w).isActive with
  | false =>
      rw [stop_inactive env hs]
      -- nothing to stop
      refine iff_of_true ⟨rfl, hs⟩ fun t ht => ?_
      rw [ht] at hs
      cases hs
  | true =>
      obtain ⟨t, ht⟩ : ∃ t, s.slot w = .active t := by
        cases hslot : s.slot w with
        | active t => exact ⟨t, rfl⟩
        | absent =>
            rw [hslot] at hs
            cases hs
        | idle =>
            rw [hslot] at hs
            cases hs
      have hidle : ((s.clear w).slot w).isActive = false :=
        congrArg Slot.isActive (Function.update_self w _ s.slot)
      -- what the task comes to decides
      rw [stop_eval env hclose ht]
      constructor
      · intro hstop t' ht'
        obtain rfl := Slot.active.inj (ht.symm.trans ht')
        exact (verdict_ok_iff _).mp hstop.1
      · intro hsettled
        exact ⟨(verdict_ok_iff _).mpr (hsettled t ht), hidle⟩

/-! ## §5. The application. -/

/-- What `lifespan` makes of a worker. -/
theorem whenBuilt_stop {w : Which} {close : StopProg Unit} (hclose : Closes env w close) (s : State)
    (timeout : Rat) :
    (whenBuilt w (stop w timeout close)).eval env.exec s
      = match s.slot w with
        | .active t => (verdict (final (env.work w) timeout t), s.clear w)
        | _ => (.ok (), s) := by
  have hbuilt : (call (.isBuilt w)).eval env.exec s
      = (.ok (match s.slot w with | .absent => false | _ => true), s) := rfl
  unfold whenBuilt
  rw [Prog.eval_bind_ok hbuilt]
  cases hs : s.slot w with
  | absent => rfl
  | idle => exact stop_inactive env (congrArg Slot.isActive hs) timeout close
  | active t => exact stop_eval env hclose hs timeout

/-- The producer: its client is stopped whatever the flush does, but an exception
of the flush goes on. -/
theorem producer_eval {s : State} (h : s.producer = true) :
    (whenStarted producerStop).eval env.exec s
      = match env.stopProducer with
        | some exc => (.error (.exception exc), s)
        | none => (raising env.flush, { s with producer := false }) := by
  have hstarted : (call .started).eval env.exec s = (.ok true, s) :=
    congrArg (fun b : Bool => ((.ok b : Except Raised Bool), s)) h
  have hflush : (call .flush).eval env.exec s = (raising env.flush, s) := rfl
  unfold producerStop whenStarted
  rw [Prog.eval_bind_ok hstarted, if_pos rfl, Prog.eval_bind_ok hstarted, if_pos rfl,
    Prog.eval_finally, hflush]
  have hstop : (call .stopClientOfProducer).eval env.exec s = (raising env.stopProducer, s) := rfl
  cases hs : env.stopProducer with
  | some exc =>
      rw [hs] at hstop
      exact congrArg (fun x : Except Raised Unit × State => (x.1.bind fun _ => raising env.flush, x.2))
        (Prog.eval_bind_error hstop fun _ => call .clearProducer)
  | none =>
      rw [hs] at hstop
      exact congrArg (fun x : Except Raised Unit × State => (x.1.bind fun _ => raising env.flush, x.2))
        (Prog.eval_bind_ok hstop fun _ => call .clearProducer)

/-- The task has not been cancelled. -/
def Uncancelled (r : Except Raised Unit) : Prop := ∀ e, r = .error e → ∃ exc, e = .exception exc

/-- A suppressed `stop` returns, unless its task has been cancelled. -/
theorem suppressed_verdict_iff (r : Except Raised Unit) :
    suppressed (verdict r) = .ok () ↔ Uncancelled r := by
  cases r with
  | ok _ => exact iff_of_true rfl fun _ hc => nomatch hc
  | error e =>
      cases e with
      | exception exc =>
          refine iff_of_true ?_ fun e he => ⟨exc, (Except.error.inj he).symm⟩
          show suppressed (if exc.isA .builtinTimeoutError then _ else _) = _
          split
          next => rfl
          next => rfl
      | cancelledError =>
          refine iff_of_false (fun hc => nomatch hc) fun hc => ?_
          obtain ⟨exc, he⟩ := hc _ rfl
          cases he
      | generatorExit =>
          refine iff_of_false (fun hc => nomatch hc) fun hc => ?_
          obtain ⟨exc, he⟩ := hc _ rfl
          cases he

/-- Nothing that was started runs any more. -/
def Down (s : State) : Prop := (∀ w, (s.slot w).isActive = false) ∧ s.producer = false

/-- Under which the Kafka clients are stopped. -/
structure KafkaOrderly (env : Behaviour) (s : State) : Prop where
  producer : s.producer = true → env.stopProducer = none
  /-- The consumer comes after the flush. -/
  flush : s.producer = true → (s.slot .consumer).isActive = true → env.flush = none
  consumer : ∀ t, s.slot .consumer = .active t → Uncancelled (final (env.work .consumer) 10 t)

/-- Without a consumer to stop, only the relay can still run. -/
theorem inactive_down {s s₁ : State} (hslot : s₁.slot = s.slot) (hstopped : s₁.producer = false)
    (hs : (s.slot .consumer).isActive = false) {Q : Prop} (hQ : Q) :
    ((.ok () : Except Raised Unit) = .ok () ∧ Down s₁) ↔ (s.slot .relay).isActive = false ∧ Q := by
  constructor
  · intro h
    refine ⟨?_, hQ⟩
    rw [← hslot]
    exact h.2.1 .relay
  · intro h
    refine ⟨rfl, fun w => ?_, hstopped⟩
    rw [hslot]
    cases w with
    | relay => exact h.1
    | consumer => exact hs

/-- The consumer's part, where the producer's has gone through. -/
theorem consumerPart_iff {s s₁ : State} (hproducer : (whenStarted producerStop).eval env.exec s
      = (.ok (), s₁)) (hslot : s₁.slot = s.slot) (hstopped : s₁.producer = false) :
    (((suppressException stopKafka).eval env.exec s).1 = .ok ()
        ∧ Down ((suppressException stopKafka).eval env.exec s).2)
      ↔ (s.slot .relay).isActive = false
        ∧ ∀ t, s.slot .consumer = .active t → Uncancelled (final (env.work .consumer) 10 t) := by
  have hrest : stopKafka.eval env.exec s = _ :=
    (Prog.eval_bind_ok hproducer _).trans (whenBuilt_stop env (closes_consumer env) s₁ 10)
  rw [hslot] at hrest
  cases hs : s.slot .consumer with
  | active t =>
      rw [hs] at hrest
      -- the consumer is stopped; what is left to ask is whether the relay is
      have hdown : Down (s₁.clear .consumer) ↔ (s.slot .relay).isActive = false := by
        refine ⟨fun hd => ?_, fun hrelay => ⟨fun w => ?_, hstopped⟩⟩
        · rw [← hslot]
          exact hd.1 .relay
        · cases w with
          | relay => exact (congrArg (fun f => (f Which.relay).isActive) hslot).trans hrelay
          | consumer => rfl
      rw [suppress_eval env hrest, hdown, suppressed_verdict_iff]
      constructor
      · intro h
        refine ⟨h.2, fun t' ht' => ?_⟩
        obtain rfl := Slot.active.inj ht'
        exact h.1
      · intro h
        exact ⟨h.2 t rfl, h.1⟩
  | absent =>
      rw [hs] at hrest
      rw [suppress_eval env hrest]
      exact inactive_down hslot hstopped (congrArg Slot.isActive hs) (fun t ht => nomatch ht)
  | idle =>
      rw [hs] at hrest
      rw [suppress_eval env hrest]
      exact inactive_down hslot hstopped (congrArg Slot.isActive hs) (fun t ht => nomatch ht)

/-- An exception of the producer's `stop`: the consumer's turn never comes. -/
theorem stopKafka_error {s s₁ : State} {exc : Exn}
    (h : (whenStarted producerStop).eval env.exec s = (.error (.exception exc), s₁)) :
    (suppressException stopKafka).eval env.exec s = (.ok (), s₁) := by
  have hraised : stopKafka.eval env.exec s = (.error (.exception exc), s₁) :=
    Prog.eval_bind_error h _
  exact suppress_eval env hraised

/-- **The `try` of `lifespan`.** -/
theorem kafka_iff (s : State) :
    (((suppressException stopKafka).eval env.exec s).1 = .ok ()
        ∧ Down ((suppressException stopKafka).eval env.exec s).2)
      ↔ (s.slot .relay).isActive = false ∧ KafkaOrderly env s := by
  cases hp : s.producer with
  | false =>
      have hproducer : (whenStarted producerStop).eval env.exec s = (.ok (), s) := by
        have hstarted : (call .started).eval env.exec s = (.ok false, s) :=
          congrArg (fun b : Bool => ((.ok b : Except Raised Bool), s)) hp
        unfold whenStarted
        rw [Prog.eval_bind_ok hstarted]
        rfl
      rw [consumerPart_iff env hproducer rfl hp]
      constructor
      · intro h
        exact ⟨h.1, fun hc => (nomatch hp.symm.trans hc), fun hc => (nomatch hp.symm.trans hc), h.2⟩
      · intro h
        exact ⟨h.1, h.2.consumer⟩
  | true =>
      have hproducer := producer_eval env hp
      cases hstop : env.stopProducer with
      | some exc =>
          -- the producer itself is not stopped
          rw [hstop] at hproducer
          rw [stopKafka_error env hproducer]
          refine iff_of_false (fun hc => ?_) fun hc => ?_
          · exact nomatch hp.symm.trans hc.2.2
          · exact nomatch hstop.symm.trans (hc.2.producer hp)
      | none =>
          rw [hstop] at hproducer
          cases hflush : env.flush with
          | none =>
              rw [hflush] at hproducer
              rw [consumerPart_iff env hproducer rfl rfl]
              constructor
              · intro h
                exact ⟨h.1, fun _ => hstop, fun _ _ => hflush, h.2⟩
              · intro h
                exact ⟨h.1, h.2.consumer⟩
          | some exc =>
              -- the producer is stopped, the consumer is not
              rw [hflush] at hproducer
              rw [stopKafka_error env hproducer]
              constructor
              · intro h
                have hidle : (s.slot .consumer).isActive = false := h.2.1 .consumer
                refine ⟨h.2.1 .relay, fun _ => hstop, fun _ hc => ?_, fun t ht => ?_⟩
                · exact nomatch hidle.symm.trans hc
                · rw [ht] at hidle
                  cases hidle
              · intro h
                refine ⟨rfl, fun w => ?_, rfl⟩
                cases w with
                | relay => exact h.1
                | consumer =>
                    show (s.slot .consumer).isActive = false
                    cases hidle : (s.slot .consumer).isActive with
                    | false => rfl
                    | true => exact nomatch hflush.symm.trans (h.2.flush hp hidle)

/-- **When shutting down completes.**  Either `stop` returns with no worker running
exactly where the task it waits for comes to a return or a TimeoutError.  The
`finally` of `lifespan` returns with everything stopped exactly where that holds
of the relay and the Kafka clients can be stopped in their order. -/
theorem shutdown_iff (settings : Settings) (s : State) (timeout : Option Rat) :
    (Stops env .relay (relayStop settings timeout) s ↔ ∀ t, s.slot .relay = .active t →
        Settled (final (env.work .relay)
          (orDefault timeout settings.outbox_relay_graceful_shutdown_timeout_seconds) t))
      ∧ (Stops env .consumer (consumerStop timeout) s ↔ ∀ t, s.slot .consumer = .active t →
        Settled (final (env.work .consumer) (orDefault timeout 10) t))
      ∧ (((shutdown settings).eval env.exec s).1 = .ok ()
          ∧ Down ((shutdown settings).eval env.exec s).2
        ↔ (∀ t, s.slot .relay = .active t → Settled (final (env.work .relay)
            settings.outbox_relay_graceful_shutdown_timeout_seconds t))
          ∧ KafkaOrderly env s) := by
  refine ⟨stops_iff env (closes_relay env) s _, stops_iff env (closes_consumer env) s _, ?_⟩
  have hrelay : (whenBuilt .relay (relayStop settings none)).eval env.exec s = _ :=
    whenBuilt_stop env (closes_relay env) s settings.outbox_relay_graceful_shutdown_timeout_seconds
  -- without a task of the relay the rest decides
  have hrest : (s.slot .relay).isActive = false →
      (whenBuilt .relay (relayStop settings none)).eval env.exec s = (.ok (), s) →
      (((shutdown settings).eval env.exec s).1 = .ok () ∧ Down ((shutdown settings).eval env.exec s).2
        ↔ (∀ t, s.slot .relay = .active t → Settled (final (env.work .relay)
            settings.outbox_relay_graceful_shutdown_timeout_seconds t)) ∧ KafkaOrderly env s) := by
    intro hidle hok
    unfold shutdown
    rw [Prog.eval_bind_ok hok, kafka_iff]
    constructor
    · intro h
      refine ⟨fun t ht => ?_, h.2⟩
      rw [ht] at hidle
      cases hidle
    · intro h
      exact ⟨hidle, h.2⟩
  cases hs : s.slot .relay with
  | absent =>
      rw [hs] at hrelay hrest
      exact hrest rfl hrelay
  | idle =>
      rw [hs] at hrelay hrest
      exact hrest rfl hrelay
  | active t =>
      rw [hs] at hrelay
      simp only at hrelay
      have hsame : KafkaOrderly env (s.clear .relay) ↔ KafkaOrderly env s :=
        ⟨fun h => ⟨h.producer, h.flush, h.consumer⟩, fun h => ⟨h.producer, h.flush, h.consumer⟩⟩
      have hthis : (∀ t', Slot.active t = .active t' → Settled (final (env.work .relay)
          settings.outbox_relay_graceful_shutdown_timeout_seconds t'))
            ↔ verdict (final (env.work .relay)
              settings.outbox_relay_graceful_shutdown_timeout_seconds t) = .ok () := by
        rw [verdict_ok_iff]
        refine ⟨fun h => h t rfl, fun h t' ht' => ?_⟩
        obtain rfl := Slot.active.inj ht'
        exact h
      unfold shutdown
      rw [hthis]
      cases hv : verdict (final (env.work .relay)
          settings.outbox_relay_graceful_shutdown_timeout_seconds t) with
      | error e =>
          -- it leaves the `finally`, and the rest is not run
          rw [hv] at hrelay
          rw [Prog.eval_bind_error hrelay]
          exact iff_of_false (fun hc => nomatch hc.1) fun hc => nomatch hc.1
      | ok _ =>
          rw [hv] at hrelay
          rw [Prog.eval_bind_ok hrelay, kafka_iff, hsame]
          exact and_congr_left fun _ => iff_of_true rfl rfl

/-- A tick that hangs until it is cancelled, next to an idle consumer. -/
def hangingTick : Behaviour where
  work
    | .relay => ⟨none, .ok (), .error .cancelledError⟩
    | .consumer => ⟨some 0, .ok (), .error .cancelledError⟩
  stopClient := none
  flush := none
  stopProducer := none

/-- Everything has been started. -/
def allStarted : State := ⟨fun _ => .active ⟨none, false, true⟩, true⟩

/-- The relay's `stop` raises CancelledError, and neither the producer nor the
consumer is stopped. -/
theorem shutdown_cut_short :
    ¬ ∀ (settings : Settings) (env : Behaviour) (s : State) (timeout : Option Rat),
        Stops env .relay (relayStop settings timeout) s
          ∧ Stops env .consumer (consumerStop timeout) s
          ∧ ((shutdown settings).eval env.exec s).1 = .ok ()
          ∧ Down ((shutdown settings).eval env.exec s).2 := by
  intro h
  obtain ⟨-, -, -, -, hproducer⟩ := h ⟨10⟩ hangingTick allStarted none
  have hrunning : ((shutdown ⟨10⟩).eval hangingTick.exec allStarted).2.producer = true := rfl
  exact nomatch hproducer.symm.trans hrunning

end Nimbus.Shutdown
