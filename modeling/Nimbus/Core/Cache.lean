/-
  Nimbus.Core.Cache
  ─────────────────
  **THE CIRCUIT BREAKER AROUND REDIS.**

  `AsyncCircuitBreaker.call` is three separate moments: it admits or rejects
  the call, runs the function, and records how the function ended.  The event
  loop switches tasks only while the function runs, so what other calls do to
  the breaker happens between admission and recording, as a list of events.
  Clock readings are integers (ticks of `time.monotonic`).

    • `enter`, `recordFailure`, `recordSuccess`, `reset` — the breaker's steps;
    • `after`        — the breaker after a history of such steps;
    • `call`         — a call, whatever other calls do meanwhile;
    • `call_outcome` — **a call ends as its function does, unless the breaker
                       rejects it**;
    • `whenUnavailable` — the `except CacheUnavailableError` of the callers;
    • `degraded_iff` — **when a caller falls back.**
-/
import Nimbus.Core.Exceptions

namespace Nimbus.Cache

inductive BreakerState where
  | closed
  | opened
  | halfOpen
deriving DecidableEq

/-- `AsyncCircuitBreaker`, with what `__init__` checks of its settings. -/
structure AsyncCircuitBreaker where
  name : String
  fail_max : Int
  reset_timeout : Int
  state : BreakerState
  failure_count : Int
  opened_at : Option Int
  fail_max_pos : 0 < fail_max
  reset_timeout_pos : 0 < reset_timeout

namespace AsyncCircuitBreaker

/-- `AsyncCircuitBreaker(name=…, fail_max=…, reset_timeout=…)`. -/
def mk? (name : String) (fail_max reset_timeout : Int) : Except Exn AsyncCircuitBreaker :=
  if h₁ : 0 < fail_max then
    if h₂ : 0 < reset_timeout then
      .ok ⟨name, fail_max, reset_timeout, .closed, 0, none, h₁, h₂⟩
    else .error ⟨.valueError, "reset_timeout must be > 0", []⟩
  else .error ⟨.valueError, "fail_max must be > 0", []⟩

/-! ## §1. The steps of a call. -/

/-- The reset timeout has elapsed since the breaker has opened. -/
def timedOut (b : AsyncCircuitBreaker) (now : Int) : Bool :=
  match b.opened_at with
  | some opened_at => decide (b.reset_timeout ≤ now - opened_at)
  | none => false

/-- `_maybe_transition_to_half_open`. -/
def maybeTransitionToHalfOpen (b : AsyncCircuitBreaker) (now : Int) : AsyncCircuitBreaker :=
  if b.state = .opened ∧ b.timedOut now = true then { b with state := .halfOpen } else b

/-- What an open breaker raises. -/
def rejection (b : AsyncCircuitBreaker) : Exn :=
  ⟨.cacheUnavailableError, "Circuit breaker '" ++ b.name ++ "' is open", []⟩

/-- `call` up to the function. -/
def enter (b : AsyncCircuitBreaker) (now : Int) : AsyncCircuitBreaker × Except Exn Unit :=
  let b := b.maybeTransitionToHalfOpen now
  (b, if b.state = .opened then .error b.rejection else .ok ())

/-- `_record_failure`. -/
def recordFailure (b : AsyncCircuitBreaker) (now : Int) : AsyncCircuitBreaker :=
  let b := { b with failure_count := b.failure_count + 1 }
  if b.state = .halfOpen ∨ b.fail_max ≤ b.failure_count then
    { b with state := .opened, opened_at := some now }
  else b

/-- `_record_success`. -/
def recordSuccess (b : AsyncCircuitBreaker) : AsyncCircuitBreaker :=
  { b with state := .closed, failure_count := 0, opened_at := none }

/-- `reset`. -/
def reset (b : AsyncCircuitBreaker) : AsyncCircuitBreaker :=
  { b with state := .closed, failure_count := 0, opened_at := none }

end AsyncCircuitBreaker

open AsyncCircuitBreaker

/-- One step of some call, or of `reset`. -/
inductive BreakerEvent where
  | admitted (now : Int)
  | failed (now : Int)
  | succeeded
  | resetted

/-- The breaker after one step. -/
def AsyncCircuitBreaker.react (b : AsyncCircuitBreaker) : BreakerEvent → AsyncCircuitBreaker
  | .admitted now => (b.enter now).1
  | .failed now => b.recordFailure now
  | .succeeded => b.recordSuccess
  | .resetted => b.reset

/-- The breaker after a history of steps. -/
def AsyncCircuitBreaker.after (b : AsyncCircuitBreaker) (history : List BreakerEvent) :
    AsyncCircuitBreaker := history.foldl AsyncCircuitBreaker.react b

/-! ## §2. A call. -/

section Call

variable {α : Type}

/-- `call`, begun at `now`: `func` is how the function ends, `others` the steps
of other calls while it runs, `later` the clock when a failure is recorded. -/
def AsyncCircuitBreaker.call (b : AsyncCircuitBreaker) (now : Int) (func : Except Exn α)
    (others : List BreakerEvent) (later : Int) : AsyncCircuitBreaker × Except Exn α :=
  match b.enter now with
  | (b, .error exc) => (b, .error exc)
  | (b, .ok ()) =>
      match func with
      | .error exc => ((b.after others).recordFailure later, .error exc)
      | .ok result => ((b.after others).recordSuccess, .ok result)

/-- The breaker is open, and its reset timeout has not elapsed. -/
def AsyncCircuitBreaker.Rejects (b : AsyncCircuitBreaker) (now : Int) : Prop :=
  b.state = .opened ∧ b.timedOut now = false

instance (b : AsyncCircuitBreaker) (now : Int) : Decidable (b.Rejects now) :=
  inferInstanceAs (Decidable (_ ∧ _))

theorem enter_of_rejects {b : AsyncCircuitBreaker} {now : Int} (h : b.Rejects now) :
    b.enter now = (b, .error b.rejection) := by
  have hstay : b.maybeTransitionToHalfOpen now = b := by
    unfold maybeTransitionToHalfOpen
    rw [if_neg]
    intro hc
    rw [h.2] at hc
    exact (nomatch hc.2)
  unfold enter
  rw [hstay]
  show (b, if b.state = .opened then _ else _) = _
  rw [if_pos h.1]

theorem enter_of_not_rejects {b : AsyncCircuitBreaker} {now : Int} (h : ¬ b.Rejects now) :
    b.enter now = (b.maybeTransitionToHalfOpen now, .ok ()) := by
  have hnot : (b.maybeTransitionToHalfOpen now).state ≠ .opened := by
    unfold maybeTransitionToHalfOpen
    split
    next => exact fun hc => (nomatch hc)
    next hstay =>
      intro hopen
      refine h ⟨hopen, ?_⟩
      cases ht : b.timedOut now with
      | false => rfl
      | true => exact absurd ⟨hopen, ht⟩ hstay
  unfold enter
  exact congrArg (Prod.mk _) (if_neg hnot)

/-- **A call ends as its function does**, unless the breaker rejects it; what
other calls do meanwhile does not matter. -/
theorem call_outcome (b : AsyncCircuitBreaker) (now : Int) (func : Except Exn α)
    (others : List BreakerEvent) (later : Int) :
    (b.call now func others later).2 = if b.Rejects now then .error b.rejection else func := by
  unfold AsyncCircuitBreaker.call
  by_cases h : b.Rejects now
  · rw [enter_of_rejects h, if_pos h]
  · rw [enter_of_not_rejects h, if_neg h]
    cases func <;> rfl

/-! ## §3. Falling back. -/

/-- `except CacheUnavailableError: return fallback` around a call. -/
def whenUnavailable (fallback : α) : Except Exn α → Except Exn α
  | .ok result => .ok result
  | .error exc => if exc.isA .cacheUnavailableError then .ok fallback else .error exc

/-- The breaker rejects the call, or the function raises the one class that is
caught. -/
def Degrades (b : AsyncCircuitBreaker) (now : Int) (exc : Exn) : Prop :=
  b.Rejects now ∨ exc.isA .cacheUnavailableError = true

/-- **A caller falls back**, when the function raises, exactly then; otherwise
it raises what the function raised. -/
theorem degraded_iff (b : AsyncCircuitBreaker) (now : Int) (exc : Exn)
    (others : List BreakerEvent) (later : Int) (fallback : α) :
    (whenUnavailable fallback (b.call now (.error exc) others later).2 = .ok fallback
        ↔ Degrades b now exc)
      ∧ (¬ Degrades b now exc →
          whenUnavailable fallback (b.call now (.error exc) others later).2 = .error exc) := by
  have houtcome := call_outcome b now (.error exc : Except Exn α) others later
  by_cases hrej : b.Rejects now
  · rw [houtcome, if_pos hrej]
    refine ⟨iff_of_true ?_ (Or.inl hrej), fun hno => absurd (Or.inl hrej) hno⟩
    rfl
  · rw [houtcome, if_neg hrej]
    by_cases hexc : exc.isA .cacheUnavailableError = true
    · refine ⟨iff_of_true (if_pos hexc) (Or.inr hexc), fun hno => absurd (Or.inr hexc) hno⟩
    · have hraise : whenUnavailable fallback (.error exc) = .error exc := if_neg hexc
      rw [hraise]
      refine ⟨iff_of_false (fun hc => (nomatch hc)) ?_, fun _ => rfl⟩
      intro hc
      exact hc.elim hrej hexc

end Call

end Nimbus.Cache
