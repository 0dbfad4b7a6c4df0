/-
  Nimbus.Core.Breaker
  ───────────────────
  **CONCURRENT CALLS THROUGH ONE BREAKER.**

  Any number of calls share a breaker.  Each is admitted or rejected, runs its
  function, and records how the function ended; the lock makes each of these
  moments atomic, and everything else may happen between them.  A function
  that is cancelled ends its call without a record: `except Exception` does not
  take a `CancelledError`.

    • `Calls`, `Calls.step`  — the breaker and how far each call has come;
    • `step_cases`           — everything one step can do;
    • `Consistent`           — how the three mutable fields belong together;
    • `Reference`            — the automaton of consecutive failures;
    • `breaker_sound`        — **the fields stay consistent in every
                               interleaving, and calls made one after another
                               get what the automaton gives them.**
-/
import Nimbus.Core.Cache
import Nimbus.Lib.Machine
import Mathlib.Logic.Function.Basic

namespace Nimbus.Cache

open Lib AsyncCircuitBreaker

/-! ## §1. The machine. -/

/-- How a wrapped function ends; `cancelled` is what is no `Exception`. -/
inductive FuncResult where
  | returned
  | raised
  | cancelled
deriving DecidableEq

/-- How far a call has come. -/
inductive CallPhase where
  | idle
  | running
  | ended (succeeded : Bool)
deriving DecidableEq

/-- What can be seen of the breaker from outside. -/
inductive Sight (τ : Type) where
  /-- The state has changed. -/
  | changed (src dst : BreakerState) (now : Int)
  /-- The function of call `t` is invoked. -/
  | invoked (t : τ) (now : Int)
  /-- Call `t` raises without invoking its function. -/
  | rejected (t : τ) (now : Int) (exc : Exn)

/-- A step of some call. -/
inductive CallStep (τ : Type) where
  | arrive (t : τ) (now : Int)
  | finish (t : τ) (result : FuncResult)
  | record (t : τ) (now : Int)

/-- The breaker, its calls, and what has been seen so far.  No step reads `log`. -/
structure Calls (τ : Type) where
  breaker : AsyncCircuitBreaker
  phase : τ → CallPhase
  log : List (Sight τ)

/-- What is left to do when the function has ended. -/
def FuncResult.phase : FuncResult → CallPhase
  | .returned => .ended true
  | .raised => .ended false
  | .cancelled => .idle

/-- A change of the breaker's state, if there is one. -/
def changes {τ : Type} (b b' : AsyncCircuitBreaker) (now : Int) : List (Sight τ) :=
  if b.state = b'.state then [] else [.changed b.state b'.state now]

namespace Calls

variable {τ : Type} [DecidableEq τ]

/-- A breaker as `__init__` leaves it, and no call. -/
def init (b : AsyncCircuitBreaker) : Calls τ := ⟨b.reset, fun _ => .idle, []⟩

/-- Call `t` takes the breaker to `b`. -/
def move (S : Calls τ) (b : AsyncCircuitBreaker) (t : τ) (phase : CallPhase) (now : Int)
    (seen : List (Sight τ)) : Calls τ :=
  ⟨b, Function.update S.phase t phase, S.log ++ (changes S.breaker b now ++ seen)⟩

/-- One step of a call; `none` when it is not that call's turn. -/
def step (S : Calls τ) : CallStep τ → Option (Calls τ)
  | .arrive t now =>
      if S.phase t = .idle then
        match S.breaker.enter now with
        | (b, .error exc) => some (S.move b t .idle now [.rejected t now exc])
        | (b, .ok ()) => some (S.move b t .running now [.invoked t now])
      else none
  | .finish t result =>
      if S.phase t = .running then
        some { S with phase := Function.update S.phase t result.phase }
      else none
  | .record t now =>
      match S.phase t with
      | .ended true => some (S.move S.breaker.recordSuccess t .idle now [])
      | .ended false => some (S.move (S.breaker.recordFailure now) t .idle now [])
      | _ => none

/-- Concurrent calls. -/
def machine (τ : Type) [DecidableEq τ] : Machine (Calls τ) (CallStep τ) := ⟨step⟩

/-- `reset`, at any moment. -/
def resetAll (S : Calls τ) (now : Int) : Calls τ :=
  { S with breaker := S.breaker.reset
           log := S.log ++ changes S.breaker S.breaker.reset now }

end Calls

/-- A step of a call, or `reset`. -/
inductive BreakerStep (τ : Type) where
  | call (a : CallStep τ)
  | reset (now : Int)

/-- Concurrent calls and resets. -/
def resettable (τ : Type) [DecidableEq τ] : Machine (Calls τ) (BreakerStep τ) where
  step S
    | .call a => S.step a
    | .reset now => some (S.resetAll now)

/-! ## §2. What one step can do. -/

theorem changes_of_eq {τ : Type} {b b' : AsyncCircuitBreaker} {now : Int}
    (h : b.state = b'.state) : (changes b b' now : List (Sight τ)) = [] := if_pos h

theorem changes_of_ne {τ : Type} {b b' : AsyncCircuitBreaker} {now : Int}
    (h : b.state ≠ b'.state) :
    (changes b b' now : List (Sight τ)) = [.changed b.state b'.state now] := if_neg h

@[simp] theorem recordSuccess_state (b : AsyncCircuitBreaker) : b.recordSuccess.state = .closed :=
  rfl

/-- A failure opens the breaker, unless it is closed and some failures are left. -/
def Opens (b : AsyncCircuitBreaker) : Prop :=
  b.state = .halfOpen ∨ b.fail_max ≤ b.failure_count + 1

instance (b : AsyncCircuitBreaker) : Decidable (Opens b) := inferInstanceAs (Decidable (_ ∨ _))

theorem recordFailure_of_opens {b : AsyncCircuitBreaker} (h : Opens b) (now : Int) :
    b.recordFailure now = { b with
      failure_count := b.failure_count + 1, state := .opened, opened_at := some now } := if_pos h

theorem recordFailure_of_not_opens {b : AsyncCircuitBreaker} (h : ¬ Opens b) (now : Int) :
    b.recordFailure now = { b with failure_count := b.failure_count + 1 } := if_neg h

/-- The call that finds the timeout elapsed is the trial. -/
theorem enter_trial {b : AsyncCircuitBreaker} {now : Int} (ho : b.state = .opened)
    (ht : b.timedOut now = true) : b.enter now = ({ b with state := .halfOpen }, .ok ()) := by
  have hno : ¬ b.Rejects now := by
    intro h
    rw [h.2] at ht
    cases ht
  rw [enter_of_not_rejects hno]
  unfold maybeTransitionToHalfOpen
  rw [if_pos ⟨ho, ht⟩]

/-- A breaker that is not open admits every call and stays as it is. -/
theorem enter_of_not_opened {b : AsyncCircuitBreaker} {now : Int} (ho : b.state ≠ .opened) :
    b.enter now = (b, .ok ()) := by
  rw [enter_of_not_rejects fun h => ho h.1]
  unfold maybeTransitionToHalfOpen
  rw [if_neg fun h => ho h.1]

namespace Calls

variable {τ : Type} [DecidableEq τ] {S S' : Calls τ} {a : CallStep τ}

/-- **Everything one step can do.** -/
theorem step_cases (h : S.step a = some S') :
    (∃ t now, a = .arrive t now ∧ S.phase t = .idle ∧ S.breaker.Rejects now ∧
      S' = ⟨S.breaker, Function.update S.phase t .idle,
        S.log ++ [.rejected t now S.breaker.rejection]⟩)
    ∨ (∃ t now, a = .arrive t now ∧ S.phase t = .idle ∧ S.breaker.state = .opened ∧
      S.breaker.timedOut now = true ∧
      S' = ⟨{ S.breaker with state := .halfOpen }, Function.update S.phase t .running,
        S.log ++ [.changed .opened .halfOpen now, .invoked t now]⟩)
    ∨ (∃ t now, a = .arrive t now ∧ S.phase t = .idle ∧ S.breaker.state ≠ .opened ∧
      S' = ⟨S.breaker, Function.update S.phase t .running, S.log ++ [.invoked t now]⟩)
    ∨ (∃ t result, a = .finish t result ∧ S.phase t = .running ∧
      S' = { S with phase := Function.update S.phase t result.phase })
    ∨ (∃ t now, a = .record t now ∧ S.phase t = .ended true ∧
      S' = ⟨S.breaker.recordSuccess, Function.update S.phase t .idle,
        S.log ++ changes S.breaker S.breaker.recordSuccess now⟩)
    ∨ (∃ t now, a = .record t now ∧ S.phase t = .ended false ∧
      S' = ⟨S.breaker.recordFailure now, Function.update S.phase t .idle,
        S.log ++ changes S.breaker (S.breaker.recordFailure now) now⟩) := by
  cases a with
  | arrive t now =>
      simp only [step] at h
      split at h
      next hidle =>
        by_cases hrej : S.breaker.Rejects now
        · rw [enter_of_rejects hrej] at h
          refine Or.inl ⟨t, now, rfl, hidle, hrej, ?_⟩
          simpa [move, changes_of_eq] using h.symm
        · by_cases ho : S.breaker.state = .opened
          · -- not rejected although open: the timeout has elapsed
            have ht : S.breaker.timedOut now = true := by
              by_contra hc
              exact hrej ⟨ho, by simpa using hc⟩
            rw [enter_trial ho ht] at h
            refine Or.inr (Or.inl ⟨t, now, rfl, hidle, ho, ht, ?_⟩)
            have hne : S.breaker.state ≠ ({ S.breaker with state := .halfOpen } :
                AsyncCircuitBreaker).state := by
              rw [ho]
              exact fun hc => nomatch hc
            simpa [move, changes_of_ne hne, ho] using h.symm
          · rw [enter_of_not_opened ho] at h
            refine Or.inr (Or.inr (Or.inl ⟨t, now, rfl, hidle, ho, ?_⟩))
            simpa [move, changes_of_eq] using h.symm
      next => cases h
  | finish t result =>
      simp only [step] at h
      split at h
      next hrun =>
        exact Or.inr (Or.inr (Or.inr (Or.inl ⟨t, result, rfl, hrun, (Option.some.inj h).symm⟩)))
      next => cases h
  | record t now =>
      simp only [step] at h
      split at h
      next hended =>
        refine Or.inr (Or.inr (Or.inr (Or.inr (Or.inl ⟨t, now, rfl, hended, ?_⟩))))
        simpa [move] using h.symm
      next hended =>
        refine Or.inr (Or.inr (Or.inr (Or.inr (Or.inr ⟨t, now, rfl, hended, ?_⟩))))
        simpa [move] using h.symm
      next => cases h

end Calls

/-! ## §3. The fields belong together. -/

/-- How `_state`, `_failure_count` and `_opened_at` belong together. -/
structure Consistent (b : AsyncCircuitBreaker) : Prop where
  closed_count : b.state = .closed → b.failure_count < b.fail_max
  closed_unset : b.state = .closed → b.opened_at = none
  opened_set : b.state ≠ .closed → b.opened_at.isSome
  leaves : b.state = .opened →
    ∃ opened_at, ∀ now, opened_at + b.reset_timeout ≤ now → (b.enter now).1.state = .halfOpen

/-- What every step keeps: next to the above, a breaker that is not closed has
counted `fail_max` failures, so that one more opens it again. -/
structure Counted (b : AsyncCircuitBreaker) : Prop where
  closed_count : b.state = .closed → b.failure_count < b.fail_max ∧ b.opened_at = none
  opened_count : b.state ≠ .closed → b.fail_max ≤ b.failure_count ∧ b.opened_at.isSome

theorem Counted.consistent {b : AsyncCircuitBreaker} (h : Counted b) : Consistent b where
  closed_count := fun hc => (h.closed_count hc).1
  closed_unset := fun hc => (h.closed_count hc).2
  opened_set := fun ho => (h.opened_count ho).2
  leaves := by
    intro ho
    have hset := (h.opened_count (by rw [ho]; decide)).2
    obtain ⟨opened_at, hat⟩ := Option.isSome_iff_exists.mp hset
    refine ⟨opened_at, fun now hnow => ?_⟩
    have ht : b.timedOut now = true := by
      unfold timedOut
      rw [hat]
      exact decide_eq_true (by omega)
    rw [enter_trial ho ht]

theorem counted_reset (b : AsyncCircuitBreaker) : Counted b.reset :=
  ⟨fun _ => ⟨b.fail_max_pos, rfl⟩, fun h => absurd rfl h⟩

theorem Counted.recordFailure {b : AsyncCircuitBreaker} (h : Counted b) (now : Int) :
    Counted (b.recordFailure now) := by
  by_cases hopens : Opens b
  · rw [recordFailure_of_opens hopens]
    -- half-open, the count has been at `fail_max` since the breaker opened
    refine ⟨fun hc => (nomatch hc), fun _ => ⟨?_, rfl⟩⟩
    show b.fail_max ≤ b.failure_count + 1
    rcases hopens with hhalf | hmax
    · have hcount := (h.opened_count (by rw [hhalf]; decide)).1
      omega
    · exact hmax
  · rw [recordFailure_of_not_opens hopens]
    unfold Opens at hopens
    have hlt : b.failure_count + 1 < b.fail_max := by
      simp only [not_or, not_le] at hopens
      exact hopens.2
    refine ⟨fun hc => ⟨hlt, (h.closed_count hc).2⟩, fun ho => ?_⟩
    -- a breaker that is not closed opens at every failure
    have hcount := (h.opened_count ho).1
    omega

theorem Calls.counted_step {τ : Type} [DecidableEq τ] {S S' : Calls τ} {a : CallStep τ}
    (hS : Counted S.breaker) (h : S.step a = some S') : Counted S'.breaker := by
  rcases step_cases h with ⟨t, now, -, -, -, rfl⟩ | ⟨t, now, -, -, ho, -, rfl⟩ |
    ⟨t, now, -, -, -, rfl⟩ | ⟨t, result, -, -, rfl⟩ | ⟨t, now, -, -, rfl⟩ | ⟨t, now, -, -, rfl⟩
  · exact hS
  · -- half-open: the count and the moment of opening stay
    have hset := hS.opened_count (by rw [ho]; decide)
    exact ⟨fun hc => (nomatch hc), fun _ => hset⟩
  · exact hS
  · exact hS
  · exact counted_reset S.breaker
  · exact hS.recordFailure now

/-- **The fields belong together in every state of every interleaving** of
calls and resets. -/
theorem counted_trace {τ : Type} [DecidableEq τ] (b : AsyncCircuitBreaker)
    (as : List (BreakerStep τ)) :
    ∀ S ∈ (resettable τ).trace (Calls.init b) as, Counted S.breaker := by
  refine (resettable τ).trace_invariant (I := fun S => Counted S.breaker) ?_ as _ (counted_reset b)
  intro S a S' hS h
  cases a with
  | call a => exact Calls.counted_step hS h
  | reset now =>
      obtain rfl := Option.some.inj h
      exact counted_reset S.breaker

/-! ## §4. Calls one after another. -/

/-- A call that no other overlaps: the clock when it arrives, how its function
ends, the clock when that is recorded. -/
structure LoneCall where
  arrives : Int
  result : FuncResult
  recorded : Int

/-- Its three steps. -/
def LoneCall.steps (c : LoneCall) : List (CallStep Unit) :=
  [.arrive () c.arrives, .finish () c.result, .record () c.recorded]

/-- The readings of the clock, in order. -/
def readings (calls : List LoneCall) : List Int := calls.flatMap fun c => [c.arrives, c.recorded]

/-- Whether each call was rejected. -/
def verdicts {τ : Type} (log : List (Sight τ)) : List Bool :=
  log.filterMap fun
    | .invoked _ _ => some false
    | .rejected _ _ _ => some true
    | .changed _ _ _ => none

/-- The reference automaton: closed after so many consecutive failures, or open
since a moment. -/
inductive Reference where
  | closed (failures : Int)
  | opened (opened_at : Int)

namespace Reference

/-- An open one rejects while fewer than `reset_timeout` ticks have passed. -/
def rejects (reset_timeout : Int) : Reference → Int → Bool
  | .closed _, _ => false
  | .opened opened_at, now => decide (now - opened_at < reset_timeout)

/-- One call: the `fail_max`-th consecutive failure opens a closed one; the
trial after the timeout closes an open one or opens it again. -/
def next (fail_max reset_timeout : Int) (r : Reference) (c : LoneCall) : Reference :=
  if r.rejects reset_timeout c.arrives then r
  else match r, c.result with
    | _, .returned => .closed 0
    | _, .cancelled => r
    | .closed failures, .raised =>
        if failures + 1 = fail_max then .opened c.recorded else .closed (failures + 1)
    | .opened _, .raised => .opened c.recorded

/-- Where a sequence of calls leads, and which of them are rejected. -/
def run (fail_max reset_timeout : Int) (r : Reference) : List LoneCall → Reference × List Bool
  | [] => (r, [])
  | c :: cs =>
      let rest := (r.next fail_max reset_timeout c).run fail_max reset_timeout cs
      (rest.1, r.rejects reset_timeout c.arrives :: rest.2)

/-- The breaker is where the automaton is; half-open is open after a trial that
was cancelled. -/
def Agrees (r : Reference) (b : AsyncCircuitBreaker) : Prop :=
  match r with
  | .closed failures => b.state = .closed ∧ b.failure_count = failures
  | .opened opened_at => b.state ≠ .closed ∧ b.opened_at = some opened_at

end Reference

/-- The breaker once an invoked function has ended and its call is recorded. -/
def AsyncCircuitBreaker.ended (b : AsyncCircuitBreaker) (c : LoneCall) : AsyncCircuitBreaker :=
  match c.result with
  | .returned => b.recordSuccess
  | .raised => b.recordFailure c.recorded
  | .cancelled => b

/-- The breaker after a lone call. -/
def AsyncCircuitBreaker.alone (b : AsyncCircuitBreaker) (c : LoneCall) : AsyncCircuitBreaker :=
  if b.Rejects c.arrives then b else (b.maybeTransitionToHalfOpen c.arrives).ended c

@[simp] theorem verdicts_nil {τ : Type} : verdicts ([] : List (Sight τ)) = [] := rfl

@[simp] theorem verdicts_append {τ : Type} (l l' : List (Sight τ)) :
    verdicts (l ++ l') = verdicts l ++ verdicts l' := List.filterMap_append

@[simp] theorem verdicts_changes {τ : Type} (b b' : AsyncCircuitBreaker) (now : Int) :
    verdicts (changes b b' now : List (Sight τ)) = [] := by
  unfold changes
  split <;> rfl

namespace Calls

variable {τ : Type} [DecidableEq τ] (S : Calls τ) (b : AsyncCircuitBreaker) (t : τ)
  (phase : CallPhase) (now : Int) (seen : List (Sight τ))

@[simp] theorem move_breaker : (S.move b t phase now seen).breaker = b := rfl

@[simp] theorem move_phase : (S.move b t phase now seen).phase t = phase :=
  Function.update_self ..

@[simp] theorem verdicts_move :
    verdicts (S.move b t phase now seen).log = verdicts S.log ++ verdicts seen := by
  show verdicts (S.log ++ (changes S.breaker b now ++ seen)) = _
  simp

end Calls

/-- The last two steps of a call. -/
theorem run_running (c : LoneCall) {S : Calls Unit} (hrun : S.phase () = .running) :
    ((Calls.machine Unit).run S [.finish () c.result, .record () c.recorded]).breaker
        = S.breaker.ended c
      ∧ ((Calls.machine Unit).run S [.finish () c.result, .record () c.recorded]).phase () = .idle
      ∧ verdicts ((Calls.machine Unit).run S [.finish () c.result, .record () c.recorded]).log
          = verdicts S.log := by
  rw [Machine.run_cons, Machine.run_cons, Machine.run_nil]
  unfold AsyncCircuitBreaker.ended
  cases c.result <;> simp [Machine.next, Calls.machine, Calls.step, FuncResult.phase, hrun]

/-- **A lone call takes the breaker through its three steps at once.** -/
theorem run_steps (c : LoneCall) {S : Calls Unit} (hidle : S.phase () = .idle) :
    ((Calls.machine Unit).run S c.steps).breaker = S.breaker.alone c
      ∧ ((Calls.machine Unit).run S c.steps).phase () = .idle
      ∧ verdicts ((Calls.machine Unit).run S c.steps).log
          = verdicts S.log ++ [decide (S.breaker.Rejects c.arrives)] := by
  unfold LoneCall.steps alone
  rw [Machine.run_cons]
  by_cases hrej : S.breaker.Rejects c.arrives
  · -- the call ends where it begins, and its other steps are not enabled
    have harrive : (Calls.machine Unit).next S (.arrive () c.arrives)
        = S.move S.breaker () .idle c.arrives [.rejected () c.arrives S.breaker.rejection] := by
      simp [Machine.next, Calls.machine, Calls.step, hidle, enter_of_rejects hrej]
    have hrest : ∀ S' : Calls Unit, S'.phase () = .idle →
        (Calls.machine Unit).run S' [.finish () c.result, .record () c.recorded] = S' := by
      intro S' h
      simp [Machine.next, Calls.machine, Calls.step, h]
    rw [harrive, hrest _ (by simp), if_pos hrej, decide_eq_true hrej]
    refine ⟨by simp, by simp, ?_⟩
    rw [Calls.verdicts_move]
    rfl
  · have harrive : (Calls.machine Unit).next S (.arrive () c.arrives)
        = S.move (S.breaker.maybeTransitionToHalfOpen c.arrives) () .running c.arrives
            [.invoked () c.arrives] := by
      simp [Machine.next, Calls.machine, Calls.step, hidle, enter_of_not_rejects hrej]
    rw [harrive, if_neg hrej, decide_eq_false hrej]
    obtain ⟨hb, hp, hv⟩ := run_running c (Calls.move_phase S
      (S.breaker.maybeTransitionToHalfOpen c.arrives) () .running c.arrives [.invoked () c.arrives])
    rw [Calls.move_breaker] at hb
    refine ⟨hb, hp, ?_⟩
    rw [hv, Calls.verdicts_move]
    rfl

/-! ## §5. The automaton is followed. -/

/-- The settings never change. -/
structure SameSettings (b b' : AsyncCircuitBreaker) : Prop where
  fail_max : b'.fail_max = b.fail_max
  reset_timeout : b'.reset_timeout = b.reset_timeout

theorem sameSettings_maybe (b : AsyncCircuitBreaker) (now : Int) :
    SameSettings b (b.maybeTransitionToHalfOpen now) := by
  unfold maybeTransitionToHalfOpen
  split <;> exact ⟨rfl, rfl⟩

theorem sameSettings_recordFailure (b : AsyncCircuitBreaker) (now : Int) :
    SameSettings b (b.recordFailure now) := by
  by_cases h : Opens b
  · rw [recordFailure_of_opens h]
    exact ⟨rfl, rfl⟩
  · rw [recordFailure_of_not_opens h]
    exact ⟨rfl, rfl⟩

theorem sameSettings_alone (b : AsyncCircuitBreaker) (c : LoneCall) :
    SameSettings b (b.alone c) := by
  unfold alone AsyncCircuitBreaker.ended
  split
  · exact ⟨rfl, rfl⟩
  · have hm := sameSettings_maybe b c.arrives
    cases c.result with
    | returned => exact ⟨hm.fail_max, hm.reset_timeout⟩
    | raised =>
        have hf := sameSettings_recordFailure (b.maybeTransitionToHalfOpen c.arrives) c.recorded
        exact ⟨hf.fail_max.trans hm.fail_max, hf.reset_timeout.trans hm.reset_timeout⟩
    | cancelled => exact hm

/-- Where the breaker is after calls that ended before `now`: half-open only
where its timeout has elapsed. -/
structure Follows (r : Reference) (now : Int) (b : AsyncCircuitBreaker) : Prop where
  counted : Counted b
  agrees : r.Agrees b
  half : b.state = .halfOpen → b.timedOut now = true

theorem timedOut_mono {b : AsyncCircuitBreaker} {now later : Int} (hle : now ≤ later)
    (h : b.timedOut now = true) : b.timedOut later = true := by
  unfold timedOut at *
  cases hat : b.opened_at with
  | none =>
      rw [hat] at h
      cases h
  | some opened_at =>
      rw [hat] at h
      have hold := of_decide_eq_true h
      exact decide_eq_true (by omega)

/-- **The automaton rejects what the breaker rejects.** -/
theorem Follows.rejects {r : Reference} {now : Int} {b : AsyncCircuitBreaker}
    (h : Follows r now b) {later : Int} (hle : now ≤ later) :
    r.rejects b.reset_timeout later = decide (b.Rejects later) := by
  cases r with
  | closed failures =>
      refine (decide_eq_false fun hrej => ?_).symm
      have hclosed : b.state = .closed := h.agrees.1
      rw [hrej.1] at hclosed
      cases hclosed
  | opened opened_at =>
      have hat : b.opened_at = some opened_at := h.agrees.2
      have htimed : b.timedOut later = decide (b.reset_timeout ≤ later - opened_at) := by
        unfold timedOut
        rw [hat]
      show decide (later - opened_at < b.reset_timeout) = _
      rw [decide_eq_decide]
      unfold Rejects
      rw [htimed, decide_eq_false_iff_not, not_le]
      constructor
      · intro hlt
        refine ⟨?_, hlt⟩
        -- half-open, its timeout has elapsed before
        cases hstate : b.state with
        | closed => exact absurd hstate h.agrees.1
        | opened => rfl
        | halfOpen =>
            have hout := timedOut_mono hle (h.half hstate)
            rw [htimed] at hout
            have := of_decide_eq_true hout
            omega
      · exact fun hrej => hrej.2

/-- A breaker that is not closed and rejects nothing is half-open for the call. -/
theorem maybe_trial {b : AsyncCircuitBreaker} {now : Int} (hne : b.state ≠ .closed)
    (hrej : ¬ b.Rejects now) :
    b.maybeTransitionToHalfOpen now = { b with state := .halfOpen } := by
  cases hstate : b.state with
  | closed => exact absurd hstate hne
  | opened =>
      have ht : b.timedOut now = true := by
        by_contra hc
        exact hrej ⟨hstate, by simpa using hc⟩
      exact if_pos ⟨hstate, ht⟩
  | halfOpen =>
      have hno : ¬ (b.state = .opened ∧ b.timedOut now = true) := by simp [hstate]
      unfold maybeTransitionToHalfOpen
      rw [if_neg hno, ← hstate]

theorem maybe_closed {b : AsyncCircuitBreaker} (h : b.state = .closed) (now : Int) :
    b.maybeTransitionToHalfOpen now = b := by
  have hno : ¬ (b.state = .opened ∧ b.timedOut now = true) := by simp [h]
  exact if_neg hno

theorem follows_closed {b : AsyncCircuitBreaker} (now : Int) (hb : Counted b)
    (h : b.state = .closed) : Follows (.closed b.failure_count) now b :=
  ⟨hb, ⟨h, rfl⟩, fun hc => by rw [h] at hc; cases hc⟩

/-- A breaker that a failure has just opened. -/
theorem follows_opened {b : AsyncCircuitBreaker} {now : Int} (hb : Counted b) (h : Opens b) :
    Follows (.opened now) now (b.recordFailure now) := by
  refine ⟨hb.recordFailure now, ?_, ?_⟩
  · rw [recordFailure_of_opens h]
    exact ⟨fun hc => (nomatch hc), rfl⟩
  · rw [recordFailure_of_opens h]
    exact fun hc => nomatch hc

/-- **One lone call keeps the breaker where the automaton is.** -/
theorem Follows.alone {r : Reference} {now : Int} {b : AsyncCircuitBreaker} {c : LoneCall}
    (h : Follows r now b) (harr : now ≤ c.arrives) (hrec : c.arrives ≤ c.recorded) :
    Follows (r.next b.fail_max b.reset_timeout c) c.recorded (b.alone c) := by
  have hrejects := h.rejects harr
  unfold Reference.next AsyncCircuitBreaker.alone
  rw [hrejects]
  by_cases hrej : b.Rejects c.arrives
  · -- a rejected call changes nothing
    rw [decide_eq_true hrej, if_pos rfl, if_pos hrej]
    exact ⟨h.counted, h.agrees, fun hhalf => timedOut_mono (by omega) (h.half hhalf)⟩
  · rw [decide_eq_false hrej, if_neg (by decide), if_neg hrej]
    unfold AsyncCircuitBreaker.ended
    cases r with
    | closed failures =>
        obtain ⟨hclosed, rfl⟩ := h.agrees
        rw [maybe_closed hclosed]
        cases c.result with
        | returned => exact follows_closed _ (counted_reset b) rfl
        | cancelled => exact follows_closed _ h.counted hclosed
        | raised =>
            have hlt := (h.counted.closed_count hclosed).1
            show Follows (if b.failure_count + 1 = b.fail_max then _ else _) _ _
            by_cases hmax : b.failure_count + 1 = b.fail_max
            · rw [if_pos hmax]
              exact follows_opened h.counted (Or.inr (by omega))
            · rw [if_neg hmax]
              -- not the last failure that is allowed
              have hno : ¬ Opens b := by
                unfold Opens
                rw [hclosed]
                simp only [reduceCtorEq, false_or]
                omega
              have hcounted := h.counted.recordFailure c.recorded
              rw [recordFailure_of_not_opens hno] at hcounted ⊢
              exact follows_closed _ hcounted hclosed
    | opened opened_at =>
        -- the trial: a success closes, a failure opens again
        obtain ⟨hne, hat⟩ := h.agrees
        have hcount := h.counted.opened_count hne
        rw [maybe_trial hne hrej]
        have hhalf : Counted { b with state := .halfOpen } :=
          ⟨fun hc => (nomatch hc), fun _ => hcount⟩
        cases c.result with
        | returned => exact follows_closed _ (counted_reset b) rfl
        | raised => exact follows_opened hhalf (Or.inl rfl)
        | cancelled =>
            refine ⟨hhalf, ⟨fun hc => (nomatch hc), hat⟩, fun _ => ?_⟩
            -- admitted, so the timeout had elapsed
            have hout : b.timedOut c.arrives = true := by
              by_contra hc
              have hnot : ¬ b.state = .opened := fun ho => hrej ⟨ho, by simpa using hc⟩
              cases hstate : b.state with
              | closed => exact hne hstate
              | opened => exact hnot hstate
              | halfOpen => exact hc (timedOut_mono harr (h.half hstate))
            exact timedOut_mono hrec hout

/-- **Any sequence of lone calls.** -/
theorem Follows.run {b : AsyncCircuitBreaker} : ∀ (calls : List LoneCall) {r : Reference}
    {now : Int} {S : Calls Unit}, SameSettings b S.breaker → S.phase () = .idle →
    Follows r now S.breaker → (now :: readings calls).Pairwise (· ≤ ·) →
    verdicts ((Calls.machine Unit).run S (calls.flatMap LoneCall.steps)).log
        = verdicts S.log ++ (r.run b.fail_max b.reset_timeout calls).2
      ∧ (r.run b.fail_max b.reset_timeout calls).1.Agrees
          ((Calls.machine Unit).run S (calls.flatMap LoneCall.steps)).breaker := by
  intro calls
  induction calls with
  | nil =>
      intro r now S _ _ hf _
      exact ⟨(List.append_nil _).symm, hf.agrees⟩
  | cons c cs ih =>
      intro r now S hset hidle hf hclock
      -- the call runs to its end, and its clock readings come first
      obtain ⟨hb, hidle', hv⟩ := run_steps c hidle
      have hmono : now ≤ c.arrives ∧ c.arrives ≤ c.recorded
          ∧ (c.recorded :: readings cs).Pairwise (· ≤ ·) := by
        simp only [readings, List.flatMap_cons, List.cons_append, List.nil_append,
          List.pairwise_cons] at hclock ⊢
        obtain ⟨hnow, harr, hrest⟩ := hclock
        exact ⟨hnow _ List.mem_cons_self, harr _ List.mem_cons_self, hrest⟩
      obtain ⟨harr, hrec, hrest⟩ := hmono
      have hf' := hf.alone harr hrec
      have hset' := sameSettings_alone S.breaker c
      rw [List.flatMap_cons, Machine.run_append]
      rw [← hb] at hf' hset'
      -- the rest of the calls follow the reference from there
      obtain ⟨hverdicts, hagrees⟩ := ih ⟨hset'.fail_max.trans hset.fail_max,
        hset'.reset_timeout.trans hset.reset_timeout⟩ hidle' hf' hrest
      rw [hset.fail_max, hset.reset_timeout] at hverdicts hagrees
      refine ⟨?_, hagrees⟩
      rw [hverdicts, hv, List.append_assoc, ← hf.rejects harr, hset.reset_timeout]
      rfl

/-- **The breaker is sound.**  In every state of every interleaving of calls
and resets its fields belong together; and calls of which none overlaps
another, the clock never going back, are rejected exactly where the automaton
rejects them, and leave the breaker where the automaton is. -/
theorem breaker_sound {τ : Type} [DecidableEq τ] (b : AsyncCircuitBreaker) :
    (∀ as : List (BreakerStep τ), ∀ S ∈ (resettable τ).trace (Calls.init b) as,
        Consistent S.breaker)
    ∧ ∀ calls : List LoneCall, (readings calls).Pairwise (· ≤ ·) →
        verdicts ((Calls.machine Unit).run (Calls.init b) (calls.flatMap LoneCall.steps)).log
            = ((Reference.closed 0).run b.fail_max b.reset_timeout calls).2
          ∧ ((Reference.closed 0).run b.fail_max b.reset_timeout calls).1.Agrees
              ((Calls.machine Unit).run (Calls.init b) (calls.flatMap LoneCall.steps)).breaker := by
  refine ⟨fun as S hS => (counted_trace b as S hS).consistent, fun calls hclock => ?_⟩
  have hset : SameSettings b (Calls.init b : Calls Unit).breaker := ⟨rfl, rfl⟩
  cases calls with
  | nil => exact ⟨rfl, rfl, rfl⟩
  | cons c cs =>
      refine Follows.run (c :: cs) hset rfl (follows_closed c.arrives (counted_reset b) rfl) ?_
      refine List.pairwise_cons.mpr ⟨fun x hx => ?_, hclock⟩
      -- the first reading is the least
      rcases List.mem_cons.mp hx with hx | hx
      · exact le_of_eq hx.symm
      · exact (List.pairwise_cons.mp hclock).1 x hx

/-- A breaker that three failures open for ten ticks. -/
def threeStrikes : AsyncCircuitBreaker where
  name := "nimbus.redis"
  fail_max := 3
  reset_timeout := 10
  state := .closed
  failure_count := 0
  opened_at := none
  fail_max_pos := by decide
  reset_timeout_pos := by decide

/-- `__init__` makes it, and it is its own reset. -/
example : AsyncCircuitBreaker.mk? "nimbus.redis" 3 10 = .ok threeStrikes
    ∧ threeStrikes.reset = threeStrikes := ⟨rfl, rfl⟩

/-- Three failures open it; a call before the timeout is rejected, a cancelled
trial leaves it half-open, and the next call closes it. -/
def outage : List LoneCall :=
  [⟨0, .raised, 1⟩, ⟨1, .raised, 1⟩, ⟨2, .raised, 3⟩, ⟨4, .returned, 4⟩, ⟨13, .cancelled, 14⟩,
    ⟨15, .returned, 15⟩]

theorem breaker_sound_outage :
    verdicts ((Calls.machine Unit).run (Calls.init threeStrikes)
        (outage.flatMap LoneCall.steps)).log = [false, false, false, true, false, false]
      ∧ ((Calls.machine Unit).run (Calls.init threeStrikes)
          (outage.flatMap LoneCall.steps)).breaker.state = .closed := by
  have h := (@breaker_sound Unit _ threeStrikes).2 outage (by decide)
  exact ⟨h.1, h.2.1⟩

end Nimbus.Cache
