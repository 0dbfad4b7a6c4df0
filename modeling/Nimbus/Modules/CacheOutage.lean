/-
  Nimbus.Modules.CacheOutage
  ──────────────────────────
  **WHAT THE CALLERS OF REDIS DO WHEN IT IS DOWN.**

  The rate limit check, the consumer's dedupe and the release of an idempotency
  lock each call Redis through the breaker and catch `CacheUnavailableError`
  only.  The breaker raises that class while it is open; before that, whatever
  the client raised goes through.

    • `releaseOutcome` — the end of `release_idempotency_lock`;
    • `outage_iff`     — **the three take their degraded path exactly when the
                         breaker rejects the call or the client raises that
                         class.**
-/
import Nimbus.Core.Dedupe
import Nimbus.Modules.Abuse
import Nimbus.Modules.Payments

namespace Nimbus

open Lib Lib.Prog Cache Consumer Payments

/-- `release_idempotency_lock`, given how the call of the release script ends. -/
def releaseOutcome (released : Except Exn Nat) : Except Exn Bool :=
  whenUnavailable false (released.map fun n => decide (0 < n))

/-- The service releases so. -/
theorem releaseIdempotencyLock_eq (lock : IdempotencyLock) :
    releaseIdempotencyLock lock
      = (Svc.redisRelease lock.key lock.token).handle fun released =>
          match releaseOutcome released with
          | .ok result => pure result
          | .error exc => throw exc := by
  unfold releaseIdempotencyLock
  congr 1
  funext released
  cases released with
  | ok n => rfl
  | error exc =>
      show (if exc.isA .cacheUnavailableError then pure false else throw exc : Svc Bool)
        = match (if exc.isA .cacheUnavailableError then .ok false else .error exc : Except Exn Bool)
          with
          | .ok result => pure result
          | .error exc => throw exc
      by_cases h : exc.isA .cacheUnavailableError = true
      · rw [if_pos h, if_pos h]
      · rw [if_neg h, if_neg h]

/-- The release of a lock during an outage. -/
theorem releaseOutcome_iff (b : AsyncCircuitBreaker) (others : List BreakerEvent) (now later : Int)
    (exc : Exn) :
    releaseOutcome (b.call now (.error exc) others later).2 = .ok false ↔ Degrades b now exc := by
  -- the call of the script has no result to read
  have hmap : (b.call now (.error exc : Except Exn Nat) others later).2.map
        (fun n => decide (0 < n))
      = (b.call now (.error exc : Except Exn Bool) others later).2 := by
    rw [call_outcome, call_outcome]
    by_cases h : b.Rejects now
    · rw [if_pos h, if_pos h]
      rfl
    · rw [if_neg h, if_neg h]
      rfl
  unfold releaseOutcome
  rw [hmap]
  exact (degraded_iff b now exc others later false).1

/-- **The three degraded paths**, for every state of the breaker, every history
of calls and every exception of the client, are taken exactly when the breaker
rejects the call or the exception is a `CacheUnavailableError`. -/
theorem outage_iff (b : AsyncCircuitBreaker) (history others : List BreakerEvent) (now later : Int)
    (exc : Exn) (s : Abuse.Settings) (sha256 : String → String)
    (time rand client_ip user_agent accept_language extra : String) {dedupe_id : String}
    (hid : dedupe_id ≠ "") {ttl_seconds : Option Int}
    (httl : 0 < ttl_seconds.getD (7 * 24 * 60 * 60)) :
    (Abuse.check s sha256 (fun func => ((b.after history).call now func others later).2)
          (fun _ _ => .error exc) time rand client_ip user_agent accept_language extra
        = .ok (Abuse.bypassed
            (Abuse.computeFingerprint sha256 client_ip user_agent accept_language extra))
      ↔ Degrades (b.after history) now exc)
    ∧ (checkAndRecord dedupe_id ttl_seconds
          (fun _ _ => ((b.after history).call now (.error exc) others later).2) = .ok true
      ↔ Degrades (b.after history) now exc)
    ∧ (releaseOutcome ((b.after history).call now (.error exc) others later).2 = .ok false
      ↔ Degrades (b.after history) now exc)
    ∧ ∀ lock, ((releaseIdempotencyLock lock).eval
          (fun _ calls => (((b.after history).call now (.error exc) others later).2, calls + 1))
          0).1 = .ok false
      ↔ Degrades (b.after history) now exc := by
  refine ⟨?_, ?_, releaseOutcome_iff (b.after history) others now later exc, fun lock => ?_⟩
  · rw [Abuse.check_of_script_error]
    exact (degraded_iff (b.after history) now exc others later _).1
  · rw [checkAndRecord_eq hid httl]
    exact (degraded_iff (b.after history) now exc others later true).1
  · rw [← releaseOutcome_iff (b.after history) others now later exc, releaseIdempotencyLock_eq,
      Prog.eval_handle]
    show (Prog.eval _ (match releaseOutcome ((b.after history).call now (.error exc) others
      later).2 with | .ok result => pure result | .error exc => throw exc) _).1 = _ ↔ _
    cases releaseOutcome ((b.after history).call now (.error exc) others later).2 with
    | ok result => rfl
    | error e => rfl

/-! ### The first failed connection. -/

/-- The breaker of the application, with clock ticks of a second. -/
def redisBreaker : AsyncCircuitBreaker where
  name := "nimbus.redis"
  fail_max := 5
  reset_timeout := 30
  state := .closed
  failure_count := 0
  opened_at := none
  fail_max_pos := by decide
  reset_timeout_pos := by decide

/-- What the Redis client raises when nothing listens. -/
def connectionRefused : Exn := ⟨.foreign "ConnectionError", "Error 111 connecting to redis:6379.", []⟩

def abuseSettings : Abuse.Settings := ⟨60, 100, 200, 3600⟩

/-- With the breaker closed, all three raise it. -/
theorem outage_fails :
    Abuse.check abuseSettings (fun s => s)
        (fun func => (redisBreaker.call 0 func [] 0).2) (fun _ _ => .error connectionRefused)
        "0.000000" "00000000" "10.0.0.1" "curl" "" "" = .error connectionRefused
      ∧ checkAndRecord "165848f23c4a5361953909c47dc099b5" none
          (fun _ _ => (redisBreaker.call 0 (.error connectionRefused) [] 0).2)
          = .error connectionRefused
      ∧ releaseOutcome (redisBreaker.call 0 (.error connectionRefused) [] 0).2
          = .error connectionRefused := by
  refine ⟨rfl, ?_, rfl⟩
  rw [checkAndRecord_eq (by decide) (by decide)]
  rfl

/-- After five of them the breaker is open for thirty seconds. -/
theorem outage_iff_opened :
    (Abuse.check abuseSettings (fun s => s)
          (fun func => ((redisBreaker.after (List.replicate 5 (.failed 0))).call 1 func [] 1).2)
          (fun _ _ => .error connectionRefused) "0.000000" "00000000" "10.0.0.1" "curl" "" ""
        = .ok (Abuse.bypassed (Abuse.computeFingerprint (fun s => s) "10.0.0.1" "curl" "" ""))
      ↔ Degrades (redisBreaker.after (List.replicate 5 (.failed 0))) 1 connectionRefused)
    ∧ (checkAndRecord "165848f23c4a5361953909c47dc099b5" none
          (fun _ _ => ((redisBreaker.after (List.replicate 5 (.failed 0))).call 1
            (.error connectionRefused) [] 1).2) = .ok true
      ↔ Degrades (redisBreaker.after (List.replicate 5 (.failed 0))) 1 connectionRefused)
    ∧ (releaseOutcome ((redisBreaker.after (List.replicate 5 (.failed 0))).call 1
          (.error connectionRefused) [] 1).2 = .ok false
      ↔ Degrades (redisBreaker.after (List.replicate 5 (.failed 0))) 1 connectionRefused)
    ∧ ∀ lock, ((releaseIdempotencyLock lock).eval
          (fun _ calls => (((redisBreaker.after (List.replicate 5 (.failed 0))).call 1
            (.error connectionRefused) [] 1).2, calls + 1)) 0).1 = .ok false
      ↔ Degrades (redisBreaker.after (List.replicate 5 (.failed 0))) 1 connectionRefused :=
  outage_iff redisBreaker (List.replicate 5 (.failed 0)) [] 1 1 connectionRefused abuseSettings
    (fun s => s) "0.000000" "00000000" "10.0.0.1" "curl" "" "" (by decide) (by decide)

end Nimbus
