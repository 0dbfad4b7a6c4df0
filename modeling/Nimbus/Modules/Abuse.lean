/-
  Nimbus.Modules.Abuse
  ────────────────────
  **THE RATE LIMIT CHECK OF A REQUEST.**

  `AbuseLayer.check` runs a sliding-window script in Redis through the circuit
  breaker, and lets the request through when the cache is unavailable.  SHA-256
  is a parameter: the hex digest as a function of the text.

    • `computeFingerprint`, `doCheck`, `check`
    • `check_of_script_error` — how a check ends when the script raises;
    • `doCheck_status`        — **no result of the script bypasses a check.**
-/
import Nimbus.Core.Cache

namespace Nimbus.Abuse

/-- The settings of the abuse layer. -/
structure Settings where
  abuse_rate_limit_window_seconds : Int
  abuse_rate_limit_max : Int
  abuse_blacklist_threshold : Int
  abuse_blacklist_ttl_seconds : Int

inductive RateLimitStatus where
  | ok
  | rateLimited
  | justBlacklisted
  | alreadyBlacklisted
  | bypassed
deriving DecidableEq

structure RateLimitResult where
  status : RateLimitStatus
  count : Int
  fingerprint : String
  headers : List (String × String)
deriving DecidableEq

/-- `compute_fingerprint`. -/
def computeFingerprint (sha256 : String → String)
    (client_ip user_agent accept_language extra : String) : String :=
  sha256 (client_ip ++ "|" ++ user_agent ++ "|" ++ accept_language ++ "|" ++ extra)

/-- The script's arguments: the time, formatted, the settings, a random suffix. -/
structure ScriptArgs where
  now : String
  window : Int
  max_req : Int
  bl_thr : Int
  bl_ttl : Int
  rand : String

def scriptArgs (s : Settings) (now rand : String) : ScriptArgs :=
  ⟨now, s.abuse_rate_limit_window_seconds, s.abuse_rate_limit_max, s.abuse_blacklist_threshold,
    s.abuse_blacklist_ttl_seconds, rand⟩

/-- `_do_check`: `script keys args` is how the script ends, its two results as
`int` reads them, `none` for what `int` refuses. -/
def doCheck (s : Settings)
    (script : List String → ScriptArgs → Except Exn (Option Int × Option Int))
    (now rand fingerprint : String) : Except Exn RateLimitResult :=
  match script ["rl:fp:" ++ fingerprint, "bl:fp:" ++ fingerprint] (scriptArgs s now rand) with
  | .error exc => .error exc
  | .ok (count_raw, status_raw) =>
      let count := count_raw.getD 0
      let status_int := status_raw.getD 0
      if status_int = 3 then
        .ok ⟨.alreadyBlacklisted, count, fingerprint,
          [("Retry-After", toString s.abuse_blacklist_ttl_seconds)]⟩
      else if status_int = 2 then
        .ok ⟨.justBlacklisted, count, fingerprint,
          [("Retry-After", toString s.abuse_blacklist_ttl_seconds)]⟩
      else if status_int = 1 then
        .ok ⟨.rateLimited, count, fingerprint,
          [("Retry-After", toString s.abuse_rate_limit_window_seconds)]⟩
      else .ok ⟨.ok, count, fingerprint, []⟩

/-- The result of a check that could not be made. -/
def bypassed (fingerprint : String) : RateLimitResult := ⟨.bypassed, 0, fingerprint, []⟩

/-- `check`: `call` is what the breaker makes of how `_do_check` ends. -/
def check (s : Settings) (sha256 : String → String)
    (call : Except Exn RateLimitResult → Except Exn RateLimitResult)
    (script : List String → ScriptArgs → Except Exn (Option Int × Option Int))
    (now rand client_ip user_agent accept_language extra : String) : Except Exn RateLimitResult :=
  let fp := computeFingerprint sha256 client_ip user_agent accept_language extra
  Cache.whenUnavailable (bypassed fp) (call (doCheck s script now rand fp))

/-- When the script raises, only the breaker and the class decide. -/
theorem check_of_script_error (s : Settings) (sha256 : String → String)
    (call : Except Exn RateLimitResult → Except Exn RateLimitResult) (exc : Exn)
    (now rand client_ip user_agent accept_language extra : String) :
    check s sha256 call (fun _ _ => .error exc) now rand client_ip user_agent accept_language extra
      = Cache.whenUnavailable
          (bypassed (computeFingerprint sha256 client_ip user_agent accept_language extra))
          (call (.error exc)) := rfl

/-- No script result bypasses a check. -/
theorem doCheck_status (s : Settings)
    {script : List String → ScriptArgs → Except Exn (Option Int × Option Int)}
    {now rand fingerprint : String} {result : RateLimitResult}
    (h : doCheck s script now rand fingerprint = .ok result) : result.status ≠ .bypassed := by
  unfold doCheck at h
  split at h
  next => exact (nomatch h)
  next =>
    dsimp only at h
    split_ifs at h
    all_goals
      obtain rfl := Except.ok.inj h
      exact fun hc => (nomatch hc)

end Nimbus.Abuse
