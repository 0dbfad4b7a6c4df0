/-
  Nimbus.Modules.Gateway
  ──────────────────────
  **THE GATEWAY, ANY NUMBER OF REQUESTS AT ONCE.**

  `AbuseMiddleware` has every request checked before it calls the application,
  and the check asks Redis through the breaker.  A check takes several moments,
  and between them anything may happen: other requests, the breaker opening,
  Redis failing before the script has run or after, a client that goes away.

    • `extractClientIp`, `dispatch` — the middleware of one request;
    • `State`, `step`      — all requests, each at a stage of its check;
    • `step_cases`         — everything one step can do;
    • `InTime`             — scripts run at the time that their requests send;
    • `Sound`              — how the store, the script's runs and the stages
                             belong together;
    • `gateway_limits`     — **in every such interleaving at most `max` requests of
                             a fingerprint pass in a window, and none during a
                             blacklisting; whatever else passes was not checked;**
    • `gateway_admits`     — **a fingerprint within its limit is never blocked.**
-/
import Nimbus.Core.Breaker
import Nimbus.Core.ErrorResponses
import Nimbus.Core.Uuid
import Nimbus.Modules.Fingerprint

namespace Nimbus.Gateway

open Lib Cache Abuse

/-! ## §1. The middleware. -/

/-- What the middleware reads of a request: the path, the headers, whose names
are in lower case, and the host of the peer. -/
structure HttpRequest where
  path : String
  headers : List (String × String)
  client : Option String

/-- `request.headers.get(name)`. -/
def HttpRequest.header (request : HttpRequest) (name : String) : Option String :=
  request.headers.lookup name

/-- `xff.split(",", 1)[0].strip()`. -/
def leftmost (xff : String) : String :=
  String.ofList (Uuid.strip Uuid.isSpace (xff.toList.takeWhile fun c => c ≠ ','))

/-- `_extract_client_ip`. -/
def extractClientIp (request : HttpRequest) (trust_forwarded_for : Bool) : String :=
  let peer := request.client.getD "unknown"
  if trust_forwarded_for then
    match request.header "x-forwarded-for" with
    | some xff => if xff ≠ "" ∧ leftmost xff ≠ "" then leftmost xff else peer
    | none => peer
  else peer

/-- What the middleware is built with; `abuse` is whether `app.state.abuse` is
there. -/
structure Config where
  settings : Settings
  abuse_trust_forwarded_for : Bool
  abuse : Bool

/-- The paths that are not checked. -/
def exempt (path : String) : Bool := path ∈ ["/health", "/ready", "/metrics"]

/-- What becomes of a request: the application is called, a response is made in
its place, or an exception goes up. -/
inductive Outcome where
  | passed
  | blocked (response : Response)
  | raised (exc : Exn)

/-- `_json_error`. -/
def jsonError (status_code : Nat) (code message : String) (details : List (String × PyVal))
    (headers : List (String × String)) : Response :=
  ⟨status_code, errorPayload code message details, headers⟩

/-- The response to a request over the limit. -/
def tooMany (s : Settings) : Response :=
  jsonError 429 "nimbus.rate_limited" "Too many requests. Please retry later."
    [("retry_after_seconds", .int s.abuse_rate_limit_window_seconds)]
    [("Retry-After", toString s.abuse_rate_limit_window_seconds),
      ("X-RateLimit-Limit", toString s.abuse_rate_limit_max), ("X-RateLimit-Remaining", "0")]

/-- The response to a blacklisted client. -/
def forbidden (s : Settings) : Response :=
  jsonError 403 "nimbus.blacklisted" "Origin has been temporarily blocked due to abuse."
    [("retry_after_seconds", .int s.abuse_blacklist_ttl_seconds)]
    [("Retry-After", toString s.abuse_blacklist_ttl_seconds)]

/-- `dispatch`, once the check has a result. -/
def dispatch (s : Settings) (result : RateLimitResult) : Outcome :=
  match result.status with
  | .ok => .passed
  | .bypassed => .passed
  | .rateLimited => .blocked (tooMany s)
  | .justBlacklisted => .blocked (forbidden s)
  | .alreadyBlacklisted => .blocked (forbidden s)

section

variable (conf : Config) (sha256 : String → String)

/-- The fingerprint of a request. -/
def fingerprint (request : HttpRequest) : String :=
  computeFingerprint sha256 (extractClientIp request conf.abuse_trust_forwarded_for)
    ((request.header "user-agent").getD "") ((request.header "accept-language").getD "") ""

/-- The request is not checked. -/
def Unchecked (request : HttpRequest) : Prop := exempt request.path = true ∨ conf.abuse = false

instance (request : HttpRequest) : Decidable (Unchecked conf request) :=
  inferInstanceAs (Decidable (_ ∨ _))

/-- `dispatch`, given how the call through the breaker ends. -/
def settle (request : HttpRequest) (ended : Except Exn RateLimitResult) : Outcome :=
  match whenUnavailable (bypassed (fingerprint conf sha256 request)) ended with
  | .ok result => dispatch conf.settings result
  | .error exc => .raised exc

end

/-! ## §2. All requests. -/

/-- How far a request has come. -/
inductive Stage where
  | new
  /-- The breaker has let its check in, and the script is on its way. -/
  | asking (request : HttpRequest)
  /-- The script has run, and its reply is on its way. -/
  | ran (request : HttpRequest) (result : Except Exn RateLimitResult)
  /-- `_do_check` has ended, and the breaker is still to record it. -/
  | ended (request : HttpRequest) (result : Except Exn RateLimitResult)
  | done (request : HttpRequest) (outcome : Outcome)
  /-- The client has gone away while its check was running. -/
  | gone

/-- The application was called. -/
def Stage.passed : Stage → Bool
  | .done _ .passed => true
  | _ => false

/-- The request whose script is on its way. -/
def Stage.asker : Stage → Option HttpRequest
  | .asking request => some request
  | _ => none

/-- A run of the script in Redis. -/
structure Run (τ : Type) where
  id : τ
  request : HttpRequest
  asked : Request
  count : Int
  status : Int

/-- The breaker and its calls, Redis, and the requests.  No step reads `runs`. -/
structure State (τ : Type) where
  calls : Calls τ
  store : RateStore
  stage : τ → Stage
  runs : List (Run τ)

/-- What happens next. -/
inductive Step (τ : Type) where
  /-- Request `t` arrives; the clock of the breaker shows `now`. -/
  | arrive (t : τ) (request : HttpRequest) (now : Int)
  /-- Redis runs the script of request `t`. -/
  | execute (t : τ) (asked : Request)
  | reply (t : τ)
  /-- The client of Redis raises, whether or not the script has run. -/
  | fail (t : τ) (exc : Exn)
  | cancel (t : τ)
  | record (t : τ) (now : Int)

section

variable {τ : Type} [DecidableEq τ] (L : Lua) (conf : Config) (sha256 : String → String)

def init (b : AsyncCircuitBreaker) (store : RateStore) : State τ :=
  ⟨Calls.init b, store, fun _ => .new, []⟩

/-- Request `t` comes to a stage. -/
def State.become (S : State τ) (calls : Calls τ) (t : τ) (stage : Stage) : State τ :=
  { S with calls := calls, stage := Function.update S.stage t stage }

/-- The script of a request, run by Redis when its clock shows `asked.clock`. -/
def State.script (S : State τ) (asked : Request) (keys : List String) (args : ScriptArgs) :
    (Int × Int) × RateStore := slidingWindow L asked.clock keys args S.store

/-- How `_do_check` ends when the script returns. -/
def scriptResult (asked : Request) (fp : String)
    (script : List String → ScriptArgs → Int × Int) : Except Exn RateLimitResult :=
  doCheck conf.settings
    (fun keys args => .ok (some (script keys args).1, some (script keys args).2))
    asked.now asked.rand fp

/-- Redis has run the script of request `t`. -/
def State.ranScript (S : State τ) (t : τ) (request : HttpRequest) (asked : Request) : State τ :=
  let fp := fingerprint conf sha256 request
  let out := S.script L asked (rateKeys fp) (scriptArgs conf.settings asked.now asked.rand)
  { calls := S.calls
    store := out.2
    stage := Function.update S.stage t
      (.ran request (scriptResult conf asked fp fun keys args => (S.script L asked keys args).1))
    runs := S.runs ++ [⟨t, request, asked, out.1.1, out.1.2⟩] }

/-- One step; `none` when it is not the turn of that request. -/
def step (S : State τ) : Step τ → Option (State τ)
  | .arrive t request now =>
      match S.stage t with
      | .new =>
          if Unchecked conf request then some (S.become S.calls t (.done request .passed))
          else (S.calls.step (.arrive t now)).map fun calls =>
            match (S.calls.breaker.enter now).2 with
            | .ok () => S.become calls t (.asking request)
            | .error exc => S.become calls t (.done request (settle conf sha256 request (.error exc)))
      | _ => none
  | .execute t asked =>
      match S.stage t with
      | .asking request => some (S.ranScript L conf sha256 t request asked)
      | _ => none
  | .reply t =>
      match S.stage t with
      | .ran request result =>
          (S.calls.step (.finish t .returned)).map fun calls =>
            S.become calls t (.ended request result)
      | _ => none
  | .fail t exc =>
      match S.stage t with
      | .asking request =>
          (S.calls.step (.finish t .raised)).map fun calls =>
            S.become calls t (.ended request (.error exc))
      | .ran request _ =>
          (S.calls.step (.finish t .raised)).map fun calls =>
            S.become calls t (.ended request (.error exc))
      | _ => none
  | .cancel t =>
      match S.stage t with
      | .asking _ => (S.calls.step (.finish t .cancelled)).map fun calls => S.become calls t .gone
      | .ran _ _ => (S.calls.step (.finish t .cancelled)).map fun calls => S.become calls t .gone
      | _ => none
  | .record t now =>
      match S.stage t with
      | .ended request result =>
          (S.calls.step (.record t now)).map fun calls =>
            S.become calls t (.done request (settle conf sha256 request result))
      | _ => none

/-- The gateway. -/
def machine : Machine (State τ) (Step τ) := ⟨step L conf sha256⟩

end

/-! ## §3. What one step can do. -/

section

variable {τ : Type} [DecidableEq τ] {L : Lua} {conf : Config} {sha256 : String → String}
variable {S S' : State τ} {a : Step τ}

/-- How a request goes from one stage to the next, but for the script; `log` is
what has been seen of the breaker then. -/
inductive Moved (conf : Config) (sha256 : String → String) (log : List (Sight τ)) (t : τ) :
    Step τ → Stage → Stage → Prop
  | unchecked {request : HttpRequest} {now : Int} (h : Unchecked conf request) :
      Moved conf sha256 log t (.arrive t request now) .new (.done request .passed)
  | admitted {request : HttpRequest} {now : Int} :
      Moved conf sha256 log t (.arrive t request now) .new (.asking request)
  | rejected {request : HttpRequest} {now : Int} {exc : Exn} (h : .rejected t now exc ∈ log) :
      Moved conf sha256 log t (.arrive t request now) .new (.done request .passed)
  | replied {request : HttpRequest} {result : Except Exn RateLimitResult} :
      Moved conf sha256 log t (.reply t) (.ran request result) (.ended request result)
  | failed {request : HttpRequest} {exc : Exn} {old : Stage}
      (h : old = .asking request ∨ ∃ result, old = .ran request result) :
      Moved conf sha256 log t (.fail t exc) old (.ended request (.error exc))
  | cancelled {old : Stage} (h : old ≠ .new) : Moved conf sha256 log t (.cancel t) old .gone
  | recorded {request : HttpRequest} {result : Except Exn RateLimitResult} {now : Int} :
      Moved conf sha256 log t (.record t now) (.ended request result)
        (.done request (settle conf sha256 request result))

/-- What has been seen of the breaker stays. -/
theorem log_mono {S S' : Calls τ} {a : CallStep τ} (h : S.step a = some S') : S.log <+: S'.log := by
  rcases Calls.step_cases h with ⟨_, _, -, -, -, rfl⟩ | ⟨_, _, -, -, -, -, rfl⟩ |
    ⟨_, _, -, -, -, rfl⟩ | ⟨_, _, -, -, rfl⟩ | ⟨_, _, -, -, rfl⟩ | ⟨_, _, -, -, rfl⟩
  · exact List.prefix_append ..
  · exact List.prefix_append ..
  · exact List.prefix_append ..
  · exact List.prefix_refl _
  · exact List.prefix_append ..
  · exact List.prefix_append ..

/-- A call that the breaker does not let in is seen, and its request passes. -/
theorem rejected_of_enter (conf : Config) (sha256 : String → String) {S S' : Calls τ} {t : τ}
    {now : Int} {exc : Exn} (h : S.step (.arrive t now) = some S') (henter : (S.breaker.enter now).2 = .error exc) :
    .rejected t now exc ∈ S'.log
      ∧ ∀ request, settle conf sha256 request (.error exc) = .passed := by
  have hrej : S.breaker.Rejects now := by
    by_contra hno
    rw [enter_of_not_rejects hno] at henter
    cases henter
  rw [enter_of_rejects hrej] at henter
  obtain rfl := Except.error.inj henter
  refine ⟨?_, fun request => rfl⟩
  rcases Calls.step_cases h with ⟨_, _, ha, -, -, rfl⟩ | ⟨_, _, ha, -, ho, ht, -⟩ |
    ⟨_, _, ha, -, ho, -⟩ | ⟨_, _, ha, -⟩ | ⟨_, _, ha, -⟩ | ⟨_, _, ha, -⟩
  · cases ha
    exact List.mem_append_right _ (List.mem_singleton_self _)
  · cases ha
    rw [hrej.2] at ht
    cases ht
  · cases ha
    exact absurd hrej.1 ho
  all_goals cases ha

/-- **Everything one step can do**: a request comes to its next stage, or Redis
runs the script of one. -/
theorem step_cases (h : step L conf sha256 S a = some S') :
    (∃ calls t stage, S' = S.become calls t stage ∧ S.calls.log <+: calls.log
        ∧ Moved conf sha256 calls.log t a (S.stage t) stage)
      ∨ ∃ t request asked, a = .execute t asked ∧ S.stage t = .asking request
          ∧ S' = S.ranScript L conf sha256 t request asked := by
  -- what is left to do once the breaker has taken its step
  have hcall : ∀ {c : CallStep τ} {f : Calls τ → State τ}, (S.calls.step c).map f = some S' →
      ∃ calls, S.calls.step c = some calls ∧ S.calls.log <+: calls.log ∧ S' = f calls := by
    intro c f hc
    obtain ⟨calls, hcalls, hS'⟩ := Option.map_eq_some_iff.mp hc
    exact ⟨calls, hcalls, log_mono hcalls, hS'.symm⟩
  cases a with
  | arrive t request now =>
      unfold step at h
      cases hstage : S.stage t with
      | new =>
          simp only [hstage] at h
          split at h
          next hun =>
            obtain rfl := Option.some.inj h
            refine Or.inl ⟨S.calls, t, _, rfl, List.prefix_refl _, ?_⟩
            rw [hstage]
            exact Moved.unchecked hun
          next =>
            obtain ⟨calls, hcalls, hlog, hS'⟩ := hcall h
            cases henter : (S.calls.breaker.enter now).2 with
            | ok u =>
                simp only [henter] at hS'
                refine Or.inl ⟨calls, t, _, hS', hlog, ?_⟩
                rw [hstage]
                exact Moved.admitted
            | error exc =>
                obtain ⟨hseen, hpasses⟩ := rejected_of_enter conf sha256 hcalls henter
                simp only [henter, hpasses] at hS'
                refine Or.inl ⟨calls, t, _, hS', hlog, ?_⟩
                rw [hstage]
                exact Moved.rejected hseen
      | _ => simp [hstage] at h
  | execute t asked =>
      unfold step at h
      cases hstage : S.stage t with
      | asking request =>
          simp only [hstage] at h
          exact Or.inr ⟨t, request, asked, rfl, hstage, (Option.some.inj h).symm⟩
      | _ => simp [hstage] at h
  | reply t =>
      unfold step at h
      cases hstage : S.stage t with
      | ran request result =>
          simp only [hstage] at h
          obtain ⟨calls, -, hlog, hS'⟩ := hcall h
          refine Or.inl ⟨calls, t, _, hS', hlog, ?_⟩
          rw [hstage]
          exact Moved.replied
      | _ => simp [hstage] at h
  | fail t exc =>
      unfold step at h
      cases hstage : S.stage t with
      | asking request =>
          simp only [hstage] at h
          obtain ⟨calls, -, hlog, hS'⟩ := hcall h
          exact Or.inl ⟨calls, t, _, hS', hlog, Moved.failed (Or.inl hstage)⟩
      | ran request result =>
          simp only [hstage] at h
          obtain ⟨calls, -, hlog, hS'⟩ := hcall h
          exact Or.inl ⟨calls, t, _, hS', hlog, Moved.failed (Or.inr ⟨result, hstage⟩)⟩
      | _ => simp [hstage] at h
  | cancel t =>
      unfold step at h
      cases hstage : S.stage t with
      | asking request =>
          simp only [hstage] at h
          obtain ⟨calls, -, hlog, hS'⟩ := hcall h
          refine Or.inl ⟨calls, t, _, hS', hlog, Moved.cancelled ?_⟩
          rw [hstage]
          exact fun hc => nomatch hc
      | ran request result =>
          simp only [hstage] at h
          obtain ⟨calls, -, hlog, hS'⟩ := hcall h
          refine Or.inl ⟨calls, t, _, hS', hlog, Moved.cancelled ?_⟩
          rw [hstage]
          exact fun hc => nomatch hc
      | _ => simp [hstage] at h
  | record t now =>
      unfold step at h
      cases hstage : S.stage t with
      | ended request result =>
          simp only [hstage] at h
          obtain ⟨calls, -, hlog, hS'⟩ := hcall h
          refine Or.inl ⟨calls, t, _, hS', hlog, ?_⟩
          rw [hstage]
          exact Moved.recorded
      | _ => simp [hstage] at h

end

/-! ## §4. What belongs together. -/

section

variable {τ : Type} {L : Lua} {conf : Config} {sha256 : String → String}
variable {S S' : State τ} {a : Step τ}

section

variable (L conf sha256)

/-- A run of the script as the reference has it. -/
def Run.answered (r : Run τ) : Answered :=
  ⟨r.asked.clock, memberOf L (scriptArgs conf.settings r.asked.now r.asked.rand), r.count, r.status⟩

/-- The runs for one fingerprint, in their order. -/
def State.runsOf (S : State τ) (fp : String) : List (Run τ) :=
  S.runs.filter fun r => fingerprint conf sha256 r.request = fp

/-- How `_do_check` ends if the reply of the run arrives. -/
def Run.result (r : Run τ) : Except Exn RateLimitResult :=
  scriptResult conf r.asked (fingerprint conf sha256 r.request) fun _ _ => (r.count, r.status)

/-- What becomes of its request then. -/
def Run.outcome (r : Run τ) : Outcome := settle conf sha256 r.request (r.result conf sha256)

/-- The stage of a request whose script has run. -/
def Carried (r : Run τ) : Stage → Prop
  | .new => False
  | .asking _ => False
  | .ran request result => request = r.request ∧ result = r.result conf sha256
  | .ended request result => request = r.request
      ∧ (result = r.result conf sha256
        ∨ ∃ exc, result = .error exc ∧ exc.isA .cacheUnavailableError = false)
  | .done request outcome => request = r.request
      ∧ (outcome = r.outcome conf sha256 ∨ ∃ exc, outcome = .raised exc)
  | .gone => True

/-- A run for request `t`. -/
def HasRun (runs : List (Run τ)) (t : τ) (request : HttpRequest) : Prop :=
  ∃ r ∈ runs, r.id = t ∧ r.request = request

/-- Why a request is at its stage. -/
def Explained (log : List (Sight τ)) (runs : List (Run τ)) (t : τ) : Stage → Prop
  | .ran request _ => HasRun runs t request
  | .ended request result => HasRun runs t request
      ∨ ∃ exc, result = .error exc ∧ exc.isA .cacheUnavailableError = false
  | .done request .passed => Unchecked conf request
      ∨ (∃ now exc, .rejected t now exc ∈ log) ∨ HasRun runs t request
  | .done request (.blocked _) => HasRun runs t request
  | _ => True

/-- What the runs rely on: a script runs at the time that its request sends, no
earlier than any before it, with a member that is new for its fingerprint; and
the client of Redis raises its own classes. -/
def InTime (S : State τ) : Step τ → Prop
  | .execute t asked => L.tonumber asked.now = asked.clock
      ∧ (∀ r ∈ S.runs, r.asked.clock ≤ asked.clock)
      ∧ ∀ r ∈ S.runs, (S.stage t).asker.map (fingerprint conf sha256)
            = some (fingerprint conf sha256 r.request) →
          memberOf L (scriptArgs conf.settings r.asked.now r.asked.rand)
            ≠ memberOf L (scriptArgs conf.settings asked.now asked.rand)
  | .fail _ exc => exc.isA .cacheUnavailableError = false
  | _ => True

instance (S : State τ) : (a : Step τ) → Decidable (InTime L conf sha256 S a)
  | .arrive _ _ _ => inferInstanceAs (Decidable True)
  | .execute _ _ => inferInstanceAs (Decidable (_ ∧ _ ∧ _))
  | .reply _ => inferInstanceAs (Decidable True)
  | .fail _ _ => inferInstanceAs (Decidable (_ = _))
  | .cancel _ => inferInstanceAs (Decidable True)
  | .record _ _ => inferInstanceAs (Decidable True)

/-- **What belongs together** in every state; `store` is what Redis had at
first. -/
structure Sound (store : RateStore) (S : State τ) : Prop where
  timely : ∀ fp, Timely L conf.settings ((S.runsOf conf sha256 fp).map Run.asked)
  agrees : ∀ fp, AgreeAt fp S.store
    (runAll L conf.settings fp store ((S.runsOf conf sha256 fp).map Run.asked)).1
  answers : ∀ fp, (runAll L conf.settings fp store ((S.runsOf conf sha256 fp).map Run.asked)).2
    = ((S.runsOf conf sha256 fp).map (Run.answered L conf)).reverse
  statuses : ∀ r ∈ S.runs, 0 ≤ r.status ∧ r.status ≤ 3
  carried : ∀ r ∈ S.runs, Carried conf sha256 r (S.stage r.id)
  explained : ∀ t, Explained conf S.calls.log S.runs t (S.stage t)

end

theorem mem_runsOf {fp : String} {r : Run τ} :
    r ∈ S.runsOf conf sha256 fp ↔ r ∈ S.runs ∧ fingerprint conf sha256 r.request = fp := by
  unfold State.runsOf
  rw [List.mem_filter, decide_eq_true_eq]

theorem HasRun.mono {runs more : List (Run τ)} {t : τ} {request : HttpRequest}
    (h : HasRun runs t request) : HasRun (runs ++ more) t request := by
  obtain ⟨r, hr, hid⟩ := h
  exact ⟨r, List.mem_append_left _ hr, hid⟩

/-- A later log and more runs explain what they did. -/
theorem Explained.mono {log log' : List (Sight τ)} {runs : List (Run τ)} (more : List (Run τ))
    {t : τ} {stage : Stage} (h : Explained conf log runs t stage) (hlog : log <+: log') :
    Explained conf log' (runs ++ more) t stage := by
  cases stage with
  | ran request result => exact HasRun.mono h
  | ended request result => exact Or.imp_left HasRun.mono h
  | done request outcome =>
      cases outcome with
      | passed =>
          rcases h with hun | ⟨now, exc, hseen⟩ | hrun
          · exact Or.inl hun
          · exact Or.inr (Or.inl ⟨now, exc, hlog.subset hseen⟩)
          · exact Or.inr (Or.inr hrun.mono)
      | blocked response => exact HasRun.mono h
      | raised exc => trivial
  | _ => trivial

/-- Only a reply makes a response in the application's place. -/
theorem settle_error {exc : Exn} (h : exc.isA .cacheUnavailableError = false)
    (request : HttpRequest) : settle conf sha256 request (.error exc) = .raised exc := by
  have hraise : whenUnavailable (bypassed (fingerprint conf sha256 request)) (.error exc)
      = .error exc := if_neg (by rw [h]; exact Bool.false_ne_true)
  unfold settle
  rw [hraise]

/-- **A request that moves on** carries its run along. -/
theorem Carried.moved {log : List (Sight τ)} {t : τ} {r : Run τ} {old next : Stage}
    (h : Carried conf sha256 r old) (hmoved : Moved conf sha256 log t a old next)
    (htime : InTime L conf sha256 S a) : Carried conf sha256 r next := by
  cases hmoved with
  | unchecked => exact h.elim
  | admitted => exact h.elim
  | rejected => exact h.elim
  | replied => exact ⟨h.1, Or.inl h.2⟩
  | @failed request exc old hold =>
      rcases hold with rfl | ⟨result, rfl⟩
      · exact h.elim
      · exact ⟨h.1, Or.inr ⟨exc, rfl, htime⟩⟩
  | cancelled => trivial
  | @recorded request result now =>
      obtain ⟨rfl, hresult⟩ := h
      refine ⟨rfl, ?_⟩
      rcases hresult with rfl | ⟨exc, rfl, hexc⟩
      · exact Or.inl rfl
      · exact Or.inr ⟨exc, settle_error hexc _⟩

/-- And what explains it. -/
theorem Explained.moved {log log' : List (Sight τ)} {runs : List (Run τ)} {t : τ}
    {old next : Stage} (h : Explained conf log runs t old)
    (hmoved : Moved conf sha256 log' t a old next) (htime : InTime L conf sha256 S a) :
    Explained conf log' runs t next := by
  cases hmoved with
  | unchecked hun => exact Or.inl hun
  | admitted => trivial
  | @rejected request now exc hseen => exact Or.inr (Or.inl ⟨now, exc, hseen⟩)
  | replied => exact Or.inl h
  | @failed request exc old hold => exact Or.inr ⟨exc, rfl, htime⟩
  | cancelled => trivial
  | @recorded request result now =>
      rcases h with hrun | ⟨exc, rfl, hexc⟩
      · cases settle conf sha256 request result with
        | passed => exact Or.inr (Or.inr hrun)
        | blocked response => exact hrun
        | raised exc => trivial
      · rw [settle_error hexc]
        trivial

/-- A run of requests in time, and one more. -/
theorem timely_concat {s : Settings} {qs : List Request} {q : Request} (h : Timely L s qs)
    (hagree : L.tonumber q.now = q.clock) (hlast : ∀ q' ∈ qs, q'.clock ≤ q.clock)
    (hnew : ∀ q' ∈ qs, memberOf L (scriptArgs s q'.now q'.rand)
      ≠ memberOf L (scriptArgs s q.now q.rand)) : Timely L s (qs ++ [q]) where
  agree q' hq' := by
    rcases List.mem_append.mp hq' with hq' | hq'
    · exact h.agree q' hq'
    · rw [List.mem_singleton.mp hq']
      exact hagree
  ordered := by
    refine List.pairwise_append.mpr ⟨h.ordered, List.pairwise_singleton _ _, ?_⟩
    intro q' hq' q'' hq''
    rw [List.mem_singleton.mp hq'']
    exact hlast q' hq'
  distinct := by
    rw [List.map_append]
    refine List.nodup_append.mpr ⟨h.distinct, List.nodup_singleton _, ?_⟩
    intro m hm m' hm' heq
    obtain ⟨q', hq', rfl⟩ := List.mem_map.mp hm
    rw [List.mem_singleton.mp hm'] at heq
    exact hnew q' hq' heq

/-- Redis has no key of a fingerprint. -/
def Fresh (store : RateStore) : Prop :=
  ∀ fp, store.zsets.entry ("rl:fp:" ++ fp) = none ∧ store.strings.entry ("bl:fp:" ++ fp) = none

theorem sound_init (b : AsyncCircuitBreaker) (store : RateStore) :
    Sound L conf sha256 store (init b store : State τ) where
  timely _ := ⟨fun _ hq => absurd hq List.not_mem_nil, List.Pairwise.nil, List.nodup_nil⟩
  agrees _ := ⟨rfl, rfl⟩
  answers _ := rfl
  statuses _ hr := absurd hr List.not_mem_nil
  carried _ hr := absurd hr List.not_mem_nil
  explained _ := trivial

section Runs

variable [DecidableEq τ]

/-- The runs of a fingerprint, and one more. -/
theorem runsOf_ranScript (S : State τ) (t : τ) (request : HttpRequest) (asked : Request)
    (fp : String) :
    (S.ranScript L conf sha256 t request asked).runsOf conf sha256 fp
      = S.runsOf conf sha256 fp ++ if fingerprint conf sha256 request = fp then
          [⟨t, request, asked,
            (S.script L asked (rateKeys fp) (scriptArgs conf.settings asked.now asked.rand)).1.1,
            (S.script L asked (rateKeys fp) (scriptArgs conf.settings asked.now asked.rand)).1.2⟩]
        else [] := by
  unfold State.runsOf
  show List.filter _ (S.runs ++ [_]) = _
  rw [List.filter_append]
  by_cases hfp : fingerprint conf sha256 request = fp
  · rw [if_pos hfp, List.filter_cons_of_pos (by simpa using hfp), List.filter_nil, hfp]
  · rw [if_neg hfp, List.filter_cons_of_neg (by simpa using hfp), List.filter_nil]

/-- **The script of a request runs**: the store still agrees, at every
fingerprint, with the runs for that one alone, and they have been answered alike. -/
theorem Sound.ranScript {store : RateStore} (h : Sound L conf sha256 store S) (t : τ)
    (request : HttpRequest) (asked : Request) (fp : String) :
    AgreeAt fp (S.ranScript L conf sha256 t request asked).store
        (runAll L conf.settings fp store
          (((S.ranScript L conf sha256 t request asked).runsOf conf sha256 fp).map Run.asked)).1
      ∧ (runAll L conf.settings fp store
          (((S.ranScript L conf sha256 t request asked).runsOf conf sha256 fp).map Run.asked)).2
        = (((S.ranScript L conf sha256 t request asked).runsOf conf sha256 fp).map
            (Run.answered L conf)).reverse := by
  have hagrees := h.agrees fp
  have hanswers := h.answers fp
  rw [runsOf_ranScript]
  by_cases hfp : fingerprint conf sha256 request = fp
  · subst hfp
    -- the two stores agree at the keys of the script, so its answers and effects do
    obtain ⟨hsame, hnext⟩ := slidingWindow_agree L asked.clock
      (scriptArgs conf.settings asked.now asked.rand) hagrees
    rw [if_pos rfl, List.map_append, List.map_append, List.map_singleton, List.map_singleton,
      List.reverse_append, ← hanswers, runAll_concat]
    refine ⟨hnext, ?_⟩
    show _ :: _ = _ :: _
    unfold Run.answered State.script
    rw [hsame]
    rfl
  · have hother := slidingWindow_other L asked.clock (Ne.symm hfp)
      (scriptArgs conf.settings asked.now asked.rand) S.store
    rw [if_neg hfp, List.append_nil]
    exact ⟨⟨hother.zsets.trans hagrees.zsets, hother.strings.trans hagrees.strings⟩, hanswers⟩

/-- **One step keeps together what belongs together.** -/
theorem Sound.step {store : RateStore} (h : Sound L conf sha256 store S)
    (htime : InTime L conf sha256 S a) (hstep : step L conf sha256 S a = some S') :
    Sound L conf sha256 store S' := by
  rcases step_cases hstep with ⟨calls, t, stage, rfl, hlog, hmoved⟩ |
    ⟨t, request, asked, rfl, hstage, rfl⟩
  · -- one request moves on; the runs and the store stay
    refine ⟨h.timely, h.agrees, h.answers, h.statuses, fun r hr => ?_, fun t' => ?_⟩
    · show Carried conf sha256 r (Function.update S.stage t stage r.id)
      have hold := h.carried r hr
      by_cases hid : r.id = t
      · subst hid
        rw [Function.update_self]
        exact hold.moved hmoved htime
      · rw [Function.update_of_ne hid]
        exact hold
    · show Explained conf calls.log S.runs t' (Function.update S.stage t stage t')
      have hold := h.explained t'
      by_cases hid : t' = t
      · subst hid
        rw [Function.update_self]
        exact hold.moved hmoved htime
      · rw [Function.update_of_ne hid]
        have hmore := hold.mono [] hlog
        rw [List.append_nil] at hmore
        exact hmore
  · obtain ⟨hagree, hclock, hnew⟩ := htime
    refine ⟨fun fp => ?_, fun fp => (h.ranScript t request asked fp).1,
      fun fp => (h.ranScript t request asked fp).2, fun r hr => ?_, fun r hr => ?_, fun t' => ?_⟩
    · rw [runsOf_ranScript, List.map_append]
      by_cases hfp : fingerprint conf sha256 request = fp
      · rw [if_pos hfp]
        refine timely_concat (h.timely fp) hagree ?_ ?_
        · intro q hq
          obtain ⟨r, hr, rfl⟩ := List.mem_map.mp hq
          exact hclock r (mem_runsOf.mp hr).1
        · intro q hq
          obtain ⟨r, hr, rfl⟩ := List.mem_map.mp hq
          obtain ⟨hr, hrfp⟩ := mem_runsOf.mp hr
          refine hnew r hr ?_
          rw [hstage, hrfp, ← hfp]
          rfl
      · rw [if_neg hfp, List.map_nil, List.append_nil]
        exact h.timely fp
    · rcases List.mem_append.mp hr with hr | hr
      · exact h.statuses r hr
      · rw [List.mem_singleton.mp hr]
        exact slidingWindow_status L asked.clock _ _ S.store
    · show Carried conf sha256 r (Function.update S.stage t _ r.id)
      rcases List.mem_append.mp hr with hr | hr
      · have hold := h.carried r hr
        have hid : r.id ≠ t := by
          rintro rfl
          rw [hstage] at hold
          exact hold.elim
        rw [Function.update_of_ne hid]
        exact hold
      · rw [List.mem_singleton.mp hr]
        show Carried conf sha256 _ (Function.update S.stage t _ t)
        rw [Function.update_self]
        exact ⟨rfl, rfl⟩
    · show Explained conf S.calls.log (S.runs ++ [_]) t' (Function.update S.stage t _ t')
      by_cases hid : t' = t
      · subst hid
        rw [Function.update_self]
        exact ⟨_, List.mem_append_right _ (List.mem_singleton_self _), rfl, rfl⟩
      · rw [Function.update_of_ne hid]
        exact (h.explained t').mono _ (List.prefix_refl _)

/-- **In every run.** -/
theorem sound_run (b : AsyncCircuitBreaker) (store : RateStore) {as : List (Step τ)}
    (h : (machine L conf sha256).Along (InTime L conf sha256) (init b store) as) :
    Sound L conf sha256 store ((machine L conf sha256).run (init b store) as) :=
  (machine L conf sha256).run_invariant_along (I := Sound L conf sha256 store)
    (fun _ _ _ hS hC hstep => hS.step hC hstep) as _ (sound_init b store) h _
    ((machine L conf sha256).run_mem_trace _ as)

end Runs

/-! ## §5. Limits. -/

section

variable (L conf sha256)

/-- The runs of a fingerprint whose requests have passed. -/
def State.passes (S : State τ) (fp : String) : List (Run τ) :=
  (S.runsOf conf sha256 fp).filter fun r => (S.stage r.id).passed

/-- The runs at times in `(t - W, t]`. -/
def inWindow (t : Int) (runs : List (Run τ)) : List (Run τ) :=
  runs.filter fun r => t - windowTicks L conf.settings < r.asked.clock ∧ r.asked.clock ≤ t

end

theorem dispatch_ok {s : Settings} {result : RateLimitResult} (h : result.status = .ok) :
    dispatch s result = .passed := by
  unfold dispatch
  rw [h]

/-- **The reply of a run lets its request pass** at status 0 only. -/
theorem outcome_passed (r : Run τ) (hstatus : 0 ≤ r.status ∧ r.status ≤ 3) :
    r.outcome conf sha256 = .passed ↔ r.status = 0 := by
  obtain ⟨result, hresult, hok⟩ := @doCheck_of_status conf.settings
    (fun _ _ => .ok (some r.count, some r.status)) r.asked.now r.asked.rand
    (fingerprint conf sha256 r.request) r.count r.status rfl hstatus
  have hnot := doCheck_status _ hresult
  have houtcome : r.outcome conf sha256 = dispatch conf.settings result := by
    unfold Run.outcome Run.result scriptResult settle
    rw [hresult]
    rfl
  rw [houtcome, ← hok]
  constructor
  · intro hpassed
    unfold dispatch at hpassed
    split at hpassed
    next h => exact h
    next h => exact absurd h hnot
    all_goals cases hpassed
  · exact dispatch_ok

/-- A response in the application's place says what the status was. -/
theorem outcome_blocked {r : Run τ} {response : Response}
    (h : r.outcome conf sha256 = .blocked response) :
    (r.status = 1 ∧ response = tooMany conf.settings)
      ∨ ((r.status = 2 ∨ r.status = 3) ∧ response = forbidden conf.settings) := by
  unfold Run.outcome Run.result scriptResult settle doCheck at h
  dsimp only [Option.getD_some] at h
  split_ifs at h with hthree htwo hone
  · exact Or.inr ⟨Or.inr hthree, (Outcome.blocked.inj h).symm⟩
  · exact Or.inr ⟨Or.inl htwo, (Outcome.blocked.inj h).symm⟩
  · exact Or.inl ⟨hone, (Outcome.blocked.inj h).symm⟩
  · cases h

variable {store : RateStore}

/-- The runs of a fingerprint are a history that the reference rules. -/
theorem Sound.ruled (h : Sound L conf sha256 store S) (hs : Positive conf.settings)
    (hfresh : Fresh store) (fp : String) :
    Ruled L conf.settings ((S.runsOf conf sha256 fp).map (Run.answered L conf)).reverse := by
  have hmatch := (runs_match hs (h.timely fp) (hfresh fp).1 (hfresh fp).2).1
  rw [← h.answers fp, hmatch]
  exact referenceRuns_ruled (h.timely fp)

/-- A request that has passed with a run was let through by it. -/
theorem Sound.passed_status (h : Sound L conf sha256 store S) {r : Run τ} (hr : r ∈ S.runs)
    (hpassed : (S.stage r.id).passed = true) : r.status = 0 := by
  have hcarried := h.carried r hr
  cases hstage : S.stage r.id with
  | done request outcome =>
      rw [hstage] at hcarried hpassed
      cases outcome with
      | passed =>
          obtain ⟨-, houtcome | ⟨exc, hexc⟩⟩ := hcarried
          · exact (outcome_passed r (h.statuses r hr)).mp houtcome.symm
          · cases hexc
      | _ => cases hpassed
  | _ =>
      rw [hstage] at hpassed
      cases hpassed

/-- **At most `max` of a window pass.** -/
theorem Sound.passes_in_window (h : Sound L conf sha256 store S) (hs : Positive conf.settings)
    (hfresh : Fresh store) (fp : String) (t : Int) :
    ((inWindow L conf t (S.passes conf sha256 fp)).length : Int)
      ≤ conf.settings.abuse_rate_limit_max := by
  have hok := ok_in_window hs (h.ruled hs hfresh fp) t
  have hle : (inWindow L conf t (S.passes conf sha256 fp)).length
      ≤ (okIn L conf.settings ((S.runsOf conf sha256 fp).map (Run.answered L conf)).reverse t).length := by
    unfold inWindow State.passes okIn
    rw [List.filter_filter, List.filter_reverse, List.length_reverse, List.filter_map,
      List.length_map, ← List.countP_eq_length_filter, ← List.countP_eq_length_filter]
    refine List.countP_mono_left fun r hr hc => ?_
    obtain ⟨hwindow, hpassed⟩ := Bool.and_eq_true_iff.mp hc
    exact decide_eq_true ⟨h.passed_status (mem_runsOf.mp hr).1 hpassed, of_decide_eq_true hwindow⟩
  omega

/-- **None passes while a blacklisting lasts.** -/
theorem Sound.passes_apart (h : Sound L conf sha256 store S) (hs : Positive conf.settings)
    (hfresh : Fresh store) {fp : String} {r bl : Run τ} (hr : r ∈ S.passes conf sha256 fp)
    (hbl : bl ∈ S.runsOf conf sha256 fp) (hstatus : bl.status = 2) :
    r.asked.clock ≤ bl.asked.clock
      ∨ bl.asked.clock + blacklistTicks L conf.settings < r.asked.clock := by
  obtain ⟨hrun, hpassed⟩ := List.mem_filter.mp hr
  have hzero : r.status = 0 := h.passed_status (mem_runsOf.mp hrun).1 hpassed
  have hordered := List.pairwise_map.mp (h.timely fp).ordered
  have hapart := List.pairwise_map.mp (List.pairwise_reverse.mp (ok_apart (h.ruled hs hfresh fp)))
  -- whichever of the two ran first
  have hboth := List.Pairwise.forall_of_forall_of_flip
    (R := fun r bl : Run τ => r.status = 0 → bl.status = 2 → r.asked.clock ≤ bl.asked.clock
      ∨ bl.asked.clock + blacklistTicks L conf.settings < r.asked.clock)
    (l := S.runsOf conf sha256 fp)
    (fun x _ h₀ h₂ => by omega)
    (hordered.imp fun hle _ _ => Or.inl hle)
    (hapart.imp fun hlt h₀ h₂ => Or.inr (hlt h₀ h₂))
  exact hboth hrun hbl hzero hstatus

/-- What explains a request that is done. -/
theorem Sound.done (h : Sound L conf sha256 store S) {t : τ} {request : HttpRequest} :
    (S.stage t = .done request .passed → Unchecked conf request
        ∨ (∃ now exc, .rejected t now exc ∈ S.calls.log)
        ∨ ∃ r ∈ S.passes conf sha256 (fingerprint conf sha256 request), r.id = t)
      ∧ ∀ response, S.stage t = .done request (.blocked response) →
          ∃ r ∈ S.runsOf conf sha256 (fingerprint conf sha256 request), r.id = t
            ∧ r.outcome conf sha256 = .blocked response := by
  have hexplained := h.explained t
  constructor
  · intro hstage
    rw [hstage] at hexplained
    rcases hexplained with hun | hseen | ⟨r, hr, rfl, rfl⟩
    · exact Or.inl hun
    · exact Or.inr (Or.inl hseen)
    · refine Or.inr (Or.inr ⟨r, List.mem_filter.mpr ⟨mem_runsOf.mpr ⟨hr, rfl⟩, ?_⟩, rfl⟩)
      rw [hstage]
      rfl
  · intro response hstage
    rw [hstage] at hexplained
    obtain ⟨r, hr, rfl, rfl⟩ := hexplained
    refine ⟨r, mem_runsOf.mpr ⟨hr, rfl⟩, rfl, ?_⟩
    have hcarried := h.carried r hr
    rw [hstage] at hcarried
    obtain ⟨-, houtcome | ⟨exc, hexc⟩⟩ := hcarried
    · exact houtcome.symm
    · cases hexc

variable [DecidableEq τ]

/-- **The gateway keeps its limits** in every interleaving of arrivals, script
runs, replies, failures of Redis before or after the script has run, departures
and records, whatever the breaker does meanwhile, if its scripts run in time: a
script that is late is judged by the clock of its request.  At most `max` requests of a
fingerprint pass in a window; none passes while a blacklisting lasts, also one
whose reply was lost; any other request that passes was not to be checked or was
not let in by the breaker; and who is blocked has a run that says so. -/
theorem gateway_limits (hs : Positive conf.settings) (b : AsyncCircuitBreaker)
    (hfresh : Fresh store) {as : List (Step τ)}
    (htime : (machine L conf sha256).Along (InTime L conf sha256) (init b store) as)
    (h : (machine L conf sha256).run (init b store) as = S) :
    (∀ fp t, ((inWindow L conf t (S.passes conf sha256 fp)).length : Int)
        ≤ conf.settings.abuse_rate_limit_max)
    ∧ (∀ fp, ∀ r ∈ S.passes conf sha256 fp, ∀ bl ∈ S.runsOf conf sha256 fp, bl.status = 2 →
        r.asked.clock ≤ bl.asked.clock
          ∨ bl.asked.clock + blacklistTicks L conf.settings < r.asked.clock)
    ∧ (∀ t request, S.stage t = .done request .passed → Unchecked conf request
        ∨ (∃ now exc, .rejected t now exc ∈ S.calls.log)
        ∨ ∃ r ∈ S.passes conf sha256 (fingerprint conf sha256 request), r.id = t)
    ∧ ∀ t request response, S.stage t = .done request (.blocked response) →
        ∃ r ∈ S.runsOf conf sha256 (fingerprint conf sha256 request), r.id = t
          ∧ ((r.status = 1 ∧ response = tooMany conf.settings)
            ∨ ((r.status = 2 ∨ r.status = 3) ∧ response = forbidden conf.settings)) := by
  have hS : Sound L conf sha256 store S := h ▸ sound_run b store htime
  refine ⟨hS.passes_in_window hs hfresh, fun fp r hr bl hbl => hS.passes_apart hs hfresh hr hbl,
    fun t request => hS.done.1, fun t request response hstage => ?_⟩
  obtain ⟨r, hr, hid, houtcome⟩ := hS.done.2 response hstage
  exact ⟨r, hr, hid, outcome_blocked houtcome⟩

/-- Two requests to a minute, three before a blacklisting. -/
def gatewayConfig : Config := ⟨⟨60, 2, 3, 100⟩, false, true⟩

def shopper : HttpRequest := ⟨"/orders", [("user-agent", "curl")], some "10.0.0.1"⟩

def neighbour : HttpRequest := ⟨"/orders", [("user-agent", "curl")], some "10.0.0.2"⟩

def connectionLost : Exn := ⟨.foreign "ConnectionError", "Connection closed by server.", []⟩

/-- The shopper's second reply is lost, its third request is over the limit, and
the fourth leaves before it is told of the blacklisting that the fifth meets. -/
def busyMinute : List (Step Nat) :=
  [.arrive 0 shopper 0, .arrive 1 shopper 0, .execute 0 ⟨10000000, "10.000000", "a0"⟩,
    .execute 1 ⟨11000000, "11.000000", "a1"⟩, .reply 0, .fail 1 connectionLost, .record 1 0,
    .record 0 0, .arrive 2 shopper 0, .arrive 3 neighbour 0,
    .execute 2 ⟨12000000, "12.000000", "a2"⟩, .execute 3 ⟨12000000, "12.000000", "b0"⟩, .reply 3,
    .reply 2, .record 2 0, .record 3 0, .arrive 4 shopper 0,
    .execute 4 ⟨13000000, "13.000000", "a3"⟩, .cancel 4, .arrive 5 shopper 0,
    .execute 5 ⟨112000000, "112.000000", "a4"⟩, .reply 5, .record 5 0, .arrive 6 shopper 0,
    .execute 6 ⟨114000000, "114.000000", "a5"⟩, .reply 6, .record 6 0]

/-- The state after it. -/
def afterBusyMinute : State Nat :=
  (machine microseconds gatewayConfig id).run
    (init threeStrikes ⟨Expiring.empty, Expiring.empty⟩) busyMinute

theorem gateway_limits_busy :
    (∀ fp t, ((inWindow microseconds gatewayConfig t
        (afterBusyMinute.passes gatewayConfig id fp)).length : Int) ≤ 2)
      ∧ afterBusyMinute.runs.map (fun r => (r.id, r.status))
        = [(0, 0), (1, 0), (2, 1), (3, 0), (4, 2), (5, 3), (6, 0)] :=
  ⟨(gateway_limits (by constructor <;> decide) threeStrikes (fun _ => ⟨rfl, rfl⟩)
      (by decide +kernel) rfl).1, by decide +kernel⟩

/-! ## §6. Who keeps within the limit. -/

/-- A history that keeps within both thresholds in every window has only
requests that were let through. -/
theorem ruled_within {s : Settings} (hs : Positive s) {history : List Answered}
    (h : Ruled L s history)
    (hwithin : ∀ e ∈ history, ((history.filter fun e' =>
        e.time - windowTicks L s < e'.time ∧ e'.time ≤ e.time).length : Int)
      ≤ min s.abuse_rate_limit_max s.abuse_blacklist_threshold) :
    ∀ e ∈ history, e.status = 0 := by
  induction history with
  | nil => exact fun e he => absurd he List.not_mem_nil
  | cons e older ih =>
      obtain ⟨hanswer, -, hruled⟩ := h
      have hold : ∀ e' ∈ older, e'.status = 0 := by
        refine ih hruled fun e' he' => le_trans ?_ (hwithin e' (List.mem_cons_of_mem _ he'))
        exact Int.ofNat_le.mpr ((List.sublist_cons_self e older).filter _).length_le
      -- nobody is listed, and what counts is in the window
      have hbl : blacklisted L s older e.time = false := by
        unfold blacklisted
        have hnone : older.find? (fun e => e.status = 2) = none := by
          refine List.find?_eq_none.mpr fun e' he' hc => ?_
          have hzero := hold e' he'
          have htwo := of_decide_eq_true hc
          omega
        rw [hnone]
      have hpos : 0 < windowTicks L s := Int.mul_pos hs.window L.perSecond_pos
      have hcount : (counting L s older e.time).length + 1 ≤ ((e :: older).filter fun e' =>
          e.time - windowTicks L s < e'.time ∧ e'.time ≤ e.time).length := by
        rw [List.filter_cons_of_pos (by rw [decide_eq_true_eq]; omega), List.length_cons]
        unfold counting
        rw [← List.countP_eq_length_filter, ← List.countP_eq_length_filter]
        refine Nat.succ_le_succ (List.countP_mono_left fun e' _ hc => ?_)
        exact decide_eq_true (of_decide_eq_true hc).2
      have hroom := hwithin e List.mem_cons_self
      have hstatus : e.status = 0 := by
        unfold reference verdict at hanswer
        rw [hbl, if_neg Bool.false_ne_true, if_neg (by omega), if_neg (by omega)] at hanswer
        exact congrArg Prod.snd hanswer
      intro e' he'
      rcases List.mem_cons.mp he' with rfl | he'
      · exact hstatus
      · exact hold e' he'

/-- **A fingerprint within its limit is never blocked** where scripts run in time:
if in no window its checks are more than both thresholds allow, every one of them
lets its request through, whatever other clients, Redis and the breaker do. -/
theorem gateway_admits (hs : Positive conf.settings) (b : AsyncCircuitBreaker)
    (hfresh : Fresh store) {as : List (Step τ)}
    (htime : (machine L conf sha256).Along (InTime L conf sha256) (init b store) as)
    (h : (machine L conf sha256).run (init b store) as = S) {fp : String}
    (hwithin : ∀ r ∈ S.runsOf conf sha256 fp,
      ((inWindow L conf r.asked.clock (S.runsOf conf sha256 fp)).length : Int)
        ≤ min conf.settings.abuse_rate_limit_max conf.settings.abuse_blacklist_threshold) :
    (∀ r ∈ S.runsOf conf sha256 fp, r.status = 0)
      ∧ ∀ t request response, fingerprint conf sha256 request = fp →
          S.stage t ≠ .done request (.blocked response) := by
  have hS : Sound L conf sha256 store S := h ▸ sound_run b store htime
  have hzero : ∀ r ∈ S.runsOf conf sha256 fp, r.status = 0 := by
    intro r hr
    refine ruled_within hs (hS.ruled hs hfresh fp) ?_ (r.answered L conf)
      (List.mem_reverse.mpr (List.mem_map_of_mem hr))
    intro e he
    obtain ⟨r', hr', rfl⟩ := List.mem_map.mp (List.mem_reverse.mp he)
    have hroom := hwithin r' hr'
    rw [List.filter_reverse, List.length_reverse, List.filter_map, List.length_map]
    exact hroom
  refine ⟨hzero, fun t request response hfp hstage => ?_⟩
  obtain ⟨r, hr, -, houtcome⟩ := hS.done.2 response hstage
  have hstatus := hzero r (hfp ▸ hr)
  rcases outcome_blocked houtcome with ⟨hone, -⟩ | ⟨htwo | hthree, -⟩
  all_goals omega

theorem gateway_admits_neighbour :
    (afterBusyMinute.stage 3).passed = true
      ∧ ∀ t response, afterBusyMinute.stage t ≠ .done neighbour (.blocked response) :=
  ⟨by decide +kernel, fun t response => (gateway_admits (by constructor <;> decide) threeStrikes
    (fun _ => ⟨rfl, rfl⟩) (by decide +kernel) rfl (by decide +kernel)).2 t neighbour response rfl⟩

end

end Nimbus.Gateway
