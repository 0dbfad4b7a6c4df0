/-
  Nimbus.Modules.SlidingWindow
  ────────────────────────────
  **THE SLIDING-WINDOW SCRIPT AGAINST A FULL HISTORY.**

  The script keeps one sorted set for a fingerprint, drops what has left the
  window, lets the key expire a second after the window, and sets a blacklist
  key that expires too.  The reference keeps every request and counts.

    • `slidingWindow`       — the script, command by command;
    • `doCheck_of_status`   — which of its results let a request through;
    • `reference`           — what a request is answered, given all before it;
    • `Matches`             — how the two keys stand for the history;
    • `checks_eq_reference` — **the script answers what the reference does;**
    • `ok_in_window`, `ok_apart` — at most `max` requests of a window are let
                              through, and none during a blacklisting.
-/
import Nimbus.Lib.Expiring
import Nimbus.Modules.Abuse
import Mathlib.Data.List.Induction
import Mathlib.Data.List.Nodup

namespace Nimbus.Abuse

open Lib

/-! ## §1. The script. -/

/-- Lua's numbers and texts as the script uses them; a time is a number of
ticks, the clock's resolution. -/
structure Lua where
  perSecond : Int
  perSecond_pos : 0 < perSecond
  tonumber : String → Int
  tostring : Int → String

/-- A sorted set: members with their scores. -/
abbrev SortedSet := List (String × Int)

/-- The keys of the script: strings and sorted sets. -/
structure RateStore where
  strings : Expiring String String
  zsets : Expiring String SortedSet

/-- The sorted set at a key, empty where there is none. -/
def zset (zsets : Expiring String SortedSet) (clock : Int) (key : String) : SortedSet :=
  (zsets.get? clock key).getD []

/-- The deadline of a key that has not lapsed. -/
def deadlineOf (zsets : Expiring String SortedSet) (clock : Int) (key : String) : Option Int :=
  match zsets.entry key with
  | some (_, deadline) => if Expiring.live clock deadline then deadline else none
  | none => none

/-- `ZREMRANGEBYSCORE key -inf max`: a set that becomes empty is deleted. -/
def zremrangebyscore (clock : Int) (key : String) (max : Int)
    (zsets : Expiring String SortedSet) : Expiring String SortedSet :=
  match (zset zsets clock key).filter fun e => max < e.2 with
  | [] => zsets.erase key
  | entries => zsets.put key entries (deadlineOf zsets clock key)

/-- `ZADD key score member`. -/
def zadd (clock : Int) (key : String) (score : Int) (member : String)
    (zsets : Expiring String SortedSet) : Expiring String SortedSet :=
  zsets.put key ((member, score) :: (zset zsets clock key).filter fun e => e.1 ≠ member)
    (deadlineOf zsets clock key)

/-- `EXPIRE key ttl`, `ttl` in ticks. -/
def expire (clock : Int) (key : String) (ttl : Int) (zsets : Expiring String SortedSet) :
    Expiring String SortedSet :=
  match zsets.get? clock key with
  | some entries => zsets.put key entries (some (clock + ttl))
  | none => zsets

/-- `ZCARD key`. -/
def zcard (clock : Int) (key : String) (zsets : Expiring String SortedSet) : Int :=
  (zset zsets clock key).length

/-- The member that a request adds. -/
def memberOf (L : Lua) (args : ScriptArgs) : String :=
  L.tostring (L.tonumber args.now) ++ ":" ++ args.rand

/-- `_SLIDING_WINDOW_LUA`, Redis's clock being at `clock`: the count and the
status. -/
def slidingWindow (L : Lua) (clock : Int) (keys : List String) (args : ScriptArgs)
    (r : RateStore) : (Int × Int) × RateStore :=
  let rl_key := keys.getD 0 ""
  let bl_key := keys.getD 1 ""
  let now := L.tonumber args.now
  if (r.strings.get? clock bl_key).isSome then ((0, 3), r)
  else
    let zsets := zremrangebyscore clock rl_key (now - args.window * L.perSecond) r.zsets
    let zsets := zadd clock rl_key now (memberOf L args) zsets
    let zsets := expire clock rl_key ((args.window + 1) * L.perSecond) zsets
    let count := zcard clock rl_key zsets
    if args.bl_thr < count then
      ((count, 2), ⟨r.strings.put bl_key "1" (some (clock + args.bl_ttl * L.perSecond)), zsets⟩)
    else if args.max_req < count then ((count, 1), { r with zsets := zsets })
    else ((count, 0), { r with zsets := zsets })

/-! ## §2. The reference. -/

/-- A request that was answered. -/
structure Answered where
  time : Int
  member : String
  count : Int
  status : Int

section

variable (L : Lua) (s : Settings)

/-- The window in ticks. -/
def windowTicks : Int := s.abuse_rate_limit_window_seconds * L.perSecond

/-- The time a blacklisting lasts, in ticks. -/
def blacklistTicks : Int := s.abuse_blacklist_ttl_seconds * L.perSecond

/-- The requests before `now`, the newest first, that count then. -/
def counting (history : List Answered) (now : Int) : List Answered :=
  history.filter fun e => e.status ≠ 3 ∧ now - windowTicks L s < e.time ∧ e.time ≤ now

/-- `now` is within the TTL of the last blacklisting. -/
def blacklisted (history : List Answered) (now : Int) : Bool :=
  match history.find? fun e => e.status = 2 with
  | some e => now ≤ e.time + blacklistTicks L s
  | none => false

/-- What the thresholds make of a count. -/
def verdict (count : Int) : Int × Int :=
  if s.abuse_blacklist_threshold < count then (count, 2)
  else if s.abuse_rate_limit_max < count then (count, 1)
  else (count, 0)

/-- What a request at `now` is answered, given the full history. -/
def reference (history : List Answered) (now : Int) : Int × Int :=
  if blacklisted L s history now then (0, 3)
  else verdict s ((counting L s history now).length + 1)

/-- A request: Redis's clock, and the time and the random suffix it sends. -/
structure Request where
  clock : Int
  now : String
  rand : String

/-- The two keys of a fingerprint. -/
def rateKeys (fingerprint : String) : List String :=
  ["rl:fp:" ++ fingerprint, "bl:fp:" ++ fingerprint]

/-- One run of the script. -/
def runOne (fingerprint : String) (S : RateStore × List Answered) (q : Request) :
    RateStore × List Answered :=
  let args := scriptArgs s q.now q.rand
  let out := slidingWindow L q.clock (rateKeys fingerprint) args S.1
  (out.2, ⟨q.clock, memberOf L args, out.1.1, out.1.2⟩ :: S.2)

/-- Runs of the script, one after another; the newest answer first. -/
def runAll (fingerprint : String) (r : RateStore) (qs : List Request) :
    RateStore × List Answered := qs.foldl (runOne L s fingerprint) (r, [])

/-- What the reference answers. -/
def referenceRuns (qs : List Request) : List Answered :=
  qs.foldl (fun history q =>
    let answer := reference L s history q.clock
    ⟨q.clock, memberOf L (scriptArgs s q.now q.rand), answer.1, answer.2⟩ :: history) []

end

/-! ## §3. The commands together. -/

theorem live_deadlineOf (zsets : Expiring String SortedSet) (clock : Int) (key : String) :
    Expiring.live clock (deadlineOf zsets clock key) = true := by
  unfold deadlineOf
  split
  next deadline _ =>
    split
    next h => exact h
    next => rfl
  next => rfl

/-- A sorted set that was just written is found. -/
theorem zset_put_live (zsets : Expiring String SortedSet) {clock : Int} (key : String)
    (entries : SortedSet) {deadline : Option Int} (h : Expiring.live clock deadline = true) :
    (zsets.put key entries deadline).get? clock key = some entries := by
  rw [Expiring.get?_put_self, if_pos h]

/-- What is left in the window. -/
theorem zset_zremrangebyscore (zsets : Expiring String SortedSet) (clock : Int) (key : String)
    (max : Int) :
    zset (zremrangebyscore clock key max zsets) clock key
      = (zset zsets clock key).filter fun e => max < e.2 := by
  unfold zremrangebyscore
  split
  next hnil =>
    rw [hnil]
    unfold zset
    rw [Expiring.get?_erase_self]
    rfl
  next =>
    show ((Expiring.put _ _ _ _).get? _ _).getD [] = _
    rw [zset_put_live zsets key _ (live_deadlineOf zsets clock key)]
    rfl

/-- **The three commands** leave the window and the new member, under a new
deadline. -/
theorem entry_of_commands (zsets : Expiring String SortedSet) (clock : Int) (key : String)
    {max : Int} (score ttl : Int) {member : String}
    (hnew : ∀ e ∈ (zset zsets clock key).filter fun e => max < e.2, e.1 ≠ member) :
    (expire clock key ttl
        (zadd clock key score member (zremrangebyscore clock key max zsets))).entry key
      = some ((member, score) :: (zset zsets clock key).filter fun e => max < e.2,
          some (clock + ttl)) := by
  have hkept : ((zset zsets clock key).filter fun e => max < e.2).filter (fun e => e.1 ≠ member)
      = (zset zsets clock key).filter fun e => max < e.2 :=
    List.filter_eq_self.mpr fun e he => decide_eq_true (hnew e he)
  have hadded : (zadd clock key score member (zremrangebyscore clock key max zsets)).get? clock key
      = some ((member, score) :: (zset zsets clock key).filter fun e => max < e.2) := by
    unfold zadd
    rw [zset_put_live _ key _ (live_deadlineOf _ clock key), zset_zremrangebyscore, hkept]
  unfold expire
  rw [hadded]
  exact Expiring.entry_put_self ..

theorem zcard_of_entry {zsets : Expiring String SortedSet} {clock : Int} {key : String}
    {entries : SortedSet} {deadline : Option Int} (h : zsets.entry key = some (entries, deadline))
    (hlive : Expiring.live clock deadline = true) : zcard clock key zsets = entries.length := by
  unfold zcard zset
  rw [Expiring.get?_of_entry h, if_pos hlive]
  rfl

/-- A listed fingerprint is answered so, and nothing changes. -/
theorem slidingWindow_listed (L : Lua) {clock : Int} {fingerprint : String} {args : ScriptArgs}
    {r : RateStore} (h : (r.strings.get? clock ("bl:fp:" ++ fingerprint)).isSome = true) :
    slidingWindow L clock (rateKeys fingerprint) args r = ((0, 3), r) := if_pos h

/-- The script past the blacklist: the sorted set it leaves and the count. -/
theorem slidingWindow_unlisted (L : Lua) {clock : Int} {fingerprint : String} {args : ScriptArgs}
    {r : RateStore} {zsets : Expiring String SortedSet} {count : Int}
    (h : (r.strings.get? clock ("bl:fp:" ++ fingerprint)).isSome = false)
    (hzsets : expire clock ("rl:fp:" ++ fingerprint) ((args.window + 1) * L.perSecond)
      (zadd clock ("rl:fp:" ++ fingerprint) (L.tonumber args.now) (memberOf L args)
        (zremrangebyscore clock ("rl:fp:" ++ fingerprint)
          (L.tonumber args.now - args.window * L.perSecond) r.zsets)) = zsets)
    (hcount : zcard clock ("rl:fp:" ++ fingerprint) zsets = count) :
    slidingWindow L clock (rateKeys fingerprint) args r
      = if args.bl_thr < count then
          ((count, 2), ⟨r.strings.put ("bl:fp:" ++ fingerprint) "1"
            (some (clock + args.bl_ttl * L.perSecond)), zsets⟩)
        else if args.max_req < count then ((count, 1), ⟨r.strings, zsets⟩)
        else ((count, 0), ⟨r.strings, zsets⟩) := by
  subst hzsets hcount
  exact if_neg (ne_true_of_eq_false h)

/-- **A fingerprint that is not listed** is counted: the sorted set is cut at the
window, the request is put in, and its size decides. -/
theorem slidingWindow_counted (L : Lua) {s : Settings} {clock : Int}
    {fingerprint now rand : String} {r : RateStore} {window : SortedSet}
    (h : (r.strings.get? clock ("bl:fp:" ++ fingerprint)).isSome = false)
    (hagree : L.tonumber now = clock)
    (hlive : 0 ≤ (s.abuse_rate_limit_window_seconds + 1) * L.perSecond)
    (hwindow : (zset r.zsets clock ("rl:fp:" ++ fingerprint)).filter
      (fun e => clock - windowTicks L s < e.2) = window)
    (hnew : ∀ e ∈ window, e.1 ≠ memberOf L (scriptArgs s now rand)) :
    ∃ zsets, zsets.entry ("rl:fp:" ++ fingerprint)
        = some ((memberOf L (scriptArgs s now rand), clock) :: window,
            some (clock + (s.abuse_rate_limit_window_seconds + 1) * L.perSecond))
      ∧ slidingWindow L clock (rateKeys fingerprint) (scriptArgs s now rand) r
        = (verdict s (window.length + 1),
            ⟨if s.abuse_blacklist_threshold < (window.length : Int) + 1 then
                r.strings.put ("bl:fp:" ++ fingerprint) "1" (some (clock + blacklistTicks L s))
              else r.strings, zsets⟩) := by
  subst hwindow hagree
  have hentry := entry_of_commands r.zsets (L.tonumber now) ("rl:fp:" ++ fingerprint)
    (L.tonumber now) ((s.abuse_rate_limit_window_seconds + 1) * L.perSecond) hnew
  have hlive' : Expiring.live (L.tonumber now)
      (some (L.tonumber now + (s.abuse_rate_limit_window_seconds + 1) * L.perSecond)) = true :=
    decide_eq_true (by omega)
  generalize hzsets : expire (L.tonumber now) _ _ _ = zsets at hentry
  have hcount := zcard_of_entry hentry hlive'
  have hrun : slidingWindow L (L.tonumber now) (rateKeys fingerprint) (scriptArgs s now rand) r = _ :=
    slidingWindow_unlisted L h hzsets hcount
  refine ⟨zsets, hentry, hrun.trans ?_⟩
  -- the count has the new request in it
  rw [List.length_cons, Int.natCast_add_one]
  generalize ((List.filter _ _).length : Int) + 1 = count
  unfold verdict
  by_cases hthr : s.abuse_blacklist_threshold < count
  · rw [if_pos hthr, if_pos hthr]
    exact if_pos hthr
  · rw [if_neg hthr, if_neg hthr]
    refine (if_neg hthr).trans ?_
    by_cases hmax : s.abuse_rate_limit_max < count
    · rw [if_pos hmax]
      exact if_pos hmax
    · rw [if_neg hmax]
      exact if_neg hmax

/-- The script's status is one of four. -/
theorem slidingWindow_status (L : Lua) (clock : Int) (keys : List String) (args : ScriptArgs)
    (r : RateStore) :
    0 ≤ (slidingWindow L clock keys args r).1.2 ∧ (slidingWindow L clock keys args r).1.2 ≤ 3 := by
  unfold slidingWindow
  dsimp only
  split_ifs
  all_goals simp

/-- Of the four statuses, `_do_check` lets a request through at 0. -/
theorem doCheck_of_status {s : Settings}
    {script : List String → ScriptArgs → Except Exn (Option Int × Option Int)}
    {now rand fingerprint : String} {count status : Int}
    (h : script (rateKeys fingerprint) (scriptArgs s now rand) = .ok (some count, some status))
    (hstatus : 0 ≤ status ∧ status ≤ 3) :
    ∃ result, doCheck s script now rand fingerprint = .ok result
      ∧ (result.status = .ok ↔ status = 0) := by
  unfold doCheck
  unfold rateKeys at h
  rw [h]
  dsimp only [Option.getD_some]
  split_ifs with hthree htwo hone
  · exact ⟨_, rfl, iff_of_false (fun hc => (nomatch hc)) (by omega)⟩
  · exact ⟨_, rfl, iff_of_false (fun hc => (nomatch hc)) (by omega)⟩
  · exact ⟨_, rfl, iff_of_false (fun hc => (nomatch hc)) (by omega)⟩
  · exact ⟨_, rfl, iff_of_true rfl (by omega)⟩

/-! ## §4. What the two keys stand for. -/

section

variable {L : Lua} {s : Settings} {fingerprint : String}

/-- The settings that the script is meant for. -/
structure Positive (s : Settings) : Prop where
  window : 0 < s.abuse_rate_limit_window_seconds
  max : 0 < s.abuse_rate_limit_max
  threshold : 0 < s.abuse_blacklist_threshold
  ttl : 0 < s.abuse_blacklist_ttl_seconds

/-- The sorted set of a history whose last counted request came at `last`: the
requests of its window, the newest first. -/
def kept (L : Lua) (s : Settings) (history : List Answered) (last : Int) : SortedSet :=
  (history.filter fun e => e.status ≠ 3 ∧ last - windowTicks L s < e.time).map
    fun e => (e.member, e.time)

/-- The sorted set stands for the counted requests: there are none, or it was
last written at `last`, and lapses a second after their window. -/
def Recorded (L : Lua) (s : Settings) (entry : Option (SortedSet × Option Int))
    (history : List Answered) (now : Int) : Prop :=
  (entry = none ∧ ∀ e ∈ history, e.status = 3)
  ∨ ∃ last ≤ now, (∀ e ∈ history, e.status ≠ 3 → e.time ≤ last)
    ∧ entry = some (kept L s history last,
        some (last + (s.abuse_rate_limit_window_seconds + 1) * L.perSecond))

/-- **The two keys stand for the history**, whose requests came up to `now`. -/
structure Matches (L : Lua) (s : Settings) (fingerprint : String) (r : RateStore)
    (history : List Answered) (now : Int) : Prop where
  past : ∀ e ∈ history, e.time ≤ now
  recorded : Recorded L s (r.zsets.entry ("rl:fp:" ++ fingerprint)) history now
  listed : r.strings.entry ("bl:fp:" ++ fingerprint)
    = (history.find? fun e => e.status = 2).map
        fun e => ("1", some (e.time + blacklistTicks L s))

variable {r : RateStore} {history : List Answered} {now later : Int}

/-- The blacklist key is there while the last blacklisting lasts. -/
theorem Matches.blacklisted (h : Matches L s fingerprint r history now) (later : Int) :
    (r.strings.get? later ("bl:fp:" ++ fingerprint)).isSome
      = Abuse.blacklisted L s history later := by
  have hlisted := h.listed
  unfold Abuse.blacklisted
  cases hfind : history.find? fun e => e.status = 2 with
  | none =>
      rw [hfind] at hlisted
      rw [Expiring.get?_of_none hlisted]
      rfl
  | some e =>
      rw [hfind] at hlisted
      rw [Expiring.get?_of_entry hlisted, Expiring.live_some]
      show (if decide (later ≤ e.time + blacklistTicks L s) = true then some "1" else none).isSome
        = decide (later ≤ e.time + blacklistTicks L s)
      cases decide (later ≤ e.time + blacklistTicks L s) <;> rfl

/-- Of requests that are all past, those count that are new enough. -/
theorem counting_of_past (hpast : ∀ e ∈ history, e.time ≤ later) :
    counting L s history later
      = history.filter fun e => e.status ≠ 3 ∧ later - windowTicks L s < e.time := by
  unfold counting
  refine List.filter_congr fun e he => ?_
  have hle := hpast e he
  rw [decide_eq_decide]
  constructor
  · exact fun hc => ⟨hc.1, hc.2.1⟩
  · exact fun hc => ⟨hc.1, hc.2, hle⟩

/-- **Eviction and expiry remove nothing that still counts**: at any later time
the sorted set, cut at the window, has the requests that count. -/
theorem Matches.window (h : Matches L s fingerprint r history now)
    (hlater : now ≤ later) :
    (zset r.zsets later ("rl:fp:" ++ fingerprint)).filter
        (fun e => later - windowTicks L s < e.2)
      = (counting L s history later).map fun e => (e.member, e.time) := by
  rw [counting_of_past fun e he => by have := h.past e he; omega]
  unfold zset
  rcases h.recorded with ⟨hentry, hnone⟩ | ⟨last, hlast, htimes, hentry⟩
  · rw [Expiring.get?_of_none hentry]
    have hempty : (history.filter fun e => e.status ≠ 3 ∧ later - windowTicks L s < e.time) = [] := by
      refine List.filter_eq_nil_iff.mpr fun e he hc => ?_
      exact (of_decide_eq_true hc).1 (hnone e he)
    rw [hempty]
    rfl
  · rw [Expiring.get?_of_entry hentry, Expiring.live_some]
    by_cases hlive : later ≤ last + (s.abuse_rate_limit_window_seconds + 1) * L.perSecond
    · rw [decide_eq_true hlive, if_pos rfl]
      show (kept L s history last).filter _ = _
      unfold kept
      rw [List.filter_map, List.filter_filter]
      congr 1
      refine List.filter_congr fun e _ => ?_
      simp only [Function.comp_apply, Bool.decide_and]
      by_cases hin : later - windowTicks L s < e.time
      · -- what is in the window now was in it at the last write
        have : last - windowTicks L s < e.time := by omega
        simp [hin, this]
      · simp [hin]
    · -- the key has lapsed, and with it everything in it has left the window
      rw [decide_eq_false hlive, if_neg (by decide)]
      have hempty :
          (history.filter fun e => e.status ≠ 3 ∧ later - windowTicks L s < e.time) = [] := by
        refine List.filter_eq_nil_iff.mpr fun e he hc => ?_
        obtain ⟨hstatus, hin⟩ := of_decide_eq_true hc
        have htime := htimes e he hstatus
        have hpos := L.perSecond_pos
        unfold windowTicks at hin
        rw [Int.add_mul] at hlive
        omega
      rw [hempty]
      rfl

/-- What the reference answers a request after `history`. -/
def answerTo (L : Lua) (s : Settings) (history : List Answered) (q : Request) : Answered :=
  ⟨q.clock, memberOf L (scriptArgs s q.now q.rand), (reference L s history q.clock).1,
    (reference L s history q.clock).2⟩

/-- The request is let in: the sorted set has it now. -/
theorem Matches.admitted (hs : Positive s) (h : Matches L s fingerprint r history now)
    {q : Request} (hclock : now ≤ q.clock) {e : Answered} (htime : e.time = q.clock)
    (hstatus : e.status ≠ 3) :
    Recorded L s (some ((e.member, e.time) :: (zset r.zsets q.clock ("rl:fp:" ++ fingerprint)).filter
        (fun e => q.clock - windowTicks L s < e.2),
      some (q.clock + (s.abuse_rate_limit_window_seconds + 1) * L.perSecond)))
      (e :: history) q.clock := by
  refine Or.inr ⟨q.clock, le_refl _, fun e' he' _ => ?_, ?_⟩
  · rcases List.mem_cons.mp he' with rfl | he'
    · exact le_of_eq htime
    · have := h.past e' he'
      omega
  · have hpos : 0 < windowTicks L s := Int.mul_pos hs.window L.perSecond_pos
    have hin : q.clock - windowTicks L s < e.time := by omega
    rw [h.window hclock, counting_of_past fun e he => by have := h.past e he; omega]
    unfold kept
    simp [hstatus, hin]

theorem verdict_ne_three (count : Int) : (verdict s count).2 ≠ 3 := by
  unfold verdict
  split_ifs
  all_goals simp

theorem verdict_eq_two (count : Int) :
    (verdict s count).2 = 2 ↔ s.abuse_blacklist_threshold < count := by
  unfold verdict
  split_ifs with hthr
  · exact iff_of_true rfl hthr
  all_goals exact iff_of_false (by simp) hthr

theorem runOne_eq {q : Request} {out : Int × Int} {r' : RateStore}
    (h : slidingWindow L q.clock (rateKeys fingerprint) (scriptArgs s q.now q.rand) r = (out, r')) :
    Abuse.runOne L s fingerprint (r, history) q
      = (r', ⟨q.clock, memberOf L (scriptArgs s q.now q.rand), out.1, out.2⟩ :: history) := by
  unfold Abuse.runOne
  dsimp only
  rw [h]

/-- A blacklisted client is answered with status 3, and nothing changes. -/
theorem Matches.runOne_listed (h : Matches L s fingerprint r history now) {q : Request}
    (hclock : now ≤ q.clock) (hbl : Abuse.blacklisted L s history q.clock = true)
    (hpast : ∀ e ∈ answerTo L s history q :: history, e.time ≤ q.clock) :
    ∃ r', runOne L s fingerprint (r, history) q = (r', answerTo L s history q :: history)
      ∧ Matches L s fingerprint r' (answerTo L s history q :: history) q.clock := by
  have hlisted := h.blacklisted q.clock
  have href : answerTo L s history q
      = ⟨q.clock, memberOf L (scriptArgs s q.now q.rand), 0, 3⟩ := by
    unfold answerTo reference
    rw [hbl]
    rfl
  rw [hbl] at hlisted
  rw [href] at hpast ⊢
  refine ⟨r, runOne_eq (slidingWindow_listed L hlisted), hpast, ?_, h.listed⟩
  -- the answer itself is not recorded
  rcases h.recorded with ⟨hentry, hnone⟩ | ⟨last, hlast, htimes, hentry⟩
  · refine Or.inl ⟨hentry, fun e he => ?_⟩
    rcases List.mem_cons.mp he with rfl | he
    · rfl
    · exact hnone e he
  · refine Or.inr ⟨last, by omega, fun e he hstatus => ?_, hentry⟩
    rcases List.mem_cons.mp he with rfl | he
    · exact absurd rfl hstatus
    · exact htimes e he hstatus

/-- Any other request is counted with those in the window, and recorded. -/
theorem Matches.runOne_counted (hs : Positive s) (h : Matches L s fingerprint r history now)
    {q : Request} (hclock : now ≤ q.clock) (hagree : L.tonumber q.now = q.clock)
    (hnew : ∀ e ∈ history, e.member ≠ memberOf L (scriptArgs s q.now q.rand))
    (hbl : Abuse.blacklisted L s history q.clock = false)
    (hpast : ∀ e ∈ answerTo L s history q :: history, e.time ≤ q.clock) :
    ∃ r', runOne L s fingerprint (r, history) q = (r', answerTo L s history q :: history)
      ∧ Matches L s fingerprint r' (answerTo L s history q :: history) q.clock := by
  have hlisted := h.blacklisted q.clock
  rw [hbl] at hlisted
  have hlive : 0 ≤ (s.abuse_rate_limit_window_seconds + 1) * L.perSecond :=
    Int.mul_nonneg (by have := hs.window; omega) (le_of_lt L.perSecond_pos)
  have hwindow := h.window hclock
  have hmembers : ∀ e ∈ (counting L s history q.clock).map fun e => (e.member, e.time),
      e.1 ≠ memberOf L (scriptArgs s q.now q.rand) := by
    intro e he
    obtain ⟨e', he', rfl⟩ := List.mem_map.mp he
    exact hnew e' (List.mem_of_mem_filter he')
  obtain ⟨zsets, hentry, hrun⟩ :=
    slidingWindow_counted L hlisted hagree hlive hwindow hmembers
  rw [List.length_map] at hrun
  -- what the script counts is what the reference counts
  have hans : reference L s history q.clock
      = verdict s ((counting L s history q.clock).length + 1) := by
    unfold reference
    rw [hbl]
    rfl
  have hanswer : answerTo L s history q
      = ⟨q.clock, memberOf L (scriptArgs s q.now q.rand),
          (verdict s ((counting L s history q.clock).length + 1)).1,
          (verdict s ((counting L s history q.clock).length + 1)).2⟩ := by
    unfold answerTo
    rw [hans]
  have hstatus : (answerTo L s history q).status
      = (verdict s ((counting L s history q.clock).length + 1)).2 := congrArg Prod.snd hans
  have hone : Abuse.runOne L s fingerprint (r, history) q = _ := runOne_eq hrun
  rw [← hanswer] at hone
  refine ⟨_, hone, hpast, ?_, ?_⟩
  · have hadmitted := h.admitted hs hclock (e := answerTo L s history q) rfl
      (by rw [hstatus]; exact verdict_ne_three _)
    rw [hwindow] at hadmitted
    show Recorded L s (zsets.entry _) _ _
    rw [hentry]
    exact hadmitted
  · -- the blacklist key is set exactly with status 2
    show Expiring.entry (if _ then _ else _) _ = _
    by_cases hthr : s.abuse_blacklist_threshold
        < ((counting L s history q.clock).length : Int) + 1
    · rw [if_pos hthr, List.find?_cons_of_pos (by
        rw [hstatus, (verdict_eq_two _).mpr hthr]
        rfl)]
      exact Expiring.entry_put_self ..
    · rw [if_neg hthr, List.find?_cons_of_neg (by
        rw [hstatus, decide_eq_true_eq, verdict_eq_two]
        exact hthr)]
      exact h.listed

/-- **One run of the script** answers what the reference does, and the keys
stand for the longer history. -/
theorem Matches.runOne (hs : Positive s) (h : Matches L s fingerprint r history now)
    {q : Request} (hclock : now ≤ q.clock) (hagree : L.tonumber q.now = q.clock)
    (hnew : ∀ e ∈ history, e.member ≠ memberOf L (scriptArgs s q.now q.rand)) :
    ∃ r', runOne L s fingerprint (r, history) q = (r', answerTo L s history q :: history)
      ∧ Matches L s fingerprint r' (answerTo L s history q :: history) q.clock := by
  have hpast : ∀ e ∈ answerTo L s history q :: history, e.time ≤ q.clock := by
    intro e he
    rcases List.mem_cons.mp he with rfl | he
    · exact le_refl _
    · have := h.past e he
      omega
  cases hbl : Abuse.blacklisted L s history q.clock with
  | true => exact h.runOne_listed hclock hbl hpast
  | false => exact h.runOne_counted hs hclock hagree hnew hbl hpast

theorem Recorded.mono {entry : Option (SortedSet × Option Int)}
    (h : Recorded L s entry history now) (hlater : now ≤ later) :
    Recorded L s entry history later := by
  rcases h with hnone | ⟨last, hlast, hrest⟩
  · exact Or.inl hnone
  · exact Or.inr ⟨last, by omega, hrest⟩

theorem Matches.mono (h : Matches L s fingerprint r history now) (hlater : now ≤ later) :
    Matches L s fingerprint r history later where
  past e he := by have := h.past e he; omega
  recorded := h.recorded.mono hlater
  listed := h.listed

/-! ## §5. Runs. -/

/-- The requests of a run: their times agree with Redis's clock, which does not
run backwards, and no two add the same member. -/
structure Timely (L : Lua) (s : Settings) (qs : List Request) : Prop where
  agree : ∀ q ∈ qs, L.tonumber q.now = q.clock
  ordered : qs.Pairwise fun q q' => q.clock ≤ q'.clock
  distinct : (qs.map fun q => memberOf L (scriptArgs s q.now q.rand)).Nodup

variable {qs : List Request} {q : Request}

theorem Timely.init (h : Timely L s (qs ++ [q])) : Timely L s qs where
  agree q' hq' := h.agree q' (List.mem_append_left _ hq')
  ordered := (List.pairwise_append.mp h.ordered).1
  distinct := by
    have hdistinct := h.distinct
    rw [List.map_append] at hdistinct
    exact hdistinct.of_append_left

theorem Timely.last (h : Timely L s (qs ++ [q])) : ∀ q' ∈ qs, q'.clock ≤ q.clock :=
  fun q' hq' => (List.pairwise_append.mp h.ordered).2.2 q' hq' q (List.mem_singleton_self q)

theorem Timely.new (h : Timely L s (qs ++ [q])) : ∀ q' ∈ qs,
    memberOf L (scriptArgs s q'.now q'.rand) ≠ memberOf L (scriptArgs s q.now q.rand) := by
  intro q' hq'
  have hdistinct := h.distinct
  rw [List.map_append] at hdistinct
  exact (List.nodup_append.mp hdistinct).2.2 _ (List.mem_map_of_mem hq') _ (List.mem_singleton_self _)

theorem runAll_concat (L : Lua) (s : Settings) (fingerprint : String) (r : RateStore)
    (qs : List Request) (q : Request) :
    runAll L s fingerprint r (qs ++ [q])
      = runOne L s fingerprint (runAll L s fingerprint r qs) q := List.foldl_concat ..

theorem referenceRuns_concat (L : Lua) (s : Settings) (qs : List Request) (q : Request) :
    referenceRuns L s (qs ++ [q])
      = answerTo L s (referenceRuns L s qs) q :: referenceRuns L s qs := List.foldl_concat ..

/-- Every answer is to a request of the run. -/
theorem mem_referenceRuns {e : Answered} (he : e ∈ referenceRuns L s qs) :
    ∃ q ∈ qs, e.time = q.clock ∧ e.member = memberOf L (scriptArgs s q.now q.rand) := by
  induction qs using List.reverseRecOn with
  | nil => exact absurd he List.not_mem_nil
  | append_singleton qs q ih =>
      rw [referenceRuns_concat] at he
      rcases List.mem_cons.mp he with rfl | he
      · exact ⟨q, List.mem_append_right _ (List.mem_singleton_self q), rfl, rfl⟩
      · obtain ⟨q', hq', heq⟩ := ih he
        exact ⟨q', List.mem_append_left _ hq', heq⟩

/-- **The script against the history**, over a run from a store without the
fingerprint's keys. -/
theorem runs_match (hs : Positive s) (hqs : Timely L s qs)
    (hcounts : r.zsets.entry ("rl:fp:" ++ fingerprint) = none)
    (hlists : r.strings.entry ("bl:fp:" ++ fingerprint) = none) :
    (runAll L s fingerprint r qs).2 = referenceRuns L s qs
      ∧ ∀ now, (∀ q ∈ qs, q.clock ≤ now) →
        Matches L s fingerprint (runAll L s fingerprint r qs).1 (referenceRuns L s qs) now := by
  -- induction on the requests, the last one split off: the store and the history grow together
  induction qs using List.reverseRecOn with
  | nil =>
      refine ⟨rfl, fun now _ => ⟨fun e he => absurd he List.not_mem_nil, ?_, hlists⟩⟩
      exact Or.inl ⟨hcounts, fun e he => absurd he List.not_mem_nil⟩
  | append_singleton qs q ih =>
      obtain ⟨hanswers, hmatches⟩ := ih hqs.init
      have hagree := hqs.agree q (List.mem_append_right _ (List.mem_singleton_self q))
      -- the member is new: of a member that is there, ZADD would only change the score
      have hnew : ∀ e ∈ referenceRuns L s qs,
          e.member ≠ memberOf L (scriptArgs s q.now q.rand) := by
        intro e he
        obtain ⟨q', hq', _, hmember⟩ := mem_referenceRuns he
        rw [hmember]
        exact hqs.new q' hq'
      obtain ⟨r', hone, hafter⟩ :=
        (hmatches q.clock hqs.last).runOne hs (le_refl _) hagree hnew
      rw [runAll_concat, referenceRuns_concat, ← Prod.mk.eta (p := runAll L s fingerprint r qs),
        hanswers, hone]
      refine ⟨rfl, fun now hnow => hafter.mono ?_⟩
      exact hnow q (List.mem_append_right _ (List.mem_singleton_self q))

/-- A history, the newest first, whose answers are the reference's and whose
times do not run backwards. -/
def Ruled (L : Lua) (s : Settings) : List Answered → Prop
  | [] => True
  | e :: older => (e.count, e.status) = reference L s older e.time
      ∧ (∀ e' ∈ older, e'.time ≤ e.time) ∧ Ruled L s older

theorem referenceRuns_ruled (hqs : Timely L s qs) : Ruled L s (referenceRuns L s qs) := by
  induction qs using List.reverseRecOn with
  | nil => exact trivial
  | append_singleton qs q ih =>
      rw [referenceRuns_concat]
      refine ⟨rfl, fun e he => ?_, ih hqs.init⟩
      obtain ⟨q', hq', htime, _⟩ := mem_referenceRuns he
      rw [htime]
      exact hqs.last q' hq'

/-- The requests let through in `(t - W, t]`. -/
def okIn (L : Lua) (s : Settings) (history : List Answered) (t : Int) : List Answered :=
  history.filter fun e => e.status = 0 ∧ t - windowTicks L s < e.time ∧ e.time ≤ t

/-- A request that is let through had room. -/
theorem reference_ok {count : Int} (h : (count, 0) = reference L s history now) :
    ((counting L s history now).length : Int) + 1 ≤ s.abuse_rate_limit_max := by
  unfold reference verdict at h
  split_ifs at h with hbl hthr hmax
  · cases h
  · cases h
  · cases h
  · omega

/-- **At most `max` requests of a window** are let through. -/
theorem ok_in_window (hs : Positive s) {history : List Answered} (h : Ruled L s history)
    (t : Int) : ((okIn L s history t).length : Int) ≤ s.abuse_rate_limit_max := by
  induction history with
  | nil => exact le_of_lt hs.max
  | cons e older ih =>
      obtain ⟨hanswer, htimes, hruled⟩ := h
      by_cases hin : e.status = 0 ∧ t - windowTicks L s < e.time ∧ e.time ≤ t
      · -- `e` is the newest: what it counted has all the others
        have hcons : okIn L s (e :: older) t = e :: okIn L s older t :=
          List.filter_cons_of_pos (decide_eq_true hin)
        have hcounted : (okIn L s older t).length ≤ (counting L s older e.time).length := by
          unfold okIn counting
          rw [← List.countP_eq_length_filter, ← List.countP_eq_length_filter]
          refine List.countP_mono_left fun e' he' hc => decide_eq_true ?_
          obtain ⟨hstatus, hlow, -⟩ := of_decide_eq_true hc
          have htime := htimes e' he'
          have hold := hin.2.2
          refine ⟨fun hthree => ?_, by omega, htime⟩
          omega
        rw [hin.1] at hanswer
        have hroom := reference_ok hanswer
        rw [hcons, List.length_cons]
        omega
      · have hcons : okIn L s (e :: older) t = okIn L s older t :=
          List.filter_cons_of_neg (by rw [decide_eq_true_eq]; exact hin)
        rw [hcons]
        exact ih hruled

/-- Once no blacklisting lasts, every one of the history is over. -/
theorem over_of_not_blacklisted {history : List Answered} (h : Ruled L s history)
    (hbl : blacklisted L s history now = false) :
    ∀ b ∈ history, b.status = 2 → b.time + blacklistTicks L s < now := by
  induction history with
  | nil => exact fun b hb _ => absurd hb List.not_mem_nil
  | cons e older ih =>
      obtain ⟨-, htimes, hruled⟩ := h
      intro b hb hstatus
      unfold blacklisted at hbl
      -- only the newest answer 2 is looked up: every older one has run out before it
      by_cases hlast : e.status = 2
      · have hfound : (e :: older).find? (fun e => e.status = 2) = some e :=
          List.find?_cons_of_pos (decide_eq_true hlast)
        rw [hfound] at hbl
        have hover := of_decide_eq_false hbl
        rcases List.mem_cons.mp hb with rfl | hb
        · omega
        · have htime := htimes b hb
          omega
      · have hfound : (e :: older).find? (fun e => e.status = 2)
            = older.find? fun e => e.status = 2 :=
          List.find?_cons_of_neg (by rw [decide_eq_true_eq]; exact hlast)
        rw [hfound] at hbl
        rcases List.mem_cons.mp hb with rfl | hb
        · exact absurd hstatus hlast
        · exact ih hruled hbl b hb hstatus

/-- **No request is let through during a blacklisting**: one that is comes after
the TTL of every blacklisting before it. -/
theorem ok_apart {history : List Answered} (h : Ruled L s history) :
    history.Pairwise fun e b =>
      e.status = 0 → b.status = 2 → b.time + blacklistTicks L s < e.time := by
  induction history with
  | nil => exact List.Pairwise.nil
  | cons e older ih =>
      obtain ⟨hanswer, -, hruled⟩ := h
      refine List.Pairwise.cons (fun b hb hok hstatus => ?_) (ih hruled)
      have hbl : blacklisted L s older e.time = false := by
        unfold reference at hanswer
        split_ifs at hanswer with hc
        · have hthree : e.status = 3 := congrArg Prod.snd hanswer
          omega
        · exact eq_false_of_ne_true hc
      exact over_of_not_blacklisted hruled hbl b hb hstatus

end

/-- **The script implements its reference.**  From a store without the
fingerprint's keys, runs at times that agree with Redis's clock answer what the
reference answers; no request that still counts is ever gone from the sorted
set; at most `max` requests of a window are let through, and none during a
blacklisting. -/
theorem checks_eq_reference (L : Lua) {s : Settings} (hs : Positive s) (fingerprint : String)
    {r : RateStore} (hcounts : r.zsets.entry ("rl:fp:" ++ fingerprint) = none)
    (hlists : r.strings.entry ("bl:fp:" ++ fingerprint) = none)
    {qs : List Request} (hqs : Timely L s qs) :
    (runAll L s fingerprint r qs).2 = referenceRuns L s qs
      ∧ (∀ now, (∀ q ∈ qs, q.clock ≤ now) → ∀ e ∈ referenceRuns L s qs,
          e.status ≠ 3 → now - windowTicks L s < e.time →
          (e.member, e.time)
            ∈ zset (runAll L s fingerprint r qs).1.zsets now ("rl:fp:" ++ fingerprint))
      ∧ (∀ t, ((okIn L s (referenceRuns L s qs) t).length : Int) ≤ s.abuse_rate_limit_max)
      ∧ (referenceRuns L s qs).Pairwise fun e b =>
          e.status = 0 → b.status = 2 → b.time + blacklistTicks L s < e.time := by
  obtain ⟨hanswers, hmatches⟩ := runs_match hs hqs hcounts hlists
  have hruled := referenceRuns_ruled hqs
  refine ⟨hanswers, fun now hnow e he hstatus hin => ?_, ok_in_window hs hruled, ok_apart hruled⟩
  have hmatch := hmatches now hnow
  -- a counted entry is in the window of the reference, and the store lists the same window
  have hcounting : e ∈ counting L s (referenceRuns L s qs) now :=
    List.mem_filter.mpr ⟨he, decide_eq_true ⟨hstatus, hin, hmatch.past e he⟩⟩
  have hmem : (e.member, e.time) ∈ (counting L s (referenceRuns L s qs) now).map
      fun e => (e.member, e.time) := List.mem_map_of_mem hcounting
  rw [← hmatch.window (le_refl now)] at hmem
  exact List.mem_of_mem_filter hmem

/-- Ticks of a microsecond; the texts are those of times that are whole seconds. -/
def microseconds : Lua where
  perSecond := 1000000
  perSecond_pos := by decide
  tonumber text :=
    (text.toList.filter Char.isDigit).foldl (fun n c => 10 * n + (c.toNat - '0'.toNat : Nat)) 0
  tostring time := toString (time / 1000000)

/-- Six requests, with two to a minute and three before a blacklisting: the fourth
starts it, the fifth meets it, and the sixth comes when it is over. -/
theorem checks_eq_reference_six :
    let s : Settings := ⟨60, 2, 3, 100⟩
    let qs : List Request := [⟨10000000, "10.000000", "a0"⟩, ⟨11000000, "11.000000", "a1"⟩,
      ⟨11000000, "11.000000", "a2"⟩, ⟨12000000, "12.000000", "a3"⟩, ⟨112000000, "112.000000", "a4"⟩,
      ⟨113000000, "113.000000", "a5"⟩]
    (runAll microseconds s "f" ⟨Expiring.empty, Expiring.empty⟩ qs).2
        = referenceRuns microseconds s qs
      ∧ (referenceRuns microseconds s qs).map (fun e => (e.count, e.status))
        = [(1, 0), (0, 3), (4, 2), (3, 1), (2, 0), (1, 0)] := by
  intro s qs
  have hs : Positive s := by constructor <;> decide
  have hqs : Timely microseconds s qs := by constructor <;> decide +kernel
  exact ⟨(checks_eq_reference microseconds hs "f" rfl rfl hqs).1, by decide +kernel⟩

end Nimbus.Abuse
