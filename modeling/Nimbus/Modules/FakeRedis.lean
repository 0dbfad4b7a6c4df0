/-
  Nimbus.Modules.FakeRedis
  ────────────────────────
  **THE REDIS OF THE UNIT TESTS.**

  The unit tests run the locks, the dedupe and the rate limits on a stub: three
  dicts, with expired keys evicted when they are touched, and a sliding window
  written in Python.  It differs from a server in what it keeps (an empty sorted
  set, a deadline of a key that is gone, one entry for each ZADD of a member), and
  tests are worth as much as these differences do not show.

    • `FakeRedis`, its methods, `script` — the stub;
    • `text`, `scores`   — what a key of it is worth at a time;
    • `Stands`           — how it stands for a server;
    • `fake_redis`       — **in every run of calls in the order of their times,
                           with a new member for each request, the stub answers
                           what a server answers.**
-/
import Nimbus.Modules.Fingerprint
import Nimbus.Modules.SharedRedis

namespace Nimbus.Redis

open Lib Lib.Prog Payments Consumer
open Abuse (SortedSet RateStore Lua ScriptArgs Settings Request)

/-! ## §1. The stub. -/

/-- `FakeRedis`: its three dicts, the sorted sets as lists of scores and members. -/
structure FakeRedis where
  store : String → Option String
  sorted_sets : String → Option (List (Int × String))
  expirations : String → Option Int

namespace FakeRedis

def empty : FakeRedis := ⟨fun _ => none, fun _ => none, fun _ => none⟩

/-- `_is_expired`, `now` being what `time.time()` returns. -/
def isExpired (F : FakeRedis) (now : Int) (key : String) : Bool :=
  (F.expirations key).any fun deadline => decide (deadline < now)

/-- `pop(key, None)` on the three dicts. -/
def pop (F : FakeRedis) (key : String) : FakeRedis where
  store := Function.update F.store key none
  sorted_sets := Function.update F.sorted_sets key none
  expirations := Function.update F.expirations key none

/-- `_evict_if_expired`. -/
def evictIfExpired (F : FakeRedis) (now : Int) (key : String) : FakeRedis :=
  if F.isExpired now key then F.pop key else F

/-- `set`: `none` where the key is taken. -/
def set (F : FakeRedis) (now : Int) (key value : String) (ex : Option Int) (nx : Bool) :
    Option Bool × FakeRedis :=
  let F := F.evictIfExpired now key
  if nx ∧ (F.store key).isSome then (none, F)
  else
    let F := { F with store := Function.update F.store key (some value) }
    match ex with
    | some ex => (some true,
        { F with expirations := Function.update F.expirations key (some (now + ex * second)) })
    | none => (some true, F)

/-- `get`, decoded. -/
def get (F : FakeRedis) (now : Int) (key : String) : Option String × FakeRedis :=
  let F := F.evictIfExpired now key
  (F.store key, F)

/-- `exists`. -/
def existsKey (F : FakeRedis) (now : Int) (key : String) : Int × FakeRedis :=
  let F := F.evictIfExpired now key
  (if (F.store key).isSome ∨ (F.sorted_sets key).isSome then 1 else 0, F)

/-- `delete` of one key. -/
def delete (F : FakeRedis) (key : String) : Nat × FakeRedis :=
  ((if (F.store key).isSome then 1 else 0) + (if (F.sorted_sets key).isSome then 1 else 0), F.pop key)

/-- `eval`, of the one script that it knows, with one key. -/
def eval (F : FakeRedis) (now : Int) (key expected_token : String) : Nat × FakeRedis :=
  let out := F.get now key
  match out.1 with
  | none => (0, out.2)
  | some current => if current = expected_token then (1, (out.2.delete key).2) else (0, out.2)

/-- `zadd` of one member; the list is sorted by the scores. -/
def zadd (F : FakeRedis) (now : Int) (key : String) (score : Int) (member : String) :
    Nat × FakeRedis :=
  let F := F.evictIfExpired now key
  let entries := (F.sorted_sets key).getD []
  let sorted := (entries ++ [(score, member)]).mergeSort fun x y => decide (x.1 ≤ y.1)
  (if entries.any fun e => decide (e.2 = member) then 0 else 1,
    { F with sorted_sets := Function.update F.sorted_sets key (some sorted) })

/-- `zremrangebyscore(key, -inf, max_score)`. -/
def zremrangebyscore (F : FakeRedis) (now : Int) (key : String) (max_score : Int) :
    Nat × FakeRedis :=
  let F := F.evictIfExpired now key
  let entries := (F.sorted_sets key).getD []
  let kept := entries.filter fun e => ¬ e.1 ≤ max_score
  (entries.length - kept.length,
    { F with sorted_sets := Function.update F.sorted_sets key (some kept) })

/-- `zcard`. -/
def zcard (F : FakeRedis) (now : Int) (key : String) : Int × FakeRedis :=
  let F := F.evictIfExpired now key
  (((F.sorted_sets key).getD []).length, F)

/-- `expire`, whether or not there is such a key. -/
def expire (F : FakeRedis) (now : Int) (key : String) (seconds : Int) : FakeRedis :=
  { F with expirations := Function.update F.expirations key (some (now + seconds * second)) }

/-- `FakeScript.__call__` with its two keys; `repr` writes the number in the member
as Python does. -/
def scriptAt (L : Lua) (repr : Int → String) (F : FakeRedis) (now : Int) (rl_key bl_key : String)
    (args : ScriptArgs) : (Int × Int) × FakeRedis :=
  let time := L.tonumber args.now
  let out := F.existsKey now bl_key
  if out.1 = 1 then ((0, 3), out.2)
  else
    let F := (out.2.zremrangebyscore now rl_key (time - args.window * second)).2
    let F := (F.zadd now rl_key time (repr time ++ ":" ++ args.rand)).2
    let F := F.expire now rl_key (args.window + 1)
    let out := F.zcard now rl_key
    let count := out.1
    if args.bl_thr < count then ((count, 2), (out.2.set now bl_key "1" (some args.bl_ttl) false).2)
    else if args.max_req < count then ((count, 1), out.2)
    else ((count, 0), out.2)

/-- `FakeScript.__call__`. -/
def script (L : Lua) (repr : Int → String) (F : FakeRedis) (now : Int) (keys : List String)
    (args : ScriptArgs) : (Int × Int) × FakeRedis :=
  F.scriptAt L repr now (keys.getD 0 "") (keys.getD 1 "") args

end FakeRedis

/-- What the lock functions ask for, of the stub. -/
def fakeOps (now : Int) (fresh : Uuid) (ttl : Int) :
    (op : Op) → FakeRedis → Except Exn (Ans op) × FakeRedis
  | .uuid4, F => (.ok fresh, F)
  | .redisSetNx key token, F =>
      (.ok ((F.set now key token (some ttl) true).1.getD false),
        (F.set now key token (some ttl) true).2)
  | .redisRelease key token, F => (.ok (F.eval now key token).1, (F.eval now key token).2)
  | _, F => (.error ⟨.runtimeError, "no session", []⟩, F)

/-- The calls of the application on the stub. -/
def fake (L : Lua) (repr : Int → String) (s : Settings) : Reactive FakeRedis Call Answer where
  respond F
    | .lock (.acquire now fresh idempotency_key ttl_seconds) =>
        let out := (acquireIdempotencyLock idempotency_key ttl_seconds).eval
          (fakeOps now fresh (ttl_seconds.getD 30)) F
        (.lock (.acquired out.1), out.2)
    | .lock (.release now idempotency_key token) =>
        let out := (releaseIdempotencyLock ⟨redisKey idempotency_key, token⟩).eval
          (fakeOps now (Uuid.ofNat 0) 30) F
        (.lock (.released out.1), out.2)
    | .dedupe c =>
        let out := recordOn (fun key ttl F =>
          ((F.set c.now key "1" (some ttl) true).1.getD false,
            (F.set c.now key "1" (some ttl) true).2)) c F
        (.dedupe out.1, out.2)
    | .rate c =>
        let out := F.script L repr c.request.clock (Abuse.rateKeys c.fingerprint)
          (Abuse.scriptArgs s c.request.now c.request.rand)
        (.rate (.ok out.1), out.2)

/-! ## §2. What a key is worth. -/

namespace FakeRedis

/-- The string at a key that has not expired by `t`. -/
def text (F : FakeRedis) (t : Int) (key : String) : Option String :=
  if F.isExpired t key then none else F.store key

/-- The scores at a key that has not expired by `t`. -/
def scores (F : FakeRedis) (t : Int) (key : String) : List Int :=
  if F.isExpired t key then [] else ((F.sorted_sets key).getD []).map Prod.fst

/-- The two stubs have the same at `key`. -/
structure SameAt (key : String) (F F' : FakeRedis) : Prop where
  store : F'.store key = F.store key
  sorted_sets : F'.sorted_sets key = F.sorted_sets key
  expirations : F'.expirations key = F.expirations key

variable {F F' F'' : FakeRedis} {now t : Int} {key k : String}

theorem SameAt.trans (h : SameAt k F F') (h' : SameAt k F' F'') : SameAt k F F'' :=
  ⟨h'.store.trans h.store, h'.sorted_sets.trans h.sorted_sets, h'.expirations.trans h.expirations⟩

theorem SameAt.isExpired (h : SameAt k F F') (t : Int) : F'.isExpired t k = F.isExpired t k := by
  unfold FakeRedis.isExpired
  rw [h.expirations]

theorem SameAt.text (h : SameAt k F F') (t : Int) : F'.text t k = F.text t k := by
  unfold FakeRedis.text
  rw [h.isExpired, h.store]

theorem SameAt.scores (h : SameAt k F F') (t : Int) : F'.scores t k = F.scores t k := by
  unfold FakeRedis.scores
  rw [h.isExpired, h.sorted_sets]

theorem isExpired_mono (hle : now ≤ t) (h : F.isExpired now key = true) :
    F.isExpired t key = true := by
  unfold isExpired at h ⊢
  cases hdeadline : F.expirations key with
  | none =>
      rw [hdeadline] at h
      cases h
  | some deadline =>
      rw [hdeadline] at h
      have hlt : deadline < now := of_decide_eq_true h
      exact decide_eq_true (by omega)

theorem sameAt_pop (hk : k ≠ key) : SameAt k F (F.pop key) :=
  ⟨Function.update_of_ne hk .., Function.update_of_ne hk .., Function.update_of_ne hk ..⟩

theorem sameAt_evict (hk : k ≠ key) : SameAt k F (F.evictIfExpired now key) := by
  unfold evictIfExpired
  split
  · exact sameAt_pop hk
  · exact ⟨rfl, rfl, rfl⟩

/-- After an eviction the dicts have what the key is worth now. -/
theorem store_evict : (F.evictIfExpired now key).store key = F.text now key := by
  unfold evictIfExpired text
  split
  · exact Function.update_self ..
  · rfl

theorem sets_evict : ((F.evictIfExpired now key).sorted_sets key).getD []
    = if F.isExpired now key then [] else (F.sorted_sets key).getD [] := by
  unfold evictIfExpired
  split
  · show (Function.update F.sorted_sets key none key).getD [] = _
    rw [Function.update_self]
    rfl
  · rfl

theorem sets_evict_none (h : F.sorted_sets k = none) :
    (F.evictIfExpired now key).sorted_sets k = none := by
  unfold evictIfExpired
  split
  · show Function.update F.sorted_sets key none k = none
    by_cases hk : k = key
    · rw [hk, Function.update_self]
    · rw [Function.update_of_ne hk, h]
  · exact h

/-- **An eviction takes nothing away** that is worth anything, then or later. -/
theorem text_evict (hle : now ≤ t) (k : String) :
    (F.evictIfExpired now key).text t k = F.text t k := by
  by_cases hk : k = key
  · subst hk
    unfold evictIfExpired
    split
    next h =>
      -- the key is expired later as well
      have hold : F.text t k = none := if_pos (isExpired_mono hle h)
      rw [hold]
      unfold text
      split
      · rfl
      · exact Function.update_self ..
    next => rfl
  · exact (sameAt_evict hk).text t

theorem scores_evict (hle : now ≤ t) (k : String) :
    (F.evictIfExpired now key).scores t k = F.scores t k := by
  by_cases hk : k = key
  · subst hk
    unfold evictIfExpired
    split
    next h =>
      have hold : F.scores t k = [] := if_pos (isExpired_mono hle h)
      rw [hold]
      unfold scores
      split
      · rfl
      · show (((F.pop k).sorted_sets k).getD []).map Prod.fst = []
        have hnone : (F.pop k).sorted_sets k = none := Function.update_self ..
        rw [hnone]
        rfl
    next => rfl
  · exact (sameAt_evict hk).scores t

/-! ## §3. What a method does. -/

theorem not_expired_evict : (F.evictIfExpired now key).isExpired now key = false := by
  unfold evictIfExpired
  split
  next =>
    show (Function.update F.expirations key none key).any _ = false
    rw [Function.update_self]
    rfl
  next h => exact eq_false_of_ne_true h

theorem evict_of_not_expired (h : F.isExpired now key = false) : F.evictIfExpired now key = F :=
  if_neg (ne_true_of_eq_false h)

/-- A stub with a value and a deadline at `key`. -/
def written (F : FakeRedis) (key value : String) (deadline : Int) : FakeRedis :=
  { F with store := Function.update F.store key (some value)
           expirations := Function.update F.expirations key (some deadline) }

theorem text_written (value : String) (deadline : Int) :
    (F.written key value deadline).text t key = if deadline < t then none else some value := by
  unfold written text isExpired
  simp only [Function.update_self, Option.any_some, decide_eq_true_eq]

theorem sameAt_written (hk : k ≠ key) (value : String) (deadline : Int) :
    SameAt k F (F.written key value deadline) :=
  ⟨Function.update_of_ne hk .., rfl, Function.update_of_ne hk ..⟩

/-- `SET NX` at a key that is taken, and at one that is free. -/
theorem set_nx (value : String) (ttl : Int) :
    F.set now key value (some ttl) true
      = if (F.text now key).isSome then (none, F.evictIfExpired now key)
        else (some true, (F.evictIfExpired now key).written key value (now + ttl * second)) := by
  unfold set
  rw [← store_evict]
  simp only [true_and]
  rfl

/-- `SET` writes over whatever is there. -/
theorem set_always (value : String) (ttl : Int) :
    F.set now key value (some ttl) false
      = (some true, (F.evictIfExpired now key).written key value (now + ttl * second)) := by
  unfold set
  simp only [Bool.false_eq_true, false_and, if_false]
  rfl

theorem eval_eq (token : String) :
    F.eval now key token = if F.text now key = some token then
        (1, (F.evictIfExpired now key).pop key) else (0, F.evictIfExpired now key) := by
  unfold eval get
  dsimp only
  rw [store_evict]
  cases F.text now key with
  | none => rfl
  | some current =>
      by_cases h : current = token
      · simp [h, delete]
      · simp [h]

theorem text_pop : (F.pop key).text t key = none := by
  unfold text
  split
  · rfl
  · exact Function.update_self ..

/-- **The three commands of a check** leave the window and the new score, under a
new deadline. -/
theorem commands {max score ttl : Int} (member : String) (hlive : 0 ≤ ttl * second) :
    ∃ F₁ : FakeRedis, ∃ entries : List (Int × String),
      ((F.zremrangebyscore now key max).2.zadd now key score member).2.expire now key ttl = F₁
      ∧ F₁.zcard now key = ((entries.length : Int), F₁)
      ∧ F₁.sorted_sets key = some entries ∧ F₁.expirations key = some (now + ttl * second)
      ∧ (entries.map Prod.fst).Perm (score :: (F.scores now key).filter fun x => ¬ x ≤ max)
      ∧ ∀ k, k ≠ key → SameAt k F F₁ := by
  -- what is in the list once the expired ones are gone
  generalize hkept : (((F.evictIfExpired now key).sorted_sets key).getD []).filter
    (fun e => ¬ e.1 ≤ max) = kept
  have hscores : kept.map Prod.fst = (F.scores now key).filter fun x => ¬ x ≤ max := by
    rw [← hkept, sets_evict]
    unfold scores
    split
    · rfl
    · rw [List.filter_map]
      rfl
  let F' : FakeRedis := { F.evictIfExpired now key with
    sorted_sets := Function.update (F.evictIfExpired now key).sorted_sets key (some kept) }
  have hrem : (F.zremrangebyscore now key max).2 = F' := by
    unfold zremrangebyscore
    dsimp only
    rw [hkept]
  have hnot : F'.isExpired now key = false := not_expired_evict
  let sorted := (kept ++ [(score, member)]).mergeSort fun x y => decide (x.1 ≤ y.1)
  have hadd : (F'.zadd now key score member).2
      = { F' with sorted_sets := Function.update F'.sorted_sets key (some sorted) } := by
    unfold zadd
    dsimp only
    rw [evict_of_not_expired hnot]
    have hlist : F'.sorted_sets key = some kept := Function.update_self ..
    rw [hlist]
    rfl
  rw [hrem, hadd]
  refine ⟨_, sorted, rfl, ?_, Function.update_self .., Function.update_self .., ?_, fun k hk => ?_⟩
  · unfold zcard
    -- the new deadline has not passed
    rw [evict_of_not_expired]
    · unfold expire
      simp only [Function.update_self, Option.getD_some]
    · unfold isExpired expire
      simp only [Function.update_self, Option.any_some, decide_eq_false_iff_not]
      omega
  · refine ((List.mergeSort_perm _ _).map Prod.fst).trans ?_
    rw [List.map_append, hscores]
    exact List.perm_append_comm
  · refine (sameAt_evict hk).trans ⟨rfl, ?_, Function.update_of_ne hk ..⟩
    show Function.update F'.sorted_sets key (some sorted) k = _
    rw [Function.update_of_ne hk]
    exact Function.update_of_ne hk ..

/-- A listed fingerprint is answered so. -/
theorem scriptAt_listed (L : Lua) (repr : Int → String) {rl_key bl_key : String}
    (args : ScriptArgs) (h : (F.text now bl_key).isSome = true) :
    F.scriptAt L repr now rl_key bl_key args = ((0, 3), F.evictIfExpired now bl_key) := by
  unfold scriptAt existsKey
  dsimp only
  rw [store_evict, if_pos (Or.inl h), if_pos rfl]

/-- The script past the blacklist. -/
theorem scriptAt_unlisted {L : Lua} {repr : Int → String} {rl_key bl_key : String}
    {args : ScriptArgs} {F₁ : FakeRedis} {count : Int} (h : F.text now bl_key = none)
    (hnone : F.sorted_sets bl_key = none)
    (hrun : ((((F.evictIfExpired now bl_key).zremrangebyscore now rl_key
          (L.tonumber args.now - args.window * second)).2.zadd now rl_key (L.tonumber args.now)
          (repr (L.tonumber args.now) ++ ":" ++ args.rand)).2.expire now rl_key
          (args.window + 1)) = F₁)
    (hcount : F₁.zcard now rl_key = (count, F₁)) :
    F.scriptAt L repr now rl_key bl_key args
      = if args.bl_thr < count then
          ((count, 2),
            (F₁.evictIfExpired now bl_key).written bl_key "1" (now + args.bl_ttl * second))
        else if args.max_req < count then ((count, 1), F₁)
        else ((count, 0), F₁) := by
  have hno : ¬ (((F.evictIfExpired now bl_key).store bl_key).isSome = true
      ∨ ((F.evictIfExpired now bl_key).sorted_sets bl_key).isSome = true) := by
    rw [store_evict, h, sets_evict_none hnone]
    simp
  unfold scriptAt existsKey
  dsimp only
  rw [if_neg hno, if_neg (by decide), hrun, hcount, set_always]

end FakeRedis

/-! ## §4. The stub for a server. -/

open FakeRedis (SameAt)

/-- From `now` on the string at `key` is the same. -/
def Agrees (now : Int) (key : String) (S : Strings) (F : FakeRedis) : Prop :=
  ∀ t, now ≤ t → F.text t key = S.get? t key

variable {S : Strings} {R : RateStore} {F F' : FakeRedis} {now later : Int} {key k : String}

theorem Agrees.elsewhere {S' : Strings} (h : Agrees now k S F) (hF : SameAt k F F')
    (hS : S'.entry k = S.entry k) : Agrees now k S' F' := by
  intro t ht
  rw [hF.text, Expiring.get?_congr hS]
  exact h t ht

/-- A value written under a deadline. -/
theorem agrees_written (now : Int) (S : Strings) (F : FakeRedis) (value : String) (deadline : Int) :
    Agrees now key (S.put key value (some deadline)) (F.written key value deadline) := by
  intro t _
  rw [FakeRedis.text_written, Expiring.get?_put_self, Expiring.live_some]
  by_cases h : t ≤ deadline
  · rw [if_neg (by omega), decide_eq_true h, if_pos rfl]
  · rw [if_pos (by omega), decide_eq_false h, if_neg Bool.false_ne_true]

/-- **`SET NX EX`.** -/
theorem set_agrees (h : Agrees now key S F) (value : String) (ttl : Int) :
    (F.set now key value (some ttl) true).1.getD false = (Nimbus.setNxEx now key value ttl S).1
      ∧ Agrees now key (Nimbus.setNxEx now key value ttl S).2 (F.set now key value (some ttl) true).2
      ∧ (F.sorted_sets key = none → (F.set now key value (some ttl) true).2.sorted_sets key = none)
      ∧ ∀ k, k ≠ key → SameAt k F (F.set now key value (some ttl) true).2
          ∧ (Nimbus.setNxEx now key value ttl S).2.entry k = S.entry k := by
  rw [FakeRedis.set_nx, h now (le_refl now)]
  unfold Nimbus.setNxEx
  cases hget : S.get? now key with
  | some taken =>
      refine ⟨rfl, fun t ht => ?_, FakeRedis.sets_evict_none,
        fun k hk => ⟨FakeRedis.sameAt_evict hk, rfl⟩⟩
      exact (FakeRedis.text_evict ht key).trans (h t ht)
  | none =>
      refine ⟨rfl, agrees_written now S _ value _, FakeRedis.sets_evict_none, fun k hk => ?_⟩
      exact ⟨(FakeRedis.sameAt_evict hk).trans (FakeRedis.sameAt_written hk value _),
        Expiring.entry_put_of_ne S _ _ hk⟩

/-- **The release script.** -/
theorem eval_agrees (h : Agrees now key S F) (token : String) :
    (F.eval now key token).1 = (Nimbus.releaseLua now key token S).1
      ∧ Agrees now key (Nimbus.releaseLua now key token S).2 (F.eval now key token).2
      ∧ (F.sorted_sets key = none → (F.eval now key token).2.sorted_sets key = none)
      ∧ ∀ k, k ≠ key → SameAt k F (F.eval now key token).2
          ∧ (Nimbus.releaseLua now key token S).2.entry k = S.entry k := by
  rw [FakeRedis.eval_eq, h now (le_refl now)]
  unfold Nimbus.releaseLua
  by_cases htoken : S.get? now key = some token
  · rw [if_pos htoken, if_pos htoken]
    refine ⟨rfl, fun t _ => ?_, fun _ => Function.update_self .., fun k hk => ?_⟩
    · rw [FakeRedis.text_pop, Expiring.get?_erase_self]
    · exact ⟨(FakeRedis.sameAt_evict hk).trans (FakeRedis.sameAt_pop hk),
        Expiring.entry_erase_of_ne S hk⟩
  · rw [if_neg htoken, if_neg htoken]
    exact ⟨rfl, fun t ht => (FakeRedis.text_evict ht key).trans (h t ht),
      FakeRedis.sets_evict_none, fun k hk => ⟨FakeRedis.sameAt_evict hk, rfl⟩⟩

/-- From `now` on the sorted set at `key` has the same scores. -/
def SameScores (now : Int) (key : String) (zsets : Expiring String SortedSet) (F : FakeRedis) :
    Prop :=
  ∀ t, now ≤ t → (F.scores t key).Perm ((Abuse.zset zsets t key).map Prod.snd)

theorem SameScores.elsewhere {zsets zsets' : Expiring String SortedSet}
    (h : SameScores now k zsets F) (hF : SameAt k F F') (hz : zsets'.entry k = zsets.entry k) :
    SameScores now k zsets' F' := by
  intro t ht
  rw [hF.scores, Abuse.zset_congr hz]
  exact h t ht

/-- **The sliding-window script.**  Where the request's member is new, the stub
counts what the server counts. -/
theorem script_agrees {L : Lua} (hL : L.perSecond = second) (repr : Int → String)
    {fingerprint : String} {args : ScriptArgs} (hwindow : 0 ≤ args.window + 1)
    (hlist : Agrees now ("bl:fp:" ++ fingerprint) R.strings F)
    (hnone : F.sorted_sets ("bl:fp:" ++ fingerprint) = none)
    (hscores : SameScores now ("rl:fp:" ++ fingerprint) R.zsets F)
    (hnew : ∀ e ∈ Abuse.zset R.zsets now ("rl:fp:" ++ fingerprint), e.1 ≠ Abuse.memberOf L args) :
    (F.script L repr now (Abuse.rateKeys fingerprint) args).1
        = (Abuse.slidingWindow L now (Abuse.rateKeys fingerprint) args R).1
      ∧ Agrees now ("bl:fp:" ++ fingerprint)
          (Abuse.slidingWindow L now (Abuse.rateKeys fingerprint) args R).2.strings
          (F.script L repr now (Abuse.rateKeys fingerprint) args).2
      ∧ (F.script L repr now (Abuse.rateKeys fingerprint) args).2.sorted_sets
          ("bl:fp:" ++ fingerprint) = none
      ∧ SameScores now ("rl:fp:" ++ fingerprint)
          (Abuse.slidingWindow L now (Abuse.rateKeys fingerprint) args R).2.zsets
          (F.script L repr now (Abuse.rateKeys fingerprint) args).2
      ∧ ∀ k, k ≠ "rl:fp:" ++ fingerprint → k ≠ "bl:fp:" ++ fingerprint →
          SameAt k F (F.script L repr now (Abuse.rateKeys fingerprint) args).2 := by
  have hkeys : "rl:fp:" ++ fingerprint ≠ "bl:fp:" ++ fingerprint := by
    intro hc
    have hstems := under_other (by decide : Area.lists ≠ Area.counts) fingerprint
    have hc' : Area.counts.stem ++ fingerprint = Area.lists.stem ++ fingerprint := hc
    rw [hc', under_append] at hstems
    cases hstems
  have hstub : F.script L repr now (Abuse.rateKeys fingerprint) args
    = F.scriptAt L repr now ("rl:fp:" ++ fingerprint) ("bl:fp:" ++ fingerprint) args := rfl
  have hnow := hlist now (le_refl now)
  by_cases hbl : (R.strings.get? now ("bl:fp:" ++ fingerprint)).isSome = true
  · -- both answer at once, and the stub has evicted nothing that is worth anything
    rw [hstub, FakeRedis.scriptAt_listed L repr args (hnow ▸ hbl), Abuse.slidingWindow_listed L hbl]
    refine ⟨rfl, fun t ht => (FakeRedis.text_evict ht _).trans (hlist t ht),
      FakeRedis.sets_evict_none hnone, fun t ht => ?_, fun k _ hk => FakeRedis.sameAt_evict hk⟩
    rw [FakeRedis.scores_evict ht]
    exact hscores t ht
  · have hbl' := eq_false_of_ne_true hbl
    have htext : F.text now ("bl:fp:" ++ fingerprint) = none := by
      rw [hnow]
      simpa using hbl'
    have hlive : 0 ≤ (args.window + 1) * second := Int.mul_nonneg hwindow (by decide)
    -- the three commands on the stub
    obtain ⟨F₁, entries, hrun, hcard, hsets, hdeadline, hperm, hother⟩ :=
      @FakeRedis.commands (F.evictIfExpired now ("bl:fp:" ++ fingerprint)) now
        ("rl:fp:" ++ fingerprint) (L.tonumber args.now - args.window * second)
        (L.tonumber args.now) _ (repr (L.tonumber args.now) ++ ":" ++ args.rand) hlive
    -- and on the server
    have hentry := Abuse.entry_of_commands R.zsets now ("rl:fp:" ++ fingerprint)
      (L.tonumber args.now) ((args.window + 1) * L.perSecond)
      fun e (he : e ∈ (Abuse.zset R.zsets now ("rl:fp:" ++ fingerprint)).filter fun e =>
        L.tonumber args.now - args.window * L.perSecond < e.2) => hnew e (List.mem_of_mem_filter he)
    generalize hzsets : Abuse.expire now _ _ _ = zsets at hentry
    have hlive' : Expiring.live now (some (now + (args.window + 1) * L.perSecond)) = true :=
      decide_eq_true (by rw [hL]; omega)
    have hcount := Abuse.zcard_of_entry hentry hlive'
    have hreal := Abuse.slidingWindow_unlisted L hbl' hzsets hcount
    -- the same scores are left, so they count the same
    have hleft : (entries.map Prod.fst).Perm (((Abuse.memberOf L args, L.tonumber args.now)
        :: (Abuse.zset R.zsets now ("rl:fp:" ++ fingerprint)).filter fun e =>
          L.tonumber args.now - args.window * L.perSecond < e.2).map Prod.snd) := by
      refine hperm.trans (List.Perm.cons _ ?_)
      rw [FakeRedis.scores_evict (le_refl now), hL]
      refine ((hscores now (le_refl now)).filter _).trans ?_
      rw [List.filter_map]
      refine List.Perm.of_eq (congrArg _ (List.filter_congr fun e _ => ?_))
      simp
    have hsame := hleft.length_eq
    rw [List.length_map, List.length_map] at hsame
    rw [hstub, FakeRedis.scriptAt_unlisted htext hnone hrun hcard, hreal, ← hsame]
    -- what the stub is left with before the blacklisting
    have hF : SameAt ("bl:fp:" ++ fingerprint) (F.evictIfExpired now ("bl:fp:" ++ fingerprint)) F₁ :=
      hother _ (Ne.symm hkeys)
    have hlist₁ : Agrees now ("bl:fp:" ++ fingerprint) R.strings F₁ := fun t ht =>
      (hF.text t).trans ((FakeRedis.text_evict ht _).trans (hlist t ht))
    have hnone₁ : F₁.sorted_sets ("bl:fp:" ++ fingerprint) = none :=
      hF.sorted_sets.trans (FakeRedis.sets_evict_none hnone)
    have hscores₁ : SameScores now ("rl:fp:" ++ fingerprint) zsets F₁ := by
      intro t _
      unfold FakeRedis.scores FakeRedis.isExpired Abuse.zset
      rw [hsets, hdeadline, Expiring.get?_of_entry hentry, Expiring.live_some, hL]
      by_cases h : t ≤ now + (args.window + 1) * second
      · simp only [Option.any_some, Option.getD_some, decide_eq_true_eq, if_neg (not_lt.mpr h),
          if_pos h]
        rw [hL] at hleft
        exact hleft
      · simp only [Option.any_some, decide_eq_true_eq, if_pos (not_le.mp h), if_neg h]
        exact List.Perm.refl _
    have hother₁ : ∀ k, k ≠ "rl:fp:" ++ fingerprint → k ≠ "bl:fp:" ++ fingerprint → SameAt k F F₁ :=
      fun k hrl hbl => (FakeRedis.sameAt_evict hbl).trans (hother k hrl)
    split_ifs
    · have hwritten : ∀ k, k ≠ "bl:fp:" ++ fingerprint → SameAt k F₁
          ((F₁.evictIfExpired now ("bl:fp:" ++ fingerprint)).written ("bl:fp:" ++ fingerprint) "1"
            (now + args.bl_ttl * second)) :=
        fun k hk => (FakeRedis.sameAt_evict hk).trans (FakeRedis.sameAt_written hk _ _)
      rw [hL]
      exact ⟨rfl, agrees_written now R.strings _ "1" _, FakeRedis.sets_evict_none hnone₁,
        hscores₁.elsewhere (hwritten _ hkeys) rfl,
        fun k hrl hbl => (hother₁ k hrl hbl).trans (hwritten k hbl)⟩
    · exact ⟨rfl, hlist₁, hnone₁, hscores₁, hother₁⟩
    · exact ⟨rfl, hlist₁, hnone₁, hscores₁, hother₁⟩

/-- What a sorted set has after the script: the request's member, and what it had. -/
theorem member_of_script {L : Lua} {fingerprint : String} {args : ScriptArgs}
    (hnew : ∀ e ∈ Abuse.zset R.zsets now ("rl:fp:" ++ fingerprint), e.1 ≠ Abuse.memberOf L args)
    {t : Int} {e : String × Int}
    (he : e ∈ Abuse.zset (Abuse.slidingWindow L now (Abuse.rateKeys fingerprint) args R).2.zsets t
      ("rl:fp:" ++ fingerprint)) :
    e.1 = Abuse.memberOf L args
      ∨ e ∈ Abuse.zset R.zsets t ("rl:fp:" ++ fingerprint)
      ∨ e ∈ Abuse.zset R.zsets now ("rl:fp:" ++ fingerprint) := by
  by_cases hbl : (R.strings.get? now ("bl:fp:" ++ fingerprint)).isSome = true
  · rw [Abuse.slidingWindow_listed L hbl] at he
    exact Or.inr (Or.inl he)
  · have hentry := Abuse.entry_of_commands R.zsets now ("rl:fp:" ++ fingerprint)
      (L.tonumber args.now) ((args.window + 1) * L.perSecond)
      fun e (he : e ∈ (Abuse.zset R.zsets now ("rl:fp:" ++ fingerprint)).filter fun e =>
        L.tonumber args.now - args.window * L.perSecond < e.2) => hnew e (List.mem_of_mem_filter he)
    generalize hzsets : Abuse.expire now _ _ _ = zsets at hentry
    have hout : (Abuse.slidingWindow L now (Abuse.rateKeys fingerprint) args R).2.zsets = zsets := by
      rw [Abuse.slidingWindow_unlisted L (eq_false_of_ne_true hbl) hzsets rfl]
      split_ifs <;> rfl
    rw [hout] at he
    unfold Abuse.zset at he
    rw [Expiring.get?_of_entry hentry] at he
    split at he
    · rcases List.mem_cons.mp he with rfl | hold
      · exact Or.inl rfl
      · exact Or.inr (Or.inr (List.mem_of_mem_filter hold))
    · cases he

/-! ## §5. Every run. -/

/-- When a call reaches Redis. -/
def Call.time : Call → Int
  | .lock (.acquire now _ _ _) => now
  | .lock (.release now _ _) => now
  | .dedupe c => c.now
  | .rate c => c.request.clock

/-- The member that a call adds for `fingerprint`. -/
def Call.member? (L : Lua) (s : Settings) (fingerprint : String) : Call → Option String
  | .rate c => if c.fingerprint = fingerprint then
      some (Abuse.memberOf L (Abuse.scriptArgs s c.request.now c.request.rand)) else none
  | _ => none

/-- No call before was later, and a request's member is new for its fingerprint. -/
def Suits (L : Lua) (s : Settings) (past : List Call) (c : Call) : Prop :=
  (∀ c' ∈ past, c'.time ≤ c.time)
    ∧ ∀ q, c.rate? = some q → some (Abuse.memberOf L (Abuse.scriptArgs s q.request.now q.request.rand))
        ∉ past.map (Call.member? L s q.fingerprint)

instance (L : Lua) (s : Settings) (past : List Call) : (c : Call) → Decidable (Suits L s past c)
  | .rate q => decidable_of_iff ((∀ c' ∈ past, c'.time ≤ (Call.rate q).time)
      ∧ some (Abuse.memberOf L (Abuse.scriptArgs s q.request.now q.request.rand))
        ∉ past.map (Call.member? L s q.fingerprint))
      (and_congr_right fun _ => ⟨fun h _ hq => Option.some.inj hq ▸ h, fun h => h q rfl⟩)
  | .lock c => decidable_of_iff (∀ c' ∈ past, c'.time ≤ (Call.lock c).time)
      ⟨fun h => ⟨h, fun _ hq => nomatch hq⟩, And.left⟩
  | .dedupe c => decidable_of_iff (∀ c' ∈ past, c'.time ≤ (Call.dedupe c).time)
      ⟨fun h => ⟨h, fun _ hq => nomatch hq⟩, And.left⟩

/-- **The stub stands for the server** from `now` on; what a sorted set has are
members of calls before. -/
structure Stands (L : Lua) (s : Settings) (past : List Call) (now : Int) (r : Store)
    (F : FakeRedis) : Prop where
  kinds : Kinds r
  strings : ∀ a : Area, a ≠ .counts → ∀ key, Agrees now (a.stem ++ key) (texts a r) F
  noSet : ∀ a : Area, a ≠ .counts → ∀ key, F.sorted_sets (a.stem ++ key) = none
  scores : ∀ key, SameScores now (Area.counts.stem ++ key) (sets r) F
  members : ∀ key t, now ≤ t → ∀ e ∈ Abuse.zset (sets r) t (Area.counts.stem ++ key),
    some e.1 ∈ past.map (Call.member? L s key)

variable {L : Lua} {s : Settings} {past : List Call} {r r' : Store} {b : Area}

theorem Stands.mono (h : Stands L s past now r F) (hle : now ≤ later) :
    Stands L s past later r F where
  kinds := h.kinds
  strings a ha key t ht := h.strings a ha key t (le_trans hle ht)
  noSet := h.noSet
  scores key t ht := h.scores key t (le_trans hle ht)
  members key t ht := h.members key t (le_trans hle ht)

/-- What a key of another area is worth does not change. -/
theorem stem_ne {a : Area} (h : a ≠ b) (key k : String) : a.stem ++ key ≠ b.stem ++ k := by
  intro hc
  have hunder := under_other h k
  rw [← hc, under_append] at hunder
  cases hunder

/-- **A write at one string** on both sides. -/
theorem Stands.write (h : Stands L s past now r F) (c : Call) (hb : b ≠ .counts) {k : String}
    (hwrites : Writes b r r')
    (hsame : ∀ key, key ≠ b.stem ++ k → SameAt key F F' ∧ (texts b r').entry key = (texts b r).entry key)
    (hagrees : Agrees now (b.stem ++ k) (texts b r') F') (hnone : F'.sorted_sets (b.stem ++ k) = none) :
    Stands L s (past ++ [c]) now r' F' := by
  have hsets : sets r' = sets r := hwrites.view_other (Ne.symm hb) _
  refine ⟨hwrites.kinds h.kinds, fun a ha key => ?_, fun a ha key => ?_, fun key => ?_,
    fun key t ht e he => ?_⟩
  · by_cases hkey : a.stem ++ key = b.stem ++ k
    · -- the key is one of area `b`
      have hab : a = b := by
        by_contra hne
        exact stem_ne hne key k hkey
      subst hab
      rw [hkey]
      exact hagrees
    · obtain ⟨hF, hentry⟩ := hsame _ hkey
      by_cases hab : a = b
      · subst hab
        exact (h.strings a ha key).elsewhere hF hentry
      · have htexts : texts a r' = texts a r := hwrites.view_other hab _
        rw [htexts]
        exact (h.strings a ha key).elsewhere hF rfl
  · by_cases hkey : a.stem ++ key = b.stem ++ k
    · rw [hkey]
      exact hnone
    · rw [(hsame _ hkey).1.sorted_sets]
      exact h.noSet a ha key
  · rw [hsets]
    exact (h.scores key).elsewhere (hsame _ (stem_ne (Ne.symm hb) key k)).1 rfl
  · rw [hsets] at he
    rw [List.map_append]
    exact List.mem_append_left _ (h.members key t ht e he)

theorem Stands.same (h : Stands L s past now r F) (c : Call) : Stands L s (past ++ [c]) now r F where
  kinds := h.kinds
  strings := h.strings
  noSet := h.noSet
  scores := h.scores
  members key t ht e he := by
    rw [List.map_append]
    exact List.mem_append_left _ (h.members key t ht e he)

/-- `SET NX EX` on both sides. -/
theorem Stands.setNx (h : Stands L s past now r F) (c : Call) (hb : b ≠ .counts) (k value : String)
    (ttl : Int) :
    (F.set now (b.stem ++ k) value (some ttl) true).1.getD false
        = (setNxEx now (b.stem ++ k) value ttl r).1
      ∧ Stands L s (past ++ [c]) now (setNxEx now (b.stem ++ k) value ttl r).2
          (F.set now (b.stem ++ k) value (some ttl) true).2 := by
  obtain ⟨hreal, htexts, hwrites⟩ := setNxEx_texts h.kinds hb now k value ttl
  obtain ⟨hanswer, hagrees, hnone, hother⟩ := set_agrees (h.strings b hb k) value ttl
  rw [← htexts] at hagrees hother
  exact ⟨hanswer.trans hreal.symm,
    h.write c hb hwrites hother hagrees (hnone (h.noSet b hb k))⟩

/-- What `acquire_idempotency_lock` does is decided by the one command. -/
theorem Stands.acquire (h : Stands L s past now r F) (c : Call) (fresh : Uuid)
    (idempotency_key : String) (ttl_seconds : Option Int) :
    ((acquireIdempotencyLock idempotency_key ttl_seconds).eval
          (ops now fresh (ttl_seconds.getD 30)) r).1
        = ((acquireIdempotencyLock idempotency_key ttl_seconds).eval
          (fakeOps now fresh (ttl_seconds.getD 30)) F).1
      ∧ Stands L s (past ++ [c]) now
          ((acquireIdempotencyLock idempotency_key ttl_seconds).eval
            (ops now fresh (ttl_seconds.getD 30)) r).2
          ((acquireIdempotencyLock idempotency_key ttl_seconds).eval
            (fakeOps now fresh (ttl_seconds.getD 30)) F).2 := by
  obtain ⟨hanswer, hstands⟩ := h.setNx c (by decide : Area.locks ≠ .counts) idempotency_key fresh.hex
    (ttl_seconds.getD 30)
  have hkey : Area.locks.stem ++ idempotency_key = redisKey idempotency_key := rfl
  rw [hkey] at hanswer hstands
  have hreal := @acquire_on _ (ops now fresh (ttl_seconds.getD 30)) fresh
    (fun key token => setNxEx now key token (ttl_seconds.getD 30)) (fun _ => rfl)
    (fun _ _ _ => rfl) idempotency_key ttl_seconds r
  have hstub := @acquire_on _ (fakeOps now fresh (ttl_seconds.getD 30)) fresh
    (fun key token F => ((F.set now key token (some (ttl_seconds.getD 30)) true).1.getD false,
      (F.set now key token (some (ttl_seconds.getD 30)) true).2)) (fun _ => rfl)
    (fun _ _ _ => rfl) idempotency_key ttl_seconds F
  rw [hreal, hstub, hanswer]
  split_ifs
  · exact ⟨rfl, h.same c⟩
  · exact ⟨rfl, h.same c⟩
  · exact ⟨rfl, hstands⟩
  · exact ⟨rfl, hstands⟩

/-- `release_idempotency_lock`. -/
theorem Stands.release (h : Stands L s past now r F) (c : Call) (idempotency_key token : String) :
    ((releaseIdempotencyLock ⟨redisKey idempotency_key, token⟩).eval (ops now (Uuid.ofNat 0) 30) r).1
        = ((releaseIdempotencyLock ⟨redisKey idempotency_key, token⟩).eval
          (fakeOps now (Uuid.ofNat 0) 30) F).1
      ∧ Stands L s (past ++ [c]) now
          ((releaseIdempotencyLock ⟨redisKey idempotency_key, token⟩).eval
            (ops now (Uuid.ofNat 0) 30) r).2
          ((releaseIdempotencyLock ⟨redisKey idempotency_key, token⟩).eval
            (fakeOps now (Uuid.ofNat 0) 30) F).2 := by
  have hlocks : Area.locks ≠ .counts := by decide
  obtain ⟨r', hrun, htexts, hwrites⟩ := release_texts h.kinds now idempotency_key token
  obtain ⟨hanswer, hagrees, hnone, hother⟩ :=
    eval_agrees (h.strings .locks hlocks idempotency_key) token
  -- on both sides the answer is whether the script has deleted a key
  have hstub : (releaseIdempotencyLock ⟨redisKey idempotency_key, token⟩).eval
        (fakeOps now (Uuid.ofNat 0) 30) F
      = (.ok (decide (0 < (F.eval now (redisKey idempotency_key) token).1)),
          (F.eval now (redisKey idempotency_key) token).2) := rfl
  have halone : releaseAt now ⟨redisKey idempotency_key, token⟩ (texts .locks r)
      = (.ok (decide (0 < (Nimbus.releaseLua now (redisKey idempotency_key) token (texts .locks r)).1)),
          (Nimbus.releaseLua now (redisKey idempotency_key) token (texts .locks r)).2) := rfl
  have hkey : Area.locks.stem ++ idempotency_key = redisKey idempotency_key := rfl
  rw [halone] at hrun htexts
  rw [hkey] at hanswer hagrees hnone hother
  rw [← htexts] at hagrees hother
  rw [hrun, hstub, hanswer]
  refine ⟨rfl, h.write c hlocks hwrites hother hagrees (hnone ?_)⟩
  exact h.noSet .locks hlocks idempotency_key

/-- `check_and_record`. -/
theorem Stands.record (h : Stands L s past now r F) (c : Call) (q : DedupeCall) (hq : q.now = now) :
    (recordOn (fun key ttl => setNxEx q.now key "1" ttl) q r).1
        = (recordOn (fun key ttl F => ((F.set q.now key "1" (some ttl) true).1.getD false,
            (F.set q.now key "1" (some ttl) true).2)) q F).1
      ∧ Stands L s (past ++ [c]) now (recordOn (fun key ttl => setNxEx q.now key "1" ttl) q r).2
          (recordOn (fun key ttl F => ((F.set q.now key "1" (some ttl) true).1.getD false,
            (F.set q.now key "1" (some ttl) true).2)) q F).2 := by
  subst hq
  obtain ⟨hanswer, hstands⟩ := h.setNx c (by decide : Area.dedupe ≠ .counts) q.dedupe_id "1"
    (q.ttl_seconds.getD (7 * 24 * 60 * 60))
  have hkey : Area.dedupe.stem ++ q.dedupe_id = dedupeKey q.dedupe_id := rfl
  rw [hkey] at hanswer hstands
  unfold recordOn
  by_cases hargs : q.dedupe_id = "" ∨ q.ttl_seconds.getD (7 * 24 * 60 * 60) ≤ 0
  · simp only [if_pos hargs]
    refine ⟨?_, h.same c⟩
    unfold checkAndRecord
    rcases hargs with hid | httl
    · rw [if_pos hid, if_pos hid]
    · dsimp only
      rw [if_pos httl, if_pos httl]
  · simp only [if_neg hargs]
    push Not at hargs
    refine ⟨?_, hstands⟩
    rw [checkAndRecord_eq hargs.1 hargs.2, checkAndRecord_eq hargs.1 hargs.2]
    exact congrArg (fun set => Cache.whenUnavailable true (.ok set)) hanswer.symm

/-- The sliding-window script, for a request with a new member. -/
theorem Stands.rate (hL : L.perSecond = second) (hwindow : 0 ≤ s.abuse_rate_limit_window_seconds + 1)
    (repr : Int → String) (h : Stands L s past now r F) (q : RateCall) (hq : q.request.clock = now)
    (hnew : some (Abuse.memberOf L (Abuse.scriptArgs s q.request.now q.request.rand))
      ∉ past.map (Call.member? L s q.fingerprint)) :
    (slidingWindow L q.request.clock (Abuse.rateKeys q.fingerprint)
          (Abuse.scriptArgs s q.request.now q.request.rand) r).1
        = .ok (F.script L repr q.request.clock (Abuse.rateKeys q.fingerprint)
          (Abuse.scriptArgs s q.request.now q.request.rand)).1
      ∧ Stands L s (past ++ [.rate q]) now
          (slidingWindow L q.request.clock (Abuse.rateKeys q.fingerprint)
            (Abuse.scriptArgs s q.request.now q.request.rand) r).2
          (F.script L repr q.request.clock (Abuse.rateKeys q.fingerprint)
            (Abuse.scriptArgs s q.request.now q.request.rand)).2 := by
  subst hq
  have hlists : Area.lists ≠ .counts := by decide
  have hold : ∀ e ∈ Abuse.zset (rates r).zsets q.request.clock ("rl:fp:" ++ q.fingerprint),
      e.1 ≠ Abuse.memberOf L (Abuse.scriptArgs s q.request.now q.request.rand) :=
    fun e he hc => hnew (hc ▸ h.members q.fingerprint q.request.clock (le_refl _) e he)
  obtain ⟨hanswer, hlist, hnone, hscores, hother⟩ :=
    @script_agrees _ _ _ L hL repr _ (Abuse.scriptArgs s q.request.now q.request.rand) hwindow
      (h.strings .lists hlists q.fingerprint) (h.noSet .lists hlists q.fingerprint)
      (h.scores q.fingerprint) hold
  obtain ⟨r₁, r', hrun, hrates, hw, hw'⟩ := slidingWindow_rates hL h.kinds q.request.clock
    q.fingerprint (Abuse.scriptArgs s q.request.now q.request.rand)
  have hmember := @member_of_script _ _ L _ _ hold
  have hothers := fun key (hne : key ≠ q.fingerprint) => Abuse.slidingWindow_other L q.request.clock
    hne (Abuse.scriptArgs s q.request.now q.request.rand) (rates r)
  rw [← hrates] at hlist hscores hmember hothers
  rw [hrun, hanswer]
  generalize F.script L repr q.request.clock _ _ = out at hnone hother hlist hscores
  -- the two keys of the fingerprint apart, the stub has not changed
  have hsame : ∀ (a : Area) key, (a = .counts ∨ a = .lists → key ≠ q.fingerprint) →
      SameAt (a.stem ++ key) F out.2 := by
    intro a key hne
    refine hother _ ?_ ?_
    · by_cases ha : a = .counts
      · subst ha
        exact (String.append_right_inj _).not.mpr (hne (Or.inl rfl))
      · exact @stem_ne .counts a ha key q.fingerprint
    · by_cases ha : a = .lists
      · subst ha
        exact (String.append_right_inj _).not.mpr (hne (Or.inr rfl))
      · exact @stem_ne .lists a ha key q.fingerprint
  refine ⟨rfl, hw'.kinds (hw.kinds h.kinds), fun a ha key => ?_, fun a ha key => ?_, fun key => ?_,
    fun key t ht e he => ?_⟩
  · by_cases hab : a = .lists
    · subst hab
      by_cases hkey : key = q.fingerprint
      · rw [hkey]
        exact hlist
      · exact (h.strings .lists ha key).elsewhere (hsame .lists key fun _ => hkey)
          (hothers key hkey).strings
    · -- another area's strings
      have htexts : texts a r' = texts a r := (hw'.view_other hab _).trans (hw.view_other ha _)
      rw [htexts]
      exact (h.strings a ha key).elsewhere
        (hsame a key fun hc => absurd hc (not_or.mpr ⟨ha, hab⟩)) rfl
  · by_cases hkey : a = .lists ∧ key = q.fingerprint
    · rw [hkey.1, hkey.2]
      exact hnone
    · have hkept := hsame a key fun hc hfp => hkey ⟨hc.resolve_left ha, hfp⟩
      rw [hkept.sorted_sets]
      exact h.noSet a ha key
  · by_cases hkey : key = q.fingerprint
    · rw [hkey]
      exact hscores
    · exact (h.scores key).elsewhere (hsame .counts key fun _ => hkey) (hothers key hkey).zsets
  · rw [List.map_append]
    by_cases hkey : key = q.fingerprint
    · subst hkey
      rcases hmember he with hthis | hbefore | hbefore
      · refine List.mem_append_right _ (List.mem_singleton.mpr ?_)
        rw [hthis]
        exact (if_pos rfl).symm
      · exact List.mem_append_left _ (h.members q.fingerprint t ht e hbefore)
      · exact List.mem_append_left _ (h.members q.fingerprint _ (le_refl _) e hbefore)
    · have hzset : Abuse.zset (sets r') t (Area.counts.stem ++ key)
          = Abuse.zset (sets r) t (Area.counts.stem ++ key) :=
        Abuse.zset_congr (hothers key hkey).zsets t
      rw [hzset] at he
      exact List.mem_append_left _ (h.members key t ht e he)

/-- An empty stub stands for an empty server. -/
theorem stands_empty (now : Int) : Stands L s [] now Expiring.empty FakeRedis.empty := by
  have hview : ∀ {μ : Type} (p : String → Bool) (f : Value → Option μ) (key : String),
      ((Expiring.empty : Store).view p f).entry key = none := by
    intro μ p f key
    show (if p key then _ else none) = none
    split <;> rfl
  refine ⟨kinds_empty, fun a _ key t _ => ?_, fun _ _ _ => rfl, fun key t _ => ?_,
    fun key t _ e he => ?_⟩
  · exact (Expiring.get?_of_none (hview _ _ _)).symm
  · unfold Abuse.zset sets
    rw [Expiring.get?_of_none (hview _ _ _)]
    exact List.Perm.refl _
  · unfold Abuse.zset sets at he
    rw [Expiring.get?_of_none (hview _ _ _)] at he
    cases he

/-- **One call** on both sides. -/
theorem Stands.respond (hL : L.perSecond = second)
    (hwindow : 0 ≤ s.abuse_rate_limit_window_seconds + 1) (repr : Int → String) (c : Call)
    (h : Stands L s past c.time r F) (hc : Suits L s past c) :
    ((fake L repr s).respond F c).1 = ((shared L s).respond r c).1
      ∧ Stands L s (past ++ [c]) c.time ((shared L s).respond r c).2
          ((fake L repr s).respond F c).2 := by
  cases c with
  | lock c =>
      cases c with
      | acquire now fresh idempotency_key ttl_seconds =>
          obtain ⟨hanswer, hstands⟩ := Stands.acquire h _ fresh idempotency_key ttl_seconds
          exact ⟨congrArg (fun out => Answer.lock (.acquired out)) hanswer.symm, hstands⟩
      | release now idempotency_key token =>
          obtain ⟨hanswer, hstands⟩ := Stands.release h _ idempotency_key token
          exact ⟨congrArg (fun out => Answer.lock (.released out)) hanswer.symm, hstands⟩
  | dedupe q =>
      obtain ⟨hanswer, hstands⟩ := Stands.record h _ q rfl
      exact ⟨congrArg Answer.dedupe hanswer.symm, hstands⟩
  | rate q =>
      obtain ⟨hanswer, hstands⟩ := Stands.rate hL hwindow repr h q rfl (hc.2 q rfl)
      exact ⟨congrArg Answer.rate hanswer.symm, hstands⟩

/-- **The stub answers what a server answers**, in every run of lock calls, dedupe
checks and rate limits in the order of their times, in which each request adds a
member that its fingerprint has not had before, over a window that is not negative. -/
theorem fake_redis (hL : L.perSecond = second) (repr : Int → String)
    (hwindow : 0 ≤ s.abuse_rate_limit_window_seconds + 1) (calls : List Call)
    (horder : Reactive.Orderly (Suits L s) [] calls) :
    (fake L repr s).answers FakeRedis.empty calls = (shared L s).answers Expiring.empty calls := by
  refine @Reactive.same_answers _ _ _ _ _ _ (Suits L s)
    (fun past F r => ∀ now, (∀ c ∈ past, c.time ≤ now) → Stands L s past now r F)
    (fun past F r c h hc => ?_) calls [] _ _ (fun now _ => stands_empty now) horder
  obtain ⟨hanswer, hstands⟩ := Stands.respond hL hwindow repr c (h c.time hc.1) hc
  exact ⟨hanswer, fun now hnow => hstands.mono (hnow c (by simp))⟩

/-- The three users of one text, and a stub that counts in milliseconds. -/
theorem fake_redis_three :
    (fake milliseconds toString ⟨60, 100, 200, 3600⟩).answers FakeRedis.empty threeUsers
      = (shared milliseconds ⟨60, 100, 200, 3600⟩).answers Expiring.empty threeUsers :=
  fake_redis rfl toString (by decide) threeUsers (by decide)

end Nimbus.Redis
