/-
  Nimbus.Modules.SharedRedis
  ──────────────────────────
  **ONE REDIS FOR LOCKS, DEDUPE AND RATE LIMITS.**

  The idempotency locks, the consumers' dedupe keys and the rate limits of all
  clients are kept in one Redis, whose keys have values of different types: a
  command for strings fails at a sorted set, and the other way round.  What
  keeps them apart are the prefixes of the keys, and part of each key comes from
  outside: the idempotency key of a request, the content of a message, the
  headers of a client.

    • `Store`            — one keyspace, strings and sorted sets, with expiry;
    • `get`, `setNxEx`, `zadd`, … — the commands, and where they fail;
    • `Area`, `Kinds`    — the four areas of keys and the types of their values;
    • `Writes`           — what a call can do to the keyspace;
    • `locks_separate`, `dedupe_separate`, `rates_separate` — **each of the three
                           is a part of the whole;**
    • `shared_redis`     — **in every interleaving each is answered as on a Redis
                           of its own.**
-/
import Nimbus.Lib.Noninterference
import Nimbus.Modules.LockOwnership
import Nimbus.Modules.SlidingWindow
import Nimbus.Core.Dedupe

namespace Nimbus.Redis

open Lib Lib.Prog Payments Consumer
open Abuse (SortedSet RateStore Lua ScriptArgs Settings Request)

/-! ## §1. The server. -/

/-- The value of a key. -/
inductive Value where
  | string (text : String)
  | zset (entries : SortedSet)

abbrev Store := Expiring String Value

/-- What the client raises where a key has a value of the wrong type. -/
def wrongType : Exn := ⟨.foreign "ResponseError",
  "WRONGTYPE Operation against a key holding the wrong kind of value", []⟩

/-- `GET key`. -/
def get (now : Int) (key : String) (r : Store) : Except Exn (Option String) :=
  match r.get? now key with
  | none => .ok none
  | some (.string text) => .ok (some text)
  | some (.zset _) => .error wrongType

/-- `SET key value NX EX ttl`: whether it was set. -/
def setNxEx (now : Int) (key value : String) (ttl : Int) (r : Store) : Bool × Store :=
  match r.get? now key with
  | none => (true, r.put key (.string value) (some (now + ttl * second)))
  | some _ => (false, r)

/-- The sorted set at a key, empty where there is none. -/
def zset (now : Int) (key : String) (r : Store) : Except Exn SortedSet :=
  match r.get? now key with
  | none => .ok []
  | some (.zset entries) => .ok entries
  | some (.string _) => .error wrongType

/-- The deadline of a key that has not lapsed. -/
def deadlineOf (now : Int) (key : String) (r : Store) : Option Int :=
  match r.entry key with
  | some (_, deadline) => if Expiring.live now deadline then deadline else none
  | none => none

/-- `ZREMRANGEBYSCORE key -inf max`. -/
def zremrangebyscore (now : Int) (key : String) (max : Int) (r : Store) : Except Exn Store :=
  (zset now key r).map fun entries =>
    match entries.filter fun e => max < e.2 with
    | [] => r.erase key
    | entries => r.put key (.zset entries) (deadlineOf now key r)

/-- `ZADD key score member`. -/
def zadd (now : Int) (key : String) (score : Int) (member : String) (r : Store) :
    Except Exn Store :=
  (zset now key r).map fun entries =>
    r.put key (.zset ((member, score) :: entries.filter fun e => e.1 ≠ member))
      (deadlineOf now key r)

/-- `EXPIRE key ttl`, for values of any type. -/
def expire (now : Int) (key : String) (ttl : Int) (r : Store) : Store :=
  match r.get? now key with
  | some value => r.put key value (some (now + ttl * second))
  | none => r

/-- `ZCARD key`. -/
def zcard (now : Int) (key : String) (r : Store) : Except Exn Int :=
  (zset now key r).map fun entries => (entries.length : Int)

/-- `_LOCK_RELEASE_LUA`. -/
def releaseLua (now : Int) (key token : String) (r : Store) : Except Exn Nat × Store :=
  match get now key r with
  | .error exc => (.error exc, r)
  | .ok value => if value = some token then (.ok 1, r.erase key) else (.ok 0, r)

/-- `_SLIDING_WINDOW_LUA`: a script that fails has done what it did before. -/
def slidingWindow (L : Lua) (now : Int) (keys : List String) (args : ScriptArgs) (r : Store) :
    Except Exn (Int × Int) × Store :=
  let rl_key := keys.getD 0 ""
  let bl_key := keys.getD 1 ""
  let time := L.tonumber args.now
  if (r.get? now bl_key).isSome then (.ok (0, 3), r)
  else match zremrangebyscore now rl_key (time - args.window * second) r with
    | .error exc => (.error exc, r)
    | .ok r => match zadd now rl_key time (Abuse.memberOf L args) r with
      | .error exc => (.error exc, r)
      | .ok r =>
          let r := expire now rl_key (args.window + 1) r
          match zcard now rl_key r with
          | .error exc => (.error exc, r)
          | .ok count =>
              if args.bl_thr < count then
                (.ok (count, 2),
                  r.put bl_key (.string "1") (some (now + args.bl_ttl * second)))
              else if args.max_req < count then (.ok (count, 1), r)
              else (.ok (count, 0), r)

/-! ## §2. The three users of the server. -/

/-- A call of the lock functions, at `now` on Redis's clock. -/
inductive LockCall where
  | acquire (now : Int) (fresh : Uuid) (idempotency_key : String) (ttl_seconds : Option Int)
  | release (now : Int) (idempotency_key token : String)

inductive LockAnswer where
  | acquired (result : Except Exn IdempotencyLock)
  | released (result : Except Exn Bool)

/-- A call of `check_and_record`. -/
structure DedupeCall where
  now : Int
  dedupe_id : String
  ttl_seconds : Option Int

/-- A run of the sliding-window script. -/
structure RateCall where
  fingerprint : String
  request : Request

inductive Call where
  | lock (c : LockCall)
  | dedupe (c : DedupeCall)
  | rate (c : RateCall)

inductive Answer where
  | lock (a : LockAnswer)
  | dedupe (a : Except Exn Bool)
  | rate (a : Except Exn (Int × Int))

/-- What the calls ask for, on the shared server. -/
def ops (now : Int) (fresh : Uuid) (ttl : Int) :
    (op : Op) → Store → Except Exn (Ans op) × Store
  | .uuid4, r => (.ok fresh, r)
  | .redisSetNx key token, r => (.ok (setNxEx now key token ttl r).1, (setNxEx now key token ttl r).2)
  | .redisRelease key token, r => releaseLua now key token r
  | _, r => (.error ⟨.runtimeError, "no session", []⟩, r)

/-- `check_and_record` around a `SET NX EX` on a store: what it returns, and whether
the command is sent at all. -/
def recordOn {R : Type} (setNx : String → Int → R → Bool × R) (c : DedupeCall) (r : R) :
    Except Exn Bool × R :=
  (checkAndRecord c.dedupe_id c.ttl_seconds fun key ttl => .ok (setNx key ttl r).1,
    if c.dedupe_id = "" ∨ c.ttl_seconds.getD (7 * 24 * 60 * 60) ≤ 0 then r
    else (setNx (dedupeKey c.dedupe_id) (c.ttl_seconds.getD (7 * 24 * 60 * 60)) r).2)

/-- Everything that is asked of the one Redis. -/
def shared (L : Lua) (s : Settings) : Reactive Store Call Answer where
  respond r
    | .lock (.acquire now fresh idempotency_key ttl_seconds) =>
        let out := (acquireIdempotencyLock idempotency_key ttl_seconds).eval
          (ops now fresh (ttl_seconds.getD 30)) r
        (.lock (.acquired out.1), out.2)
    | .lock (.release now idempotency_key token) =>
        let out := (releaseIdempotencyLock ⟨redisKey idempotency_key, token⟩).eval
          (ops now (Uuid.ofNat 0) 30) r
        (.lock (.released out.1), out.2)
    | .dedupe c =>
        let out := recordOn (fun key ttl => setNxEx c.now key "1" ttl) c r
        (.dedupe out.1, out.2)
    | .rate c =>
        let out := slidingWindow L c.request.clock (Abuse.rateKeys c.fingerprint)
          (Abuse.scriptArgs s c.request.now c.request.rand) r
        (.rate out.1, out.2)

/-- The locks on a Redis of their own. -/
def locksAlone : Reactive Strings LockCall LockAnswer where
  respond r
    | .acquire now fresh idempotency_key ttl_seconds =>
        let out := acquireAt now fresh idempotency_key ttl_seconds r
        (.acquired out.1, out.2)
    | .release now idempotency_key token =>
        let out := releaseAt now ⟨redisKey idempotency_key, token⟩ r
        (.released out.1, out.2)

/-- The dedupe keys on a Redis of their own. -/
def dedupeAlone : Reactive Strings DedupeCall (Except Exn Bool) where
  respond r c := recordOn (fun key ttl => Nimbus.setNxEx c.now key "1" ttl) c r

/-- The rate limits on a Redis of their own, where no type can be wrong. -/
def ratesAlone (L : Lua) (s : Settings) : Reactive RateStore RateCall (Except Exn (Int × Int)) where
  respond r c :=
    let out := Abuse.slidingWindow L c.request.clock (Abuse.rateKeys c.fingerprint)
      (Abuse.scriptArgs s c.request.now c.request.rand) r
    (.ok out.1, out.2)

/-! ## §3. Areas of keys. -/

/-- The key begins with `stem`. -/
def under (stem key : String) : Bool := stem.toList.isPrefixOf key.toList

theorem under_append (stem key : String) : under stem (stem ++ key) = true := by
  unfold under
  rw [String.toList_append, List.isPrefixOf_iff_prefix]
  exact List.prefix_append _ _

/-- What the keys of the three users begin with. -/
inductive Area where
  | locks
  | dedupe
  | counts
  | lists
deriving DecidableEq

def Area.stem : Area → String
  | .locks => "idemp:"
  | .dedupe => "dedupe:"
  | .counts => "rl:fp:"
  | .lists => "bl:fp:"

def Value.text? : Value → Option String
  | .string text => some text
  | .zset _ => none

def Value.entries? : Value → Option SortedSet
  | .zset entries => some entries
  | .string _ => none

/-- The values of an area: sorted sets for the counts, strings for the others. -/
def Area.Fits : Area → Value → Prop
  | .counts, value => ∃ entries, value = .zset entries
  | _, value => ∃ text, value = .string text

/-- No stem is the beginning of another one. -/
theorem stems_apart {a b : Area} (h : b ≠ a) :
    ¬ b.stem.toList <+: a.stem.toList ∧ ¬ a.stem.toList <+: b.stem.toList := by
  cases a <;> cases b <;> first | exact absurd rfl h | decide

/-- **A key of one area is no key of another**, whatever follows the stem. -/
theorem under_other {a b : Area} (h : b ≠ a) (key : String) :
    under b.stem (a.stem ++ key) = false := by
  refine eq_false_of_ne_true fun hc => ?_
  unfold under at hc
  rw [String.toList_append, List.isPrefixOf_iff_prefix] at hc
  obtain ⟨hba, hab⟩ := stems_apart h
  rcases List.prefix_or_prefix_of_prefix hc (List.prefix_append _ _) with hpre | hpre
  · exact hba hpre
  · exact hab hpre

/-- Every value is of the type its area has. -/
def Kinds (r : Store) : Prop :=
  ∀ (a : Area) key value deadline, r.entry key = some (value, deadline) →
    under a.stem key = true → a.Fits value

theorem kinds_empty : Kinds Expiring.empty := fun _ _ _ _ h => nomatch h

/-- What calls of one area can do: write and delete keys of the area. -/
inductive Writes (a : Area) : Store → Store → Prop where
  | none (r : Store) : Writes a r r
  | put {r r' : Store} (h : Writes a r r') (key : String) {value : Value} (deadline : Option Int)
      (hv : a.Fits value) : Writes a r (r'.put (a.stem ++ key) value deadline)
  | erase {r r' : Store} (h : Writes a r r') (key : String) : Writes a r (r'.erase (a.stem ++ key))

variable {a b : Area} {r r' : Store} {now : Int} {key : String}

/-- **Calls of any area keep the types.** -/
theorem Writes.kinds (h : Writes a r r') (hr : Kinds r) : Kinds r' := by
  induction h with
  | none => exact hr
  | put h key deadline hv ih =>
      intro b key' value deadline' hentry hunder
      by_cases hkey : key' = a.stem ++ key
      · subst hkey
        rw [Expiring.entry_put_self] at hentry
        cases hentry
        by_cases hb : b = a
        · rw [hb]
          exact hv
        · rw [under_other hb] at hunder
          cases hunder
      · rw [Expiring.entry_put_of_ne _ _ _ hkey] at hentry
        exact ih b key' value deadline' hentry hunder
  | erase h key ih =>
      intro b key' value deadline' hentry hunder
      by_cases hkey : key' = a.stem ++ key
      · subst hkey
        rw [Expiring.entry_erase_self] at hentry
        cases hentry
      · rw [Expiring.entry_erase_of_ne _ hkey] at hentry
        exact ih b key' value deadline' hentry hunder

/-- **Calls of one area do not show in another.** -/
theorem Writes.view_other {μ : Type} (h : Writes a r r') (hb : b ≠ a) (f : Value → Option μ) :
    r'.view (under b.stem) f = r.view (under b.stem) f := by
  induction h with
  | none => rfl
  | put h key deadline hv ih => rw [Expiring.view_put_other (under_other hb key), ih]
  | erase h key ih => rw [Expiring.view_erase_other (under_other hb key), ih]

/-- The strings of an area. -/
def texts (a : Area) (r : Store) : Strings := r.view (under a.stem) Value.text?

/-- The sorted sets. -/
def sets (r : Store) : Expiring String SortedSet := r.view (under Area.counts.stem) Value.entries?

/-- A value that is found fits. -/
theorem Kinds.found (hr : Kinds r) {value : Value} (h : r.get? now (a.stem ++ key) = some value) :
    a.Fits value := by
  unfold Expiring.get? at h
  split at h
  next => cases h
  next v deadline hentry =>
    split at h
    next =>
      obtain rfl := Option.some.inj h
      exact hr a _ v deadline hentry (under_append a.stem key)
    next => cases h

/-- Areas of strings. -/
theorem Area.Fits.text {value : Value} (ha : a ≠ .counts) (h : a.Fits value) :
    ∃ text, value = .string text := by
  cases a with
  | counts => exact absurd rfl ha
  | _ => exact h

theorem Area.fits_string (ha : a ≠ .counts) (text : String) : a.Fits (.string text) := by
  cases a with
  | counts => exact absurd rfl ha
  | _ => exact ⟨text, rfl⟩

/-- Reading a string of an area. -/
theorem get?_texts (hr : Kinds r) (ha : a ≠ .counts) (now : Int) (key : String) :
    r.get? now (a.stem ++ key) = ((texts a r).get? now (a.stem ++ key)).map Value.string := by
  unfold texts
  rw [Expiring.get?_view now (under_append a.stem key)]
  cases hget : r.get? now (a.stem ++ key) with
  | none => rfl
  | some value =>
      obtain ⟨text, rfl⟩ := (hr.found hget).text ha
      rfl

/-! ## §4. Locks and dedupe. -/

/-- `SET NX EX` on the shared server. -/
theorem setNxEx_texts (hr : Kinds r) (ha : a ≠ .counts) (now : Int) (key value : String)
    (ttl : Int) :
    (setNxEx now (a.stem ++ key) value ttl r).1
        = (Nimbus.setNxEx now (a.stem ++ key) value ttl (texts a r)).1
      ∧ texts a (setNxEx now (a.stem ++ key) value ttl r).2
        = (Nimbus.setNxEx now (a.stem ++ key) value ttl (texts a r)).2
      ∧ Writes a r (setNxEx now (a.stem ++ key) value ttl r).2 := by
  have hget := get?_texts hr ha now key
  unfold setNxEx Nimbus.setNxEx
  cases htext : (texts a r).get? now (a.stem ++ key) with
  | none =>
      rw [htext] at hget
      rw [hget]
      refine ⟨rfl, ?_, (Writes.none r).put key _ (Area.fits_string ha value)⟩
      exact Expiring.view_put (under_append a.stem key) rfl
  | some text =>
      rw [htext] at hget
      rw [hget]
      exact ⟨rfl, rfl, Writes.none r⟩

/-- The release script on the shared server. -/
theorem releaseLua_texts (hr : Kinds r) (ha : a ≠ .counts) (now : Int) (key token : String) :
    (releaseLua now (a.stem ++ key) token r).1
        = .ok (Nimbus.releaseLua now (a.stem ++ key) token (texts a r)).1
      ∧ texts a (releaseLua now (a.stem ++ key) token r).2
        = (Nimbus.releaseLua now (a.stem ++ key) token (texts a r)).2
      ∧ Writes a r (releaseLua now (a.stem ++ key) token r).2 := by
  have hget : get now (a.stem ++ key) r = .ok ((texts a r).get? now (a.stem ++ key)) := by
    unfold get
    rw [get?_texts hr ha now key]
    cases (texts a r).get? now (a.stem ++ key) with
    | none => rfl
    | some text => rfl
  unfold releaseLua Nimbus.releaseLua
  rw [hget]
  by_cases h : (texts a r).get? now (a.stem ++ key) = some token
  · simp only [h, ↓reduceIte]
    exact ⟨trivial, Expiring.view_erase (under_append a.stem key), (Writes.none r).erase key⟩
  · simp only [h, ↓reduceIte]
    exact ⟨trivial, trivial, Writes.none r⟩

/-- **`acquire_idempotency_lock` is its one command**, on any Redis that `set` stands
for, or refuses its arguments. -/
theorem acquire_on {R : Type} {exec : (op : Op) → R → Except Exn (Ans op) × R} {fresh : Uuid}
    {set : String → String → R → Bool × R} (huuid : ∀ r, exec .uuid4 r = (.ok fresh, r))
    (hset : ∀ key token r, exec (.redisSetNx key token) r
      = (.ok (set key token r).1, (set key token r).2))
    (idempotency_key : String) (ttl_seconds : Option Int) (r : R) :
    (acquireIdempotencyLock idempotency_key ttl_seconds).eval exec r
      = if idempotency_key = "" then
          (.error ⟨.valueError, "idempotency_key must be a non-empty string", []⟩, r)
        else if ttl_seconds.getD 30 ≤ 0 then (.error ⟨.valueError, "ttl_seconds must be > 0", []⟩, r)
        else
          (if (set (redisKey idempotency_key) fresh.hex r).1 = true then
              .ok ⟨redisKey idempotency_key, fresh.hex⟩
            else .error (idempotencyConflict idempotency_key),
          (set (redisKey idempotency_key) fresh.hex r).2) := by
  unfold acquireIdempotencyLock
  by_cases hkey : idempotency_key = ""
  · rw [if_pos hkey, if_pos hkey]
    rfl
  · rw [if_neg hkey, if_neg hkey]
    show (Prog.call .uuid4 _ : Svc IdempotencyLock).eval exec r = _
    rw [eval_call, huuid]
    show ((if ttl_seconds.getD 30 ≤ 0 then _ else _ : Svc IdempotencyLock)).eval exec r = _
    by_cases hpos : ttl_seconds.getD 30 ≤ 0
    · rw [if_pos hpos, if_pos hpos]
      rfl
    · rw [if_neg hpos, if_neg hpos]
      show (Prog.call (.redisSetNx (redisKey idempotency_key) fresh.hex) _ : Svc
        IdempotencyLock).eval exec r = _
      rw [eval_call, hset]
      show ((if (set (redisKey idempotency_key) fresh.hex r).1 = true then _ else _ : Svc
        IdempotencyLock)).eval exec _ = _
      split
      · rfl
      · rfl

/-- **`acquire_idempotency_lock` on the shared server.** -/
theorem acquire_texts (hr : Kinds r) (now : Int) (fresh : Uuid) (idempotency_key : String)
    (ttl_seconds : Option Int) :
    ∃ r', (acquireIdempotencyLock idempotency_key ttl_seconds).eval
          (ops now fresh (ttl_seconds.getD 30)) r
        = ((acquireAt now fresh idempotency_key ttl_seconds (texts .locks r)).1, r')
      ∧ texts .locks r' = (acquireAt now fresh idempotency_key ttl_seconds (texts .locks r)).2
      ∧ Writes .locks r r' := by
  obtain ⟨hset, htexts, hwrites⟩ := setNxEx_texts hr (by decide : Area.locks ≠ .counts) now
    idempotency_key fresh.hex (ttl_seconds.getD 30)
  have hkey : Area.locks.stem ++ idempotency_key = redisKey idempotency_key := rfl
  rw [hkey] at hset htexts hwrites
  -- on the shared server and alone, all depends on the one command
  have hshared := @acquire_on _ (ops now fresh (ttl_seconds.getD 30)) fresh
    (fun key token => setNxEx now key token (ttl_seconds.getD 30)) (fun _ => rfl)
    (fun _ _ _ => rfl) idempotency_key ttl_seconds r
  have halone := @acquire_on _ (lockOps now fresh (ttl_seconds.getD 30)) fresh
    (fun key token => Nimbus.setNxEx now key token (ttl_seconds.getD 30)) (fun _ => rfl)
    (fun _ _ _ => rfl) idempotency_key ttl_seconds (texts .locks r)
  unfold acquireAt
  rw [hshared, halone, hset]
  split_ifs
  · exact ⟨r, rfl, rfl, Writes.none r⟩
  · exact ⟨r, rfl, rfl, Writes.none r⟩
  · exact ⟨_, rfl, htexts, hwrites⟩
  · exact ⟨_, rfl, htexts, hwrites⟩

/-- **`release_idempotency_lock` on the shared server.** -/
theorem release_texts (hr : Kinds r) (now : Int) (idempotency_key token : String) :
    ∃ r', (releaseIdempotencyLock ⟨redisKey idempotency_key, token⟩).eval (ops now (Uuid.ofNat 0) 30) r
        = ((releaseAt now ⟨redisKey idempotency_key, token⟩ (texts .locks r)).1, r')
      ∧ texts .locks r' = (releaseAt now ⟨redisKey idempotency_key, token⟩ (texts .locks r)).2
      ∧ Writes .locks r r' := by
  obtain ⟨hout, htexts, hwrites⟩ := releaseLua_texts hr (by decide : Area.locks ≠ .counts) now
    idempotency_key token
  have hkey : Area.locks.stem ++ idempotency_key = redisKey idempotency_key := rfl
  rw [hkey] at hout htexts hwrites
  refine ⟨(releaseLua now (redisKey idempotency_key) token r).2, ?_, htexts, hwrites⟩
  -- what is returned depends on the one answer of the script
  have hcall : (Svc.redisRelease (redisKey idempotency_key) token).eval (ops now (Uuid.ofNat 0) 30) r
      = releaseLua now (redisKey idempotency_key) token r := rfl
  unfold releaseIdempotencyLock
  rw [eval_handle, hcall, hout]
  rfl

/-- **`check_and_record` on the shared server.** -/
theorem record_texts (hr : Kinds r) (c : DedupeCall) :
    (recordOn (fun key ttl => setNxEx c.now key "1" ttl) c r).1
        = (dedupeAlone.respond (texts .dedupe r) c).1
      ∧ texts .dedupe (recordOn (fun key ttl => setNxEx c.now key "1" ttl) c r).2
        = (dedupeAlone.respond (texts .dedupe r) c).2
      ∧ Writes .dedupe r (recordOn (fun key ttl => setNxEx c.now key "1" ttl) c r).2 := by
  unfold dedupeAlone recordOn
  by_cases hargs : c.dedupe_id = "" ∨ c.ttl_seconds.getD (7 * 24 * 60 * 60) ≤ 0
  · simp only [if_pos hargs]
    refine ⟨?_, trivial, Writes.none r⟩
    unfold checkAndRecord
    rcases hargs with hid | httl
    · rw [if_pos hid, if_pos hid]
    · dsimp only
      rw [if_pos httl, if_pos httl]
  · simp only [if_neg hargs]
    push Not at hargs
    obtain ⟨hset, htexts, hwrites⟩ := setNxEx_texts hr (by decide : Area.dedupe ≠ .counts) c.now
      c.dedupe_id "1" (c.ttl_seconds.getD (7 * 24 * 60 * 60))
    refine ⟨?_, htexts, hwrites⟩
    rw [checkAndRecord_eq hargs.1 hargs.2, checkAndRecord_eq hargs.1 hargs.2]
    exact congrArg (fun set => Cache.whenUnavailable true (.ok set)) hset

/-! ## §5. Rate limits. -/

/-- Reading a sorted set. -/
theorem get?_sets (hr : Kinds r) (now : Int) (key : String) :
    r.get? now (Area.counts.stem ++ key)
      = ((sets r).get? now (Area.counts.stem ++ key)).map Value.zset := by
  unfold sets
  rw [Expiring.get?_view now (under_append Area.counts.stem key)]
  cases hget : r.get? now (Area.counts.stem ++ key) with
  | none => rfl
  | some value =>
      obtain ⟨entries, rfl⟩ : ∃ entries, value = .zset entries := hr.found hget
      rfl

theorem zset_sets (hr : Kinds r) (now : Int) (key : String) :
    zset now (Area.counts.stem ++ key) r
      = .ok (Abuse.zset (sets r) now (Area.counts.stem ++ key)) := by
  unfold zset Abuse.zset
  rw [get?_sets hr now key]
  cases (sets r).get? now (Area.counts.stem ++ key) with
  | none => rfl
  | some entries => rfl

theorem deadlineOf_sets (hr : Kinds r) (now : Int) (key : String) :
    deadlineOf now (Area.counts.stem ++ key) r
      = Abuse.deadlineOf (sets r) now (Area.counts.stem ++ key) := by
  unfold deadlineOf Abuse.deadlineOf sets
  rw [Expiring.entry_view (under_append Area.counts.stem key)]
  cases hentry : r.entry (Area.counts.stem ++ key) with
  | none => rfl
  | some e =>
      obtain ⟨value, deadline⟩ := e
      obtain ⟨entries, rfl⟩ : ∃ entries, value = .zset entries :=
        hr .counts _ value deadline hentry (under_append _ _)
      rfl

/-- A sorted set that is written. -/
theorem sets_put (key : String) (entries : SortedSet) (deadline : Option Int) :
    sets (r.put (Area.counts.stem ++ key) (.zset entries) deadline)
      = (sets r).put (Area.counts.stem ++ key) entries deadline :=
  Expiring.view_put (under_append Area.counts.stem key) rfl

theorem zremrangebyscore_sets (hr : Kinds r) (now : Int) (key : String) (max : Int) :
    ∃ r', zremrangebyscore now (Area.counts.stem ++ key) max r = .ok r'
      ∧ sets r' = Abuse.zremrangebyscore now (Area.counts.stem ++ key) max (sets r)
      ∧ Writes .counts r r' := by
  unfold zremrangebyscore Abuse.zremrangebyscore
  rw [zset_sets hr now key, deadlineOf_sets hr now key]
  dsimp only [Except.map]
  cases (Abuse.zset (sets r) now (Area.counts.stem ++ key)).filter fun e => max < e.2 with
  | nil =>
      exact ⟨_, rfl, Expiring.view_erase (under_append Area.counts.stem key),
        (Writes.none r).erase key⟩
  | cons e entries =>
      exact ⟨_, rfl, sets_put key _ _, (Writes.none r).put key _ ⟨_, rfl⟩⟩

theorem zadd_sets (hr : Kinds r) (now : Int) (key : String) (score : Int) (member : String) :
    ∃ r', zadd now (Area.counts.stem ++ key) score member r = .ok r'
      ∧ sets r' = Abuse.zadd now (Area.counts.stem ++ key) score member (sets r)
      ∧ Writes .counts r r' := by
  unfold zadd Abuse.zadd
  rw [zset_sets hr now key, deadlineOf_sets hr now key]
  exact ⟨_, rfl, sets_put key _ _, (Writes.none r).put key _ ⟨_, rfl⟩⟩

theorem expire_sets (hr : Kinds r) (now : Int) (key : String) (ttl : Int) :
    sets (expire now (Area.counts.stem ++ key) ttl r)
        = Abuse.expire now (Area.counts.stem ++ key) (ttl * second) (sets r)
      ∧ Writes .counts r (expire now (Area.counts.stem ++ key) ttl r) := by
  unfold expire Abuse.expire
  rw [get?_sets hr now key]
  cases (sets r).get? now (Area.counts.stem ++ key) with
  | none => exact ⟨rfl, Writes.none r⟩
  | some entries => exact ⟨sets_put key _ _, (Writes.none r).put key _ ⟨_, rfl⟩⟩

/-- The two areas of the rate limits. -/
def rates (r : Store) : RateStore := ⟨texts .lists r, sets r⟩

theorem Writes.trans {r'' : Store} (h : Writes a r r') (h' : Writes a r' r'') : Writes a r r'' := by
  induction h' with
  | none => exact h
  | put _ key deadline hv ih => exact ih.put key deadline hv
  | erase _ key ih => exact ih.erase key

/-- **The sliding-window script on the shared server** never meets a wrong type, and
does what it does on a Redis of its own. -/
theorem slidingWindow_rates {L : Lua} (hL : L.perSecond = second) (hr : Kinds r) (now : Int)
    (fingerprint : String) (args : ScriptArgs) :
    ∃ r₁ r', slidingWindow L now (Abuse.rateKeys fingerprint) args r
        = (.ok (Abuse.slidingWindow L now (Abuse.rateKeys fingerprint) args (rates r)).1, r')
      ∧ rates r' = (Abuse.slidingWindow L now (Abuse.rateKeys fingerprint) args (rates r)).2
      ∧ Writes .counts r r₁ ∧ Writes .lists r₁ r' := by
  have hlisted : (r.get? now ("bl:fp:" ++ fingerprint)).isSome
      = ((rates r).strings.get? now ("bl:fp:" ++ fingerprint)).isSome := by
    have hget : r.get? now ("bl:fp:" ++ fingerprint) = _ :=
      get?_texts hr (by decide : Area.lists ≠ .counts) now fingerprint
    rw [hget, Option.isSome_map]
    rfl
  by_cases hbl : (r.get? now ("bl:fp:" ++ fingerprint)).isSome = true
  · rw [Abuse.slidingWindow_listed L (hlisted ▸ hbl)]
    exact ⟨r, r, if_pos hbl, rfl, Writes.none r, Writes.none r⟩
  · have hbl' := eq_false_of_ne_true hbl
    -- the three commands at the sorted set, one after another
    obtain ⟨r₁, hrem, hsets₁, hw₁⟩ := zremrangebyscore_sets hr now fingerprint
      (L.tonumber args.now - args.window * second)
    have hr₁ := hw₁.kinds hr
    obtain ⟨r₂, hadd, hsets₂, hw₂⟩ := zadd_sets hr₁ now fingerprint (L.tonumber args.now)
      (Abuse.memberOf L args)
    have hr₂ := hw₂.kinds hr₁
    obtain ⟨hsets₃, hw₃⟩ := expire_sets hr₂ now fingerprint (args.window + 1)
    have hr₃ := hw₃.kinds hr₂
    have hcounts := (hw₁.trans hw₂).trans hw₃
    have htexts : texts .lists (expire now (Area.counts.stem ++ fingerprint) (args.window + 1) r₂)
        = texts .lists r := hcounts.view_other (by decide) _
    rw [hsets₂, hsets₁, ← hL] at hsets₃
    -- and what they leave is counted
    have hcard : zcard now (Area.counts.stem ++ fingerprint)
          (expire now (Area.counts.stem ++ fingerprint) (args.window + 1) r₂)
        = .ok (Abuse.zcard now (Area.counts.stem ++ fingerprint)
          (sets (expire now (Area.counts.stem ++ fingerprint) (args.window + 1) r₂))) := by
      unfold zcard
      rw [zset_sets hr₃ now fingerprint]
      rfl
    have hrun : ∀ count, zcard now (Area.counts.stem ++ fingerprint)
          (expire now (Area.counts.stem ++ fingerprint) (args.window + 1) r₂) = .ok count →
        slidingWindow L now (Abuse.rateKeys fingerprint) args r
          = if args.bl_thr < count then
              (.ok (count, 2), (expire now (Area.counts.stem ++ fingerprint) (args.window + 1) r₂).put
                (Area.lists.stem ++ fingerprint) (.string "1") (some (now + args.bl_ttl * second)))
            else if args.max_req < count then
              (.ok (count, 1), expire now (Area.counts.stem ++ fingerprint) (args.window + 1) r₂)
            else (.ok (count, 0), expire now (Area.counts.stem ++ fingerprint) (args.window + 1) r₂) := by
      intro count hcount
      refine (if_neg hbl).trans ?_
      show (match zremrangebyscore now (Area.counts.stem ++ fingerprint) _ r with
        | .error exc => (.error exc, r)
        | .ok r => _ : Except Exn (Int × Int) × Store) = _
      rw [hrem]
      show (match zadd now (Area.counts.stem ++ fingerprint) _ _ r₁ with
        | .error exc => (.error exc, r₁)
        | .ok r => _ : Except Exn (Int × Int) × Store) = _
      rw [hadd]
      show (match zcard now (Area.counts.stem ++ fingerprint)
          (expire now (Area.counts.stem ++ fingerprint) (args.window + 1) r₂) with
        | .error exc => (.error exc, _)
        | .ok count => _ : Except Exn (Int × Int) × Store) = _
      rw [hcount]
      rfl
    have halone := @Abuse.slidingWindow_unlisted L now fingerprint args (rates r) _
      (Abuse.zcard now (Area.counts.stem ++ fingerprint)
        (sets (expire now (Area.counts.stem ++ fingerprint) (args.window + 1) r₂)))
      (hlisted ▸ hbl') hsets₃.symm rfl
    rw [hrun _ hcard, halone]
    generalize expire now (Area.counts.stem ++ fingerprint) (args.window + 1) r₂ = r₃ at htexts hcounts
    generalize Abuse.zcard now (Area.counts.stem ++ fingerprint) (sets r₃) = count
    have hrates : rates r₃ = ⟨(rates r).strings, sets r₃⟩ := congrArg (RateStore.mk · (sets r₃)) htexts
    split_ifs
    · refine ⟨r₃, _, rfl, ?_, hcounts, (Writes.none r₃).put fingerprint _ ⟨"1", rfl⟩⟩
      have hput : texts .lists (r₃.put (Area.lists.stem ++ fingerprint) (.string "1")
            (some (now + args.bl_ttl * second)))
          = (texts .lists r₃).put (Area.lists.stem ++ fingerprint) "1"
            (some (now + args.bl_ttl * second)) :=
        Expiring.view_put (under_append _ _) rfl
      have hkept : sets (r₃.put (Area.lists.stem ++ fingerprint) (.string "1")
            (some (now + args.bl_ttl * second))) = sets r₃ :=
        Expiring.view_put_other (under_other (by decide) fingerprint)
      unfold rates
      rw [hput, hkept, htexts, hL]
      rfl
    · exact ⟨r₃, r₃, rfl, hrates, hcounts, Writes.none r₃⟩
    · exact ⟨r₃, r₃, rfl, hrates, hcounts, Writes.none r₃⟩

/-! ## §6. Every interleaving. -/

def Call.lock? : Call → Option LockCall
  | .lock c => some c
  | _ => none

def Call.dedupe? : Call → Option DedupeCall
  | .dedupe c => some c
  | _ => none

def Call.rate? : Call → Option RateCall
  | .rate c => some c
  | _ => none

def Answer.lock? : Answer → Option LockAnswer
  | .lock a => some a
  | _ => none

def Answer.dedupe? : Answer → Option (Except Exn Bool)
  | .dedupe a => some a
  | _ => none

def Answer.rate? : Answer → Option (Except Exn (Int × Int))
  | .rate a => some a
  | _ => none

variable {L : Lua} {s : Settings}

/-- **What each call does to the keyspace**: it writes in its own area or areas. -/
theorem respond_writes (hL : L.perSecond = second) (hr : Kinds r) (c : Call) :
    (∃ c', c = .lock c' ∧ Writes .locks r ((shared L s).respond r c).2)
    ∨ (∃ c', c = .dedupe c' ∧ Writes .dedupe r ((shared L s).respond r c).2)
    ∨ ∃ c' r₁, c = .rate c' ∧ Writes .counts r r₁
        ∧ Writes .lists r₁ ((shared L s).respond r c).2 := by
  cases c with
  | lock c =>
      refine Or.inl ⟨c, rfl, ?_⟩
      cases c with
      | acquire now fresh idempotency_key ttl_seconds =>
          obtain ⟨r', hrun, -, hwrites⟩ :=
            acquire_texts hr now fresh idempotency_key ttl_seconds
          exact (congrArg Prod.snd hrun : _ = r') ▸ hwrites
      | release now idempotency_key token =>
          obtain ⟨r', hrun, -, hwrites⟩ := release_texts hr now idempotency_key token
          exact (congrArg Prod.snd hrun : _ = r') ▸ hwrites
  | dedupe c => exact Or.inr (Or.inl ⟨c, rfl, (record_texts hr c).2.2⟩)
  | rate c =>
      obtain ⟨r₁, r', hrun, -, hcounts, hlists⟩ := slidingWindow_rates hL hr c.request.clock
        c.fingerprint (Abuse.scriptArgs s c.request.now c.request.rand)
      exact Or.inr (Or.inr ⟨c, r₁, rfl, hcounts, (congrArg Prod.snd hrun : _ = r') ▸ hlists⟩)

theorem respond_kinds (hL : L.perSecond = second) (hr : Kinds r) (c : Call) :
    Kinds ((shared L s).respond r c).2 := by
  rcases respond_writes (s := s) hL hr c with ⟨_, -, h⟩ | ⟨_, -, h⟩ | ⟨_, r₁, -, h, h'⟩
  · exact h.kinds hr
  · exact h.kinds hr
  · exact h'.kinds (h.kinds hr)

/-- **The locks are a part of the whole.** -/
theorem locks_separate (hL : L.perSecond = second) :
    Reactive.Separates (shared L s) locksAlone Call.lock? Answer.lock?
      (fun r t => Kinds r ∧ t = texts .locks r) := by
  constructor
  · rintro r t c c' ⟨hr, rfl⟩ hc
    have hkinds := respond_kinds (s := s) hL hr c
    cases c with
    | lock c =>
        obtain rfl := Option.some.inj hc
        cases c with
        | acquire now fresh idempotency_key ttl_seconds =>
            obtain ⟨r', hrun, htexts, -⟩ :=
              acquire_texts hr now fresh idempotency_key ttl_seconds
            have hout : (shared L s).respond r (.lock (.acquire now fresh idempotency_key ttl_seconds))
                = (.lock (.acquired (acquireAt now fresh idempotency_key ttl_seconds
                    (texts .locks r)).1), r') :=
              congrArg (fun out => (Answer.lock (.acquired out.1), out.2)) hrun
            rw [hout] at hkinds ⊢
            exact ⟨rfl, hkinds, htexts.symm⟩
        | release now idempotency_key token =>
            obtain ⟨r', hrun, htexts, -⟩ := release_texts hr now idempotency_key token
            have hout : (shared L s).respond r (.lock (.release now idempotency_key token))
                = (.lock (.released (releaseAt now ⟨redisKey idempotency_key, token⟩
                    (texts .locks r)).1), r') :=
              congrArg (fun out => (Answer.lock (.released out.1), out.2)) hrun
            rw [hout] at hkinds ⊢
            exact ⟨rfl, hkinds, htexts.symm⟩
    | _ => cases hc
  · rintro r t c ⟨hr, rfl⟩ hc
    refine ⟨respond_kinds hL hr c, ?_⟩
    rcases respond_writes (s := s) hL hr c with ⟨_, rfl, -⟩ | ⟨_, rfl, h⟩ | ⟨_, r₁, rfl, h, h'⟩
    · cases hc
    · exact (h.view_other (by decide) _).symm
    · exact ((h'.view_other (by decide) _).trans (h.view_other (by decide) _)).symm

/-- **The dedupe keys are.** -/
theorem dedupe_separate (hL : L.perSecond = second) :
    Reactive.Separates (shared L s) dedupeAlone Call.dedupe? Answer.dedupe?
      (fun r t => Kinds r ∧ t = texts .dedupe r) := by
  constructor
  · rintro r t c c' ⟨hr, rfl⟩ hc
    have hkinds := respond_kinds (s := s) hL hr c
    cases c with
    | dedupe c =>
        obtain rfl := Option.some.inj hc
        obtain ⟨hout, htexts, -⟩ := record_texts hr c
        exact ⟨congrArg some hout, hkinds, htexts.symm⟩
    | _ => cases hc
  · rintro r t c ⟨hr, rfl⟩ hc
    refine ⟨respond_kinds hL hr c, ?_⟩
    rcases respond_writes (s := s) hL hr c with ⟨_, rfl, h⟩ | ⟨_, rfl, -⟩ | ⟨_, r₁, rfl, h, h'⟩
    · exact (h.view_other (by decide) _).symm
    · cases hc
    · exact ((h'.view_other (by decide) _).trans (h.view_other (by decide) _)).symm

/-- **The rate limits are.** -/
theorem rates_separate (hL : L.perSecond = second) :
    Reactive.Separates (shared L s) (ratesAlone L s) Call.rate? Answer.rate?
      (fun r t => Kinds r ∧ t = rates r) := by
  constructor
  · rintro r t c c' ⟨hr, rfl⟩ hc
    have hkinds := respond_kinds (s := s) hL hr c
    cases c with
    | rate c =>
        obtain rfl := Option.some.inj hc
        obtain ⟨r₁, r', hrun, hrates, -, -⟩ := slidingWindow_rates hL hr c.request.clock
          c.fingerprint (Abuse.scriptArgs s c.request.now c.request.rand)
        have hout : (shared L s).respond r (.rate c)
            = (.rate (.ok (Abuse.slidingWindow L c.request.clock (Abuse.rateKeys c.fingerprint)
                (Abuse.scriptArgs s c.request.now c.request.rand) (rates r)).1), r') :=
          congrArg (fun out => (Answer.rate out.1, out.2)) hrun
        rw [hout] at hkinds ⊢
        exact ⟨rfl, hkinds, hrates.symm⟩
    | _ => cases hc
  · rintro r t c ⟨hr, rfl⟩ hc
    refine ⟨respond_kinds hL hr c, ?_⟩
    have hviews : ∀ {a : Area} {r' : Store}, Writes a r r' → a ≠ .counts → a ≠ .lists →
        rates r = rates r' := by
      intro a r' h hcounts hlists
      unfold rates texts sets
      rw [h.view_other (Ne.symm hcounts), h.view_other (Ne.symm hlists)]
    rcases respond_writes (s := s) hL hr c with ⟨_, rfl, h⟩ | ⟨_, rfl, h⟩ | ⟨_, r₁, rfl, -, -⟩
    · exact hviews h (by decide) (by decide)
    · exact hviews h (by decide) (by decide)
    · cases hc

/-- **One Redis serves three.**  In every interleaving of lock calls, dedupe checks and
rate limits, with any idempotency keys, dedupe ids, fingerprints and times: each
of the three is answered what it is answered on a Redis of its own, so no command
ever meets a value of the wrong type.  The scripts count the ticks of Redis. -/
theorem shared_redis (hL : L.perSecond = second) (s : Settings) (calls : List Call) :
    Reactive.share Call.lock? Answer.lock? ((shared L s).answers Expiring.empty calls)
        = locksAlone.answers Expiring.empty (calls.filterMap Call.lock?)
    ∧ Reactive.share Call.dedupe? Answer.dedupe? ((shared L s).answers Expiring.empty calls)
        = dedupeAlone.answers Expiring.empty (calls.filterMap Call.dedupe?)
    ∧ Reactive.share Call.rate? Answer.rate? ((shared L s).answers Expiring.empty calls)
        = (ratesAlone L s).answers ⟨Expiring.empty, Expiring.empty⟩ (calls.filterMap Call.rate?) := by
  have hempty : ∀ {μ : Type} (p : String → Bool) (f : Value → Option μ),
      (Expiring.empty : Store).view p f = Expiring.empty := by
    intro μ p f
    refine congrArg Expiring.mk (funext fun key => ?_)
    show (if p key then _ else none) = none
    split <;> rfl
  refine ⟨((locks_separate hL).separate calls _ _ ⟨kinds_empty, ?_⟩).1,
    ((dedupe_separate hL).separate calls _ _ ⟨kinds_empty, ?_⟩).1,
    ((rates_separate hL).separate calls _ _ ⟨kinds_empty, ?_⟩).1⟩
  · exact (hempty _ _).symm
  · exact (hempty _ _).symm
  · exact (congrArg₂ RateStore.mk (hempty _ _) (hempty _ _)).symm

/-- Ticks of a millisecond, as Redis counts them; the texts are those of times that
are whole seconds. -/
def milliseconds : Lua where
  perSecond := 1000
  perSecond_pos := by decide
  tonumber text := Abuse.microseconds.tonumber text / 1000
  tostring time := toString (time / 1000)

/-- One text as an idempotency key, a dedupe id and a fingerprint. -/
def threeUsers : List Call :=
  [.lock (.acquire 0 (Uuid.ofNat 7) "a" none), .dedupe ⟨1000, "a", none⟩,
    .rate ⟨"a", ⟨2000, "2.000000", "r0"⟩⟩, .lock (.acquire 3000 (Uuid.ofNat 8) "a" none),
    .dedupe ⟨4000, "a", none⟩, .rate ⟨"a", ⟨5000, "5.000000", "r1"⟩⟩,
    .lock (.release 6000 "a" (Uuid.ofNat 7).hex)]

theorem shared_redis_three :
    Reactive.share Call.lock? Answer.lock?
        ((shared milliseconds ⟨60, 100, 200, 3600⟩).answers Expiring.empty threeUsers)
      = locksAlone.answers Expiring.empty (threeUsers.filterMap Call.lock?)
    ∧ Reactive.share Call.dedupe? Answer.dedupe?
        ((shared milliseconds ⟨60, 100, 200, 3600⟩).answers Expiring.empty threeUsers)
      = dedupeAlone.answers Expiring.empty (threeUsers.filterMap Call.dedupe?)
    ∧ Reactive.share Call.rate? Answer.rate?
        ((shared milliseconds ⟨60, 100, 200, 3600⟩).answers Expiring.empty threeUsers)
      = (ratesAlone milliseconds ⟨60, 100, 200, 3600⟩).answers ⟨Expiring.empty, Expiring.empty⟩
          (threeUsers.filterMap Call.rate?) :=
  shared_redis rfl ⟨60, 100, 200, 3600⟩ threeUsers

/-- A lock's script at a key of another type would fail. -/
example : (releaseLua 0 "rl:fp:a" "t"
    ((Expiring.empty : Store).put "rl:fp:a" (.zset []) none)).1 = .error wrongType := rfl

end Nimbus.Redis
