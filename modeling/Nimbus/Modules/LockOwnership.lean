/-
  Nimbus.Modules.LockOwnership
  ────────────────────────────
  **WHO OWNS AN IDEMPOTENCY LOCK, WITH EXPIRY.**

  Any number of clients acquire and release locks on any keys, and time passes
  in between, so that a lock may lapse under its holder and be taken again.
  The two service calls are run as they stand, on a Redis whose keys expire;
  each sends one command, which Redis runs at once.

    • `lockOps`           — the commands on a Redis that keeps deadlines;
    • `acquire_eval`, `release_eval` — what the two calls do, in closed form;
    • `Clients`           — the store, the clock, and the locks each client got;
    • `Owned`             — the invariant that links the store to them;
    • `ownership`         — **only its owner removes a lock, and a lock that is
                            stored is what keeps others out.**
-/
import Nimbus.Lib.Expiring
import Nimbus.Lib.Machine
import Nimbus.Modules.Payments

namespace Nimbus

open Lib Lib.Prog Payments

/-! ## §1. The two calls on a Redis with expiry. -/

/-- Redis counts in milliseconds. -/
def second : Int := 1000

/-- The strings in Redis. -/
abbrev Strings := Expiring String String

/-- `SET key value NX EX ttl` at `now`: whether it was set. -/
def setNxEx (now : Int) (key value : String) (ttl : Int) (s : Strings) : Bool × Strings :=
  match s.get? now key with
  | none => (true, s.put key value (some (now + ttl * second)))
  | some _ => (false, s)

/-- `_LOCK_RELEASE_LUA`: how many keys were deleted. -/
def releaseLua (now : Int) (key token : String) (s : Strings) : Nat × Strings :=
  if s.get? now key = some token then (1, s.erase key) else (0, s)

/-- What the calls ask for, answered at `now`: a new UUID, and the two commands.
They make no other operation. -/
def lockOps (now : Int) (fresh : Uuid) (ttl : Int) :
    (op : Op) → Strings → Except Exn (Ans op) × Strings
  | .uuid4, s => (.ok fresh, s)
  | .redisSetNx key token, s => (.ok (setNxEx now key token ttl s).1, (setNxEx now key token ttl s).2)
  | .redisRelease key token, s => (.ok (releaseLua now key token s).1, (releaseLua now key token s).2)
  | _, s => (.error ⟨.runtimeError, "no session", []⟩, s)

/-- `acquire_idempotency_lock` at `now`, `fresh` being its token. -/
def acquireAt (now : Int) (fresh : Uuid) (idempotency_key : String) (ttl_seconds : Option Int)
    (s : Strings) : Except Exn IdempotencyLock × Strings :=
  (acquireIdempotencyLock idempotency_key ttl_seconds).eval
    (lockOps now fresh (ttl_seconds.getD 30)) s

/-- `release_idempotency_lock` at `now`; it generates no UUID. -/
def releaseAt (now : Int) (lock : IdempotencyLock) (s : Strings) : Except Exn Bool × Strings :=
  (releaseIdempotencyLock lock).eval (lockOps now (Uuid.ofNat 0) 30) s

/-- The arguments that `acquire_idempotency_lock` takes. -/
def Acceptable (idempotency_key : String) (ttl_seconds : Option Int) : Prop :=
  idempotency_key ≠ "" ∧ 0 < ttl_seconds.getD 30

instance (idempotency_key : String) (ttl_seconds : Option Int) :
    Decidable (Acceptable idempotency_key ttl_seconds) := inferInstanceAs (Decidable (_ ∧ _))

variable {now : Int} {fresh : Uuid} {idempotency_key : String} {ttl_seconds : Option Int}
  {s : Strings}

/-- With acceptable arguments, all depends on the one command. -/
theorem acquire_eval (hargs : Acceptable idempotency_key ttl_seconds) :
    acquireAt now fresh idempotency_key ttl_seconds s
      = (if (setNxEx now (redisKey idempotency_key) fresh.hex (ttl_seconds.getD 30) s).1 = true then
            .ok ⟨redisKey idempotency_key, fresh.hex⟩
          else .error (idempotencyConflict idempotency_key),
        (setNxEx now (redisKey idempotency_key) fresh.hex (ttl_seconds.getD 30) s).2) := by
  have hpos : ¬ ttl_seconds.getD 30 ≤ 0 := by have := hargs.2; omega
  unfold acquireAt acquireIdempotencyLock
  -- the two checks of the arguments, then the command, then its answer
  rw [if_neg hargs.1]
  show ((if ttl_seconds.getD 30 ≤ 0 then _ else _ : Svc IdempotencyLock)).eval _ s = _
  rw [if_neg hpos]
  show ((if (setNxEx now (redisKey idempotency_key) fresh.hex (ttl_seconds.getD 30) s).1 = true then
    _ else _ : Svc IdempotencyLock)).eval _ _ = _
  split
  · rfl
  · rfl

/-- Other arguments are refused before anything is sent. -/
theorem acquire_rejected (hargs : ¬ Acceptable idempotency_key ttl_seconds) :
    ∃ exc, acquireAt now fresh idempotency_key ttl_seconds s = (.error exc, s) := by
  unfold acquireAt acquireIdempotencyLock
  by_cases hkey : idempotency_key = ""
  · rw [if_pos hkey]
    exact ⟨_, rfl⟩
  · rw [if_neg hkey]
    have hpos : ttl_seconds.getD 30 ≤ 0 := by
      by_contra hlt
      exact hargs ⟨hkey, by omega⟩
    refine ⟨⟨.valueError, "ttl_seconds must be > 0", []⟩, ?_⟩
    show ((if ttl_seconds.getD 30 ≤ 0 then _ else _ : Svc IdempotencyLock)).eval _ s = _
    rw [if_pos hpos]
    rfl

/-- **A free key is taken.** -/
theorem acquire_free (hargs : Acceptable idempotency_key ttl_seconds)
    (hfree : s.get? now (redisKey idempotency_key) = none) :
    acquireAt now fresh idempotency_key ttl_seconds s
      = (.ok ⟨redisKey idempotency_key, fresh.hex⟩,
          s.put (redisKey idempotency_key) fresh.hex
            (some (now + ttl_seconds.getD 30 * second))) := by
  rw [acquire_eval hargs]
  unfold setNxEx
  rw [hfree]
  rfl

/-- **A key that is stored is not taken again**, nor one that is refused. -/
theorem acquire_refused (h : ¬ (Acceptable idempotency_key ttl_seconds
    ∧ s.get? now (redisKey idempotency_key) = none)) :
    ∃ exc, acquireAt now fresh idempotency_key ttl_seconds s = (.error exc, s) := by
  by_cases hargs : Acceptable idempotency_key ttl_seconds
  · have hstored : s.get? now (redisKey idempotency_key) ≠ none := fun hfree => h ⟨hargs, hfree⟩
    obtain ⟨token, htoken⟩ := Option.ne_none_iff_exists'.mp hstored
    refine ⟨idempotencyConflict idempotency_key, ?_⟩
    rw [acquire_eval hargs]
    unfold setNxEx
    rw [htoken]
    rfl
  · exact acquire_rejected hargs

/-- **A release deletes the key exactly when it stores the lock's token.** -/
theorem release_eval (lock : IdempotencyLock) :
    releaseAt now lock s = if s.get? now lock.key = some lock.token
      then (.ok true, s.erase lock.key) else (.ok false, s) := by
  have hcommand : releaseAt now lock s
      = (.ok (decide (0 < (releaseLua now lock.key lock.token s).1)),
          (releaseLua now lock.key lock.token s).2) := rfl
  rw [hcommand]
  unfold releaseLua
  split
  · rfl
  · rfl

/-! ## §2. Clients. -/

/-- What a client does, or time passing. -/
inductive LockAct (τ : Type) where
  /-- `acquire_idempotency_lock` by client `t`, with this token. -/
  | acquire (t : τ) (idempotency_key : String) (ttl_seconds : Option Int) (fresh : Uuid)
  /-- `release_idempotency_lock` by client `t`, of a lock it got. -/
  | release (t : τ) (lock : IdempotencyLock)
  | wait (d : Nat)

deriving instance DecidableEq for IdempotencyLock

/-- Redis, the clock, the locks that each client ever got, and the tokens
generated so far. -/
structure Clients (τ : Type) where
  redis : Strings
  now : Int
  locks : τ → List IdempotencyLock
  used : List Uuid

namespace Clients

variable {τ : Type} [DecidableEq τ]

/-- An empty Redis. -/
def init : Clients τ := ⟨Expiring.empty, 0, fun _ => [], []⟩

/-- One act: a token is never generated twice, and a client releases locks it
got. -/
def step (S : Clients τ) : LockAct τ → Option (Clients τ)
  | .acquire t idempotency_key ttl_seconds fresh =>
      if fresh ∈ S.used then none
      else
        let after := acquireAt S.now fresh idempotency_key ttl_seconds S.redis
        let locks := match after.1 with
          | .ok lock => Function.update S.locks t (lock :: S.locks t)
          | .error _ => S.locks
        some ⟨after.2, S.now, locks, fresh :: S.used⟩
  | .release t lock =>
      if lock ∈ S.locks t then some { S with redis := (releaseAt S.now lock S.redis).2 } else none
  | .wait d => some { S with now := S.now + d }

def machine (τ : Type) [DecidableEq τ] : Machine (Clients τ) (LockAct τ) := ⟨step⟩

/-- Client `t` holds `lock`: it got it, and Redis still stores its token. -/
def Holds (S : Clients τ) (t : τ) (lock : IdempotencyLock) : Prop :=
  lock ∈ S.locks t ∧ S.redis.get? S.now lock.key = some lock.token

/-- What links Redis to the clients: a stored token is that of a lock some
client got, and no two locks have the same token. -/
structure Owned (S : Clients τ) : Prop where
  stored : ∀ k token deadline, S.redis.entry k = some (token, deadline) →
    ∃ t, ⟨k, token⟩ ∈ S.locks t
  generated : ∀ t, ∀ lock ∈ S.locks t, ∃ u ∈ S.used, lock.token = u.hex
  distinct : ∀ t u, ∀ lock ∈ S.locks t, ∀ other ∈ S.locks u, lock.token = other.token →
    t = u ∧ lock = other

/-- What the locks promise in a state, of every call made in it. -/
structure Ownership (S : Clients τ) : Prop where
  /-- An acquire succeeds exactly when no unexpired token is stored. -/
  acquires : ∀ idempotency_key ttl_seconds fresh,
    (∃ lock, (acquireAt S.now fresh idempotency_key ttl_seconds S.redis).1 = .ok lock)
      ↔ Acceptable idempotency_key ttl_seconds
        ∧ S.redis.get? S.now (redisKey idempotency_key) = none
  /-- The lock it returns is stored until its TTL has passed. -/
  acquired : ∀ idempotency_key ttl_seconds fresh lock,
    (acquireAt S.now fresh idempotency_key ttl_seconds S.redis).1 = .ok lock →
      lock = ⟨redisKey idempotency_key, fresh.hex⟩
      ∧ (acquireAt S.now fresh idempotency_key ttl_seconds S.redis).2.entry lock.key
          = some (lock.token, some (S.now + ttl_seconds.getD 30 * second))
  /-- A release deletes the key exactly when the stored token is its own. -/
  releases : ∀ lock, (S.redis.get? S.now lock.key ≠ none
        ∧ (releaseAt S.now lock S.redis).2.get? S.now lock.key = none)
      ↔ S.redis.get? S.now lock.key = some lock.token
  /-- It returns `True` exactly then, and `False` otherwise. -/
  returns : ∀ lock, (releaseAt S.now lock S.redis).1
    = .ok (decide (S.redis.get? S.now lock.key = some lock.token))
  /-- No release removes a lock that another client holds. -/
  others : ∀ t u lock other, lock ∈ S.locks t → u ≠ t → S.Holds u other →
    (releaseAt S.now lock S.redis).2.get? S.now other.key = some other.token
  /-- At most one client holds a key. -/
  exclusive : ∀ t u lock other, S.Holds t lock → S.Holds u other → lock.key = other.key → t = u
  /-- An acquire leaves the other idempotency keys alone. -/
  acquire_apart : ∀ idempotency_key ttl_seconds fresh other, other ≠ idempotency_key →
    (acquireAt S.now fresh idempotency_key ttl_seconds S.redis).2.entry (redisKey other)
      = S.redis.entry (redisKey other)
  /-- So does a release. -/
  release_apart : ∀ lock k, k ≠ lock.key →
    (releaseAt S.now lock S.redis).2.entry k = S.redis.entry k

end Clients

theorem redisKey_injective : Function.Injective redisKey := by
  intro k k' h
  have hlist : "idemp:".toList ++ k.toList = "idemp:".toList ++ k'.toList := by
    rw [← String.toList_append, ← String.toList_append]
    exact congrArg String.toList h
  exact String.toList_inj.mp (List.append_cancel_left hlist)

namespace Clients

variable {τ : Type} [DecidableEq τ] {S S' : Clients τ} {a : LockAct τ}

/-! ## §3. The invariant. -/

/-- **Everything one act can do.** -/
theorem step_cases (h : S.step a = some S') :
    (∃ t idempotency_key ttl_seconds fresh,
      a = .acquire t idempotency_key ttl_seconds fresh ∧ fresh ∉ S.used
      ∧ Acceptable idempotency_key ttl_seconds
      ∧ S.redis.get? S.now (redisKey idempotency_key) = none
      ∧ S' = ⟨S.redis.put (redisKey idempotency_key) fresh.hex
            (some (S.now + ttl_seconds.getD 30 * second)), S.now,
          Function.update S.locks t (⟨redisKey idempotency_key, fresh.hex⟩ :: S.locks t),
          fresh :: S.used⟩)
    ∨ (∃ t idempotency_key ttl_seconds fresh,
      a = .acquire t idempotency_key ttl_seconds fresh ∧ S' = { S with used := fresh :: S.used })
    ∨ (∃ t lock, a = .release t lock ∧ lock ∈ S.locks t
      ∧ S.redis.get? S.now lock.key = some lock.token
      ∧ S' = { S with redis := S.redis.erase lock.key })
    ∨ (∃ t lock, a = .release t lock ∧ lock ∈ S.locks t ∧ S' = S)
    ∨ (∃ d : Nat, a = .wait d ∧ S' = { S with now := S.now + d }) := by
  cases a with
  | acquire t idempotency_key ttl_seconds fresh =>
      simp only [step] at h
      split at h
      next => cases h
      next hfresh =>
        by_cases hok : Acceptable idempotency_key ttl_seconds
            ∧ S.redis.get? S.now (redisKey idempotency_key) = none
        · rw [acquire_free hok.1 hok.2] at h
          exact Or.inl ⟨t, idempotency_key, ttl_seconds, fresh, rfl, hfresh, hok.1, hok.2,
            (Option.some.inj h).symm⟩
        · -- the key is held, or the arguments are refused
          have hrefused : ∃ exc, acquireAt S.now fresh idempotency_key ttl_seconds S.redis
              = (.error exc, S.redis) := acquire_refused hok
          obtain ⟨exc, hrefused⟩ := hrefused
          rw [hrefused] at h
          exact Or.inr (Or.inl ⟨t, idempotency_key, ttl_seconds, fresh, rfl,
            (Option.some.inj h).symm⟩)
  | release t lock =>
      simp only [step] at h
      split at h
      next hmem =>
        rw [release_eval] at h
        by_cases hown : S.redis.get? S.now lock.key = some lock.token
        · rw [if_pos hown] at h
          exact Or.inr (Or.inr (Or.inl ⟨t, lock, rfl, hmem, hown, (Option.some.inj h).symm⟩))
        · rw [if_neg hown] at h
          exact Or.inr (Or.inr (Or.inr (Or.inl ⟨t, lock, rfl, hmem, (Option.some.inj h).symm⟩)))
      next => cases h
  | wait d => exact Or.inr (Or.inr (Or.inr (Or.inr ⟨d, rfl, (Option.some.inj h).symm⟩)))

omit [DecidableEq τ] in
theorem owned_init : Owned (init : Clients τ) := by
  refine ⟨fun k token deadline h => ?_, fun t lock h => (nomatch h), fun t u lock h => (nomatch h)⟩
  cases h

/-- The locks of a client after it got one more. -/
theorem mem_update {locks : τ → List IdempotencyLock} {t u : τ} {lock other : IdempotencyLock} :
    other ∈ Function.update locks t (lock :: locks t) u ↔ (u = t ∧ other = lock) ∨ other ∈ locks u := by
  by_cases hu : u = t
  · subst hu
    simp [Function.update_self]
  · simp [hu]

/-- **Every act keeps the invariant.** -/
theorem Owned.step (hS : Owned S) (h : S.step a = some S') : Owned S' := by
  rcases step_cases h with ⟨t, key, ttl, fresh, -, hfresh, -, -, rfl⟩ | ⟨t, key, ttl, fresh, -, rfl⟩ |
    ⟨t, lock, -, -, -, rfl⟩ | ⟨t, lock, -, -, rfl⟩ | ⟨d, -, rfl⟩
  · -- a lock is taken, under a token that no lock has
    have hnew : ∀ u, ∀ lock ∈ S.locks u, lock.token ≠ fresh.hex := by
      intro u lock hlock heq
      obtain ⟨v, hv, htoken⟩ := hS.generated u lock hlock
      have : v = fresh := Uuid.hex_injective (htoken.symm.trans heq)
      exact hfresh (this ▸ hv)
    refine ⟨fun k token deadline hk => ?_, fun u lock hlock => ?_, fun u v lock hlock other hother heq => ?_⟩
    · -- the key that was free stores the new token, the others what they stored
      by_cases hkey : k = redisKey key
      · subst hkey
        rw [Expiring.entry_put_self] at hk
        obtain ⟨rfl, -⟩ := Prod.mk.inj (Option.some.inj hk)
        exact ⟨t, mem_update.mpr (Or.inl ⟨rfl, rfl⟩)⟩
      · rw [Expiring.entry_put_of_ne _ _ _ hkey] at hk
        obtain ⟨u, hu⟩ := hS.stored k token deadline hk
        exact ⟨u, mem_update.mpr (Or.inr hu)⟩
    · rcases mem_update.mp hlock with ⟨-, rfl⟩ | hold
      · exact ⟨fresh, List.mem_cons_self, rfl⟩
      · obtain ⟨w, hw, htoken⟩ := hS.generated u lock hold
        exact ⟨w, List.mem_cons_of_mem _ hw, htoken⟩
    · rcases mem_update.mp hlock with ⟨rfl, rfl⟩ | hold
      · rcases mem_update.mp hother with ⟨rfl, rfl⟩ | hold'
        · exact ⟨rfl, rfl⟩
        · exact absurd heq.symm (hnew v other hold')
      · rcases mem_update.mp hother with ⟨rfl, rfl⟩ | hold'
        · exact absurd heq (hnew u lock hold)
        · exact hS.distinct u v lock hold other hold' heq
  · -- refused, but the token has been generated
    refine ⟨hS.stored, fun u lock hlock => ?_, hS.distinct⟩
    obtain ⟨w, hw, htoken⟩ := hS.generated u lock hlock
    exact ⟨w, List.mem_cons_of_mem _ hw, htoken⟩
  · -- a key is deleted
    refine ⟨fun k token deadline hk => ?_, hS.generated, hS.distinct⟩
    by_cases hkey : k = lock.key
    · subst hkey
      rw [Expiring.entry_erase_self] at hk
      cases hk
    · rw [Expiring.entry_erase_of_ne _ hkey] at hk
      exact hS.stored k token deadline hk
  · exact hS
  · -- time passes: what lapses stays an entry, and is not read any more
    exact ⟨hS.stored, hS.generated, hS.distinct⟩

omit [DecidableEq τ] in
/-- A lock that is stored is the only one with its token. -/
theorem Owned.lock_eq (hS : Owned S) {t u : τ} {lock other : IdempotencyLock}
    (hlock : lock ∈ S.locks t) (hother : S.Holds u other)
    (hstored : S.redis.get? S.now other.key = some lock.token) : t = u ∧ lock = other := by
  have htoken : lock.token = other.token := Option.some.inj (hstored.symm.trans hother.2)
  exact hS.distinct t u lock hlock other hother.1 htoken

omit [DecidableEq τ] in
/-- **The invariant is what the locks promise.** -/
theorem Owned.respected (hS : Owned S) : Ownership S := by
  have hrefused : ∀ key ttl fresh, ¬ (Acceptable key ttl
      ∧ S.redis.get? S.now (redisKey key) = none) →
      ∃ exc, acquireAt S.now fresh key ttl S.redis = (.error exc, S.redis) :=
    fun key ttl fresh hno => acquire_refused hno
  refine ⟨fun key ttl fresh => ?_, fun key ttl fresh lock hok => ?_, fun lock => ?_, fun lock => ?_,
    fun t u lock other hlock hne hother => ?_, fun t u lock other hlock hother hkey => ?_,
    fun key ttl fresh other hne => ?_, fun lock k hk => ?_⟩
  · by_cases hok : Acceptable key ttl ∧ S.redis.get? S.now (redisKey key) = none
    · rw [acquire_free hok.1 hok.2]
      exact iff_of_true ⟨_, rfl⟩ hok
    · obtain ⟨exc, hexc⟩ := hrefused key ttl fresh hok
      rw [hexc]
      exact iff_of_false (fun hc => (nomatch hc)) hok
  · by_cases hfree : Acceptable key ttl ∧ S.redis.get? S.now (redisKey key) = none
    · rw [acquire_free hfree.1 hfree.2] at hok ⊢
      obtain rfl := Except.ok.inj hok
      exact ⟨rfl, Expiring.entry_put_self ..⟩
    · obtain ⟨exc, hexc⟩ := hrefused key ttl fresh hfree
      rw [hexc] at hok
      cases hok
  · rw [release_eval]
    by_cases hown : S.redis.get? S.now lock.key = some lock.token
    · rw [if_pos hown, hown]
      exact iff_of_true ⟨fun hc => (nomatch hc), Expiring.get?_erase_self ..⟩ rfl
    · rw [if_neg hown]
      exact iff_of_false (fun hc => hc.1 hc.2) hown
  · rw [release_eval]
    by_cases hown : S.redis.get? S.now lock.key = some lock.token
    · rw [if_pos hown, decide_eq_true hown]
    · rw [if_neg hown, decide_eq_false hown]
  · -- the releaser's token is not the one that is stored
    rw [release_eval]
    by_cases hown : S.redis.get? S.now lock.key = some lock.token
    · rw [if_pos hown]
      have hkey : other.key ≠ lock.key := by
        intro heq
        rw [← heq] at hown
        exact hne (hS.lock_eq hlock hother hown).1.symm
      rw [Expiring.get?_congr (Expiring.entry_erase_of_ne _ hkey)]
      exact hother.2
    · rw [if_neg hown]
      exact hother.2
  · -- one key stores one token
    have hstored : S.redis.get? S.now other.key = some lock.token := by
      rw [← hkey]
      exact hlock.2
    exact (hS.lock_eq hlock.1 hother hstored).1
  · by_cases hok : Acceptable key ttl ∧ S.redis.get? S.now (redisKey key) = none
    · rw [acquire_free hok.1 hok.2]
      exact Expiring.entry_put_of_ne _ _ _ fun heq => hne (redisKey_injective heq)
    · obtain ⟨exc, hexc⟩ := hrefused key ttl fresh hok
      rw [hexc]
  · rw [release_eval]
    split
    · exact Expiring.entry_erase_of_ne _ hk
    · rfl

/-- **Lock ownership is never violated**, in any interleaving of acquires,
releases and expiry by any number of clients. -/
theorem ownership (as : List (LockAct τ)) :
    ∀ S ∈ (machine τ).trace init as, Ownership S := by
  intro S hS
  have howned := (machine τ).trace_invariant (fun _ _ _ hS h => Owned.step hS h) as _ owned_init S hS
  exact howned.respected

/-- The lock of client 0 lapses, client 1 takes the key, and client 0 releases. -/
def lapsedRun : List (LockAct Nat) :=
  [.acquire 0 "k" (some 1) (Uuid.ofNat 1), .wait 1001, .acquire 1 "k" none (Uuid.ofNat 2),
    .release 0 ⟨"idemp:k", (Uuid.ofNat 1).hex⟩]

theorem ownership_lapsed : Ownership ((machine Nat).run init lapsedRun) :=
  ownership lapsedRun _ ((machine Nat).run_mem_trace init lapsedRun)

/-- Client 1 still holds it. -/
example : ((machine Nat).run init lapsedRun).redis.get? 1001 "idemp:k"
    = some (Uuid.ofNat 2).hex := by
  decide +kernel

end Clients

end Nimbus
