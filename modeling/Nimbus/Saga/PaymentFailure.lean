/-
  Nimbus.Saga.PaymentFailure
  ──────────────────────────
  **WHAT A FAILED `process_payment` LEAVES IN ITS SESSION.**

  The status is assigned before the event is built, written and hashed, and the
  lock is given up after everything.  So a value in `extra_payload` that cannot
  be written or hashed, or an error of the release that is no cache outage, makes
  the call raise with the new status waiting in the session.

    • `Acquires`, `Transits`       — how far a path of the call gets;
    • `Writable`, `ReleaseReturns` — what must not go wrong after that;
    • `runs_acquire`, `runs_locked`, `runs_release` — the three parts of a path;
    • `Atomic`                     — a failed call has changed nothing;
    • `atomic_iff`                 — **failure is atomic exactly then.**
-/
import Nimbus.Core.ContentHash
import Nimbus.Core.Steps
import Nimbus.Saga.PaymentEvents

namespace Nimbus.Payments

open Lib Lib.Prog

variable {τ : Type}

/-! ## §1. How far a call gets. -/

/-- The call acquires the lock: its key is not empty, Redis answers the `SET NX`,
and the key is free. -/
def Acquires (idempotency_key : String) (ms : Moves τ) : Prop :=
  idempotency_key ≠ "" ∧ ∃ m₀ m₁ rest, ms = m₀ :: m₁ :: rest ∧ m₁.choice.fault = none
    ∧ m₁.state.redis (redisKey idempotency_key) = none

/-- The SELECT answers with a payment that may go to the new status. -/
def MayTransit (t : τ) (request : ProcessPaymentRequest) (m : Move (World τ) Choice) : Prop :=
  m.choice.fault = none ∧ ∃ p, m.state.found t (.payment request.payment_id) = some (.payment p)
    ∧ request.new_status ∈ p.status.allowedTransitions

/-- The call acquires the lock and its transition is allowed. -/
def Transits (t : τ) (request : ProcessPaymentRequest) (ms : Moves τ) : Prop :=
  Acquires request.idempotency_key ms
    ∧ ∃ m₀ m₁ m₂ rest, ms = m₀ :: m₁ :: m₂ :: rest ∧ MayTransit t request m₂

/-- Every value of `extra_payload` can be written and hashed. -/
def Writable (request : ProcessPaymentRequest) : Prop :=
  ∀ k v, extraItem request.extra_payload k = some v →
    v.dump.isSome = true ∧ (dumpsChars v).isSome = true

/-- The release does not raise: Redis answers, or counts as unavailable. -/
def Returns (m : Move (World τ) Choice) : Prop :=
  ∀ f, m.choice.fault = some f → f.exn.isA .cacheUnavailableError = true

/-- The last operation of the call, the release, does not raise. -/
def ReleaseReturns (ms : Moves τ) : Prop := ∀ m, ms.getLast? = some m → Returns m

/-- The session holds no change made on the path: it waits to flush what it did
before, and the payment object is the one loaded before, or has been loaded now. -/
structure Unchanged (t : τ) (request : ProcessPaymentRequest) (w : World τ) (ms : Moves τ)
    (w' : World τ) : Prop where
  pending : (w'.session t).pending = (w.session t).pending
  object : (w'.session t).objs (.payment request.payment_id)
      = (w.session t).objs (.payment request.payment_id)
    ∨ ((w.session t).objs (.payment request.payment_id) = none
      ∧ ∃ m ∈ ms, (w'.session t).objs (.payment request.payment_id)
        = m.state.store.view t (.payment request.payment_id))

/-- **A failed call has changed nothing**, and has given up the lock if it had
acquired it and Redis answers. -/
structure Atomic (t : τ) (request : ProcessPaymentRequest) (w : World τ) (ms : Moves τ)
    (w' : World τ) : Prop extends Unchanged t request w ms w' where
  released : Acquires request.idempotency_key ms →
    ∀ m₀ m, ms.head? = some m₀ → ms.getLast? = some m → m.choice.fault = none →
      w'.redis (redisKey request.idempotency_key) ≠ some m₀.choice.uuid.hex

variable {t : τ} {w w' : World τ} {ms : Moves τ}

theorem Acquires.append {idempotency_key : String} (h : Acquires idempotency_key ms)
    (ms' : Moves τ) : Acquires idempotency_key (ms ++ ms') := by
  obtain ⟨hkey, m₀, m₁, rest, rfl, hfree⟩ := h
  exact ⟨hkey, m₀, m₁, rest ++ ms', rfl, hfree⟩

theorem releaseReturns_append {ms : Moves τ} {m : Move (World τ) Choice} :
    ReleaseReturns (ms ++ [m]) ↔ Returns m := by
  unfold ReleaseReturns
  rw [List.getLast?_append]
  constructor
  · exact fun h => h m rfl
  · rintro h m' hm
    obtain rfl := Option.some.inj hm
    exact h

theorem Unchanged.of_session {request : ProcessPaymentRequest}
    (h : w'.session t = w.session t) : Unchanged t request w ms w' :=
  ⟨by rw [h], Or.inl (by rw [h])⟩

/-- A longer path, whose other operations leave the session alone. -/
theorem Unchanged.extend {request : ProcessPaymentRequest} {w₁ w₂ : World τ} {ms' : Moves τ}
    (h : Unchanged t request w₁ ms w₂) (hbefore : w₁.session t = w.session t)
    (hafter : w'.session t = w₂.session t) (hms : ∀ m ∈ ms, m ∈ ms') :
    Unchanged t request w ms' w' := by
  refine ⟨?_, ?_⟩
  · rw [hafter, h.pending, hbefore]
  · rw [hafter, ← hbefore]
    rcases h.object with hsame | ⟨hnone, m, hm, hloaded⟩
    · exact Or.inl hsame
    · exact Or.inr ⟨hnone, m, hms m hm, hloaded⟩

/-- Loading the payment does not count as a change. -/
theorem unchanged_load {request : ProcessPaymentRequest} {m : Move (World τ) Choice} {obj : Row}
    (hbefore : m.state.session t = w.session t)
    (hfound : m.state.found t (.payment request.payment_id) = some obj)
    (hs : w'.session t = (m.state.session t).load (.payment request.payment_id) obj) :
    Unchanged t request w (m :: ms) w' := by
  have hobj : (w'.session t).objs (.payment request.payment_id) = some obj := by
    rw [hs]
    exact Function.update_self ..
  refine ⟨by rw [hs, hbefore]; rfl, ?_⟩
  rw [hobj, ← hbefore]
  unfold World.found at hfound
  obtain ⟨row, hrow, rfl⟩ := Option.map_eq_some_iff.mp hfound
  -- a loaded object is answered as it is, a new one is the row
  cases hloaded : (m.state.session t).objs (.payment request.payment_id) with
  | some o => exact Or.inl rfl
  | none => exact Or.inr ⟨rfl, m, List.mem_cons_self, hrow.symm⟩

/-! ## §2. The lock. -/

theorem setNx_session (w : World τ) (key token : String) :
    (w.setNx key token).2.session = w.session := by
  unfold World.setNx
  split
  all_goals rfl

theorem releaseKey_session (w : World τ) (key token : String) :
    (w.releaseKey key token).2.session = w.session := by
  unfold World.releaseKey
  split
  all_goals rfl

/-- After the script the key does not hold the token. -/
theorem releaseKey_redis (w : World τ) (key token : String) :
    (w.releaseKey key token).2.redis key ≠ some token := by
  unfold World.releaseKey
  split
  next =>
    show Function.update w.redis key none key ≠ _
    rw [Function.update_self]
    exact fun hc => (nomatch hc)
  next h => exact h

variable [DecidableEq τ]

/-- `SET NX` does not look at the session. -/
theorem exec_redisSetNx {c : Choice} {key token : String} {r : Except Exn Bool}
    (h : exec c t (.redisSetNx key token) w = some (r, w')) :
    w'.session t = w.session t
      ∧ ((∃ e, r = .error e ∧ c.fault ≠ none) ∨ (r = .ok false ∧ w.redis key ≠ none)
        ∨ (r = .ok true ∧ c.fault = none ∧ w.redis key = none)) := by
  simp only [exec] at h
  split at h
  next f hf =>
    obtain ⟨rfl, rfl⟩ := Prod.mk.inj (Option.some.inj h)
    -- the answer is lost
    refine ⟨?_, Or.inl ⟨f.exn, rfl, by rw [hf]; exact Option.some_ne_none f⟩⟩
    split
    · rw [setNx_session]
    · rfl
  next hf =>
    unfold World.setNx at h
    cases hk : w.redis key with
    | none =>
        rw [hk] at h
        obtain ⟨rfl, rfl⟩ := Prod.mk.inj (Option.some.inj h)
        exact ⟨rfl, Or.inr (Or.inr ⟨rfl, hf, rfl⟩)⟩
    | some v =>
        rw [hk] at h
        obtain ⟨rfl, rfl⟩ := Prod.mk.inj (Option.some.inj h)
        exact ⟨rfl, Or.inr (Or.inl ⟨rfl, Option.some_ne_none v⟩)⟩

/-- **Acquiring the lock** leaves the session alone. -/
theorem runs_acquire {idempotency_key : String} {r : Except Exn IdempotencyLock}
    (h : Runs t (acquireIdempotencyLock idempotency_key none) w ms r w') :
    w'.session t = w.session t
      ∧ ((∃ e, r = .error e ∧ ¬ Acquires idempotency_key ms)
        ∨ ∃ m₀ m₁, ms = [m₀, m₁] ∧ Acquires idempotency_key ms
          ∧ r = .ok ⟨redisKey idempotency_key, m₀.choice.uuid.hex⟩) := by
  unfold acquireIdempotencyLock at h
  split at h
  next hempty =>
    -- an empty key is refused before anything is asked
    obtain ⟨rfl, rfl, rfl⟩ := runs_ret h
    exact ⟨rfl, Or.inl ⟨_, rfl, fun hc => hc.1 hempty⟩⟩
  next hkey =>
    rcases runs_bind h with ⟨ms₁, ms₂, token, w₁, rfl, h₁, h₂⟩ | ⟨e, rfl, h₁⟩
    · obtain ⟨m₀, rfl, ho₀, he₀⟩ := runs_op h₁
      obtain ⟨hr₀, hs₀⟩ := exec_uuid4 he₀
      obtain rfl := Except.ok.inj hr₀
      rw [if_neg (by decide)] at h₂
      have hbefore : w₁.session t = w.session t := hs₀.trans (session_of_local ho₀)
      rcases runs_bind h₂ with ⟨ms₁', ms₃, acquired, w₂, rfl, h₃, h₄⟩ | ⟨e, rfl, h₃⟩
      · obtain ⟨m₁, rfl, ho₁, he₁⟩ := runs_op h₃
        obtain ⟨hs₁, hcases⟩ := exec_redisSetNx he₁
        have hafter : w₂.session t = w.session t :=
          (hs₁.trans (session_of_local ho₁)).trans hbefore
        rcases hcases with ⟨e, hr, -⟩ | ⟨hr, htaken⟩ | ⟨hr, hf, hfree⟩
        · cases hr
        · -- another request holds the lock
          obtain rfl := Except.ok.inj hr
          obtain ⟨rfl, rfl, rfl⟩ := runs_ret h₄
          refine ⟨hafter, Or.inl ⟨_, rfl, fun hc => ?_⟩⟩
          obtain ⟨-, m₀', m₁', rest, heq, -, hfree⟩ := hc
          obtain ⟨-, rfl, -⟩ := List.cons_eq_cons.mp heq |>.imp_right List.cons_eq_cons.mp
          exact htaken hfree
        · -- the key was free, and now holds this call's token
          obtain rfl := Except.ok.inj hr
          obtain ⟨rfl, rfl, rfl⟩ := runs_ret h₄
          exact ⟨hafter, Or.inr ⟨m₀, m₁, rfl, ⟨hkey, m₀, m₁, [], rfl, hf, hfree⟩, rfl⟩⟩
      · -- Redis has failed: no lock, whatever it has done
        obtain ⟨m₁, rfl, ho₁, he₁⟩ := runs_op h₃
        obtain ⟨hs₁, hcases⟩ := exec_redisSetNx he₁
        refine ⟨(hs₁.trans (session_of_local ho₁)).trans hbefore, Or.inl ⟨e, rfl, fun hc => ?_⟩⟩
        obtain ⟨-, m₀', m₁', rest, heq, hf, -⟩ := hc
        obtain ⟨-, rfl, -⟩ := List.cons_eq_cons.mp heq |>.imp_right List.cons_eq_cons.mp
        rcases hcases with ⟨e', -, hfault⟩ | ⟨hr, -⟩ | ⟨hr, -⟩
        · exact hfault hf
        · cases hr
        · cases hr
    · obtain ⟨m₀, rfl, ho₀, he₀⟩ := runs_op h₁
      cases (exec_uuid4 he₀).1

/-- **Giving up the lock** leaves the session alone. -/
theorem runs_release {lock : IdempotencyLock} {r : Except Exn Bool}
    (h : Runs t (releaseIdempotencyLock lock) w ms r w') :
    ∃ m, ms = [m] ∧ w'.session t = w.session t ∧ ((∃ e, r = .error e) ↔ ¬ Returns m)
      ∧ (m.choice.fault = none → w'.redis lock.key ≠ some lock.token) := by
  obtain ⟨ms₁, ms₂, released, w₁, rfl, h₁, h₂⟩ := runs_handle h
  obtain ⟨m, rfl, ho, he⟩ := runs_op h₁
  simp only [exec] at he
  split at he
  next f hf =>
    obtain ⟨rfl, rfl⟩ := Prod.mk.inj (Option.some.inj he)
    have hend : Runs t (if f.exn.isA .cacheUnavailableError then .ret (.ok false)
        else .ret (.error f.exn)) _ ms₂ r w' := h₂
    have hsession : (((if m.choice.executed then (m.state.releaseKey lock.key lock.token).2
        else m.state).setLock t (.released lock.key)).session t) = w.session t := by
      rw [← session_of_local ho]
      split
      · exact congrFun (releaseKey_session m.state lock.key lock.token) t
      · rfl
    have hnone : m.choice.fault = none → w'.redis lock.key ≠ some lock.token := by
      rw [hf]
      intro hc
      cases hc
    -- `release` catches a CacheUnavailableError and lets anything else out
    split at hend
    next hisA =>
      obtain ⟨rfl, rfl, rfl⟩ := runs_ret hend
      refine ⟨m, rfl, hsession, iff_of_false (fun hc => ?_) (fun hc => hc ?_), hnone⟩
      · obtain ⟨e, he⟩ := hc
        cases he
      · intro f' hf'
        obtain rfl := Option.some.inj (hf.symm.trans hf')
        exact hisA
    next hisA =>
      obtain ⟨rfl, rfl, rfl⟩ := runs_ret hend
      exact ⟨m, rfl, hsession, iff_of_true ⟨_, rfl⟩ (fun hc => hisA (hc f hf)), hnone⟩
  next hf =>
    obtain ⟨rfl, rfl⟩ := Prod.mk.inj (Option.some.inj he)
    obtain ⟨rfl, rfl, rfl⟩ := runs_ret h₂
    refine ⟨m, rfl, ?_, iff_of_false (fun hc => ?_) (fun hc => hc ?_), fun _ => ?_⟩
    · rw [← session_of_local ho]
      exact congrFun (releaseKey_session m.state lock.key lock.token) t
    · obtain ⟨e, he⟩ := hc
      cases he
    · intro f hf'
      rw [hf] at hf'
      cases hf'
    · exact releaseKey_redis m.state lock.key lock.token

/-! ## §3. Writing the event. -/

/-- Two results together. -/
theorem isSome_bind_map {α β γ : Type} {x : Option α} {y : Option β} {f : α → β → γ} :
    (x.bind fun a => y.map (f a)).isSome = true ↔ x.isSome = true ∧ y.isSome = true := by
  cases x with
  | none => exact iff_of_false (fun hc => (nomatch hc)) (fun hc => nomatch hc.1)
  | some a =>
      rw [Option.bind_some, Option.isSome_map]
      exact (and_iff_right rfl).symm

theorem isSome_dumpItems {items : List (PyKey × PyVal)} :
    (PyVal.dumpItems items).isSome = true ↔ ∀ kv ∈ items, kv.2.dump.isSome = true := by
  induction items with
  | nil => exact iff_of_true rfl fun kv hkv => absurd hkv List.not_mem_nil
  | cons kv items ih =>
      rw [List.forall_mem_cons, ← ih]
      exact isSome_bind_map

theorem isSome_dumpsItems {items : List (PyKey × PyVal)} :
    (dumpsItems items).isSome = true ↔ ∀ kv ∈ items, (dumpsChars kv.2).isSome = true := by
  induction items with
  | nil => exact iff_of_true rfl fun kv hkv => absurd hkv List.not_mem_nil
  | cons kv items ih =>
      rw [List.forall_mem_cons, ← ih]
      exact isSome_bind_map

/-- A dict with string keys is hashed if its values are. -/
theorem isSome_dumpsChars_dict {items : List (PyKey × PyVal)} (hs : StrKeys items) :
    (dumpsChars (.dict items)).isSome = true
      ↔ ∀ kv ∈ items, (dumpsChars kv.2).isSome = true := by
  rw [← isSome_dumpsItems]
  show ((dumpsItems items).bind objectText).isSome = true ↔ _
  cases hits : dumpsItems items with
  | none => exact Iff.rfl
  | some its =>
      have hsort : sortable (its.map Prod.fst) = true := by
        rw [keys_dumpsItems hits]
        exact sortable_of_strings hs
      refine iff_of_true ?_ rfl
      show (objectText its).isSome = true
      unfold objectText
      rw [if_pos hsort]
      rfl

/-- What holds of the values of a payment event's payload: it holds of those of
`extra_payload`, where it does of the payment's own. -/
theorem forall_paymentPayload {P : PyVal → Prop} (p : Payment) (occurred_at : String)
    {extra_payload : Option (List (String × PyVal))}
    (hbase : ∀ k v, dictGet (baseFields p occurred_at) k = some v → P v) :
    (∀ kv ∈ paymentPayload p occurred_at extra_payload, P kv.2)
      ↔ ∀ k v, extraItem extra_payload k = some v → P v := by
  obtain ⟨hstr, hnodup⟩ := paymentPayload_keys p occurred_at extra_payload
  constructor
  · intro h k v hv
    have hget : dictGet (paymentPayload p occurred_at extra_payload) (.str k) = some v := by
      rw [dictGet_paymentPayload, hv]
      rfl
    exact h _ ((dictGet_eq_some hnodup).mp hget)
  · rintro h ⟨k, v⟩ hkv
    obtain ⟨s, rfl⟩ := hstr k (List.mem_map_of_mem hkv)
    have hget := (dictGet_eq_some hnodup).mpr hkv
    rw [dictGet_paymentPayload] at hget
    -- extra fields come over those of the payment
    cases hextra : extraItem extra_payload s with
    | some v' =>
        rw [hextra] at hget
        obtain rfl := Option.some.inj hget
        exact h s v' hextra
    | none =>
        rw [hextra] at hget
        exact hbase s v hget

/-- The payment's own values are written and hashed. -/
theorem baseFields_written (p : Payment) (occurred_at : String) (k : String) (v : PyVal)
    (h : dictGet (baseFields p occurred_at) k = some v) :
    v.dump.isSome = true ∧ (dumpsChars v).isSome = true := by
  simp only [baseFields, dictGet_cons, dictGet_nil] at h
  split_ifs at h
  all_goals
    obtain rfl := Option.some.inj h
    exact ⟨rfl, rfl⟩

/-- The fields of a payment event are within bounds. -/
theorem buildPaymentEvent_ok (p : Payment) (status : PaymentStatus)
    (extra_payload : Option (List (String × PyVal))) (occurred_at : String) (event_id : Uuid) :
    ∃ envelope, buildPaymentEvent p (paymentEventType status) extra_payload occurred_at event_id
        = .ok envelope
      ∧ envelope.payload = .dict (paymentPayload p occurred_at extra_payload) := by
  have htype : 1 ≤ (paymentEventType status).length ∧ (paymentEventType status).length ≤ 255 := by
    cases status <;> decide
  have hid : 1 ≤ p.id.str.length ∧ p.id.str.length ≤ 128 := by
    rw [Uuid.length_str]
    decide
  unfold buildPaymentEvent EventEnvelope.mk?
  rw [dif_pos htype, dif_pos (by decide), dif_pos (by decide), dif_pos hid]
  exact ⟨_, rfl, rfl⟩

/-- An outbox row is built if the payload can be written and hashed. -/
theorem buildOutboxEvent_isOk (uuid5 : Uuid5) (envelope : EventEnvelope) (topic : String) :
    (∃ row, buildOutboxEvent uuid5 envelope topic = .ok row)
      ↔ envelope.payload.dump.isSome = true ∧ (dumpsChars envelope.payload).isSome = true := by
  unfold buildOutboxEvent outboxRow EventEnvelope.modelDump EventEnvelope.contentHash dumps
  rw [EventEnvelope.dumpsChars_hashed]
  cases envelope.payload.dump with
  | none => exact iff_of_false (fun ⟨_, hc⟩ => nomatch hc) (fun hc => nomatch hc.1)
  | some j =>
      cases dumpsChars envelope.payload with
      | none => exact iff_of_false (fun ⟨_, hc⟩ => nomatch hc) (fun hc => nomatch hc.2)
      | some p => exact iff_of_true ⟨_, rfl⟩ ⟨rfl, rfl⟩

/-- **A payment event is built exactly when `extra_payload` is writable.** -/
theorem event_isOk (uuid5 : Uuid5) (request : ProcessPaymentRequest) (p : Payment)
    (occurred_at : String) {envelope : EventEnvelope}
    (h : envelope.payload = .dict (paymentPayload p occurred_at request.extra_payload)) :
    (∃ row, buildOutboxEvent uuid5 envelope "payments.events" = .ok row) ↔ Writable request := by
  obtain ⟨hstr, -⟩ := paymentPayload_keys p occurred_at request.extra_payload
  rw [buildOutboxEvent_isOk, h, isSome_dumpsChars_dict hstr]
  have hdump : ((PyVal.dict (paymentPayload p occurred_at request.extra_payload)).dump).isSome = true
      ↔ ∀ kv ∈ paymentPayload p occurred_at request.extra_payload, kv.2.dump.isSome = true := by
    rw [← isSome_dumpItems]
    show ((PyVal.dumpItems _).map Json.mkObj).isSome = true ↔ _
    rw [Option.isSome_map]
  rw [hdump, forall_paymentPayload p occurred_at fun k v hv => (baseFields_written p occurred_at k v hv).1,
    forall_paymentPayload p occurred_at fun k v hv => (baseFields_written p occurred_at k v hv).2]
  constructor
  · exact fun hall k v hv => ⟨hall.1 k v hv, hall.2 k v hv⟩
  · exact fun hall => ⟨fun k v hv => (hall k v hv).1, fun k v hv => (hall k v hv).2⟩

/-! ## §4. The body. -/

/-- The event of a transition joins the new status in the session. -/
theorem runs_emit {uuid5 : Uuid5} {request : ProcessPaymentRequest} {p : Payment}
    {r : Except Exn ProcessPaymentResult} (h : Runs t (emitEvent uuid5 request p) w ms r w') :
    (∃ added, (w'.session t).pending = (w.session t).pending ++ added)
      ∧ ((∃ res, r = .ok res) ↔ Writable request) := by
  obtain ⟨m₀, rest₀, r₀, w₀, rfl, ho₀, he₀, hclock⟩ := runs_next h
  obtain ⟨rfl, rfl⟩ := Prod.mk.inj (Option.some.inj he₀)
  rcases hclock with ⟨occurred_at, hr₀, h⟩ | ⟨e, hr₀, -⟩
  · obtain ⟨m₁, rest₁, r₁, w₁, rfl, ho₁, he₁, hid⟩ := runs_next h
    obtain ⟨rfl, hs₁⟩ := exec_uuid4 he₁
    have hbefore : w₁.session t = w.session t :=
      (hs₁.trans (session_of_local ho₁)).trans (session_of_local ho₀)
    rcases hid with ⟨event_id, hr₁, h⟩ | ⟨e, hr₁, -⟩
    · obtain ⟨envelope, hbuilt, hpayload⟩ := buildPaymentEvent_ok p request.new_status
        request.extra_payload occurred_at event_id
      have hwritable := event_isOk uuid5 request p occurred_at hpayload
      rw [hbuilt] at h
      change Runs t (lift (buildOutboxEvent uuid5 envelope "payments.events") >>= _) w₁ rest₁ r w'
        at h
      cases hrow : buildOutboxEvent uuid5 envelope "payments.events" with
      | error e =>
          -- no row is added, and the status keeps waiting
          rw [hrow] at h hwritable
          obtain ⟨rfl, rfl, rfl⟩ := runs_ret h
          refine ⟨⟨[], by rw [hbefore, List.append_nil]⟩, ?_⟩
          rw [← hwritable]
          exact iff_of_false (fun ⟨_, hc⟩ => nomatch hc) (fun ⟨_, hc⟩ => nomatch hc)
      | ok row =>
          rw [hrow] at h hwritable
          obtain ⟨m₂, rest₂, r₂, w₂, rfl, ho₂, he₂, hadd⟩ := runs_next h
          obtain ⟨rfl, rfl⟩ := Prod.mk.inj (Option.some.inj he₂)
          rcases hadd with ⟨u, -, h⟩ | ⟨e, hr₂, -⟩
          · obtain ⟨rfl, rfl, rfl⟩ := runs_ret h
            refine ⟨⟨[.insert (.outbox row)], ?_⟩, ?_⟩
            · rw [World.setSession_self, session_of_local ho₂, hbefore]
            · rw [← hwritable]
              exact iff_of_true ⟨_, rfl⟩ ⟨_, rfl⟩
          · cases hr₂
    · cases hr₁
  · cases hr₀

/-- **The body**: it fails and has changed nothing, or the transition is
allowed, and the session waits to flush more than before. -/
theorem runs_locked {uuid5 : Uuid5} {request : ProcessPaymentRequest}
    {r : Except Exn ProcessPaymentResult} (h : Runs t (processLocked uuid5 request) w ms r w') :
    ∃ m rest, ms = m :: rest
      ∧ ((¬ MayTransit t request m ∧ (∃ e, r = .error e) ∧ Unchanged t request w ms w')
        ∨ (MayTransit t request m ∧ (w'.session t).pending ≠ (w.session t).pending
          ∧ ((∃ res, r = .ok res) ↔ Writable request))) := by
  obtain ⟨m, rest, r₀, w₁, rfl, ho, he, hselect⟩ := runs_next h
  have hbefore := session_of_local ho
  refine ⟨m, rest, rfl, ?_⟩
  rcases exec_select he with ⟨f, hf, rfl, rfl⟩ | ⟨hf, hnone, rfl, rfl⟩ | ⟨obj, hf, hfound, rfl, hs⟩
  · -- the query fails
    rcases hselect with ⟨a, hr, -⟩ | ⟨e, -, -, rfl, rfl⟩
    · cases hr
    · refine Or.inl ⟨fun hc => ?_, ⟨e, rfl⟩, Unchanged.of_session hbefore⟩
      cases hf.symm.trans hc.1
  · -- there is no such payment
    rcases hselect with ⟨a, hr, h⟩ | ⟨e, hr, -⟩
    · obtain rfl := Except.ok.inj hr
      obtain ⟨rfl, rfl, rfl⟩ := runs_ret h
      refine Or.inl ⟨fun hc => ?_, ⟨_, rfl⟩, Unchanged.of_session hbefore⟩
      obtain ⟨-, p, hp, -⟩ := hc
      rw [hnone] at hp
      cases hp
    · cases hr
  · rcases hselect with ⟨a, hr, h⟩ | ⟨e, hr, -⟩
    · obtain rfl := Except.ok.inj hr
      have hload : Unchanged t request w (m :: rest) w₁ := unchanged_load hbefore hfound hs
      have hother : asPayment (some obj) = none → ¬ MayTransit t request m := by
        rintro hobj ⟨-, p, hp, -⟩
        cases Option.some.inj (hfound.symm.trans hp)
        cases hobj
      cases obj with
      | payment p =>
          change Runs t (lift (validateTransition p.status request.new_status) >>= _) w₁ rest r w'
            at h
          by_cases hallowed : request.new_status ∈ p.status.allowedTransitions
          · rw [validateTransition, if_pos hallowed] at h
            refine Or.inr ⟨⟨hf, p, hfound, hallowed⟩, ?_⟩
            obtain ⟨m₁, rest₁, r₁, w₂, rfl, ho₁, he₁, hset⟩ := runs_next h
            obtain ⟨rfl, rfl⟩ := Prod.mk.inj (Option.some.inj he₁)
            rcases hset with ⟨u, -, h⟩ | ⟨e, hr₁, -⟩
            · obtain ⟨⟨added, hadded⟩, hok⟩ := runs_emit h
              refine ⟨fun hc => ?_, hok⟩
              -- at least the status is waiting
              rw [hadded, World.setSession_self, session_of_local ho₁, ← hload.pending,
                List.append_assoc] at hc
              exact absurd (List.append_right_eq_self.mp hc) (List.cons_ne_nil _ _)
            · cases hr₁
          · -- InvalidTransitionError, before the status is set
            rw [validateTransition, if_neg hallowed] at h
            obtain ⟨rfl, rfl, rfl⟩ := runs_ret h
            refine Or.inl ⟨?_, ⟨_, rfl⟩, hload⟩
            rintro ⟨-, p', hp', hmem⟩
            cases Option.some.inj (hfound.symm.trans hp')
            exact hallowed hmem
      | _ =>
          obtain ⟨rfl, rfl, rfl⟩ := runs_ret h
          exact Or.inl ⟨hother rfl, ⟨_, rfl⟩, hload⟩
    · cases hr

/-! ## §5. When failure is atomic. -/

/-- **A call that fails has changed nothing, exactly when** once its transition
is allowed, `extra_payload` can be written and hashed and the release does not
raise. -/
theorem atomic_iff {uuid5 : Uuid5} {request : ProcessPaymentRequest}
    {r : Except Exn ProcessPaymentResult} (h : Runs t (processPayment uuid5 request) w ms r w') :
    ((∃ e, r = .error e) → Atomic t request w ms w')
      ↔ (Transits t request ms → Writable request ∧ ReleaseReturns ms) := by
  rcases runs_bind h with ⟨ms₁, ms₂, lock, w₁, rfl, hacquire, h⟩ | ⟨e, rfl, hacquire⟩
  · obtain ⟨hs₁, ⟨e, hr, -⟩ | ⟨m₀, m₁, rfl, hacquired, hr⟩⟩ := runs_acquire hacquire
    · cases hr
    · obtain rfl := Except.ok.inj hr
      obtain ⟨ms₃, ms₄, r₁, w₂, r₂, rfl, hbody, hrelease, hend⟩ := runs_finally h
      obtain ⟨m₂, rest, rfl, hbody⟩ := runs_locked hbody
      obtain ⟨m₃, rfl, hs₃, hreturns, hgone⟩ := runs_release hrelease
      -- the condition is about the body's SELECT and the last operation
      have htransits : Transits t request ([m₀, m₁] ++ (m₂ :: rest ++ [m₃]))
          ↔ MayTransit t request m₂ := by
        constructor
        · rintro ⟨-, m₀', m₁', m₂', rest', heq, hmay⟩
          obtain ⟨-, heq⟩ := List.cons_eq_cons.mp heq
          obtain ⟨-, heq⟩ := List.cons_eq_cons.mp heq
          obtain ⟨rfl, -⟩ := List.cons_eq_cons.mp heq
          exact hmay
        · exact fun hmay => ⟨hacquired.append _, m₀, m₁, m₂, _, rfl, hmay⟩
      have hlast : ReleaseReturns ([m₀, m₁] ++ (m₂ :: rest ++ [m₃])) ↔ Returns m₃ := by
        rw [← List.append_assoc]
        exact releaseReturns_append
      rw [htransits, hlast]
      rcases hbody with ⟨hmay, -, hsame⟩ | ⟨hmay, hchanged, hok⟩
      · -- nothing has been changed when the lock is given up
        refine iff_of_true (fun _ => ⟨hsame.extend hs₁ hs₃ fun m hm => ?_, fun _ => ?_⟩)
          (fun hc => absurd hc hmay)
        · exact List.mem_append_right _ (List.mem_append_left _ hm)
        · intro m₀' m hhead hm hf
          obtain rfl := Option.some.inj hhead
          rw [← List.append_assoc, List.getLast?_append] at hm
          obtain rfl := Option.some.inj hm
          exact hgone hf
      · -- the status waits: only a call that returns is atomic
        have hnot : ¬ Atomic t request w ([m₀, m₁] ++ (m₂ :: rest ++ [m₃])) w' := by
          intro hc
          refine hchanged ?_
          rw [← hs₃, hc.pending, hs₁]
        have hraises := raises_of_finally hend
        rw [hok, hreturns, not_not] at hraises
        constructor
        · exact fun hall _ => by_contra fun hc => hnot (hall (hraises.mpr hc))
        · exact fun hall hraise => absurd (hall hmay) (hraises.mp hraise)
  · -- without the lock there is no body
    obtain ⟨hs, ⟨e', hr, hnot⟩ | ⟨m₀, m₁, rfl, -, hr⟩⟩ := runs_acquire hacquire
    · exact iff_of_true (fun _ => ⟨Unchanged.of_session hs, fun hc => absurd hc hnot⟩)
        (fun hc => absurd hc.1 hnot)
    · cases hr

/-- The due payment is to be authorized; `json.dumps` cannot sort the keys of
`meta`. -/
def mixedRequest : ProcessPaymentRequest :=
  { askFor "k" .authorized with
    extra_payload := some [("meta", .dict [(.int 1, .str "a"), (.str "b", .int 2)])] }

/-- The call alone: Redis and the database answer. -/
def mixedPath : Option (Moves Nat × Svc ProcessPaymentResult × World Nat) :=
  alone (World.among 0) [{ uuid := Uuid.ofNat 10 }, {}, {}, {}, {}, { uuid := Uuid.ofNat 11 }, {}]
    (processPayment (fun c => c) mixedRequest) (World.init dueTable)

theorem mixedPath_ends : ∃ ms e w', mixedPath = some (ms, .ret (.error e), w')
    ∧ (w'.session 0).pending.length = 1 := ⟨_, _, _, rfl, rfl⟩

/-- **The call has raised, and the new status waits for the caller's commit**,
without an event. -/
theorem failure_not_atomic :
    ¬ ∀ (request : ProcessPaymentRequest) (w : World Nat) (ms : Moves Nat) (e : Exn)
        (w' : World Nat), Runs 0 (processPayment (fun c => c) request) w ms (.error e) w' →
          Atomic 0 request w ms w' := by
  intro h
  obtain ⟨ms, e, w', hpath, hlength⟩ := mixedPath_ends
  have hatomic := h mixedRequest (World.init dueTable) ms e w' (path_alone (fun _ => rfl) hpath)
  rw [hatomic.pending] at hlength
  cases hlength

theorem atomic_iff_mixed : ∃ ms e w',
    Runs 0 (processPayment (fun c => c) mixedRequest) (World.init dueTable) ms (.error e) w'
      ∧ (((∃ e', (.error e : Except Exn ProcessPaymentResult) = .error e') →
          Atomic 0 mixedRequest (World.init dueTable) ms w')
        ↔ (Transits 0 mixedRequest ms → Writable mixedRequest ∧ ReleaseReturns ms)) := by
  obtain ⟨ms, e, w', hpath, -⟩ := mixedPath_ends
  have hruns : Runs 0 (processPayment (fun c => c) mixedRequest) (World.init dueTable) ms (.error e)
      w' := path_alone (fun _ => rfl) hpath
  exact ⟨ms, e, w', hruns, atomic_iff hruns⟩

end Nimbus.Payments
