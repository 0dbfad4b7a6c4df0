/-
  Nimbus.Modules.Payments
  ───────────────────────
  **THE IDEMPOTENCY LOCK AND `process_payment`.**

  The payments service: a Redis lock on the idempotency key around a
  SELECT … FOR UPDATE, a checked status change and an outbox row.  The lock is
  released inside `process_payment`; the commit is the caller's.

    • `acquireIdempotencyLock`, `releaseIdempotencyLock`, `idempotencyLock`
    • `buildPaymentEvent`, `buildOutboxEvent`, `validateTransition`
    • `processPayment`
    • `paymentPayload_orderId` — only `extra_payload` can name an order;
    • `processPayment_wlp` — when it returns, its transaction holds an allowed
                             status change of the locked payment and the
                             matching outbox row, and the lock is released;
                             at no point does the session hold a change
                             without having acquired the lock.
-/
import Nimbus.Core.Statements

namespace Nimbus.Payments

open Lib Lib.Prog

/-! ## §1. The idempotency lock. -/

structure IdempotencyLock where
  key : String
  token : String

/-- `_redis_key`. -/
def redisKey (idempotency_key : String) : String := "idemp:" ++ idempotency_key

def idempotencyConflict (idempotency_key : String) : Exn :=
  ⟨.idempotencyConflictError, "A request with this Idempotency-Key is already in progress.",
    [("idempotency_key", .str idempotency_key), ("lock_key", .str (redisKey idempotency_key))]⟩

/-- `acquire_idempotency_lock`. -/
def acquireIdempotencyLock (idempotency_key : String) (ttl_seconds : Option Int) :
    Svc IdempotencyLock :=
  if idempotency_key = "" then
    throw ⟨.valueError, "idempotency_key must be a non-empty string", []⟩
  else do
    let token ← Svc.uuid4
    if ttl_seconds.getD 30 ≤ 0 then throw ⟨.valueError, "ttl_seconds must be > 0", []⟩
    else do
      let acquired ← Svc.redisSetNx (redisKey idempotency_key) token.hex
      if acquired then return ⟨redisKey idempotency_key, token.hex⟩
      else throw (idempotencyConflict idempotency_key)

/-- `release_idempotency_lock`: an unreachable Redis counts as not released. -/
def releaseIdempotencyLock (lock : IdempotencyLock) : Svc Bool :=
  (Svc.redisRelease lock.key lock.token).handle fun
    | .ok released => return decide (0 < released)
    | .error exc => if exc.isA .cacheUnavailableError then return false else throw exc

/-- `async with idempotency_lock(key) as lock` around `body`. -/
def idempotencyLock {α : Type} (idempotency_key : String) (body : IdempotencyLock → Svc α) :
    Svc α := do
  let lock ← acquireIdempotencyLock idempotency_key none
  finally_ (body lock) (releaseIdempotencyLock lock)

/-! ## §2. Events. -/

/-- The items of `build_payment_event`'s payload. -/
def paymentPayload (payment : Payment) (occurred_at : String)
    (extra_payload : Option (List (String × PyVal))) : List (PyKey × PyVal) :=
  dictUpdate
    [(.str "payment_id", .str payment.id.str), (.str "status", .str payment.status.value),
      (.str "amount_minor_units", .int payment.amount_minor_units),
      (.str "currency", .str payment.currency), (.str "occurred_at", .str occurred_at)]
    ((extra_payload.getD []).map fun kv => (PyKey.str kv.1, kv.2))

/-- The value of a key of `extra_payload`. -/
def extraItem (extra_payload : Option (List (String × PyVal))) (k : String) : Option PyVal :=
  dictGet (extra_payload.getD []).reverse k

/-- `build_payment_event`, given the clock and the new event's id. -/
def buildPaymentEvent (payment : Payment) (event_type : String)
    (extra_payload : Option (List (String × PyVal))) (occurred_at : String) (event_id : Uuid) :
    Except Exn EventEnvelope :=
  EventEnvelope.mk? event_id event_type 1 "Payment" payment.id.str
    (.dict (paymentPayload payment occurred_at extra_payload))

/-- The payload of a payment event is a dict with distinct string keys. -/
theorem paymentPayload_keys (payment : Payment) (occurred_at : String)
    (extra_payload : Option (List (String × PyVal))) :
    StrKeys (paymentPayload payment occurred_at extra_payload)
      ∧ ((paymentPayload payment occurred_at extra_payload).map Prod.fst).Nodup := by
  have hbase : [PyKey.str "payment_id", .str "status", .str "amount_minor_units", .str "currency",
      .str "occurred_at"].Nodup := by decide
  refine ⟨fun k hk => ?_, dictUpdate_nodup _ hbase⟩
  rcases (key_mem_dictUpdate _ _ k).mp hk with hk | hk
  · simp only [List.map_cons, List.map_nil, List.mem_cons, List.not_mem_nil, or_false] at hk
    rcases hk with rfl | rfl | rfl | rfl | rfl <;> exact ⟨_, rfl⟩
  · rw [List.map_map] at hk
    obtain ⟨kv, -, rfl⟩ := List.mem_map.mp hk
    exact ⟨kv.1, rfl⟩

/-- The fields that the payload starts from. -/
def baseFields (payment : Payment) (occurred_at : String) : List (String × PyVal) :=
  [("payment_id", .str payment.id.str), ("status", .str payment.status.value),
    ("amount_minor_units", .int payment.amount_minor_units), ("currency", .str payment.currency),
    ("occurred_at", .str occurred_at)]

theorem dictGet_strKeys (l : List (String × PyVal)) (k : String) :
    dictGet (l.map fun kv => (PyKey.str kv.1, kv.2)) (.str k) = dictGet l k := by
  induction l with
  | nil => rfl
  | cons kv l ih =>
      rw [List.map_cons, dictGet_cons, dictGet_cons, ih]
      by_cases hk : kv.1 = k
      · rw [if_pos hk, if_pos (congrArg PyKey.str hk)]
      · rw [if_neg hk, if_neg fun hc => hk (PyKey.str.inj hc)]

/-- **What the payload has under a key**: the value of `extra_payload`, if that
has the key. -/
theorem dictGet_paymentPayload (payment : Payment) (occurred_at : String)
    (extra_payload : Option (List (String × PyVal))) (k : String) :
    dictGet (paymentPayload payment occurred_at extra_payload) (.str k)
      = (extraItem extra_payload k).or (dictGet (baseFields payment occurred_at) k) := by
  show dictGet (dictUpdate ((baseFields payment occurred_at).map fun kv => (PyKey.str kv.1, kv.2)) _)
    _ = _
  unfold extraItem
  rw [dictGet_dictUpdate, ← List.map_reverse, dictGet_strKeys, dictGet_strKeys]

/-- Where it has an `order_id`, that is the one of `extra_payload`. -/
theorem paymentPayload_orderId (payment : Payment) (occurred_at : String)
    (extra_payload : Option (List (String × PyVal))) :
    dictGet (paymentPayload payment occurred_at extra_payload) (.str "order_id")
      = extraItem extra_payload "order_id" := by
  have hbase : dictGet (baseFields payment occurred_at) "order_id" = none := rfl
  rw [dictGet_paymentPayload, hbase, Option.or_none]

/-- `build_outbox_event`. -/
def buildOutboxEvent (uuid5 : Uuid5) (envelope : EventEnvelope) (topic : String) :
    Except Exn OutboxEvent :=
  outboxRow uuid5 envelope topic

/-! ## §3. The service. -/

structure ProcessPaymentRequest where
  payment_id : Uuid
  idempotency_key : String
  new_status : PaymentStatus
  extra_payload : Option (List (String × PyVal))

structure ProcessPaymentResult where
  payment : Payment
  outbox_event : OutboxEvent
  envelope : EventEnvelope

def paymentNotFound (payment_id : Uuid) : Exn :=
  ⟨.paymentNotFoundError, "Payment does not exist.", [("payment_id", .str payment_id.str)]⟩

/-- `_validate_transition`. -/
def validateTransition (current new : PaymentStatus) : Except Exn Unit :=
  if new ∈ current.allowedTransitions then .ok ()
  else .error ⟨.paymentAlreadyProcessedError,
    "Cannot transition payment from " ++ current.value ++ " to " ++ new.value ++ ".", []⟩

/-- `f"payments.payment_{status.value}"`. -/
def paymentEventType (status : PaymentStatus) : String := "payments.payment_" ++ status.value

theorem paymentEventType_len (status : PaymentStatus) :
    1 ≤ (paymentEventType status).length ∧ (paymentEventType status).length ≤ 255 := by
  cases status <;> decide

/-- The payment object of a query result. -/
def asPayment : Option Row → Option Payment
  | some (.payment p) => some p
  | _ => none

/-- The event of a payment whose status has been set, and its outbox row. -/
def emitEvent (uuid5 : Uuid5) (request : ProcessPaymentRequest) (payment : Payment) :
    Svc ProcessPaymentResult := do
  let occurred_at ← Svc.nowIso
  let event_id ← Svc.uuid4
  let envelope ← lift (buildPaymentEvent payment (paymentEventType request.new_status)
    request.extra_payload occurred_at event_id)
  let outbox ← lift (buildOutboxEvent uuid5 envelope "payments.events")
  Svc.add (.outbox outbox)
  return ⟨payment, outbox, envelope⟩

/-- The body of `process_payment`, under the lock. -/
def processLocked (uuid5 : Uuid5) (request : ProcessPaymentRequest) : Svc ProcessPaymentResult := do
  let row ← Svc.select (.payment request.payment_id) true
  match asPayment row with
  | none => throw (paymentNotFound request.payment_id)
  | some payment => do
      lift (validateTransition payment.status request.new_status)
      Svc.setPaymentStatus request.payment_id request.new_status
      emitEvent uuid5 request { payment with status := request.new_status }

/-- `process_payment`. -/
def processPayment (uuid5 : Uuid5) (request : ProcessPaymentRequest) : Svc ProcessPaymentResult :=
  idempotencyLock request.idempotency_key fun _ => processLocked uuid5 request

/-! ## §4. What is left in the transaction. -/

/-- The session has acquired the lock of its request, or it has neither done
that nor changed anything. -/
def UnderLock (request : ProcessPaymentRequest) (l : Local) : Prop :=
  (l.lock = .idle ∧ l.Untouched) ∨ l.lock.acquired (redisKey request.idempotency_key) = true

/-- The outbox row of a transition. -/
structure EventOf (uuid5 : Uuid5) (request : ProcessPaymentRequest) (p : Payment)
    (res : ProcessPaymentResult) : Prop where
  payment : res.payment = { p with status := request.new_status }
  envelope : ∃ occurred_at event_id, buildPaymentEvent res.payment
    (paymentEventType request.new_status) request.extra_payload occurred_at event_id
      = .ok res.envelope
  outbox : buildOutboxEvent uuid5 res.envelope "payments.events" = .ok res.outbox_event

/-- An allowed transition of the locked payment waits for the flush, with its
outbox row. -/
structure Processed (uuid5 : Uuid5) (request : ProcessPaymentRequest) (p : Payment)
    (res : ProcessPaymentResult) (l : Local) : Prop where
  id : p.id = request.payment_id
  locked : l.part.locked (.payment request.payment_id) = some (some (.payment p))
  allowed : request.new_status ∈ p.status.allowedTransitions
  event : EventOf uuid5 request p res
  writes : l.part.writes = []
  pending : l.session.pending = [.paymentStatus request.payment_id request.new_status,
    .insert (.outbox res.outbox_event)]

/-- What `process_payment` leaves behind. -/
def processPaymentPost (uuid5 : Uuid5) (request : ProcessPaymentRequest)
    (r : Except Exn ProcessPaymentResult) (l : Local) : Prop :=
  match r with
  | .ok res => ∃ p, Processed uuid5 request p res l
  | .error _ => True

variable {τ : Type} [DecidableEq τ] {t : τ} {J : Table Row → Prop} {l : Local}

/-- The post of the body: also that the session still holds the lock. -/
def lockedPost (uuid5 : Uuid5) (request : ProcessPaymentRequest) (token : String)
    (r : Except Exn ProcessPaymentResult) (l : Local) : Prop :=
  l.lock = .held (redisKey request.idempotency_key) token ∧ processPaymentPost uuid5 request r l

/-- A session that holds the lock of its request may change something. -/
theorem underLock_of_held {request : ProcessPaymentRequest} {token : String}
    (hlock : l.lock = .held (redisKey request.idempotency_key) token) : UnderLock request l := by
  refine Or.inr ?_
  rw [hlock]
  exact LockPhase.acquired_held _ _

/-- The event of a status change joins it in the session. -/
theorem emitEvent_wlp (uuid5 : Uuid5) (request : ProcessPaymentRequest) (p : Payment)
    {token : String} (hlock : l.lock = .held (redisKey request.idempotency_key) token)
    (hid : p.id = request.payment_id)
    (hlocked : l.part.locked (.payment request.payment_id) = some (some (.payment p)))
    (hallowed : request.new_status ∈ p.status.allowedTransitions) (hw : l.part.writes = [])
    (hp : l.session.pending = [.paymentStatus request.payment_id request.new_status]) :
    wlp (setting J t) (UnderLock request) (lockedPost uuid5 request token)
      (emitEvent uuid5 request { p with status := request.new_status }) l := by
  have hunder : UnderLock request l := underLock_of_held hlock
  refine wlp_nowIso hunder fun occurred_at => wlp_uuid4 hunder fun event_id => ?_
  show wlp _ _ _ (lift (buildPaymentEvent { p with status := request.new_status }
    (paymentEventType request.new_status) request.extra_payload occurred_at event_id) >>= _) _
  -- the payload is built before anything is added: a refused payload leaves no row behind
  cases hbuilt : buildPaymentEvent { p with status := request.new_status }
    (paymentEventType request.new_status) request.extra_payload occurred_at event_id with
  | error e => exact ⟨hunder, hlock, trivial⟩
  | ok envelope =>
      show wlp _ _ _ (lift (buildOutboxEvent uuid5 envelope "payments.events") >>= _) _
      cases hrow : buildOutboxEvent uuid5 envelope "payments.events" with
      | error e => exact ⟨hunder, hlock, trivial⟩
      | ok outbox =>
          -- the one row added is the event of the row locked above, in its new status
          refine wlp_add hunder ⟨underLock_of_held hlock, hlock, p, hid, hlocked, hallowed, ?_, hw,
            ?_⟩
          · exact ⟨rfl, ⟨occurred_at, event_id, hbuilt⟩, hrow⟩
          · show l.session.pending ++ _ = _
            rw [hp]
            rfl

/-- The body decides on the committed, locked payment. -/
theorem processLocked_wlp (uuid5 : Uuid5) (request : ProcessPaymentRequest) {token : String}
    (hlock : l.lock = .held (redisKey request.idempotency_key) token) (hl : l.Untouched)
    (hobj : l.session.objs (.payment request.payment_id) = none) :
    wlp (setting J t) (UnderLock request) (lockedPost uuid5 request token)
      (processLocked uuid5 request) l := by
  have hunder : UnderLock request l := underLock_of_held hlock
  refine wlp_selectForUpdate hunder hl.1 (fun _ => ⟨hlock, trivial⟩) ⟨hunder, hlock, trivial⟩ ?_
  intro row hrow
  -- no object is held for the key, so the query answers with the stored row itself
  have hfound : l.object (.payment request.payment_id) row = row := by
    unfold Local.object
    rw [hobj]
    rfl
  rw [hfound]
  cases row with
  | stock s => cases hrow
  | order o => cases hrow
  | outbox e => cases hrow
  | payment p =>
      have hid : p.id = request.payment_id := RowKey.payment.inj hrow
      show wlp _ _ _ (lift (validateTransition p.status request.new_status) >>= _) _
      unfold validateTransition
      split
      next hallowed =>
        -- the transition is checked on the locked row, before the first write
        refine wlp_setPaymentStatus (underLock_of_held hlock) ?_
        refine emitEvent_wlp uuid5 request p hlock hid (TxPart.lock_locked _ _ _) hallowed hl.1 ?_
        show l.session.pending ++ _ = _
        rw [hl.2]
        rfl
      next => exact ⟨hunder, hlock, trivial⟩

/-- Whatever Redis answers, the lock counts as given up. -/
theorem releaseLock_wlp (request : ProcessPaymentRequest) {token : String}
    (hlock : l.lock = .held (redisKey request.idempotency_key) token) :
    wlp (setting J t) (UnderLock request)
      (fun _ l' => l' = { l with lock := .released (redisKey request.idempotency_key) })
      (releaseIdempotencyLock ⟨redisKey request.idempotency_key, token⟩) l := by
  have hafter : UnderLock request { l with lock := .released (redisKey request.idempotency_key) } :=
    Or.inr (LockPhase.acquired_released _)
  refine wlp_redisRelease (underLock_of_held hlock) hlock fun released => ?_
  cases released with
  | ok n => exact ⟨hafter, rfl⟩
  | error e =>
      show wlp _ _ _ (if _ then _ else _) _
      split
      · exact ⟨hafter, rfl⟩
      · exact ⟨hafter, rfl⟩

/-- The postcondition does not look at the lock. -/
theorem processPaymentPost_lock {uuid5 : Uuid5} {request : ProcessPaymentRequest}
    {r : Except Exn ProcessPaymentResult} {phase : LockPhase}
    (h : processPaymentPost uuid5 request r l) :
    processPaymentPost uuid5 request r { l with lock := phase } := by
  cases r with
  | error e => trivial
  | ok res =>
      obtain ⟨p, hp⟩ := h
      exact ⟨p, hp.id, hp.locked, hp.allowed, hp.event, hp.writes, hp.pending⟩

/-- What acquiring the lock leaves behind. -/
def acquirePost (idempotency_key : String) (before : Local) (r : Except Exn IdempotencyLock)
    (l : Local) : Prop :=
  match r with
  | .ok lock => ∃ token : Uuid, lock = ⟨redisKey idempotency_key, token.hex⟩
      ∧ l = { before with mine := token :: before.mine
                          lock := .held (redisKey idempotency_key) token.hex }
  | .error _ => True

/-- An acquired lock is held under a token of the session. -/
theorem acquire_wlp (request : ProcessPaymentRequest) (ttl_seconds : Option Int)
    (hunder : UnderLock request l) :
    wlp (setting J t) (UnderLock request) (acquirePost request.idempotency_key l)
      (acquireIdempotencyLock request.idempotency_key ttl_seconds) l := by
  unfold acquireIdempotencyLock
  split
  · exact ⟨hunder, trivial⟩
  · refine wlp_uuid4 hunder fun token => ?_
    split
    · exact ⟨hunder, trivial⟩
    · refine wlp_redisSetNx hunder ⟨token, List.mem_cons_self, rfl⟩ (fun _ => trivial)
        ⟨hunder, trivial⟩ ?_
      exact ⟨underLock_of_held rfl, token, rfl, rfl⟩

/-- **`process_payment` changes nothing without the lock, and leaves an allowed
transition with its event.** -/
theorem processPayment_wlp (uuid5 : Uuid5) (request : ProcessPaymentRequest)
    (hidle : l.lock = .idle) (hl : l.Untouched)
    (hobj : l.session.objs (.payment request.payment_id) = none) :
    wlp (setting J t) (UnderLock request) (processPaymentPost uuid5 request)
      (processPayment uuid5 request) l := by
  refine wlp_bind (acquire_wlp request none (Or.inl ⟨hidle, hl⟩)) (fun _ _ _ => trivial) ?_
  rintro lock l₁ - ⟨token, rfl, rfl⟩
  refine wlp_finally (processLocked_wlp uuid5 request rfl hl hobj)
    (fun r l' _ hr => releaseLock_wlp request hr.1) ?_ (fun _ _ _ _ _ _ => trivial)
  rintro r l₁ _ l₂ hr rfl
  exact processPaymentPost_lock hr.2

end Nimbus.Payments
