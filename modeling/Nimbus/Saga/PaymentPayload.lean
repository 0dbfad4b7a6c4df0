/-
  Nimbus.Saga.PaymentPayload
  ──────────────────────────
  **PAYMENT EVENTS NAME AN ORDER ONLY IF THE REQUEST DOES.**

  The handlers of `OrderConsumer` look for an `order_id` in the payload of a
  payment event.  `build_payment_event` writes the payment's own fields and
  whatever `extra_payload` holds, and a payment knows no order: so an event is
  acted on exactly when the caller of `process_payment` has put a text that
  parses as a UUID, or something pydantic writes as one, under `order_id`.

    • `NamesOrder`        — what `extra_payload` has to hold;
    • `ActedOn`           — the handler calls `update_order_status`;
    • `relayed_payment`   — a payment event as the consumer receives it;
    • `payment_event_iff` — **every event that `process_payment` writes.**
-/
import Nimbus.Saga.Closure
import Nimbus.Saga.Placement

namespace Nimbus

open Lib Lib.Prog Orders Payments

variable {τ : Type} [DecidableEq τ]

/-! ## §1. What a handler makes of a payload. -/

/-- The `extra_payload` of a request has under `order_id` what pydantic writes
as a string that `uuid.UUID` reads. -/
def NamesOrder (request : ProcessPaymentRequest) : Prop :=
  ∃ s id, (extraItem request.extra_payload "order_id").bind PyVal.dump = some (.str s)
    ∧ Uuid.parse s = some id

/-- A received event is acted on: the payload has an order id, and what the
handler does with it starts with `update_order_status`. -/
def ActedOn (received : String × EventEnvelope) : Prop :=
  ∃ status id, ∃ rest : Order → Svc Unit, requestedStatus received.1 received.2.event_type = some status
    ∧ orderIdOf received.2.payload = .ok (some id)
    ∧ dispatch received.1 received.2 = updateOrderStatus id status >>= rest

/-- A handler that finds an order id calls `update_order_status`. -/
theorem actedOn_iff {received : String × EventEnvelope} {status : OrderStatus}
    (h : requestedStatus received.1 received.2.event_type = some status) :
    ActedOn received ↔ ∃ id, orderIdOf received.2.payload = .ok (some id) := by
  constructor
  · intro hacted
    obtain ⟨_, id, _, -, hid, -⟩ := hacted
    exact ⟨id, hid⟩
  · intro hid
    obtain ⟨id, hid⟩ := hid
    -- an order id that is found goes to the body of the handler
    have hfound : ∀ body : Uuid → Svc Unit, withOrderId received.2 body = body id := by
      intro body
      unfold withOrderId
      rw [hid]
      rfl
    rcases handlers_cases received.1 received.2.event_type with ⟨hh, hs⟩ | ⟨hh, hs⟩ | ⟨hh, hs⟩
    · refine ⟨.paid, id, fun _ => pure (), hs, hid, ?_⟩
      unfold dispatch
      rw [hh]
      exact hfound _
    · refine ⟨.failed, id, fun _ => withSchemas ["orders", "inventory"] (releaseOrder id), hs, hid, ?_⟩
      unfold dispatch
      rw [hh]
      exact hfound _
    · rw [h] at hs
      cases hs

/-- The order id of a dict, where its value is one pydantic has written. -/
theorem orderIdOf_written {items : List (PyKey × PyVal)} {j : Option Json}
    (h : dictGet items (.str "order_id") = j.map Json.toPy) :
    (∃ id, orderIdOf (.dict items) = .ok (some id))
      ↔ ∃ s id, j = some (.str s) ∧ Uuid.parse s = some id := by
  have hget : (PyVal.dict items).get? "order_id" = some ((j.map Json.toPy).getD .none) := by
    show some ((dictGet items (.str "order_id")).getD .none) = _
    rw [h]
  unfold orderIdOf
  rw [hget]
  cases j with
  | none =>
      constructor
      · rintro ⟨id, hid⟩
        cases hid
      · rintro ⟨s, id, hs, -⟩
        cases hs
  | some j =>
      cases j with
      | str s =>
          -- only a string is parsed
          show (∃ id, Except.ok (Uuid.parse s) = .ok (some id)) ↔ _
          constructor
          · rintro ⟨id, hid⟩
            exact ⟨s, id, rfl, Except.ok.inj hid⟩
          · rintro ⟨s', id, hs, hid⟩
            obtain rfl := Json.str.inj (Option.some.inj hs)
            exact ⟨id, congrArg Except.ok hid⟩
      | null => exact ⟨fun ⟨_, hid⟩ => (nomatch hid), fun ⟨_, _, hs, _⟩ => (nomatch hs)⟩
      | bool b => exact ⟨fun ⟨_, hid⟩ => (nomatch hid), fun ⟨_, _, hs, _⟩ => (nomatch hs)⟩
      | int n => exact ⟨fun ⟨_, hid⟩ => (nomatch hid), fun ⟨_, _, hs, _⟩ => (nomatch hs)⟩
      | float t => exact ⟨fun ⟨_, hid⟩ => (nomatch hid), fun ⟨_, _, hs, _⟩ => (nomatch hs)⟩
      | arr xs => exact ⟨fun ⟨_, hid⟩ => (nomatch hid), fun ⟨_, _, hs, _⟩ => (nomatch hs)⟩
      | obj fs => exact ⟨fun ⟨_, hid⟩ => (nomatch hid), fun ⟨_, _, hs, _⟩ => (nomatch hs)⟩

/-! ## §2. A payment event on its way. -/

variable {uuid5 : Uuid5}

/-- **A payment event as the consumer receives it**: its topic and type are those
of the status, and it names an order exactly when the request does. -/
theorem relayed_payment {request : ProcessPaymentRequest} {p : Payment}
    {res : ProcessPaymentResult} (h : EventOf uuid5 request p res) (now : Int)
    (fresh fresh' : Uuid) :
    ∃ envelope, relayed fresh fresh' { res.outbox_event with created_at := now }
        = .ok ("payments.events", envelope)
      ∧ envelope.event_type = paymentEventType request.new_status
      ∧ ((∃ id, orderIdOf envelope.payload = .ok (some id)) ↔ NamesOrder request) := by
  obtain ⟨occurred_at, hpayload⟩ := h.payload
  obtain ⟨-, htype, htopic, hsame, -, -⟩ := h.fields
  obtain ⟨-, -, -, -, hdump, -⟩ := outboxRow_ok h.outbox
  obtain ⟨hstr, hnodup⟩ := paymentPayload_keys res.payment occurred_at request.extra_payload
  obtain ⟨pj, hpj, -⟩ := EventEnvelope.fromBytes_toBytes fresh hdump
  obtain ⟨pj', hpj'⟩ := Option.isSome_iff_exists.mp pj.dump_toPy_isSome
  -- the payload is written and read twice
  have hfirst := hpj
  rw [hpayload] at hfirst
  obtain ⟨items, hitems, hstr', hnodup', hget⟩ := get?_toPy_dump hstr hnodup hfirst
  have hsecond := hpj'
  rw [hitems] at hsecond
  obtain ⟨final, hfinal, -, -, hlast⟩ := get?_toPy_dump hstr' hnodup' hsecond
  refine ⟨{ res.envelope with payload := pj'.toPy }, ?_, hsame.trans htype, ?_⟩
  · rw [← htopic]
    exact relayed_dump fresh fresh' hdump hpj hpj'
  · have harrived : dictGet final (.str "order_id")
        = ((((extraItem request.extra_payload "order_id").bind PyVal.dump).map Json.toPy).bind
            PyVal.dump).map Json.toPy := by
      rw [hlast "order_id", hget "order_id", paymentPayload_orderId]
    show (∃ id, orderIdOf pj'.toPy = .ok (some id)) ↔ _
    rw [hfinal, orderIdOf_written harrived]
    unfold NamesOrder
    -- a string is read and written as itself, anything else as something else
    have hstring : ∀ s, (((extraItem request.extra_payload "order_id").bind PyVal.dump).map
        Json.toPy).bind PyVal.dump = some (.str s)
        ↔ (extraItem request.extra_payload "order_id").bind PyVal.dump = some (.str s) := by
      intro s
      cases (extraItem request.extra_payload "order_id").bind PyVal.dump with
      | none => exact Iff.rfl
      | some j =>
          show j.toPy.dump = some (.str s) ↔ some j = some (.str s)
          rw [Json.dump_toPy_str, Option.some.injEq]
    simp only [hstring]

/-- The statuses whose events have a handler. -/
theorem requestedStatus_payment {status : PaymentStatus}
    (h : status = .captured ∨ status = .failed) :
    ∃ s, requestedStatus "payments.events" (paymentEventType status) = some s := by
  rcases h with rfl | rfl
  · exact ⟨.paid, by decide⟩
  · exact ⟨.failed, by decide⟩

/-! ## §3. Every event that is written. -/

variable {T : Table Row}

/-- **A `process_payment` that has returned**, in any interleaving. -/
theorem shop_processed (hT : ∀ r ∈ T.rows, r.violation = .ok ())
    (as : List (Action τ Call Choice)) {t : τ} {request : ProcessPaymentRequest}
    {res : ProcessPaymentResult}
    (ht : (shopRun uuid5 T as).thread t
      = some ⟨.processPayment request, .ret (.ok (.processed res))⟩) :
    ∃ p, Processed uuid5 request p res ((shopRun uuid5 T as).shared.local t) := by
  let K := shopContract anyRows uuid5 keeps_anyRows (τ := τ)
  have hreach : K.Holds (shopRun uuid5 T as) := K.reachable ⟨inv_init hT, trivial⟩ as
  obtain ⟨x, hx, hpost⟩ := Contract.Holds.post K hreach ht
  cases x with
  | error e => cases hx
  | ok rx =>
      obtain rfl := Reply.processed.inj (Except.ok.inj hx)
      exact hpost

/-- **Every event that `process_payment` writes for a CAPTURED or FAILED
payment is acted on if and only if the request names an order.** -/
theorem payment_event_iff (hT : ∀ r ∈ T.rows, r.violation = .ok ())
    (as : List (Action τ Call Choice)) {t : τ} {request : ProcessPaymentRequest}
    {res : ProcessPaymentResult}
    (ht : (shopRun uuid5 T as).thread t
      = some ⟨.processPayment request, .ret (.ok (.processed res))⟩)
    (hstatus : request.new_status = .captured ∨ request.new_status = .failed)
    (now : Int) (fresh fresh' : Uuid) :
    (∃ received, relayed fresh fresh' { res.outbox_event with created_at := now } = .ok received
        ∧ ActedOn received)
      ↔ NamesOrder request := by
  obtain ⟨p, hp⟩ := shop_processed hT as ht
  obtain ⟨envelope, hrelayed, htype, hnames⟩ := relayed_payment hp.event now fresh fresh'
  obtain ⟨status, hs⟩ := requestedStatus_payment hstatus
  have hasked : requestedStatus "payments.events" envelope.event_type = some status := by
    rw [htype]
    exact hs
  have hacted : ActedOn ("payments.events", envelope)
      ↔ ∃ id, orderIdOf envelope.payload = .ok (some id) := actedOn_iff hasked
  rw [← hnames, ← hacted]
  constructor
  · rintro ⟨received, hr, hact⟩
    obtain rfl := Except.ok.inj (hrelayed.symm.trans hr)
    exact hact
  · intro hact
    exact ⟨_, hrelayed, hact⟩

/-- The due payment fails, with no `extra_payload`. -/
def bareRequest : ProcessPaymentRequest := askFor "k" .failed

def bareRun : List (Action Nat Call Choice) :=
  [.start 0 (.processPayment bareRequest), .step 0 { uuid := Uuid.ofNat 10 }, .step 0 {},
    .step 0 {}, .step 0 {}, .step 0 {}, .step 0 { uuid := Uuid.ofNat 11 }, .step 0 {}, .step 0 {}]

/-- The event: the payment's own fields. -/
def bareEvent : EventEnvelope where
  event_id := Uuid.ofNat 11
  event_type := paymentEventType .failed
  schema_version := 1
  aggregate_type := "Payment"
  aggregate_id := duePayment.id.str
  payload := .dict [(.str "payment_id", .str duePayment.id.str), (.str "status", .str "failed"),
    (.str "amount_minor_units", .int 1000), (.str "currency", .str "EUR"),
    (.str "occurred_at", .str "")]
  event_type_len := paymentEventType_len .failed
  schema_version_ge := EventEnvelope.firstVersion_ge
  aggregate_type_len := EventEnvelope.payment_len
  aggregate_id_len := duePayment_id_len

def bareRow : OutboxEvent where
  id := bareEvent.event_id
  aggregate_type := "Payment"
  aggregate_id := duePayment.id.str
  event_type := paymentEventType .failed
  topic := "payments.events"
  payload := .obj (bareEvent.dumpFields (.obj [("payment_id", .str duePayment.id.str),
    ("status", .str "failed"), ("amount_minor_units", .int 1000), ("currency", .str "EUR"),
    ("occurred_at", .str "")]))
  dedupe_id := (dumps bareEvent.hashed).getD ""
  processed := false
  created_at := 0
  processed_at := none
  attempt_count := 0
  failed := false
  last_error := none

def bareResult : ProcessPaymentResult := ⟨{ duePayment with status := .failed }, bareRow, bareEvent⟩

theorem bareRun_ended : (shopRun (fun c => c) dueTable bareRun).thread 0
    = some ⟨.processPayment bareRequest, .ret (.ok (.processed bareResult))⟩ := rfl

/-- **The event of a failed payment, as `process_payment` writes it, reaches no
order**: the handler finds no id and returns. -/
theorem payment_event_fails :
    ¬ ∀ (as : List (Action Nat Call Choice)) (t : Nat) (request : ProcessPaymentRequest)
        (res : ProcessPaymentResult),
        (shopRun (fun c => c) dueTable as).thread t
          = some ⟨.processPayment request, .ret (.ok (.processed res))⟩ →
        request.new_status = .captured ∨ request.new_status = .failed →
        ∃ received, relayed (Uuid.ofNat 0) (Uuid.ofNat 0) res.outbox_event = .ok received
          ∧ ActedOn received := by
  intro h
  obtain ⟨received, hr, hacted⟩ := h bareRun 0 bareRequest bareResult bareRun_ended (Or.inr rfl)
  have hdump : bareEvent.modelDump = .ok bareRow.payload := rfl
  have harrives := relayed_dump (Uuid.ofNat 0) (Uuid.ofNat 0) hdump rfl rfl
  obtain rfl := Except.ok.inj (harrives.symm.trans hr)
  obtain ⟨status, id, rest, -, hid, -⟩ := hacted
  cases hid

theorem payment_event_iff_bare :
    (∃ received, relayed (Uuid.ofNat 0) (Uuid.ofNat 0)
          { bareResult.outbox_event with created_at := 0 } = .ok received ∧ ActedOn received)
      ↔ NamesOrder bareRequest :=
  payment_event_iff dueTable_accepted bareRun bareRun_ended (Or.inr rfl) 0 _ _

end Nimbus
