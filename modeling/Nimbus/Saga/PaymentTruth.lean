/-
  Nimbus.Saga.PaymentTruth
  ────────────────────────
  **WHEN A PAYMENT EVENT SAYS WHAT HAPPENED TO THE PAYMENT.**

  `build_payment_event` starts from the payment's own fields and updates them
  with `extra_payload`, the "additional fields": a key of both has the value of
  `extra_payload`.  So the event of a transition may give another status,
  amount, currency or id than the payment it was written with.

    • `ownFields`, `eventField` — what the event owes to the payment, and has;
    • `Truthful`                — an event that tells the truth;
    • `Agrees`                  — an `extra_payload` that contradicts nothing;
    • `truthful_iff`            — **an event tells the truth exactly then**;
    • `payment_event_truthful`  — for every event that `process_payment` writes.
-/
import Nimbus.Core.Payload
import Nimbus.Saga.PaymentPayload

namespace Nimbus

open Lib Lib.Prog Payments

/-! ## §1. What an outbox row has under a key. -/

/-- The fields that an event has from its payment. -/
def ownFields (p : Payment) : List (String × PyVal) :=
  [("payment_id", .str p.id.str), ("status", .str p.status.value),
    ("amount_minor_units", .int p.amount_minor_units), ("currency", .str p.currency)]

/-- A field of the event's payload in its outbox row. -/
def eventField (row : OutboxEvent) (k : String) : Option Json :=
  (row.payload.field? "payload").bind fun payload => payload.field? k

/-- A dict is written key by key. -/
theorem field?_dump {items : List (PyKey × PyVal)} {j : Json} (hs : StrKeys items)
    (hd : (items.map Prod.fst).Nodup) (h : (PyVal.dict items).dump = some j) (k : String) :
    j.field? k = (dictGet items (.str k)).bind PyVal.dump := by
  obtain ⟨fields, hf, rfl⟩ := Option.map_eq_some_iff.mp h
  show dictGet (dictUpdate [] fields) k = _
  rw [dictUpdate_nil (nodup_dumpItems hs hd hf), (dictGet_dumpItems hs k hf).1]

/-- What is written has been written for every item. -/
theorem dump_of_dictGet {items : List (PyKey × PyVal)} {k : PyKey} {v : PyVal}
    (h : dictGet items k = some v) : ∀ {fields : List (String × Json)},
      PyVal.dumpItems items = some fields → ∃ j, v.dump = some j := by
  induction items with
  | nil => cases h
  | cons kv items ih =>
      intro fields hf
      obtain ⟨j, hj, hf⟩ := Option.bind_eq_some_iff.mp hf
      obtain ⟨rest, hrest, -⟩ := Option.map_eq_some_iff.mp hf
      rw [dictGet_cons] at h
      by_cases hk : kv.1 = k
      · rw [if_pos hk] at h
        obtain rfl := Option.some.inj h
        exact ⟨j, hj⟩
      · rw [if_neg hk] at h
        exact ih h hrest

variable {uuid5 : Uuid5} {request : ProcessPaymentRequest} {p : Payment}
  {res : ProcessPaymentResult}

/-- The payload that a payment event was stored with. -/
theorem Payments.EventOf.stored (h : EventOf uuid5 request p res) :
    ∃ occurred_at j, (PyVal.dict (paymentPayload res.payment occurred_at
        request.extra_payload)).dump = some j
      ∧ ∀ k, eventField res.outbox_event k = j.field? k := by
  obtain ⟨occurred_at, hpayload⟩ := h.payload
  obtain ⟨-, -, -, -, hdump, -⟩ := outboxRow_ok h.outbox
  unfold EventEnvelope.modelDump at hdump
  rw [hpayload] at hdump
  cases hj : (PyVal.dict (paymentPayload res.payment occurred_at request.extra_payload)).dump with
  | none =>
      rw [hj] at hdump
      cases hdump
  | some j =>
      rw [hj] at hdump
      refine ⟨occurred_at, j, hj, fun k => ?_⟩
      unfold eventField
      rw [← Except.ok.inj hdump]
      rfl

/-- **A field of a payment event**: what is written for the value of
`extra_payload`, or else for the payment's own. -/
theorem Payments.EventOf.field (h : EventOf uuid5 request p res) :
    ∃ occurred_at, ∀ k, eventField res.outbox_event k
      = ((extraItem request.extra_payload k).or
          (dictGet (baseFields res.payment occurred_at) k)).bind PyVal.dump := by
  obtain ⟨occurred_at, j, hj, hfield⟩ := h.stored
  obtain ⟨hstr, hnodup⟩ := paymentPayload_keys res.payment occurred_at request.extra_payload
  refine ⟨occurred_at, fun k => ?_⟩
  rw [hfield, field?_dump hstr hnodup hj, dictGet_paymentPayload]

/-- A value of `extra_payload` is written. -/
theorem Payments.EventOf.extra_dumps (h : EventOf uuid5 request p res) {k : String} {v : PyVal}
    (hv : extraItem request.extra_payload k = some v) : ∃ j, v.dump = some j := by
  obtain ⟨occurred_at, j, hj, -⟩ := h.stored
  obtain ⟨fields, hf, -⟩ := Option.map_eq_some_iff.mp hj
  refine dump_of_dictGet (k := .str k) ?_ hf
  rw [dictGet_paymentPayload, hv]
  rfl

/-! ## §2. Telling the truth. -/

/-- The event has the payment's own values in the payment's own fields, and
every other key of `extra_payload` with its value. -/
structure Truthful (request : ProcessPaymentRequest) (p : Payment) (row : OutboxEvent) : Prop where
  own : ∀ kv ∈ ownFields p, eventField row kv.1 = kv.2.dump
  other : ∀ k v, extraItem request.extra_payload k = some v → k ∉ (ownFields p).map Prod.fst →
    ∃ j, v.dump = some j ∧ eventField row k = some j

/-- `extra_payload` has none of the payment's own fields, or with the payment's
own value. -/
def Agrees (request : ProcessPaymentRequest) (p : Payment) : Prop :=
  ∀ kv ∈ ownFields p, ∀ v, extraItem request.extra_payload kv.1 = some v → v.dump = kv.2.dump

theorem dictGet_baseFields (p : Payment) (occurred_at : String) :
    ∀ kv ∈ ownFields p, dictGet (baseFields p occurred_at) kv.1 = some kv.2 := by
  simp [ownFields, baseFields, dictGet_cons]

/-- **An event tells the truth exactly when `extra_payload` does not contradict
the payment.** -/
theorem truthful_iff (h : EventOf uuid5 request p res) :
    Truthful request res.payment res.outbox_event ↔ Agrees request res.payment := by
  obtain ⟨occurred_at, hfield⟩ := h.field
  have hbase := dictGet_baseFields res.payment occurred_at
  constructor
  · intro ht kv hkv v hv
    have hown := ht.own kv hkv
    rw [hfield, hv] at hown
    exact hown
  · intro ha
    refine ⟨fun kv hkv => ?_, fun k v hv _ => ?_⟩
    · rw [hfield, hbase kv hkv]
      cases hv : extraItem request.extra_payload kv.1 with
      | none => rfl
      | some v => exact ha kv hkv v hv
    · obtain ⟨j, hj⟩ := h.extra_dumps hv
      refine ⟨j, hj, ?_⟩
      rw [hfield, hv]
      exact hj

/-! ## §3. Every event that is written. -/

variable {τ : Type} [DecidableEq τ] {T : Table Row}

/-- **Every event that `process_payment` writes**, in any interleaving: the
transaction holds the locked payment with its new status, and the event beside
it tells the truth exactly when `extra_payload` does not contradict that. -/
theorem payment_event_truthful (hT : ∀ r ∈ T.rows, r.violation = .ok ())
    (as : List (Action τ Call Choice)) {t : τ}
    (ht : (shopRun uuid5 T as).thread t
      = some ⟨.processPayment request, .ret (.ok (.processed res))⟩) :
    ∃ p, Processed uuid5 request p res ((shopRun uuid5 T as).shared.local t)
      ∧ (Truthful request { p with status := request.new_status } res.outbox_event
        ↔ Agrees request { p with status := request.new_status }) := by
  obtain ⟨p, hp⟩ := shop_processed hT as ht
  refine ⟨p, hp, ?_⟩
  rw [← hp.event.payment]
  exact truthful_iff hp.event

/-- The due payment fails, and `extra_payload` says that it was captured. -/
def lyingRequest : ProcessPaymentRequest :=
  { askFor "k" .failed with extra_payload := some [("status", .str "captured")] }

def lyingRun : List (Action Nat Call Choice) :=
  [.start 0 (.processPayment lyingRequest), .step 0 { uuid := Uuid.ofNat 10 }, .step 0 {},
    .step 0 {}, .step 0 {}, .step 0 {}, .step 0 { uuid := Uuid.ofNat 11 }, .step 0 {}, .step 0 {}]

theorem lyingRun_ended : ∃ res, (shopRun (fun c => c) dueTable lyingRun).thread 0
    = some ⟨.processPayment lyingRequest, .ret (.ok (.processed res))⟩
    ∧ res.payment = { duePayment with status := .failed }
    ∧ eventField res.outbox_event "status" = some (.str "captured") := ⟨_, rfl, rfl, rfl⟩

/-- **The event says CAPTURED of a payment that has failed.** -/
theorem payment_event_lies :
    ¬ ∀ (as : List (Action Nat Call Choice)) (t : Nat) (request : ProcessPaymentRequest)
        (res : ProcessPaymentResult),
        (shopRun (fun c => c) dueTable as).thread t
          = some ⟨.processPayment request, .ret (.ok (.processed res))⟩ →
        Truthful request res.payment res.outbox_event := by
  intro h
  obtain ⟨res, hended, hpayment, hstatus⟩ := lyingRun_ended
  have htruth := (h lyingRun 0 lyingRequest res hended).own ("status", .str res.payment.status.value)
    (List.mem_cons_of_mem _ List.mem_cons_self)
  rw [hstatus, hpayment] at htruth
  exact absurd (Json.str.inj (Option.some.inj htruth)) (by decide)

theorem payment_event_truthful_bare :
    ∃ p, Processed (fun c => c) bareRequest p bareResult
        ((shopRun (fun c => c) dueTable bareRun).shared.local 0)
      ∧ (Truthful bareRequest { p with status := .failed } bareResult.outbox_event
        ↔ Agrees bareRequest { p with status := .failed }) :=
  payment_event_truthful dueTable_accepted bareRun bareRun_ended

end Nimbus
