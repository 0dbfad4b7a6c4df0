/-
  Nimbus.Saga.Closure
  ───────────────────
  **WHERE THE SAGA CLOSES, AND WHERE IT DOES NOT.**

  A payment is tied to a RESERVED order: every request on it names the order.
  Its events go through the outbox, the relay and the consumer to the handlers
  of the order module.  A captured payment makes the order PAID, a failed one
  makes it FAILED and gives the stock back; a DECLINED payment has an event as
  well, but no handler is registered for it, so the order stays RESERVED for
  good.

    • `TiedPayload`   — an `extra_payload` that names the order;
    • `relayed`       — an outbox row as the consumer receives it;
    • `Names.dump`    — **the order's id survives the way**;
    • `Settled`       — order and stock against the events handled so far;
    • `closure_iff`   — **the saga closes exactly when nobody has asked for
                        DECLINED.**
-/
import Nimbus.Saga.Orders
import Nimbus.Saga.PaymentEvents

namespace Nimbus

open Lib Orders Payments

variable {τ : Type}

/-! ## §1. The order's id on its way. -/

/-- A dict with the order's id under `order_id`. -/
structure TiedPayload (order_id : Uuid) where
  items : List (String × PyVal)
  nodup : (items.map Prod.fst).Nodup
  tied : dictGet items "order_id" = some (.str order_id.str)

/-- A payload that is a dict with distinct string keys and names the order. -/
def Names (order_id : Uuid) (payload : PyVal) : Prop :=
  ∃ items, payload = .dict items ∧ StrKeys items ∧ (items.map Prod.fst).Nodup
    ∧ dictGet items (.str "order_id") = some (.str order_id.str)

/-- The handlers find the order. -/
theorem Names.orderIdOf {order_id : Uuid} {payload : PyVal} (h : Names order_id payload) :
    Orders.orderIdOf payload = .ok (some order_id) := by
  obtain ⟨items, rfl, -, -, hget⟩ := h
  unfold Orders.orderIdOf
  have hfound : (PyVal.dict items).get? "order_id" = some (.str order_id.str) := by
    show some ((dictGet items (.str "order_id")).getD .none) = _
    rw [hget]
    rfl
  rw [hfound]
  exact congrArg Except.ok (Uuid.parse_str order_id)

/-- **The order's id survives being written and read again.** -/
theorem Names.dump {order_id : Uuid} {payload : PyVal} {j : Json} (h : Names order_id payload)
    (hj : payload.dump = some j) : Names order_id j.toPy := by
  obtain ⟨items, rfl, hstr, hnodup, hget⟩ := h
  obtain ⟨items', hpy, hstr', hnodup', hkeep⟩ := get?_toPy_dump hstr hnodup hj
  refine ⟨items', hpy, hstr', hnodup', ?_⟩
  rw [hkeep "order_id", hget]
  rfl

/-- A request that names the order builds a payload that does. -/
theorem names_paymentPayload {order_id : Uuid} (p : Payment) (occurred_at : String)
    (extra : TiedPayload order_id) :
    Names order_id (.dict (paymentPayload p occurred_at (some extra.items))) := by
  obtain ⟨hstr, hnodup⟩ := paymentPayload_keys p occurred_at (some extra.items)
  refine ⟨_, rfl, hstr, hnodup, ?_⟩
  rw [paymentPayload_orderId]
  show dictGet extra.items.reverse "order_id" = _
  rw [dictGet_reverse extra.nodup]
  exact extra.tied

/-- An outbox row as the consumer receives it: the relay rebuilds the envelope
from the row and publishes it, the consumer reads the bytes. -/
def relayed (fresh fresh' : Uuid) (e : OutboxEvent) : Except Exn (String × EventEnvelope) := do
  let envelope ← EventEnvelope.modelValidate fresh e.payload
  let bytes ← envelope.toBytes
  let received ← EventEnvelope.fromBytes fresh' bytes
  return (e.topic, received)

/-- The row of an event that names the order arrives as such an event. -/
def Delivers (order_id : Uuid) (e : OutboxEvent) : Prop :=
  ∀ fresh fresh' received, relayed fresh fresh' e = .ok received →
    received.1 = "payments.events" ∧ received.2.event_type = e.event_type
      ∧ Orders.orderIdOf received.2.payload = .ok (some order_id)

theorem relayed_ok {fresh fresh' : Uuid} {e : OutboxEvent} {envelope received : EventEnvelope}
    {bytes : Json} (hfirst : EventEnvelope.modelValidate fresh e.payload = .ok envelope)
    (hbytes : envelope.toBytes = .ok bytes)
    (hread : EventEnvelope.fromBytes fresh' bytes = .ok received) :
    relayed fresh fresh' e = .ok (e.topic, received) := by
  unfold relayed
  simp only [hfirst, hbytes, hread, bind, Except.bind, pure, Except.pure]

/-- The row of an envelope that can be dumped arrives as that envelope, its
payload written and read twice. -/
theorem relayed_dump {envelope : EventEnvelope} {e : OutboxEvent} {pj pj' : Json}
    (fresh fresh' : Uuid) (hdump : envelope.modelDump = .ok e.payload)
    (hpj : envelope.payload.dump = some pj) (hpj' : pj.toPy.dump = some pj') :
    relayed fresh fresh' e = .ok (e.topic, { envelope with payload := pj'.toPy }) := by
  obtain ⟨hfirst, bytes, hbytes, hread⟩ :=
    EventEnvelope.rebuilt_and_sent fresh fresh' hdump hpj hpj'
  exact relayed_ok hfirst hbytes hread

theorem delivers_of_names {order_id : Uuid} {envelope : EventEnvelope} {e : OutboxEvent}
    (hn : Names order_id envelope.payload) (htopic : e.topic = "payments.events")
    (htype : envelope.event_type = e.event_type) (hdump : envelope.modelDump = .ok e.payload) :
    Delivers order_id e := by
  intro fresh fresh' received hr
  obtain ⟨pj, hpj, -⟩ := EventEnvelope.fromBytes_toBytes fresh hdump
  obtain ⟨pj', hpj'⟩ := Option.isSome_iff_exists.mp pj.dump_toPy_isSome
  rw [relayed_dump fresh fresh' hdump hpj hpj'] at hr
  obtain rfl := Except.ok.inj hr
  exact ⟨htopic, htype, ((hn.dump hpj).dump hpj').orderIdOf⟩

/-! ## §2. Requests on one payment, and the deliveries of its events. -/

inductive ClosureCall (order_id : Uuid) where
  | pay (idempotency_key : String) (new_status : PaymentStatus)
      (extra_payload : TiedPayload order_id)
  | deliver (topic : String) (envelope : EventEnvelope)

def ClosureCall.toCall {order_id : Uuid} (payment_id : Uuid) : ClosureCall order_id → Call
  | .pay idempotency_key new_status extra_payload =>
      .processPayment ⟨payment_id, idempotency_key, new_status, some extra_payload.items⟩
  | .deliver topic envelope => .deliver topic envelope

section

variable [DecidableEq τ]

/-- The platform when one payment is processed and events are delivered. -/
def closureShop (uuid5 : Uuid5) (payment_id order_id : Uuid) :
    System (ClosureCall order_id) Op Ans Exn Reply (World τ) τ Choice :=
  (shop uuid5).comap (ClosureCall.toCall payment_id)

/-- The state after the actions `as`, from committed rows `T`. -/
def closureRun (uuid5 : Uuid5) (payment_id order_id : Uuid) (T : Table Row)
    (as : List (Action τ (ClosureCall order_id) Choice)) :
    Pool (ClosureCall order_id) Op Ans Exn Reply (World τ) τ :=
  (Pool.machine (closureShop uuid5 payment_id order_id)).run (Pool.init (World.init T)) as

end

variable {order_id : Uuid}

/-- The status a committed request has asked for. -/
def askedStatus (e : Entry τ (ClosureCall order_id) Exn Reply) : Option PaymentStatus :=
  match e.call with
  | .pay _ new_status _ => some new_status
  | .deliver .. => none

/-- A committed delivery. -/
def delivery (e : Entry τ (ClosureCall order_id) Exn Reply) : Option (String × EventEnvelope) :=
  match e.call with
  | .pay .. => none
  | .deliver topic envelope => some (topic, envelope)

/-- The status that a handled event asks for the order `id`. -/
def namedStatus (id : Uuid) (d : String × EventEnvelope) : Option OrderStatus :=
  askedFor id (.deliver d.1 d.2) (.ok .handled)

/-- What the handled events of a log have asked for the order `id`. -/
def handledEvents (id : Uuid) (log : List (Entry τ (ClosureCall order_id) Exn Reply)) :
    List OrderStatus :=
  (log.filterMap delivery).filterMap (namedStatus id)

/-! ## §3. Order and stock against the events. -/

/-- The order is what the guards make of the events one after another, and its
stock has got its quantity back once for every event of a failed payment. -/
structure Settled (o₀ : Order) (s₀ : Stock) (events : List OrderStatus) (U : Table Row) : Prop where
  order : U.lookup (.order o₀.id)
    = some (.order { o₀ with status := events.foldl nextStatus o₀.status })
  stock : ∃ s, U.lookup (.stock s₀.id) = some (.stock s)
    ∧ s.available = s₀.available + o₀.quantity * events.count .failed

/-- Payments and outbox are told the same. -/
structure SameStory (T T' : Table Row) : Prop where
  payment : ∀ id, T'.lookup (.payment id) = T.lookup (.payment id)
  outbox : ∀ id, outboxOf id T' = outboxOf id T
  rows : ∀ e, Row.outbox e ∈ T'.rows → Row.outbox e ∈ T.rows

theorem SameStory.refl (T : Table Row) : SameStory T T := ⟨fun _ => rfl, fun _ => rfl, fun _ h => h⟩

theorem SameStory.trans {T T' T'' : Table Row} (h : SameStory T T') (h' : SameStory T' T'') :
    SameStory T T'' :=
  ⟨fun id => (h'.payment id).trans (h.payment id), fun id => (h'.outbox id).trans (h.outbox id),
    fun e he => h.rows e (h'.rows e he)⟩

/-- A stock or order row written over another one. -/
theorem SameStory.upsert {T : Table Row} {x y : Row} (hy : T.lookup (key x) = some y)
    (hpay : ∀ id, key x ≠ .payment id) (hx : ∀ e, x ≠ .outbox e) (hy' : ∀ e, y ≠ .outbox e) :
    SameStory T (T.upsert x) := by
  have hnone : ∀ (row : Row) (id : Uuid), (∀ e, row ≠ .outbox e) → outboxEventOf id row = none := by
    intro row id hrow
    cases row with
    | outbox e => exact absurd rfl (hrow e)
    | stock s => rfl
    | order o => rfl
    | payment p => rfl
  refine ⟨fun id => Table.lookup_upsert_ne fun hc => hpay id hc.symm, fun id => ?_, fun e he => ?_⟩
  · exact Table.filterMap_upsert_same hy ((hnone x id hx).trans (hnone y id hy').symm)
  · rcases Table.mem_upsert.mp he with hrow | ⟨he, -⟩
    · exact absurd hrow.symm (hx e)
    · exact he

/-- **A delivery tells the payments nothing new.** -/
theorem Effect.sameStory {J : Table Row → Prop} {uuid5 : Uuid5} {T T' : Table Row} {topic : String}
    {envelope : EventEnvelope} {r : Except Exn Reply}
    (he : Effect J uuid5 (.deliver topic envelope) r T T') : SameStory T T' := by
  cases he with
  | ignored => exact SameStory.refl T
  | @delivered _ _ status order_id o _ T₁ hev ho hc =>
      obtain rfl : o.id = order_id := RowKey.order.inj (Table.key_of_lookup ho)
      -- a release writes the stock row
      have hfirst : SameStory T T₁ := by
        cases hc with
        | none _ => exact SameStory.refl T
        | missing => exact SameStory.refl T
        | @release _ s _ hs =>
            have hsid : s.id = o.stock_id := RowKey.stock.inj (Table.key_of_lookup hs)
            refine SameStory.upsert (y := Row.stock s) ?_ (fun _ h => RowKey.noConfusion h)
              (fun _ h => nomatch h) (fun _ h => nomatch h)
            rw [key_stock]
            show T.lookup (.stock s.id) = _
            rw [hsid]
            exact hs
      -- and then the order may get its status
      refine hfirst.trans ?_
      unfold setStatus
      split
      · exact SameStory.upsert (y := Row.order o) ((hc.order o.id).trans ho)
          (fun _ h => RowKey.noConfusion h) (fun _ h => nomatch h) (fun _ h => nomatch h)
      · exact SameStory.refl _

/-- **One more handled event.** -/
theorem Settled.deliver {J : Table Row → Prop} {uuid5 : Uuid5} {T T' : Table Row} {topic : String}
    {envelope : EventEnvelope} {r : Except Exn Reply} {o₀ : Order} {s₀ : Stock}
    {events : List OrderStatus} (hstock : s₀.id = o₀.stock_id)
    (hJ : ∀ U, J U → (U.lookup (.stock s₀.id)).isSome = true) (hs : Settled o₀ s₀ events T)
    (honly : ∀ status id, eventOf topic envelope = some (status, id) → id = o₀.id)
    (he : Effect J uuid5 (.deliver topic envelope) r T T') :
    Settled o₀ s₀ (events ++ (namedStatus o₀.id (topic, envelope)).toList) T' := by
  obtain ⟨s, hrow, havail⟩ := hs.stock
  cases he with
  | ignored hev =>
      -- an event that is ignored asks for nothing
      have hnamed : namedStatus o₀.id (topic, envelope) = none := by
        simp only [namedStatus, askedFor, hev]
      rw [hnamed]
      show Settled o₀ s₀ (events ++ []) T
      rw [List.append_nil]
      exact hs
  | @delivered _ _ status id o _ T₁ hev ho hc =>
      obtain rfl := honly status id hev
      have hsame : o = { o₀ with status := events.foldl nextStatus o₀.status } :=
        Row.order.inj (Option.some.inj (ho.symm.trans hs.order))
      have hid : o.id = o₀.id := by rw [hsame]
      have hquantity : o.quantity = o₀.quantity := by rw [hsame]
      have hsid : o.stock_id = s₀.id := by rw [hsame, hstock]
      have hnamed : namedStatus o₀.id (topic, envelope) = some status := by
        simp only [namedStatus, askedFor, hev, if_true]
      rw [hnamed]
      refine ⟨?_, ?_⟩
      · -- the status is the fold over one event more
        have hself : (setStatus T₁ o status).lookup (.order o.id)
            = some (.order { o with status := nextStatus o.status status }) :=
          setStatus_self ((hc.order o.id).trans (hid ▸ ho))
        rw [hid] at hself
        rw [hself, hsame, List.foldl_append]
        rfl
      · rw [setStatus_stock, Option.toList_some, List.count_append]
        -- what goes back to the stock
        cases hc with
        | none hne =>
            refine ⟨s, hrow, ?_⟩
            rw [havail, List.count_singleton, if_neg (by simpa using hne)]
            simp
        | missing _ hJ₀ _ hnone =>
            -- the stock row is never deleted
            have hsome := hJ _ hJ₀
            rw [← hsid, hnone] at hsome
            cases hsome
        | @release _ s' _ hs' =>
            rw [hsid, hrow] at hs'
            obtain rfl := Row.stock.inj (Option.some.inj hs')
            have hkey : s.id = s₀.id := RowKey.stock.inj (Table.key_of_lookup hrow)
            refine ⟨s.release o.quantity, Table.lookup_upsert_self (congrArg RowKey.stock hkey), ?_⟩
            show s.available + o.quantity = _
            rw [havail, hquantity, List.count_singleton_self]
            push_cast
            ring

/-- A request on the payment touches neither order nor stock. -/
theorem Settled.pay {uuid5 : Uuid5} {T T' : Table Row} {o₀ : Order} {s₀ : Stock}
    {events : List OrderStatus} {p : Payment} {status : PaymentStatus} {e : OutboxEvent}
    (hs : Settled o₀ s₀ events T) (ht : Transition uuid5 T T' p status e) :
    Settled o₀ s₀ events T' := by
  obtain ⟨s, hrow, havail⟩ := hs.stock
  have hkeep : ∀ k : RowKey, (∀ id, k ≠ .payment id) → (∀ id, k ≠ .outbox id) →
      T'.lookup k = T.lookup k := by
    intro k hp ho
    rw [ht.rows, Table.lookup_upsert_ne (ho e.id), Table.lookup_upsert_ne (hp p.id)]
  refine ⟨?_, s, ?_, havail⟩
  · rw [hkeep _ (fun _ hc => RowKey.noConfusion hc) (fun _ hc => RowKey.noConfusion hc)]
    exact hs.order
  · rw [hkeep _ (fun _ hc => RowKey.noConfusion hc) (fun _ hc => RowKey.noConfusion hc)]
    exact hrow

/-! ## §4. Every run. -/

/-- The payload of an event is built from the request's `extra_payload`. -/
theorem Payments.EventOf.payload {uuid5 : Uuid5} {request : ProcessPaymentRequest} {p : Payment}
    {result : ProcessPaymentResult} (h : EventOf uuid5 request p result) :
    ∃ occurred_at, result.envelope.payload
      = .dict (paymentPayload result.payment occurred_at request.extra_payload) := by
  obtain ⟨occurred_at, event_id, hbuilt⟩ := h.envelope
  exact ⟨occurred_at, (EventEnvelope.mk?_fields hbuilt).2.2.2.2.2⟩

/-- The event of a request that names the order is delivered as such an event. -/
theorem Payments.EventOf.delivers {uuid5 : Uuid5} {payment_id : Uuid} {idempotency_key : String}
    {new_status : PaymentStatus} {extra : TiedPayload order_id} {p : Payment}
    {result : ProcessPaymentResult} {now : Int}
    (h : EventOf uuid5 ⟨payment_id, idempotency_key, new_status, some extra.items⟩ p result) :
    Delivers order_id { result.outbox_event with created_at := now } := by
  obtain ⟨occurred_at, hpayload⟩ := h.payload
  obtain ⟨-, -, htopic, htype, -, -⟩ := h.fields
  obtain ⟨-, -, -, -, hdump, -⟩ := outboxRow_ok h.outbox
  have hnames : Names order_id result.envelope.payload := by
    rw [hpayload]
    exact names_paymentPayload result.payment occurred_at extra
  exact delivers_of_names hnames htopic htype hdump

theorem Narrated.sameStory {id : Uuid} {h : List PaymentStatus} {T T' : Table Row}
    (hn : Narrated id h T) (hs : SameStory T T') : Narrated id h T' := by
  refine ⟨?_, hn.path, ?_⟩
  · rw [paymentStatusOf_congr (hs.payment id)]
    exact hn.status
  · rw [hs.outbox id]
    exact hn.events

theorem row_of_outboxEventOf {id : Uuid} {row : Row} {e : OutboxEvent}
    (h : outboxEventOf id row = some e) : row = .outbox e := by
  cases row with
  | outbox e' =>
      by_cases hid : e'.aggregate_id = id.str
      · rw [outboxEventOf_self hid] at h
        rw [Option.some.inj h]
      · rw [outboxEventOf_other hid] at h
        cases h
  | stock s => cases h
  | order o => cases h
  | payment p => cases h

/-- A delivery that names no order but `id`. -/
def NamesOnly (id : Uuid) (d : String × EventEnvelope) : Prop :=
  ∀ status order_id, eventOf d.1 d.2 = some (status, order_id) → order_id = id

/-- The payment's history is told by its outbox and by the committed requests;
its rows can be delivered; and as long as nothing else is delivered, order and
stock are what the handled events have made of them. -/
structure Tied (payment_id : Uuid) (o₀ : Order) (s₀ : Stock) (h : List PaymentStatus)
    (log : List (Entry τ (ClosureCall o₀.id) Exn Reply)) (U : Table Row) : Prop where
  narrated : Narrated payment_id h U
  asked : log.filterMap askedStatus = h.tail
  delivers : ∀ e, Row.outbox e ∈ U.rows → Delivers o₀.id e
  settled : (∀ d ∈ log.filterMap delivery, NamesOnly o₀.id d) →
    Settled o₀ s₀ (handledEvents o₀.id log) U

variable {uuid5 : Uuid5} {T T' : Table Row} {payment_id : Uuid} {o₀ : Order} {s₀ : Stock}
  {h : List PaymentStatus} {log : List (Entry τ (ClosureCall o₀.id) Exn Reply)}

/-- **One committed call keeps the tie.** -/
theorem Tied.step {J : Table Row → Prop} {e : Entry τ (ClosureCall o₀.id) Exn Reply}
    (hstock : s₀.id = o₀.stock_id)
    (hJ : ∀ U, J U → (U.lookup (.stock s₀.id)).isSome = true)
    (ht : Tied payment_id o₀ s₀ h log T)
    (he : Effect J uuid5 (e.call.toCall payment_id) e.result T T') :
    Tied payment_id o₀ s₀ (Machine.record h (paymentStatusOf payment_id T')) (log ++ [e]) T' := by
  obtain ⟨t, call, result⟩ := e
  cases call with
  | pay key status extra =>
      obtain ⟨p, event, rfl, htrans, res, now, hevent, rfl⟩ := Effect.transition he
      have hnone : delivery (⟨t, .pay key status extra, result⟩ : Entry τ (ClosureCall o₀.id) _ _)
          = none := rfl
      have hsome : askedStatus (⟨t, .pay key status extra, result⟩ : Entry τ (ClosureCall o₀.id) _ _)
          = some status := rfl
      -- a payment call is a transition, and no event is handled
      refine ⟨ht.narrated.step htrans, ?_, fun e' he' => ?_, fun honly => ?_⟩
      · rw [filterMap_snoc_some hsome, ht.asked, ht.narrated.record htrans,
          List.tail_append_of_ne_nil (ht.narrated.ne_nil htrans)]
      · rcases htrans.mem_outbox he' with rfl | he'
        · exact hevent.delivers
        · exact ht.delivers e' he'
      · unfold handledEvents
        rw [filterMap_snoc_none hnone] at honly ⊢
        exact (ht.settled honly).pay htrans
  | deliver topic envelope =>
      have hsame := Effect.sameStory he
      have hnone : askedStatus (⟨t, .deliver topic envelope, result⟩ : Entry τ (ClosureCall o₀.id) _ _)
          = none := rfl
      have hstatus : paymentStatusOf payment_id T' = paymentStatusOf payment_id T :=
        paymentStatusOf_congr (hsame.payment payment_id)
      -- a delivery leaves the payment and the outbox alone
      rw [hstatus, Machine.record_same ht.narrated.status]
      refine ⟨ht.narrated.sameStory hsame, ?_, fun e' he' => ht.delivers e' (hsame.rows e' he'),
        fun honly => ?_⟩
      · rw [filterMap_snoc_none hnone]
        exact ht.asked
      · have hsome : delivery (⟨t, .deliver topic envelope, result⟩ : Entry τ (ClosureCall o₀.id) _ _)
            = some (topic, envelope) := rfl
        rw [filterMap_snoc_some hsome] at honly
        have hbefore := ht.settled fun d hd => honly d (List.mem_append_left _ hd)
        have hnew : NamesOnly o₀.id (topic, envelope) :=
          honly _ (List.mem_append_right _ List.mem_cons_self)
        have hafter := hbefore.deliver hstock hJ hnew he
        have hevents : handledEvents o₀.id (log ++ [⟨t, .deliver topic envelope, result⟩])
            = handledEvents o₀.id log ++ (namedStatus o₀.id (topic, envelope)).toList := by
          unfold handledEvents
          rw [filterMap_snoc_some hsome, List.filterMap_append]
          cases hn : namedStatus o₀.id (topic, envelope) with
          | none => rw [List.filterMap_cons, hn]; rfl
          | some status => rw [List.filterMap_cons, hn]; rfl
        rw [hevents]
        exact hafter

variable [DecidableEq τ]

/-- **In every run the payment and the order stay tied.** -/
theorem tied_run (uuid5 : Uuid5) {p₀ : Payment} (hT : ∀ r ∈ T.rows, r.violation = .ok ())
    (hno : ∀ e, Row.outbox e ∉ T.rows) (hp : T.lookup (.payment p₀.id) = some (.payment p₀))
    (ho : T.lookup (.order o₀.id) = some (.order o₀))
    (hs : T.lookup (.stock s₀.id) = some (.stock s₀)) (hstock : s₀.id = o₀.stock_id)
    (as : List (Action τ (ClosureCall o₀.id) Choice)) :
    ∃ path, Tied p₀.id o₀ s₀ (p₀.status :: path) (closureRun uuid5 p₀.id o₀.id T as).log
      (closureRun uuid5 p₀.id o₀.id T as).shared.base := by
  let S := closureShop (τ := τ) uuid5 p₀.id o₀.id
  let K := (shopContract _ uuid5 (keeps_isSome (.stock s₀.id)) (τ := τ)).comap
    fun call : ClosureCall o₀.id => call.toCall p₀.id
  let F := (shopEffects _ uuid5 (keeps_isSome (.stock s₀.id)) (τ := τ)).comap
    fun call : ClosureCall o₀.id => call.toCall p₀.id
  have hinit : K.Holds (Pool.init (World.init T)) := by
    refine K.holds_init ⟨inv_init hT, ?_⟩
    show (T.lookup (.stock s₀.id)).isSome = true
    rw [hs]
    rfl
  have hstart : paymentStatusOf p₀.id T = some p₀.status := paymentStatusOf_lookup hp
  -- the invariant is about the history of the payment and the log
  have hrun := (Pool.machine S).history_invariant
    (f := fun P => paymentStatusOf p₀.id P.shared.base)
    (I := fun h P => K.Holds P ∧ Tied p₀.id o₀ s₀ h P.log P.shared.base)
    (fun h P hI => hI.2.narrated.status) ?_ as (Pool.init (World.init T)) ⟨hinit, ?_⟩
  · obtain ⟨path, hpath⟩ := Machine.history_start (Pool.machine S)
      (f := fun P => paymentStatusOf p₀.id P.shared.base) (Pool.init (World.init T)) hstart as
    refine ⟨path, ?_⟩
    rw [← hpath]
    exact hrun.2
  · rintro h P a P' ⟨hP, ht⟩ hact
    refine ⟨K.act_holds hP hact, ?_⟩
    rcases F.act_effect hP hact with ⟨hobs, hlog, -⟩ | ⟨t, c, call, r, -, -, hlog, -, he⟩
    · -- a step that is no commit changes no committed row
      have hbase : P'.shared.base = P.shared.base := hobs
      rw [hbase, hlog, Machine.record_same ht.narrated.status]
      exact ht
    · rw [hlog]
      exact Tied.step hstock (fun _ hJ => hJ) ht he
  · refine ⟨narrated_init hno, ?_, fun e he => absurd he (hno e), fun _ => ⟨ho, s₀, hs, ?_⟩⟩
    · show [] = (Machine.record [] (paymentStatusOf p₀.id T)).tail
      rw [hstart]
      rfl
    · -- nothing has been handled yet
      show s₀.available = s₀.available + o₀.quantity * (0 : Nat)
      simp

/-! ## §5. Closure. -/

/-- What the order should be when the events of a payment have been handled. -/
def closingStatus : PaymentStatus → OrderStatus
  | .captured | .settled | .refunded => .paid
  | .failed | .declined => .failed
  | .pending | .authorized => .reserved

/-- The order follows the status of its payment; where it has FAILED its
quantity is back in the stock. -/
structure Closed (o₀ : Order) (s₀ : Stock) (status : PaymentStatus) (U : Table Row) : Prop where
  order : statusOf o₀.id U = some (closingStatus status)
  stock : ∃ s, U.lookup (.stock s₀.id) = some (.stock s)
    ∧ s.available = s₀.available + if closingStatus status = .failed then o₀.quantity else 0

/-- Every committed outbox row of the payment has been relayed, and what the
consumer has received has been handled and committed exactly once, in any order. -/
def AllHandled (payment_id : Uuid) (log : List (Entry τ (ClosureCall order_id) Exn Reply))
    (U : Table Row) : Prop :=
  ∃ received, List.Forall₂ (fun e r => ∃ fresh fresh', relayed fresh fresh' e = .ok r)
      (outboxOf payment_id U) received
    ∧ (log.filterMap delivery).Perm received

/-- What the event of a transition to `status` asks the order to become. -/
def handledAs (status : PaymentStatus) : Option OrderStatus :=
  requestedStatus "payments.events" (paymentEventType status)

/-- What has been asked of the order when its payment has come to a status: a
handler is registered for CAPTURED and for FAILED. -/
def handledOf : PaymentStatus → List OrderStatus
  | .captured | .settled | .refunded => [.paid]
  | .failed => [.failed]
  | .pending | .authorized | .declined => []

theorem handledOf_step {a b : PaymentStatus} (h : Follows a b) :
    handledOf a ++ (handledAs b).toList = handledOf b := by
  unfold Follows at h
  cases a <;> cases b <;> first | decide | exact absurd h (by decide)

/-- **The events of a path, as far as they are handled.** -/
theorem handledOf_path {path : List PaymentStatus} {a status : PaymentStatus}
    (h : (a :: path).IsChain Follows) (hlast : (a :: path).getLast? = some status) :
    handledOf a ++ path.filterMap handledAs = handledOf status := by
  induction path generalizing a with
  | nil =>
      obtain rfl : a = status := Option.some.inj hlast
      exact List.append_nil _
  | cons b path ih =>
      obtain ⟨hab, hpath⟩ := List.isChain_cons_cons.mp h
      rw [List.getLast?_cons_cons] at hlast
      rw [← ih hpath hlast, ← handledOf_step hab, List.append_assoc]
      congr 1
      rw [List.filterMap_cons]
      cases handledAs b with
      | none => rfl
      | some _ => rfl

/-- Nothing follows DECLINED. -/
theorem declined_last {path : List PaymentStatus} {a : PaymentStatus}
    (h : (a :: path).IsChain Follows) (hmem : .declined ∈ a :: path) :
    (a :: path).getLast? = some .declined := by
  induction path generalizing a with
  | nil =>
      rw [List.mem_singleton.mp hmem]
      rfl
  | cons b path ih =>
      obtain ⟨hab, hpath⟩ := List.isChain_cons_cons.mp h
      rw [List.getLast?_cons_cons]
      refine ih hpath ?_
      rcases List.mem_cons.mp hmem with rfl | hmem
      · cases hab
      · exact hmem

/-- The received rows name the order, with the event types of the outbox. -/
theorem received_events {events : List OutboxEvent} {received : List (String × EventEnvelope)}
    (hd : ∀ e ∈ events, Delivers order_id e)
    (h : List.Forall₂ (fun e r => ∃ fresh fresh', relayed fresh fresh' e = .ok r) events received) :
    (∀ r ∈ received, NamesOnly order_id r)
      ∧ received.filterMap (namedStatus order_id)
        = (events.map (·.event_type)).filterMap (requestedStatus "payments.events") := by
  induction h with
  | nil => exact ⟨fun r hr => (nomatch hr), rfl⟩
  | @cons e r events received hrel _ ih =>
      obtain ⟨hnames, hrest⟩ := ih fun e he => hd e (List.mem_cons_of_mem _ he)
      obtain ⟨fresh, fresh', hr⟩ := hrel
      -- what an outbox row says reaches the consumer as it is
      obtain ⟨htopic, htype, horder⟩ := hd e List.mem_cons_self fresh fresh' r hr
      have hev : eventOf r.1 r.2 = (requestedStatus "payments.events" e.event_type).map
          fun status => (status, order_id) := by
        unfold eventOf
        rw [htopic, htype, horder]
        cases requestedStatus "payments.events" e.event_type <;> rfl
      have hnamed : namedStatus order_id r = requestedStatus "payments.events" e.event_type := by
        unfold namedStatus askedFor
        simp only [hev]
        cases requestedStatus "payments.events" e.event_type with
        | none => rfl
        | some status => exact if_pos rfl
      refine ⟨fun r' hr' => ?_, ?_⟩
      · rcases List.mem_cons.mp hr' with rfl | hr'
        · intro status id hs
          rw [hev] at hs
          obtain ⟨_, -, hpair⟩ := Option.map_eq_some_iff.mp hs
          exact (Prod.mk.inj hpair).2.symm
        · exact hnames r' hr'
      · rw [List.map_cons, List.filterMap_cons, List.filterMap_cons, hnamed, hrest]

theorem handledOf_length (status : PaymentStatus) : (handledOf status).length ≤ 1 := by
  cases status <;> decide

/-- Of at most one handled event the order does not matter. -/
theorem perm_short {α : Type} {l l' : List α} (h : l.Perm l') (hl : l'.length ≤ 1) : l = l' := by
  cases l' with
  | nil => exact List.perm_nil.mp h
  | cons a l' =>
      cases l' with
      | nil => exact List.perm_singleton.mp h
      | cons b l' => exact absurd hl (by simp)

/-- Order and stock, when the events of a payment that has come to `status`
have been handled. -/
theorem closed_iff {status : PaymentStatus} {U : Table Row} (hres : o₀.status = .reserved)
    (hs : Settled o₀ s₀ (handledOf status) U) : Closed o₀ s₀ status U ↔ status ≠ .declined := by
  obtain ⟨s, hrow, havail⟩ := hs.stock
  have horder : statusOf o₀.id U = some ((handledOf status).foldl nextStatus .reserved) := by
    rw [statusOf_lookup hs.order, hres]
  constructor
  · rintro hc rfl
    -- the order of a declined payment is RESERVED
    have hboth := hc.order.symm.trans horder
    exact absurd (Option.some.inj hboth) (by decide)
  · intro hne
    have hstatus : (handledOf status).foldl nextStatus .reserved = closingStatus status := by
      cases status <;> first | decide | exact absurd rfl hne
    have hcount : (handledOf status).count .failed
        = if closingStatus status = .failed then 1 else 0 := by
      cases status <;> first | decide | exact absurd rfl hne
    refine ⟨horder.trans (congrArg some hstatus), s, hrow, ?_⟩
    rw [havail, hcount]
    split <;> simp

/-- **Saga closure, exactly.**  Once the events of a payment have been handled,
its order is where the payment's status says, with the stock given back after a
failure, exactly when no committed request has asked for DECLINED. -/
theorem closure_iff {p₀ : Payment} (hT : ∀ r ∈ T.rows, r.violation = .ok ())
    (hno : ∀ e, Row.outbox e ∉ T.rows) (hp : T.lookup (.payment p₀.id) = some (.payment p₀))
    (ho : T.lookup (.order o₀.id) = some (.order o₀))
    (hs : T.lookup (.stock s₀.id) = some (.stock s₀)) (hstock : s₀.id = o₀.stock_id)
    (hpending : p₀.status = .pending) (hreserved : o₀.status = .reserved)
    (as : List (Action τ (ClosureCall o₀.id) Choice))
    (hall : AllHandled p₀.id (closureRun uuid5 p₀.id o₀.id T as).log
      (closureRun uuid5 p₀.id o₀.id T as).shared.base) :
    (∃ status, paymentStatusOf p₀.id (closureRun uuid5 p₀.id o₀.id T as).shared.base = some status
        ∧ Closed o₀ s₀ status (closureRun uuid5 p₀.id o₀.id T as).shared.base)
      ↔ .declined ∉ (closureRun uuid5 p₀.id o₀.id T as).log.filterMap askedStatus := by
  obtain ⟨path, ht⟩ := tied_run uuid5 hT hno hp ho hs hstock as
  obtain ⟨received, hrel, hperm⟩ := hall
  rw [hpending] at ht
  have hmem : ∀ e ∈ outboxOf p₀.id (closureRun uuid5 p₀.id o₀.id T as).shared.base,
      Delivers o₀.id e := by
    intro e he
    obtain ⟨row, hrow, hev⟩ := List.mem_filterMap.mp he
    obtain rfl := row_of_outboxEventOf hev
    exact ht.delivers e hrow
  obtain ⟨hnames, hreceived⟩ := received_events hmem hrel
  -- the handled events are those of the path
  obtain ⟨status, hlast⟩ : ∃ status, (PaymentStatus.pending :: path).getLast? = some status :=
    ⟨_, List.getLast?_eq_some_getLast (List.cons_ne_nil _ _)⟩
  have hpath : (PaymentStatus.pending :: path).IsChain Follows := ht.narrated.path
  have hevents : handledEvents o₀.id (closureRun uuid5 p₀.id o₀.id T as).log = handledOf status := by
    refine perm_short ?_ (handledOf_length status)
    have htypes := ht.narrated.events
    rw [List.tail_cons] at htypes
    have hwant : received.filterMap (namedStatus o₀.id) = path.filterMap handledAs := by
      rw [hreceived, htypes, List.filterMap_map]
      rfl
    have hpath' : path.filterMap handledAs = handledOf status := handledOf_path hpath hlast
    rw [← hpath', ← hwant]
    exact hperm.filterMap _
  have hsettled := ht.settled fun d hd => hnames d (hperm.mem_iff.mp hd)
  rw [hevents] at hsettled
  have hnow : paymentStatusOf p₀.id (closureRun uuid5 p₀.id o₀.id T as).shared.base = some status :=
    ht.narrated.status.symm.trans hlast
  have hdeclined : .declined ∉ path ↔ status ≠ .declined := by
    constructor
    · rintro hnot rfl
      rcases List.mem_cons.mp (List.mem_of_getLast? hlast) with hc | hc
      · cases hc
      · exact hnot hc
    · intro hne hmem
      have hd := declined_last hpath (List.mem_cons_of_mem _ hmem)
      exact hne (Option.some.inj (hlast.symm.trans hd))
  rw [ht.asked, List.tail_cons, hdeclined, ← closed_iff hreserved hsettled]
  constructor
  · rintro ⟨status', hs', hc⟩
    obtain rfl := Option.some.inj (hnow.symm.trans hs')
    exact hc
  · intro hc
    exact ⟨status, hnow, hc⟩

/-- Seven pieces are left of the stock; an order holds three, its payment is due. -/
def dueStock : Stock := ⟨Uuid.ofNat 1, 250, "EUR", 7, 2⟩

def dueOrder : Order := ⟨Uuid.ofNat 2, Uuid.ofNat 7, dueStock.id, 3, 1, 750, "EUR", .reserved⟩

def dueOrderTable : Table Row :=
  ⟨[.stock dueStock, .order dueOrder, .payment duePayment], by decide +kernel⟩

theorem dueOrderTable_accepted : ∀ r ∈ dueOrderTable.rows, r.violation = .ok () := by
  intro r hr
  rcases List.mem_cons.mp hr with rfl | hr
  · rfl
  · rcases List.mem_cons.mp hr with rfl | hr
    · rfl
    · rw [List.mem_singleton.mp hr]
      rfl

theorem dueOrderTable_no_outbox : ∀ e, Row.outbox e ∉ dueOrderTable.rows := by
  intro e he
  simp [dueOrderTable] at he

/-- The event of the due payment's step to `status`, and its outbox row. -/
def dueEvent (status : PaymentStatus) : EventEnvelope where
  event_id := Uuid.ofNat 11
  event_type := paymentEventType status
  schema_version := 1
  aggregate_type := "Payment"
  aggregate_id := duePayment.id.str
  payload := .dict [(.str "payment_id", .str duePayment.id.str), (.str "status", .str status.value),
    (.str "amount_minor_units", .int 1000), (.str "currency", .str "EUR"),
    (.str "occurred_at", .str ""), (.str "order_id", .str dueOrder.id.str)]
  event_type_len := paymentEventType_len status
  schema_version_ge := EventEnvelope.firstVersion_ge
  aggregate_type_len := EventEnvelope.payment_len
  aggregate_id_len := duePayment_id_len

def dueRow (status : PaymentStatus) : OutboxEvent where
  id := (dueEvent status).event_id
  aggregate_type := "Payment"
  aggregate_id := duePayment.id.str
  event_type := paymentEventType status
  topic := "payments.events"
  payload := .obj ((dueEvent status).dumpFields (.obj [("payment_id", .str duePayment.id.str),
    ("status", .str status.value), ("amount_minor_units", .int 1000), ("currency", .str "EUR"),
    ("occurred_at", .str ""), ("order_id", .str dueOrder.id.str)]))
  dedupe_id := (dumps (dueEvent status).hashed).getD ""
  processed := false
  created_at := 0
  processed_at := none
  attempt_count := 0
  failed := false
  last_error := none

/-- Session 0 moves the payment to `status`; session 1 handles the event. -/
def endedRun (status : PaymentStatus) : List (Action Nat (ClosureCall dueOrder.id) Choice) :=
  [.start 0 (.pay "k" status ⟨[("order_id", .str dueOrder.id.str)], List.nodup_singleton _, rfl⟩),
    .step 0 { uuid := Uuid.ofNat 10 }, .step 0 {}, .step 0 {}, .step 0 {}, .step 0 {},
    .step 0 { uuid := Uuid.ofNat 11 }, .step 0 {}, .step 0 {}, .commit 0 {},
    .start 1 (.deliver "payments.events" (dueEvent status)), .step 1 {}, .step 1 {}, .step 1 {},
    .step 1 {}, .step 1 {}, .commit 1 {}]

theorem allHandled_due {status : PaymentStatus} {U : Table Row}
    {log : List (Entry Nat (ClosureCall dueOrder.id) Exn Reply)} {s : Stock} {o : Order}
    {p : Payment} (hrows : U.rows = [.stock s, .order o, .payment p, .outbox (dueRow status)])
    (hlog : log.filterMap delivery = [("payments.events", dueEvent status)]) :
    AllHandled duePayment.id log U := by
  have hout : outboxOf duePayment.id U = [dueRow status] := by
    have hself : outboxEventOf duePayment.id (.outbox (dueRow status)) = some (dueRow status) :=
      outboxEventOf_self rfl
    unfold outboxOf
    rw [hrows]
    show [Row.outbox (dueRow status)].filterMap (outboxEventOf duePayment.id) = _
    rw [List.filterMap_cons, hself]
    rfl
  refine ⟨[("payments.events", dueEvent status)], ?_, hlog ▸ List.Perm.refl _⟩
  rw [hout]
  have hdump : (dueEvent status).modelDump = .ok (dueRow status).payload := rfl
  exact List.Forall₂.cons ⟨Uuid.ofNat 0, Uuid.ofNat 0, relayed_dump _ _ hdump rfl rfl⟩ List.Forall₂.nil

/-- **A declined payment leaves its order RESERVED**, its event handled. -/
theorem closure_fails_declined :
    ¬ (AllHandled duePayment.id
          (closureRun (fun c => c) duePayment.id dueOrder.id dueOrderTable (endedRun .declined)).log
          (closureRun (fun c => c) duePayment.id dueOrder.id dueOrderTable
            (endedRun .declined)).shared.base →
        ∃ status, paymentStatusOf duePayment.id (closureRun (fun c => c) duePayment.id dueOrder.id
            dueOrderTable (endedRun .declined)).shared.base = some status
          ∧ Closed dueOrder dueStock status (closureRun (fun c => c) duePayment.id dueOrder.id
            dueOrderTable (endedRun .declined)).shared.base) := by
  intro h
  obtain ⟨status, hs, hc⟩ := h (allHandled_due (s := dueStock) (o := dueOrder)
    (p := { duePayment with status := .declined }) rfl rfl)
  -- the payment is DECLINED, the order RESERVED
  obtain rfl : PaymentStatus.declined = status := Option.some.inj hs
  cases hc.order

theorem closure_iff_failed :
    (∃ status, paymentStatusOf duePayment.id (closureRun (fun c => c) duePayment.id dueOrder.id
          dueOrderTable (endedRun .failed)).shared.base = some status
        ∧ Closed dueOrder dueStock status (closureRun (fun c => c) duePayment.id dueOrder.id
          dueOrderTable (endedRun .failed)).shared.base)
      ↔ .declined ∉ (closureRun (fun c => c) duePayment.id dueOrder.id dueOrderTable
          (endedRun .failed)).log.filterMap askedStatus :=
  closure_iff dueOrderTable_accepted dueOrderTable_no_outbox rfl rfl rfl rfl rfl rfl
    (endedRun .failed) (allHandled_due (s := { dueStock with available := 10 })
      (o := { dueOrder with status := .failed }) (p := { duePayment with status := .failed }) rfl rfl)

end Nimbus
