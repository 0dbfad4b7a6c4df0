/-
  Nimbus.Modules.Orders
  ─────────────────────
  **THE ORDER SERVICES AND THE HANDLERS OF PAYMENT EVENTS.**

  `place_order` (first half of the saga), `update_order_status`, and the two
  handlers of `OrderConsumer`: a captured payment makes the order PAID, a failed
  one makes it FAILED and gives the stock back.

    • `placeOrder`, `updateOrderStatus`
    • `onPaymentCaptured`, `onPaymentFailed`, `handlers`
    • `nextStatus`        — the three guards of `update_order_status` as one
                            function of the status found and the status asked;
    • `placeOrder_wlp`, `updateOrderStatus_wlp`, `dispatch_wlp` — what each
                            leaves in its transaction.
-/
import Nimbus.Modules.Inventory

namespace Nimbus.Orders

open Lib Lib.Prog Inventory

/-! ## §1. Placing an order. -/

structure PlaceOrderRequest where
  user_id : Uuid
  stock_id : Uuid
  quantity : Int

structure PlaceOrderResult where
  order : Order
  outbox_event : OutboxEvent
  envelope : EventEnvelope

/-- `_MAX_RESERVE_RETRIES`. -/
def maxReserveRetries : Nat := 3

/-- A schema name that may stand in a `SET LOCAL`. -/
def validSchema (s : String) : Bool :=
  s.toList.all (fun c => c.isAlphanum || c = '_') &&
    match s.toList with
    | [] => false
    | c :: _ => !c.isDigit

/-- `async with with_schemas(session, *schemas)` around `body`. -/
def withSchemas {α : Type} (schemas : List String) (body : Svc α) : Svc α :=
  if schemas = [] then throw ⟨.valueError, "at least one schema must be provided", []⟩
  else match schemas.find? (fun s => !validSchema s) with
    | some s => throw ⟨.valueError, "Invalid schema name '" ++ s ++ "'", []⟩
    | none => do
        Svc.setSearchPath (", ".intercalate (schemas ++ ["public"]))
        body

/-- The order of a successful reservation. -/
def newOrder (request : PlaceOrderRequest) (stock : Stock) (reserve_result : ReserveResult)
    (id : Uuid) : Order where
  id := id
  user_id := request.user_id
  stock_id := request.stock_id
  quantity := request.quantity
  expected_version := reserve_result.new_version
  total_amount_minor_units := stock.price_minor_units * request.quantity
  currency := stock.currency
  status := .reserved

/-- The payload of `orders.order_created`. -/
def orderCreated (order : Order) : PyVal :=
  .dict [(.str "order_id", .str order.id.str), (.str "user_id", .str order.user_id.str),
    (.str "stock_id", .str order.stock_id.str), (.str "quantity", .int order.quantity),
    (.str "total_amount_minor_units", .int order.total_amount_minor_units),
    (.str "currency", .str order.currency)]

/-- The order and its outbox row, after a successful reservation. -/
def recordOrder (uuid5 : Uuid5) (request : PlaceOrderRequest) (stock : Stock)
    (reserve_result : ReserveResult) : Svc PlaceOrderResult := do
  let order_id ← Svc.uuid4
  let order := newOrder request stock reserve_result order_id
  let event_id ← Svc.uuid4
  let envelope ← lift (EventEnvelope.mk? event_id "orders.order_created" 1 "Order" order.id.str
    (orderCreated order))
  let outbox ← lift (outboxRow uuid5 envelope "orders.events")
  Svc.add (.order order)
  Svc.add (.outbox outbox)
  Svc.flush
  return ⟨order, outbox, envelope⟩

/-- The retry loop, `n` attempts being left. -/
def attempts (uuid5 : Uuid5) (request : PlaceOrderRequest) :
    Nat → Option Exn → Svc PlaceOrderResult
  | 0, some last_exc => throw last_exc
  | 0, none => throw ⟨.assertionError, "", []⟩
  | n + 1, _ => do
      let stock ← getStock request.stock_id
      (reserve ⟨request.stock_id, request.quantity, stock.version⟩).handle fun
        | .ok reserve_result => recordOrder uuid5 request stock reserve_result
        | .error exc =>
            if exc.isA .concurrentUpdateError then attempts uuid5 request n (some exc)
            else throw exc

/-- `place_order`. -/
def placeOrder (uuid5 : Uuid5) (request : PlaceOrderRequest) : Svc PlaceOrderResult :=
  if request.quantity ≤ 0 then throw quantityNotPositive
  else withSchemas ["orders", "inventory"] (attempts uuid5 request maxReserveRetries none)

/-! ## §2. Updating an order's status. -/

def orderNotFound (order_id : Uuid) : Exn :=
  ⟨.orderNotFoundError, "Order does not exist.", [("order_id", .str order_id.str)]⟩

def unsupportedStatus (new_status : OrderStatus) : Exn :=
  ⟨.valueError, "update_order_status only supports PAID or FAILED, got OrderStatus."
    ++ new_status.memberName, []⟩

/-- The order object of a query result. -/
def asOrder : Option Row → Option Order
  | some (.order o) => some o
  | _ => none

/-- The guards of `update_order_status`: the transition is applied. -/
def applies (current new_status : OrderStatus) : Bool :=
  if current = new_status then false
  else if new_status = .paid ∧ current ≠ .reserved then false
  else if new_status = .failed ∧ ¬ (current = .pending ∨ current = .reserved) then false
  else true

/-- `update_order_status`. -/
def updateOrderStatus (order_id : Uuid) (new_status : OrderStatus) : Svc Order :=
  if ¬ (new_status = .paid ∨ new_status = .failed) then throw (unsupportedStatus new_status)
  else do
    let row ← Svc.select (.order order_id) true
    match asOrder row with
    | none => throw (orderNotFound order_id)
    | some order =>
        if applies order.status new_status then do
          Svc.setOrderStatus order_id new_status
          return { order with status := new_status }
        else return order

/-- The status after a committed `update_order_status`. -/
def nextStatus (current new_status : OrderStatus) : OrderStatus :=
  if applies current new_status then new_status else current

/-! ## §3. The handlers of `OrderConsumer`. -/

/-- `envelope.payload.get("order_id")` as a UUID; `none` where the handlers log
and return. -/
def orderIdOf (payload : PyVal) : Except Exn (Option Uuid) :=
  match payload.get? "order_id" with
  | none => .error ⟨.attributeError, "object has no attribute 'get'", []⟩
  | some (.str order_id_str) => .ok (Uuid.parse order_id_str)
  | some _ => .ok none

/-- How both handlers begin: log and return unless the payload names an order. -/
def withOrderId (envelope : EventEnvelope) (body : Uuid → Svc Unit) : Svc Unit := do
  let order_id ← lift (orderIdOf envelope.payload)
  match order_id with
  | none => return ()
  | some order_id => body order_id

/-- `_on_payment_captured`. -/
def onPaymentCaptured (envelope : EventEnvelope) : Svc Unit :=
  withOrderId envelope fun order_id => do
    let _ ← updateOrderStatus order_id .paid
    return ()

/-- The compensation: release what the order had reserved. -/
def releaseOrder (order_id : Uuid) : Svc Unit := do
  let row ← Svc.select (.order order_id) false
  match asOrder row with
  | none => return ()
  | some order => do
      let _ ← release ⟨order.stock_id, order.quantity, order.expected_version⟩
      return ()

/-- `_on_payment_failed`. -/
def onPaymentFailed (envelope : EventEnvelope) : Svc Unit :=
  withOrderId envelope fun order_id => do
    let _ ← updateOrderStatus order_id .failed
    withSchemas ["orders", "inventory"] (releaseOrder order_id)

/-- `_register_handlers`. -/
def handlers (topic event_type : String) : Option (EventEnvelope → Svc Unit) :=
  if topic = "payments.events" ∧ event_type = "payments.payment_captured" then
    some onPaymentCaptured
  else if topic = "payments.events" ∧ event_type = "payments.payment_failed" then
    some onPaymentFailed
  else none

/-- The handler part of a delivery: nothing happens without a handler. -/
def dispatch (topic : String) (envelope : EventEnvelope) : Svc Unit :=
  match handlers topic envelope.event_type with
  | none => return ()
  | some handler => handler envelope

/-! ## §4. What is left in the transaction. -/

/-- The writes of a successful `place_order`: the reservation on the committed
stock row, and an order and an outbox row under keys that were free. -/
structure Placed (request : PlaceOrderRequest) (res : PlaceOrderResult) (s : Stock)
    (row : Row) (l : Local) : Prop where
  positive : 0 < request.quantity
  stock_id : s.id = request.stock_id
  stock : l.part.locked (.stock request.stock_id) = some (some (.stock s))
  available : request.quantity ≤ s.available
  order : l.part.locked (.order res.order.id) = some none
  outbox : l.part.locked (key row) = some none
  outbox_key : key row = .outbox res.outbox_event.id
  order_eq : ∃ rr st, res.order = newOrder request st rr res.order.id
  writes : l.part.writes = [row, .order res.order, .stock (s.reserve request.quantity)]
  pending : l.session.pending = []

/-- What `place_order` leaves behind when it returns. -/
def placeOrderPost (request : PlaceOrderRequest) (r : Except Exn PlaceOrderResult) (l : Local) :
    Prop :=
  match r with
  | .ok res => ∃ s now, Placed request res s (World.stamp now (.outbox res.outbox_event)) l
  | .error _ => True

/-- What `update_order_status` leaves behind: the order is locked, and its new
status waits for the flush if the guards let it pass. -/
structure Updated (order_id : Uuid) (new_status : OrderStatus) (o order : Order) (l : Local) :
    Prop where
  id : o.id = order_id
  locked : l.part.locked (.order order_id) = some (some (.order o))
  order_eq : order = { o with status := nextStatus o.status new_status }
  loaded : l.session.objs (.order order_id) = some (.order order)
  writes : l.part.writes = []
  pending : l.session.pending
    = if applies o.status new_status then [.orderStatus order_id new_status] else []

/-- The status that the handler of an event asks for. -/
def requestedStatus (topic event_type : String) : Option OrderStatus :=
  if topic = "payments.events" ∧ event_type = "payments.payment_captured" then some .paid
  else if topic = "payments.events" ∧ event_type = "payments.payment_failed" then some .failed
  else none

/-- The order that an envelope names, and the status it asks for. -/
def eventOf (topic : String) (envelope : EventEnvelope) : Option (OrderStatus × Uuid) :=
  match requestedStatus topic envelope.event_type, orderIdOf envelope.payload with
  | some status, .ok (some order_id) => some (status, order_id)
  | _, _ => none

/-- What a handler leaves behind when it returns: for a captured payment the
status change, for a failed one also the release, made whether or not the
status has changed, unless the stock row was missing. -/
def dispatchPost (J : Table Row → Prop) (topic : String) (envelope : EventEnvelope)
    (r : Except Exn Unit) (l : Local) : Prop :=
  match r with
  | .error _ => True
  | .ok () =>
      match eventOf topic envelope with
      | none => l.Untouched
      | some (new_status, order_id) => ∃ o : Order, o.id = order_id
          ∧ l.part.locked (.order order_id) = some (some (.order o))
          ∧ l.session.pending
              = (if applies o.status new_status then [.orderStatus order_id new_status] else [])
          ∧ (if new_status = .failed then
              0 < o.quantity ∧ ((l.part.writes = [] ∧ ∃ T, J T
                  ∧ T.lookup (.order order_id) = some (.order o)
                  ∧ T.lookup (.stock o.stock_id) = none)
                ∨ ∃ s : Stock, s.id = o.stock_id
                  ∧ l.part.locked (.stock o.stock_id) = some (some (.stock s))
                  ∧ l.part.writes = [.stock (s.release o.quantity)])
            else l.part.writes = [])

variable {τ : Type} [DecidableEq τ] {t : τ} {J : Table Row → Prop} {l : Local}

/-- The fixed schema names are valid: only the search path is set. -/
theorem withSchemas_eq {α : Type} (body : Svc α) :
    withSchemas ["orders", "inventory"] body
      = Svc.setSearchPath "orders, inventory, public" >>= fun _ => body := by
  have hvalid : ["orders", "inventory"].find? (fun s => !validSchema s) = none := by decide
  have hpath : ", ".intercalate (["orders", "inventory"] ++ ["public"])
      = "orders, inventory, public" := by decide
  unfold withSchemas
  rw [if_neg (by decide), hvalid, hpath]

theorem withSchemas_wlp {α : Type} {Q : Except Exn α → Local → Prop} {body : Svc α}
    (herr : ∀ e, Q (.error e) l) (h : wlp (setting J t) anywhere Q body l) :
    wlp (setting J t) anywhere Q (withSchemas ["orders", "inventory"] body) l := by
  rw [withSchemas_eq]
  exact wlp_setSearchPath trivial herr h

/-- **What the two inserts of `place_order` make of its transaction.** -/
theorem flush_placed {request : PlaceOrderRequest} {rr : ReserveResult} {st s : Stock}
    {id : Uuid} {e : OutboxEvent} {envelope : EventEnvelope} {now rver : Int}
    {d d' : TxStore Row τ} {l' : Local}
    (hr : Reserved ⟨request.stock_id, request.quantity, rver⟩ s l) (hpart : d.part t = l.part)
    (h : World.flushAll now d t [.insert (.order (newOrder request st rr id)), .insert (.outbox e)]
      = some (.ok d'))
    (hp' : l'.part = d'.part t) (hs' : l'.session.pending = []) :
    Placed request ⟨newOrder request st rr id, e, envelope⟩ s (World.stamp now (.outbox e)) l' := by
  obtain ⟨d₁, h₁, h⟩ := flushAll_cons h
  obtain ⟨d₂, h₂, h⟩ := flushAll_cons h
  obtain rfl := flushAll_nil h
  obtain ⟨-, -, p, hp, hpw, hpl⟩ := flushOne_insert_part h₁
  obtain ⟨-, -, q, hq, hqw, hql⟩ := flushOne_insert_part h₂
  rw [hpart] at hpw hpl
  rw [← hp'] at hq
  have hkey : key (World.stamp now (.outbox e)) = .outbox e.id := rfl
  -- the second INSERT leaves every other lock as it was
  have hlast : ∀ k, (∀ x, k ≠ .dedupe x) → k ≠ .outbox e.id →
      l'.part.locked k = (d₁.part t).locked k := by
    intro k hd ho
    rw [hq, TxPart.put_locked_ne _ _ (hkey ▸ ho), hql k hd]
  -- the three writes, the last one first
  have hwrites : l'.part.writes = [World.stamp now (.outbox e),
      .order (newOrder request st rr id), .stock (s.reserve request.quantity)] := by
    rw [hq, TxPart.put_writes, hqw, hp, TxPart.put_writes, hpw, hr.writes]
    rfl
  have hstock : l'.part.locked (.stock request.stock_id) = some (some (.stock s)) := by
    rw [hlast _ (fun _ hc => RowKey.noConfusion hc) (fun hc => RowKey.noConfusion hc), hp,
      TxPart.put_locked_ne _ _ (fun hc => RowKey.noConfusion hc),
      hpl _ (fun _ hc => RowKey.noConfusion hc)]
    exact hr.locked
  have horder : l'.part.locked (.order id) = some none := by
    rw [hlast _ (fun _ hc => RowKey.noConfusion hc) (fun hc => RowKey.noConfusion hc), hp]
    exact TxPart.put_locked p (Row.order (newOrder request st rr id)) none
  have houtbox : l'.part.locked (key (World.stamp now (.outbox e))) = some none := by
    rw [hq]
    exact TxPart.put_locked _ _ _
  exact ⟨hr.positive, hr.id, hstock, hr.available, horder, houtbox, rfl, ⟨rr, st, rfl⟩, hwrites, hs'⟩

/-- After a successful reservation the order and its event are written too. -/
theorem recordOrder_wlp (uuid5 : Uuid5) (request : PlaceOrderRequest) (stock : Stock)
    (rr : ReserveResult) {s : Stock} {rver : Int}
    (hr : Reserved ⟨request.stock_id, request.quantity, rver⟩ s l) :
    wlp (setting J t) anywhere (placeOrderPost request) (recordOrder uuid5 request stock rr) l := by
  refine wlp_uuid4 trivial fun order_id => wlp_uuid4 trivial fun event_id => ?_
  -- whether the envelope and the row can be built does not matter here
  generalize EventEnvelope.mk? event_id "orders.order_created" 1 "Order"
    (newOrder request stock rr order_id).id.str (orderCreated (newOrder request stock rr order_id))
    = made
  cases made with
  | error e => exact ⟨trivial, trivial⟩
  | ok envelope =>
      show wlp _ _ _ (lift (outboxRow uuid5 envelope "orders.events") >>= _) _
      generalize outboxRow uuid5 envelope "orders.events" = built
      cases built with
      | error e => exact ⟨trivial, trivial⟩
      | ok outbox =>
          refine wlp_add trivial (wlp_add trivial (wlp_flush trivial (fun _ _ => trivial) ?_))
          intro now d d' _ hpart hflush
          -- the flush inserts the two rows, nothing else is pending
          have hpend : l.session.pending = [] := hr.pending
          simp only [Local.push, hpend, List.nil_append, List.cons_append] at hflush
          exact ⟨trivial, s, now, flush_placed hr hpart hflush rfl rfl⟩

/-- Every attempt starts from an untouched transaction: a lost one has written
nothing. -/
theorem attempts_wlp (uuid5 : Uuid5) (request : PlaceOrderRequest) : ∀ (n : Nat)
    (last_exc : Option Exn) {l : Local}, l.Untouched →
    wlp (setting J t) anywhere (placeOrderPost request) (attempts uuid5 request n last_exc) l := by
  intro n
  induction n with
  | zero =>
      intro last_exc l hl
      cases last_exc with
      | none => exact ⟨trivial, trivial⟩
      | some e => exact ⟨trivial, trivial⟩
  | succ n ih =>
      intro last_exc l hl
      -- each turn starts with a session that has written nothing
      refine wlp_bind (getStock_wlp request.stock_id hl) (fun _ _ _ => trivial) ?_
      intro stock l₁ _ hl₁
      refine wlp_handle (fun r l₂ _ hr => ?_) (reserve_wlp _ hl₁)
      cases r with
      | ok rr =>
          obtain ⟨s, hs⟩ := hr
          exact recordOrder_wlp uuid5 request stock rr hs
      | error exc =>
          show wlp _ _ _ (if _ then _ else _) l₂
          split
          · -- the race is lost
            exact ih (some exc) hr
          · exact ⟨trivial, trivial⟩

/-- **A `place_order` that returns has written one reservation, one order and
one outbox row.** -/
theorem placeOrder_wlp (uuid5 : Uuid5) (request : PlaceOrderRequest) (hl : l.Untouched) :
    wlp (setting J t) anywhere (placeOrderPost request) (placeOrder uuid5 request) l := by
  unfold placeOrder
  split
  · exact ⟨trivial, trivial⟩
  · exact withSchemas_wlp (fun _ => trivial) (attempts_wlp uuid5 request _ none hl)

/-- What `update_order_status` leaves behind. -/
def updateOrderStatusPost (order_id : Uuid) (new_status : OrderStatus) (r : Except Exn Order)
    (l : Local) : Prop :=
  match r with
  | .ok order => ∃ o, Updated order_id new_status o order l
  | .error _ => True

/-- **A fresh session's `update_order_status` decides on the committed, locked
order.** -/
theorem updateOrderStatus_wlp (order_id : Uuid) (new_status : OrderStatus) (hl : l.Untouched)
    (hobj : l.session.objs (.order order_id) = none) :
    wlp (setting J t) anywhere (updateOrderStatusPost order_id new_status)
      (updateOrderStatus order_id new_status) l := by
  unfold updateOrderStatus
  split
  · exact ⟨trivial, trivial⟩
  · refine wlp_selectForUpdate trivial hl.1 (fun _ => trivial) ⟨trivial, trivial⟩ fun row hrow => ?_
    -- the session is new to the order, so it gets the row
    have hfound : l.object (.order order_id) row = row := by
      unfold Local.object
      rw [hobj]
      rfl
    rw [hfound]
    cases row with
    | stock s => cases hrow
    | payment p => cases hrow
    | outbox e => cases hrow
    | order o =>
        have hid : o.id = order_id := RowKey.order.inj hrow
        -- the row is loaded, and locked
        have hload : (l.load (.order order_id) (.order o)).session.objs (.order order_id)
            = some (.order o) := by
          unfold Local.load
          rw [hfound]
          exact Function.update_self ..
        show wlp _ _ _ (if _ then _ else _) _
        split
        next happ =>
          refine wlp_setOrderStatus trivial ⟨trivial, o, hid, TxPart.lock_locked _ _ _, ?_, ?_,
            hl.1, ?_⟩
          · simp [nextStatus, happ]
          · show setOrderObj (l.load (.order order_id) (.order o)).session.objs order_id new_status
              (.order order_id) = _
            unfold setOrderObj
            rw [hload]
            exact Function.update_self ..
          · show l.session.pending ++ _ = _
            rw [hl.2, if_pos happ]
            rfl
        next happ =>
          refine ⟨trivial, o, hid, TxPart.lock_locked _ _ _, ?_, hload, hl.1, ?_⟩
          · simp [nextStatus, happ]
          · rw [if_neg happ]
            exact hl.2

/-- The compensation works on the order just updated. -/
theorem releaseOrder_wlp {order_id : Uuid} {o order : Order}
    (hu : Updated order_id .failed o order l) {topic : String} {envelope : EventEnvelope}
    (hev : eventOf topic envelope = some (.failed, order_id)) :
    wlp (setting J t) anywhere (dispatchPost J topic envelope) (releaseOrder order_id) l := by
  refine wlp_select_locked trivial hu.writes hu.locked (fun _ => trivial) ?_
  -- the order is the object whose status has been set
  have hfound : l.object (.order order_id) (.order o) = .order order := by
    unfold Local.object
    rw [hu.loaded]
    rfl
  rw [hfound]
  show wlp _ _ _ (release ⟨order.stock_id, order.quantity, order.expected_version⟩ >>= _) _
  refine wlp_bind (release_wlp _ hu.writes) (fun _ _ _ => trivial) fun n l' _ hpost => ?_
  -- the release touches the stock row only
  have hlocked : l'.part.locked (.order order_id) = some (some (.order o)) :=
    (hpost.locked _ (fun hc => RowKey.noConfusion hc)).trans hu.locked
  have hpos := hpost.positive
  have hwrites := hpost.writes
  rw [hu.order_eq] at hpos hwrites
  show True ∧ dispatchPost J topic envelope (.ok ()) l'
  unfold dispatchPost
  simp only [hev]
  refine ⟨trivial, o, hu.id, hlocked, hpost.pending.trans hu.pending, hpos, ?_⟩
  rcases hwrites with ⟨hw, T, hJ, hseen, hnone⟩ | hone
  · exact Or.inl ⟨hw, T, hJ, hseen _ _ hu.locked, hnone⟩
  · exact Or.inr hone

/-- The handlers, told apart by the status they ask for. -/
theorem handlers_cases (topic event_type : String) :
    (handlers topic event_type = some onPaymentCaptured
      ∧ requestedStatus topic event_type = some .paid)
    ∨ (handlers topic event_type = some onPaymentFailed
      ∧ requestedStatus topic event_type = some .failed)
    ∨ (handlers topic event_type = none ∧ requestedStatus topic event_type = none) := by
  unfold handlers requestedStatus
  split_ifs
  · exact Or.inl ⟨rfl, rfl⟩
  · exact Or.inr (Or.inl ⟨rfl, rfl⟩)
  · exact Or.inr (Or.inr ⟨rfl, rfl⟩)

/-- A handler does nothing unless the envelope names an order. -/
theorem withOrderId_wlp {topic : String} {envelope : EventEnvelope} {status : OrderStatus}
    {body : Uuid → Svc Unit} (hl : l.Untouched)
    (hstatus : requestedStatus topic envelope.event_type = some status)
    (hbody : ∀ order_id, eventOf topic envelope = some (status, order_id) →
      wlp (setting J t) anywhere (dispatchPost J topic envelope) (body order_id) l) :
    wlp (setting J t) anywhere (dispatchPost J topic envelope) (withOrderId envelope body) l := by
  -- without an order id the event asks for nothing
  have hnone : (∀ order_id, orderIdOf envelope.payload ≠ .ok (some order_id)) →
      dispatchPost J topic envelope (.ok ()) l := by
    intro hno
    have hev : eventOf topic envelope = none := by
      unfold eventOf
      split
      next order_id _ hid => exact absurd hid (hno order_id)
      next => rfl
    simp only [dispatchPost, hev]
    exact hl
  show wlp _ _ _ (lift (orderIdOf envelope.payload) >>= _) l
  cases hid : orderIdOf envelope.payload with
  | error e => exact ⟨trivial, trivial⟩
  | ok found =>
      cases found with
      | none =>
          refine ⟨trivial, hnone fun order_id he => ?_⟩
          rw [hid] at he
          cases he
      | some order_id =>
          refine hbody order_id ?_
          simp only [eventOf, hstatus, hid]

/-- **What a delivery leaves in its transaction.** -/
theorem dispatch_wlp (topic : String) (envelope : EventEnvelope) (hl : l.Untouched)
    (hobj : ∀ k, l.session.objs k = none) :
    wlp (setting J t) anywhere (dispatchPost J topic envelope) (dispatch topic envelope) l := by
  unfold dispatch
  rcases handlers_cases topic envelope.event_type with ⟨hh, hs⟩ | ⟨hh, hs⟩ | ⟨hh, hs⟩
  · rw [hh]
    refine withOrderId_wlp hl hs fun order_id hev => ?_
    refine wlp_bind (updateOrderStatus_wlp order_id .paid hl (hobj _)) (fun _ _ _ => trivial)
      fun order l' _ hpost => ?_
    obtain ⟨o, hu⟩ := hpost
    refine ⟨trivial, ?_⟩
    simp only [dispatchPost, hev]
    exact ⟨o, hu.id, hu.locked, hu.pending, hu.writes⟩
  · rw [hh]
    refine withOrderId_wlp hl hs fun order_id hev => ?_
    refine wlp_bind (updateOrderStatus_wlp order_id .failed hl (hobj _)) (fun _ _ _ => trivial)
      fun order l' _ hpost => ?_
    obtain ⟨o, hu⟩ := hpost
    exact withSchemas_wlp (fun _ => trivial) (releaseOrder_wlp hu hev)
  · rw [hh]
    have hev : eventOf topic envelope = none := by
      simp only [eventOf, hs]
    refine ⟨trivial, ?_⟩
    simp only [dispatchPost, hev]
    exact hl

end Nimbus.Orders
