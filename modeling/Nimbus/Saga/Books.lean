/-
  Nimbus.Saga.Books
  ─────────────────
  **THE BOOKS OF THE SHOP.**

  What the services are there for, without sessions, locks, objects and retries:
  what is left of the stock, which orders there are, how far the payments have
  come, and what has been announced.  Five kinds of entries change the books, one
  at a time, and an entry that the books do not allow is refused.  Every
  interleaving of the services is an execution of the entries that its commits
  make, in the order of the commits; what is shown of the books holds of the
  database.

    • `Books`, `Books.step`  — the books, and what one entry does;
    • `Books.stock_account`  — in the books every piece is accounted for;
    • `booksOf`, `entryOf`   — the books of the committed rows, the entry of a
                               committed call;
    • `books_serial`         — **every run is an execution of its entries;**
    • `stock_accounted`      — **every piece in the database is accounted for.**
-/
import Nimbus.Saga.Compensation
import Nimbus.Saga.PaymentEvents

namespace Nimbus

open Lib Lib.Prog Inventory Orders Payments

/-! ## §1. The books. -/

/-- An order: what it is of, how many pieces, and how far it has come. -/
structure Books.Line (σ : Type) where
  stock : σ
  quantity : Int
  status : OrderStatus
deriving DecidableEq

/-- What is announced. -/
inductive Books.Event (ο π : Type) where
  | placed (order : ο)
  | moved (payment : π) (status : PaymentStatus)
deriving DecidableEq

/-- The books: of every stock what is available and its version, the orders, the
payments, and the announcements, oldest first. -/
@[ext] structure Books (σ ο π : Type) where
  stock : σ → Option (Int × Int)
  order : ο → Option (Books.Line σ)
  payment : π → Option PaymentStatus
  events : List (Books.Event ο π)

namespace Books

/-- An entry. -/
inductive Entry (σ ο π : Type) where
  | reserve (stock : σ) (quantity version : Int)
  | release (stock : σ) (quantity : Int)
  | place (order : ο) (stock : σ) (quantity : Int)
  | pay (payment : π) (status : PaymentStatus)
  | settle (order : ο) (status : OrderStatus)

section

variable {σ ο π : Type} [DecidableEq σ] [DecidableEq ο] [DecidableEq π]

/-- Pieces are put back, where there is such a stock. -/
def putBack (B : Books σ ο π) (stock : σ) (quantity : Int) : Books σ ο π :=
  { B with
    stock := Function.update B.stock stock
      ((B.stock stock).map fun x => (x.1 + quantity, x.2)) }

/-- Pieces are taken, and the version of the stock goes up. -/
def take (B : Books σ ο π) (stock : σ) (quantity : Int) : Books σ ο π :=
  { B with
    stock := Function.update B.stock stock
      ((B.stock stock).map fun x => (x.1 - quantity, x.2 + 1)) }

/-- There are that many pieces of the stock. -/
def Has (B : Books σ ο π) (stock : σ) (quantity : Int) : Prop :=
  0 < quantity ∧ ∃ x, B.stock stock = some x ∧ quantity ≤ x.1

instance (B : Books σ ο π) (stock : σ) (quantity : Int) : Decidable (B.Has stock quantity) :=
  match h : B.stock stock with
  | none => isFalse fun hc => by
      obtain ⟨-, x, hx, -⟩ := hc
      rw [h] at hx
      cases hx
  | some x => decidable_of_iff (0 < quantity ∧ quantity ≤ x.1) (by simp [Has, h])

/-- An order asks for a status, and gets it if the guards let it pass. -/
def settle (B : Books σ ο π) (order : ο) (line : Line σ) (status : OrderStatus) : Books σ ο π :=
  { B with
    order := Function.update B.order order
      (some { line with status := nextStatus line.status status }) }

/-- One entry; `none` where the books do not allow it. -/
def step (B : Books σ ο π) : Entry σ ο π → Option (Books σ ο π)
  | .reserve stock quantity version =>
      if B.Has stock quantity ∧ (B.stock stock).map Prod.snd = some version then
        some (B.take stock quantity)
      else none
  | .release stock quantity => if 0 < quantity then some (B.putBack stock quantity) else none
  | .place order stock quantity =>
      if B.Has stock quantity ∧ (B.order order).isNone then
        some { B.take stock quantity with
          order := Function.update B.order order (some ⟨stock, quantity, .reserved⟩)
          events := B.events ++ [.placed order] }
      else none
  | .pay payment status =>
      match B.payment payment with
      | none => none
      | some current =>
          if status ∈ current.allowedTransitions then
            some { B with
              payment := Function.update B.payment payment (some status)
              events := B.events ++ [.moved payment status] }
          else none
  | .settle order status =>
      match B.order order with
      | none => none
      | some line =>
          if status = .failed then
            -- the pieces go back whether or not the status changes
            if 0 < line.quantity then
              some ((B.settle order line status).putBack line.stock line.quantity)
            else none
          else some (B.settle order line status)

/-- The books as a machine. -/
def machine : Machine (Books σ ο π) (Entry σ ο π) := ⟨step⟩

/-! ## §2. Every piece is accounted for. -/

variable {B B' : Books σ ο π} {e : Entry σ ο π}

/-- **What each entry does.** -/
theorem step_cases (h : B.step e = some B') :
    (∃ stock quantity version, e = .reserve stock quantity version ∧ B.Has stock quantity
      ∧ (B.stock stock).map Prod.snd = some version ∧ B' = B.take stock quantity)
    ∨ (∃ stock quantity, e = .release stock quantity ∧ 0 < quantity
      ∧ B' = B.putBack stock quantity)
    ∨ (∃ order stock quantity, e = .place order stock quantity ∧ B.Has stock quantity
      ∧ B.order order = none ∧ B' = { B.take stock quantity with
          order := Function.update B.order order (some ⟨stock, quantity, .reserved⟩)
          events := B.events ++ [.placed order] })
    ∨ (∃ payment status current, e = .pay payment status ∧ B.payment payment = some current
      ∧ status ∈ current.allowedTransitions ∧ B' = { B with
          payment := Function.update B.payment payment (some status)
          events := B.events ++ [.moved payment status] })
    ∨ ∃ order status line, e = .settle order status ∧ B.order order = some line
      ∧ ((status ≠ .failed ∧ B' = B.settle order line status)
        ∨ (status = .failed ∧ 0 < line.quantity
          ∧ B' = (B.settle order line status).putBack line.stock line.quantity)) := by
  cases e with
  | reserve stock quantity version =>
      simp only [step] at h
      split at h
      next hc => exact Or.inl ⟨stock, quantity, version, rfl, hc.1, hc.2, (Option.some.inj h).symm⟩
      next => cases h
  | release stock quantity =>
      simp only [step] at h
      split at h
      next hq => exact Or.inr (Or.inl ⟨stock, quantity, rfl, hq, (Option.some.inj h).symm⟩)
      next => cases h
  | place order stock quantity =>
      simp only [step] at h
      split at h
      next hc =>
        have hnone : B.order order = none := Option.isNone_iff_eq_none.mp hc.2
        exact Or.inr (Or.inr (Or.inl
          ⟨order, stock, quantity, rfl, hc.1, hnone, (Option.some.inj h).symm⟩))
      next => cases h
  | pay payment status =>
      simp only [step] at h
      split at h
      next => cases h
      next current hcurrent =>
        split at h
        next hallowed =>
          exact Or.inr (Or.inr (Or.inr (Or.inl
            ⟨payment, status, current, rfl, hcurrent, hallowed, (Option.some.inj h).symm⟩)))
        next => cases h
  | settle order status =>
      simp only [step] at h
      split at h
      next => cases h
      next line hline =>
        refine Or.inr (Or.inr (Or.inr (Or.inr ⟨order, status, line, rfl, hline, ?_⟩)))
        split at h
        next hfailed =>
          split at h
          next hq => exact Or.inr ⟨hfailed, hq, (Option.some.inj h).symm⟩
          next => cases h
        next hne => exact Or.inl ⟨hne, (Option.some.inj h).symm⟩

/-- The pieces of the stock `s` that an entry takes. -/
def drawn (s : σ) : Entry σ ο π → Int
  | .reserve stock quantity _ => if stock = s then quantity else 0
  | .place _ stock quantity => if stock = s then quantity else 0
  | _ => 0

/-- The entry takes pieces of the stock `s`. -/
def draws (s : σ) : Entry σ ο π → Bool
  | .reserve stock _ _ => decide (stock = s)
  | .place _ stock _ => decide (stock = s)
  | _ => false

/-- The pieces of the stock `s` that an entry puts back, by the orders of `B`. -/
def returned (B : Books σ ο π) (s : σ) : Entry σ ο π → Int
  | .release stock quantity => if stock = s then quantity else 0
  | .settle order status =>
      match B.order order with
      | some line => if status = .failed ∧ line.stock = s then line.quantity else 0
      | none => 0
  | _ => 0

/-- An order stays what it is of. -/
theorem step_order (h : B.step e = some B') {order : ο} {line : Line σ}
    (hline : B.order order = some line) :
    ∃ line', B'.order order = some line' ∧ line'.stock = line.stock
      ∧ line'.quantity = line.quantity := by
  rcases step_cases h with ⟨_, _, _, -, -, -, rfl⟩ | ⟨_, _, -, -, rfl⟩ |
    ⟨order', stock, quantity, -, -, hnone, rfl⟩ | ⟨_, _, _, -, -, -, rfl⟩ |
    ⟨order', status, line₀, -, hline₀, hB'⟩
  · exact ⟨line, hline, rfl, rfl⟩
  · exact ⟨line, hline, rfl, rfl⟩
  · -- an order that is placed is a new one
    have hne : order ≠ order' := by
      intro hc
      rw [hc, hnone] at hline
      cases hline
    exact ⟨line, (Function.update_of_ne hne _ _).trans hline, rfl, rfl⟩
  · exact ⟨line, hline, rfl, rfl⟩
  · have hsame : B'.order = (B.settle order' line₀ status).order := by
      rcases hB' with ⟨-, rfl⟩ | ⟨-, -, rfl⟩
      · rfl
      · rfl
    rw [hsame]
    by_cases hid : order = order'
    · subst hid
      obtain rfl := Option.some.inj (hline₀.symm.trans hline)
      exact ⟨_, Function.update_self .., rfl, rfl⟩
    · exact ⟨line, (Function.update_of_ne hid _ _).trans hline, rfl, rfl⟩

/-- Its pieces are those of before. -/
theorem returned_step (h : B.step e = some B') (s : σ) {e' : Entry σ ο π}
    (hknown : ∀ order status, e' = .settle order status → (B.order order).isSome = true) :
    B'.returned s e' = B.returned s e' := by
  cases e' with
  | settle order status =>
      obtain ⟨line, hline⟩ := Option.isSome_iff_exists.mp (hknown order status rfl)
      obtain ⟨line', hline', hstock, hquantity⟩ := step_order h hline
      simp only [returned, hline, hline', hstock, hquantity]
  | _ => rfl

theorem take_stock {ο π : Type} (B : Books σ ο π) (stock s : σ) (quantity : Int) :
    (B.take stock quantity).stock s = (B.stock s).map fun x =>
      (x.1 - (if stock = s then quantity else 0), x.2 + if stock = s then 1 else 0) := by
  by_cases hs : stock = s
  · subst hs
    simp [take]
  · have hsame : (B.take stock quantity).stock s = B.stock s :=
      Function.update_of_ne (fun hc => hs hc.symm) _ _
    rw [hsame]
    simp [hs]

theorem putBack_stock {ο π : Type} (B : Books σ ο π) (stock s : σ) (quantity : Int) :
    (B.putBack stock quantity).stock s
      = (B.stock s).map fun x => (x.1 + (if stock = s then quantity else 0), x.2) := by
  by_cases hs : stock = s
  · subst hs
    simp [putBack]
  · have hsame : (B.putBack stock quantity).stock s = B.stock s :=
      Function.update_of_ne (fun hc => hs hc.symm) _ _
    rw [hsame]
    simp [hs]

/-- **What one entry does to a stock.** -/
theorem step_stock (h : B.step e = some B') (s : σ) :
    B'.stock s = (B.stock s).map fun x =>
      (x.1 - drawn s e + B'.returned s e, x.2 + if draws s e then 1 else 0) := by
  rcases step_cases h with ⟨stock, quantity, version, rfl, -, -, rfl⟩ |
    ⟨stock, quantity, rfl, -, rfl⟩ | ⟨order, stock, quantity, rfl, -, -, rfl⟩ |
    ⟨payment, status, current, rfl, -, -, rfl⟩ | ⟨order, status, line, rfl, hline, hB'⟩
  · rw [take_stock]
    simp [drawn, draws, returned]
  · rw [putBack_stock]
    simp [drawn, draws, returned]
  · show (B.take stock quantity).stock s = _
    rw [take_stock]
    simp [drawn, draws, returned]
  · simp [drawn, draws, returned]
  · obtain ⟨line', hline', hstock, hquantity⟩ := step_order h hline
    have hreturned : B'.returned s (.settle order status)
        = if status = .failed ∧ line.stock = s then line.quantity else 0 := by
      simp only [returned, hline', hstock, hquantity]
    rw [hreturned]
    rcases hB' with ⟨hne, rfl⟩ | ⟨rfl, -, rfl⟩
    · show B.stock s = _
      simp [drawn, draws, hne]
    · rw [putBack_stock]
      show (B.stock s).map _ = _
      simp [drawn, draws]

/-- What a stock comes to after the entries `es`, from the books `B₀`. -/
structure Account (B₀ : Books σ ο π) (s : σ) (es : List (Entry σ ο π)) (B : Books σ ο π) : Prop where
  stock : B.stock s = (B₀.stock s).map fun x =>
    (x.1 - (es.map (drawn s)).sum + (es.map (B.returned s)).sum, x.2 + (es.countP (draws s) : Int))
  /-- An order that has asked for a status is there. -/
  known : ∀ e ∈ es, ∀ order status, e = .settle order status → (B.order order).isSome = true

theorem Account.step {B₀ : Books σ ο π} {s : σ} {es : List (Entry σ ο π)} (hB : Account B₀ s es B)
    (h : B.step e = some B') : Account B₀ s (es ++ [e]) B' := by
  have hsame : es.map (B'.returned s) = es.map (B.returned s) :=
    List.map_congr_left fun e' he' => returned_step h s (hB.known e' he')
  have hkept : ∀ order, (B.order order).isSome = true → (B'.order order).isSome = true := by
    intro order hsome
    obtain ⟨line, hline⟩ := Option.isSome_iff_exists.mp hsome
    obtain ⟨line', hline', -⟩ := step_order h hline
    rw [hline']
    rfl
  refine ⟨?_, fun e' he' order status hsettle => ?_⟩
  · rw [step_stock h s, hB.stock, Option.map_map]
    congr 1
    funext x
    simp only [Function.comp, List.map_append, hsame, List.sum_append, List.countP_append,
      List.map_cons, List.map_nil, List.sum_singleton, List.countP_singleton, Prod.mk.injEq]
    constructor
    · omega
    · split
      · omega
      · omega
  · rcases List.mem_append.mp he' with he' | he'
    · exact hkept order (hB.known e' he' order status hsettle)
    · obtain rfl := List.mem_singleton.mp he'
      subst hsettle
      rcases step_cases h with ⟨_, _, _, he, -⟩ | ⟨_, _, he, -⟩ | ⟨_, _, _, he, -⟩ |
        ⟨_, _, _, he, -⟩ | ⟨_, _, line, he, hline, -⟩
      · cases he
      · cases he
      · cases he
      · cases he
      · obtain ⟨rfl, rfl⟩ := Entry.settle.inj he
        exact hkept order (by rw [hline]; rfl)

/-- **In the books every piece is accounted for**: whatever is executed, a stock is
less by what was reserved and placed, more by what was released and by the orders
of failed payments, each time one has failed, and its version counts the entries
that have taken from it. -/
theorem stock_account {B₀ : Books σ ο π} {es : List (Entry σ ο π)}
    (h : machine.exec B₀ es = some B) (s : σ) : Account B₀ s es B := by
  refine machine.exec_invariant (I := Account B₀ s) ⟨?_, fun _ he => (nomatch he)⟩
    (fun _ _ _ _ hB hstep => hB.step hstep) es B h
  simp

end

end Books

/-! ## §3. The event of an order. -/

/-- The outbox row that a placed order returns with: a new one, of that order. -/
structure PlacedEvent (result : PlaceOrderResult) : Prop where
  topic : result.outbox_event.topic = "orders.events"
  event_type : result.outbox_event.event_type = "orders.order_created"
  aggregate : result.outbox_event.aggregate_id = result.order.id.str
  waiting : result.outbox_event.processed = false ∧ result.outbox_event.failed = false
    ∧ result.outbox_event.attempt_count = 0

/-- Every placed order returns with one. -/
def PlacesEvent : Call → Reply → Prop
  | .placeOrder _, .placed result => PlacedEvent result
  | _, _ => True

/-- A row is built as a new one. -/
theorem outboxRow_waiting {uuid5 : Uuid5} {envelope : EventEnvelope} {topic : String}
    {e : OutboxEvent} (h : outboxRow uuid5 envelope topic = .ok e) :
    e.processed = false ∧ e.failed = false ∧ e.attempt_count = 0 := by
  unfold outboxRow at h
  cases hp : envelope.modelDump with
  | error x => rw [hp] at h; cases h
  | ok payload =>
      cases hd : envelope.contentHash uuid5 with
      | error x => rw [hp, hd] at h; cases h
      | ok dedupe =>
          rw [hp, hd] at h
          obtain rfl := Except.ok.inj h
          exact ⟨rfl, rfl, rfl⟩

theorem recordOrder_yields (uuid5 : Uuid5) (request : PlaceOrderRequest) (stock : Stock)
    (reserve_result : ReserveResult) :
    Yields PlacedEvent (recordOrder uuid5 request stock reserve_result) := by
  unfold recordOrder
  refine yields_then (fun order_id => ?_) _
  refine yields_then (fun event_id => ?_) _
  cases hmade : EventEnvelope.mk? event_id "orders.order_created" 1 "Order"
    (newOrder request stock reserve_result order_id).id.str
    (orderCreated (newOrder request stock reserve_result order_id)) with
  | error e => trivial
  | ok envelope =>
      show Yields _ (lift (outboxRow uuid5 envelope "orders.events") >>= _)
      cases hbuilt : outboxRow uuid5 envelope "orders.events" with
      | error e => trivial
      | ok outbox =>
          obtain ⟨-, htype, -, -, haggregate, -⟩ := EventEnvelope.mk?_fields hmade
          obtain ⟨-, hagg, hevent, htopic, -, -⟩ := outboxRow_ok hbuilt
          show Yields _ (Svc.add (.order _) >>= fun _ => Svc.add (.outbox outbox) >>= fun _ =>
            Svc.flush >>= fun _ => .ret (.ok _))
          refine yields_then (fun _ => ?_) _
          refine yields_then (fun _ => ?_) _
          refine yields_then (fun _ => ?_) _
          exact ⟨htopic, hevent.trans htype, hagg.trans haggregate, outboxRow_waiting hbuilt⟩

theorem attempts_yields (uuid5 : Uuid5) (request : PlaceOrderRequest) (n : Nat) :
    ∀ last_exc, Yields PlacedEvent (attempts uuid5 request n last_exc) := by
  induction n with
  | zero =>
      intro last_exc
      cases last_exc with
      | none => trivial
      | some e => trivial
  | succ n ih =>
      intro last_exc
      refine yields_then (fun stock => ?_) _
      refine yields_handle (S := fun _ => True) (fun r _ => ?_) (yields_any _)
      cases r with
      | ok reserve_result => exact recordOrder_yields uuid5 request stock reserve_result
      | error exc =>
          show Yields _ (if _ then _ else _)
          split
          · exact ih (some exc)
          · trivial

theorem body_yields (uuid5 : Uuid5) (call : Call) : Yields (PlacesEvent call) (body uuid5 call) := by
  cases call with
  | placeOrder request =>
      refine yields_map ?_
      show Yields PlacedEvent (placeOrder uuid5 request)
      unfold placeOrder
      split
      · trivial
      · rw [withSchemas_eq]
        exact yields_then (fun _ => attempts_yields uuid5 request _ none) _
  | _ => exact yields_map (yields_any _)

/-! ## §4. The books of the committed rows. -/

/-- The status that a payment's event announces. -/
def announcedStatus (event_type : String) : Option PaymentStatus :=
  [.pending, .authorized, .captured, .settled, .refunded, .declined, .failed].find? fun status =>
    decide (paymentEventType status = event_type)

theorem announcedStatus_of (status : PaymentStatus) :
    announcedStatus (paymentEventType status) = some status := by
  cases status <;> decide

/-- What an outbox row announces. -/
def announced : Row → Option (Books.Event Uuid Uuid)
  | .outbox e =>
      if e.topic = "orders.events" then (Uuid.parse e.aggregate_id).map .placed
      else if e.topic = "payments.events" then
        (announcedStatus e.event_type).bind fun status =>
          (Uuid.parse e.aggregate_id).map fun payment => .moved payment status
      else none
  | _ => none

/-- What the books have of a stock row. -/
def shelfOf : Option Row → Option (Int × Int)
  | some (.stock s) => some (s.available, s.version)
  | _ => none

/-- What the books have of an order. -/
def lineOf : Option Row → Option (Books.Line Uuid)
  | some (.order o) => some ⟨o.stock_id, o.quantity, o.status⟩
  | _ => none

/-- The books that committed rows stand for. -/
def booksOf (T : Table Row) : Books Uuid Uuid Uuid where
  stock id := shelfOf (T.lookup (.stock id))
  order id := lineOf (T.lookup (.order id))
  payment id := paymentStatusOf id T
  events := T.rows.filterMap announced

/-- The entry that a committed call makes. -/
def entryOf : Call → Except Exn Reply → Option (Books.Entry Uuid Uuid Uuid)
  | .reserve request, .ok _ =>
      some (.reserve request.stock_id request.quantity request.expected_version)
  | .release request, .ok _ => some (.release request.stock_id request.quantity)
  | .placeOrder request, .ok (.placed result) =>
      some (.place result.order.id request.stock_id request.quantity)
  | .processPayment request, .ok _ => some (.pay request.payment_id request.new_status)
  | .deliver topic envelope, .ok _ =>
      (eventOf topic envelope).map fun x => .settle x.2 x.1
  | _, _ => none

/-- The entries of a log, in the order of the commits. -/
def entriesOf {τ : Type} (log : List (Lib.Entry τ Call Exn Reply)) :
    List (Books.Entry Uuid Uuid Uuid) :=
  log.filterMap fun x => entryOf x.call x.result

section Writes

variable {T : Table Row}

/-! A row of one table leaves the books of the others alone. -/

theorem booksOf_stock_ne {row : Row} (h : ∀ id, key row ≠ .stock id) :
    (booksOf (T.upsert row)).stock = (booksOf T).stock := by
  funext id
  show shelfOf ((T.upsert row).lookup (.stock id)) = shelfOf (T.lookup (.stock id))
  rw [Table.lookup_upsert_ne fun hc => h id hc.symm]

theorem booksOf_order_ne {row : Row} (h : ∀ id, key row ≠ .order id) :
    (booksOf (T.upsert row)).order = (booksOf T).order := by
  funext id
  show lineOf ((T.upsert row).lookup (.order id)) = lineOf (T.lookup (.order id))
  rw [Table.lookup_upsert_ne fun hc => h id hc.symm]

theorem booksOf_payment_ne {row : Row} (h : ∀ id, key row ≠ .payment id) :
    (booksOf (T.upsert row)).payment = (booksOf T).payment := by
  funext id
  exact paymentStatusOf_congr (Table.lookup_upsert_ne fun hc => h id hc.symm)

/-- A stock row is written over itself. -/
theorem booksOf_stock {s s' : Stock} (h : T.lookup (.stock s'.id) = some (.stock s)) :
    booksOf (T.upsert (.stock s')) = { booksOf T with
      stock := Function.update (booksOf T).stock s'.id (some (s'.available, s'.version)) } := by
  refine Books.ext ?_ (booksOf_order_ne fun _ hc => RowKey.noConfusion hc)
    (booksOf_payment_ne fun _ hc => RowKey.noConfusion hc) (Table.filterMap_upsert_same h rfl)
  funext id
  show shelfOf ((T.upsert (.stock s')).lookup (.stock id))
    = Function.update (booksOf T).stock s'.id (some (s'.available, s'.version)) id
  by_cases hid : id = s'.id
  · subst hid
    have hself : (T.upsert (.stock s')).lookup (.stock s'.id) = some (.stock s') :=
      Table.lookup_upsert_self rfl
    rw [hself, Function.update_self]
    rfl
  · rw [Table.lookup_upsert_ne fun hc => hid (RowKey.stock.inj hc), Function.update_of_ne hid]
    rfl

/-- An order is written: a new one, or over itself. -/
theorem booksOf_order {o : Order} (h : T.lookup (.order o.id) = none
      ∨ ∃ o', T.lookup (.order o.id) = some (.order o')) :
    booksOf (T.upsert (.order o)) = { booksOf T with
      order := Function.update (booksOf T).order o.id (some ⟨o.stock_id, o.quantity, o.status⟩) } := by
  refine Books.ext (booksOf_stock_ne fun _ hc => RowKey.noConfusion hc) ?_
    (booksOf_payment_ne fun _ hc => RowKey.noConfusion hc) ?_
  · funext id
    show lineOf ((T.upsert (.order o)).lookup (.order id))
      = Function.update (booksOf T).order o.id (some ⟨o.stock_id, o.quantity, o.status⟩) id
    by_cases hid : id = o.id
    · subst hid
      have hself : (T.upsert (.order o)).lookup (.order o.id) = some (.order o) :=
        Table.lookup_upsert_self rfl
      rw [hself, Function.update_self]
      rfl
    · rw [Table.lookup_upsert_ne fun hc => hid (RowKey.order.inj hc), Function.update_of_ne hid]
      rfl
  · show (T.upsert (.order o)).rows.filterMap announced = T.rows.filterMap announced
    rcases h with hnone | ⟨o', ho'⟩
    · rw [Table.rows_upsert_new hnone, List.filterMap_append]
      exact List.append_nil _
    · exact Table.filterMap_upsert_same ho' rfl

/-- A payment is written over itself. -/
theorem booksOf_payment {p p' : Payment} (h : T.lookup (.payment p'.id) = some (.payment p)) :
    booksOf (T.upsert (.payment p')) = { booksOf T with
      payment := Function.update (booksOf T).payment p'.id (some p'.status) } := by
  refine Books.ext (booksOf_stock_ne fun _ hc => RowKey.noConfusion hc)
    (booksOf_order_ne fun _ hc => RowKey.noConfusion hc) ?_ (Table.filterMap_upsert_same h rfl)
  funext id
  show paymentStatusOf id (T.upsert (.payment p'))
    = Function.update (booksOf T).payment p'.id (some p'.status) id
  by_cases hid : id = p'.id
  · subst hid
    rw [Function.update_self]
    exact paymentStatusOf_lookup (Table.lookup_upsert_self rfl)
  · rw [Function.update_of_ne hid]
    exact paymentStatusOf_congr (Table.lookup_upsert_ne fun hc => hid (RowKey.payment.inj hc))

/-- An outbox row is inserted: the books have one announcement more, if it is one. -/
theorem booksOf_outbox {e : OutboxEvent} (h : T.lookup (.outbox e.id) = none) :
    booksOf (T.upsert (.outbox e)) = { booksOf T with
      events := (booksOf T).events ++ (announced (.outbox e)).toList } := by
  refine Books.ext (booksOf_stock_ne fun _ hc => RowKey.noConfusion hc)
    (booksOf_order_ne fun _ hc => RowKey.noConfusion hc)
    (booksOf_payment_ne fun _ hc => RowKey.noConfusion hc) ?_
  show (T.upsert (.outbox e)).rows.filterMap announced = T.rows.filterMap announced ++ _
  rw [Table.rows_upsert_new h, List.filterMap_append]
  rfl

theorem booksOf_stock_lookup {s : Stock} {id : Uuid} (h : T.lookup (.stock id) = some (.stock s)) :
    (booksOf T).stock id = some (s.available, s.version) := by
  show shelfOf (T.lookup (.stock id)) = _
  rw [h]
  rfl

theorem booksOf_order_lookup {o : Order} {id : Uuid} (h : T.lookup (.order id) = some (.order o)) :
    (booksOf T).order id = some ⟨o.stock_id, o.quantity, o.status⟩ := by
  show lineOf (T.lookup (.order id)) = _
  rw [h]
  rfl

theorem has_of_lookup {s : Stock} {id : Uuid} {quantity : Int}
    (h : T.lookup (.stock id) = some (.stock s)) (hq : 0 < quantity)
    (ha : quantity ≤ s.available) : (booksOf T).Has id quantity :=
  ⟨hq, _, booksOf_stock_lookup h, ha⟩

/-- The UPDATE of `reserve`. -/
theorem booksOf_reserve {s : Stock} {id : Uuid} (quantity : Int)
    (h : T.lookup (.stock id) = some (.stock s)) :
    booksOf (T.upsert (.stock (s.reserve quantity))) = (booksOf T).take id quantity := by
  have hid : s.id = id := RowKey.stock.inj (Table.key_of_lookup h)
  subst hid
  unfold Books.take
  have hstock : T.lookup (.stock (s.reserve quantity).id) = some (.stock s) := h
  rw [booksOf_stock hstock, booksOf_stock_lookup h]
  rfl

/-- The UPDATE of `release`. -/
theorem booksOf_release {s : Stock} {id : Uuid} (quantity : Int)
    (h : T.lookup (.stock id) = some (.stock s)) :
    booksOf (T.upsert (.stock (s.release quantity))) = (booksOf T).putBack id quantity := by
  have hid : s.id = id := RowKey.stock.inj (Table.key_of_lookup h)
  subst hid
  unfold Books.putBack
  have hstock : T.lookup (.stock (s.release quantity).id) = some (.stock s) := h
  rw [booksOf_stock hstock, booksOf_stock_lookup h]
  rfl

/-- Nothing is put back where there is no such stock. -/
theorem putBack_nothing {B : Books Uuid Uuid Uuid} {id : Uuid} (h : B.stock id = none)
    (quantity : Int) : B.putBack id quantity = B := by
  refine Books.ext ?_ rfl rfl rfl
  show Function.update B.stock id ((B.stock id).map fun x => (x.1 + quantity, x.2)) = B.stock
  rw [h, Option.map_none, ← h]
  exact Function.update_eq_self id B.stock

/-- `update_order_status`. -/
theorem booksOf_setStatus {o : Order} (status : OrderStatus)
    (h : T.lookup (.order o.id) = some (.order o)) :
    booksOf (setStatus T o status)
      = (booksOf T).settle o.id ⟨o.stock_id, o.quantity, o.status⟩ status := by
  unfold setStatus Books.settle nextStatus
  split
  · rw [booksOf_order (o := { o with status := status }) (Or.inr ⟨o, h⟩)]
  · have hsame : Function.update (booksOf T).order o.id
        (some ⟨o.stock_id, o.quantity, o.status⟩) = (booksOf T).order := by
      rw [← booksOf_order_lookup h]
      exact Function.update_eq_self o.id (booksOf T).order
    rw [hsame]

end Writes

/-! ## §5. Every run is an execution of its entries. -/

/-- What an order's event and a payment's event announce. -/
theorem announced_placed {result : PlaceOrderResult} (h : PlacedEvent result) (now : Int) :
    announced (.outbox { result.outbox_event with created_at := now })
      = some (.placed result.order.id) := by
  show (if result.outbox_event.topic = "orders.events" then
    (Uuid.parse result.outbox_event.aggregate_id).map Books.Event.placed else _) = _
  rw [if_pos h.topic, h.aggregate, Uuid.parse_str]
  rfl

theorem announced_moved {e : OutboxEvent} {p : Payment} {status : PaymentStatus}
    (htopic : e.topic = "payments.events") (htype : e.event_type = paymentEventType status)
    (hagg : e.aggregate_id = p.id.str) :
    announced (.outbox e) = some (.moved p.id status) := by
  show (if e.topic = "orders.events" then _ else if e.topic = "payments.events" then
    (announcedStatus e.event_type).bind fun status =>
      (Uuid.parse e.aggregate_id).map fun payment => Books.Event.moved payment status else none) = _
  rw [htopic, if_neg (by decide), if_pos rfl, htype, announcedStatus_of, hagg, Uuid.parse_str]
  rfl

section Step

variable {uuid5 : Uuid5} {T₀ T T' : Table Row} {call : Call} {r : Except Exn Reply}

/-- **A committed call makes its entry.** -/
theorem entry_step (hJ : SameStocks T₀ T) (he : Effect (SameStocks T₀) uuid5 call r T T')
    (hplaced : ∀ request result, call = .placeOrder request → r = .ok (.placed result) →
      PlacedEvent result
        ∧ ∃ now, Row.outbox { result.outbox_event with created_at := now } ∈ T'.rows) :
    (entryOf call r = none ∧ booksOf T' = booksOf T)
      ∨ ∃ e, entryOf call r = some e ∧ (booksOf T).step e = some (booksOf T') := by
  cases he with
  | reserved hs hq hv ha =>
      refine Or.inr ⟨_, rfl, ?_⟩
      rw [booksOf_reserve _ hs]
      refine if_pos ⟨has_of_lookup hs hq ha, ?_⟩
      rw [booksOf_stock_lookup hs, ← hv]
      rfl
  | released hs hq =>
      refine Or.inr ⟨_, rfl, ?_⟩
      rw [booksOf_release _ hs]
      exact if_pos hq
  | @releasedNothing request result _ U hq hU hnone =>
      refine Or.inr ⟨_, rfl, ?_⟩
      have hstock : (booksOf T).stock request.stock_id = none := by
        show shelfOf (T.lookup (.stock request.stock_id)) = none
        rw [hU.missing hJ hnone]
        rfl
      show (if 0 < request.quantity then some ((booksOf T).putBack _ _) else none) = _
      rw [if_pos hq, putBack_nothing hstock]
  | reserveRefused => exact Or.inl ⟨rfl, rfl⟩
  | releaseRefused => exact Or.inl ⟨rfl, rfl⟩
  | @placed request result _ s row hs hq ha ho hfree hfree' hkey =>
      refine Or.inr ⟨_, rfl, ?_⟩
      obtain ⟨hevent, now, hrow⟩ := hplaced request result rfl rfl
      -- the row that is inserted is the one of the result
      obtain rfl : row = .outbox { result.outbox_event with created_at := now } := by
        rcases Table.mem_upsert.mp hrow with hsame | ⟨-, hne⟩
        · exact hsame.symm
        · exact absurd hkey.symm hne
      obtain ⟨rr, st, horder⟩ := ho
      have hfields : result.order.stock_id = request.stock_id
          ∧ result.order.quantity = request.quantity ∧ result.order.status = .reserved := by
        rw [horder]
        exact ⟨rfl, rfl, rfl⟩
      have hnone : (T.upsert (.stock (s.reserve request.quantity))).lookup (.order result.order.id)
          = none := (Table.lookup_upsert_ne fun hc => RowKey.noConfusion hc).trans hfree
      have hnew : ((T.upsert (.stock (s.reserve request.quantity))).upsert
          (.order result.order)).lookup (.outbox result.outbox_event.id) = none := by
        rw [Table.lookup_upsert_ne fun hc => RowKey.noConfusion hc,
          Table.lookup_upsert_ne fun hc => RowKey.noConfusion hc]
        exact hfree'
      rw [booksOf_outbox (e := { result.outbox_event with created_at := now }) hnew,
        announced_placed hevent, booksOf_order (Or.inl hnone),
        booksOf_reserve _ hs, hfields.1, hfields.2.1, hfields.2.2]
      refine if_pos ⟨has_of_lookup hs hq ha, ?_⟩
      show (lineOf (T.lookup (.order result.order.id))).isNone = true
      rw [hfree]
      rfl
  | @processed request result _ p now hp hallowed hevent hfree hdedupe =>
      refine Or.inr ⟨_, rfl, ?_⟩
      have hid : p.id = request.payment_id := RowKey.payment.inj (Table.key_of_lookup hp)
      obtain ⟨hagg, htype, htopic, -⟩ := hevent.fields
      have hnew : (T.upsert (.payment { p with status := request.new_status })).lookup
          (.outbox result.outbox_event.id) = none :=
        (Table.lookup_upsert_ne fun hc => RowKey.noConfusion hc).trans hfree
      have hpayment : T.lookup (.payment ({ p with status := request.new_status } : Payment).id)
          = some (.payment p) := hid ▸ hp
      rw [booksOf_outbox (e := { result.outbox_event with created_at := now }) hnew,
        announced_moved (e := { result.outbox_event with created_at := now }) htopic htype hagg,
        booksOf_payment hpayment, hid]
      have hcurrent : (booksOf T).payment request.payment_id = some p.status :=
        paymentStatusOf_lookup hp
      simp only [Books.step, hcurrent]
      exact if_pos hallowed
  | ignored hev =>
      refine Or.inl ⟨?_, rfl⟩
      simp only [entryOf, hev, Option.map_none]
  | @delivered topic envelope status order_id o _ T₁ hev ho hc =>
      have hid : o.id = order_id := RowKey.order.inj (Table.key_of_lookup ho)
      subst hid
      have hentry : entryOf (.deliver topic envelope) (.ok .handled) = some (.settle o.id status) := by
        simp only [entryOf, hev, Option.map_some]
      refine Or.inr ⟨_, hentry, ?_⟩
      simp only [Books.step, booksOf_order_lookup ho]
      cases hc with
      | none hne => rw [if_neg hne, booksOf_setStatus status ho]
      | @release _ s hq hs =>
          have ho₁ : (T.upsert (.stock (s.release o.quantity))).lookup (.order o.id)
              = some (.order o) := (Table.lookup_upsert_ne fun hc => RowKey.noConfusion hc).trans ho
          rw [if_pos rfl, if_pos hq, booksOf_setStatus .failed ho₁, booksOf_release _ hs]
          rfl
      | missing hq hU _ hnone =>
          have hstock : ((booksOf T).settle o.id ⟨o.stock_id, o.quantity, o.status⟩ .failed).stock
              o.stock_id = none := by
            show shelfOf (T.lookup (.stock o.stock_id)) = none
            rw [hU.missing hJ hnone]
            rfl
          rw [if_pos rfl, if_pos hq, booksOf_setStatus .failed ho, putBack_nothing hstock]

end Step

section Run

variable {τ : Type} [DecidableEq τ] {uuid5 : Uuid5} {T : Table Row}

/-- A placed order is committed with its outbox row. -/
theorem placed_row {t : τ} {c : Choice} {w w' : World τ} {request : PlaceOrderRequest}
    {result : PlaceOrderResult} (hi : Inv w)
    (hpost : ∃ x, (Except.ok (.placed result) : Except Exn Reply) = x.map .placed
      ∧ placeOrderPost request x (w.local t)) (h : w.commit c t = some w') :
    ∃ now, Row.outbox { result.outbox_event with created_at := now } ∈ w'.base.rows := by
  obtain ⟨x, hx, hplaced⟩ := hpost
  cases x with
  | error e => cases hx
  | ok result' =>
      obtain rfl := Reply.placed.inj (Except.ok.inj hx)
      obtain ⟨s, now, hp⟩ := hplaced
      refine ⟨now, ?_⟩
      rw [commit_of_flushed hi h hp.pending, hp.writes, Table.upsertAll_cons]
      exact Table.mem_upsert.mpr (Or.inl rfl)

theorem entriesOf_snoc {τ : Type} (log : List (Lib.Entry τ Call Exn Reply)) (x : Lib.Entry τ Call Exn Reply) :
    entriesOf (log ++ [x]) = entriesOf log ++ (entryOf x.call x.result).toList := by
  unfold entriesOf
  rw [List.filterMap_append]
  cases hentry : entryOf x.call x.result with
  | none => simp [hentry]
  | some e => simp [hentry]

/-- The committed rows stand for the books after the entries of the log. -/
structure Booked (uuid5 : Uuid5) (T : Table Row) (P : Pool Call Op Ans Exn Reply (World τ) τ) :
    Prop where
  holds : (shopContract (SameStocks T) uuid5 (keeps_sameStocks T)).Holds P
  yields : Pool.Yielding PlacesEvent P
  exec : Books.machine.exec (booksOf T) (entriesOf P.log) = some (booksOf P.shared.base)

/-- **One move**: a commit is the next entry, and nothing else is one. -/
theorem Booked.act {P P' : Pool Call Op Ans Exn Reply (World τ) τ} {a : Action τ Call Choice}
    (hP : Booked uuid5 T P) (h : Pool.act (shop uuid5) P a = some P') : Booked uuid5 T P' := by
  let K := shopContract (SameStocks T) uuid5 (keeps_sameStocks T) (τ := τ)
  let F := shopEffects (SameStocks T) uuid5 (keeps_sameStocks T) (τ := τ)
  refine ⟨K.act_holds hP.holds h, Pool.act_yielding (body_yields uuid5) hP.yields h, ?_⟩
  rcases Pool.act_cases h with ⟨t, call, -, -, rfl⟩ | ⟨t, c, call, op, k, r, s', -, -, he, rfl⟩ |
    ⟨t, c, call, r, s', -, ht, hmay, hc, rfl⟩ | ⟨t, th, -, -, rfl⟩
  · exact hP.exec
  · have hbase : s'.base = P.shared.base := F.exec_obs hP.holds.inv he
    show Books.machine.exec (booksOf T) (entriesOf P.log) = some (booksOf s'.base)
    rw [hbase]
    exact hP.exec
  · have hpost := Contract.Holds.post K hP.holds ht
    have heffect := commit_effect hP.holds.inv.1 hpost hmay hc
    have hplaced : ∀ request result, call = .placeOrder request → r = .ok (.placed result) →
        PlacedEvent result
          ∧ ∃ now, Row.outbox { result.outbox_event with created_at := now } ∈ s'.base.rows := by
      intro request result hcall hr
      subst hcall
      subst hr
      exact ⟨hP.yields.thread t _ ht, placed_row hP.holds.inv.1 hpost hc⟩
    show Books.machine.exec (booksOf T) (entriesOf (P.log ++ [⟨t, call, r⟩])) = some (booksOf s'.base)
    rw [entriesOf_snoc]
    rcases entry_step hP.holds.inv.2 heffect hplaced with ⟨hnone, hsame⟩ | ⟨e, he, hbooks⟩
    · rw [hnone, hsame]
      show Books.machine.exec (booksOf T) (entriesOf P.log ++ []) = _
      rw [List.append_nil]
      exact hP.exec
    · rw [he]
      show Books.machine.exec (booksOf T) (entriesOf P.log ++ [e]) = _
      rw [Machine.exec_snoc, hP.exec]
      exact hbooks
  · exact hP.exec

theorem booked_run (uuid5 : Uuid5) (hT : ∀ row ∈ T.rows, row.violation = .ok ())
    (as : List (Action τ Call Choice)) : Booked uuid5 T (shopRun uuid5 T as) := by
  let K := shopContract (SameStocks T) uuid5 (keeps_sameStocks T) (τ := τ)
  have hinit : Booked uuid5 T (Pool.init (World.init T) : Pool Call Op Ans Exn Reply (World τ) τ) :=
    ⟨K.holds_init ⟨inv_init hT, SamePrices.refl T, fun _ h => h⟩, Pool.yielding_init, rfl⟩
  exact (Pool.machine (shop uuid5)).run_invariant (fun _ _ _ hP h => hP.act h) as _ hinit

/-- **Every run of the services is an execution of its entries**: whatever the
interleaving, the retries and the sessions that are lost, the committed rows stand
for the books after the entries of the committed calls, in the order of their
commits, and the books have allowed each of them.  So two runs whose commits make
the same entries in the same order end with the same books. -/
theorem books_serial (hT : ∀ row ∈ T.rows, row.violation = .ok ())
    (as : List (Action τ Call Choice)) :
    Books.machine.exec (booksOf T) (entriesOf (shopRun uuid5 T as).log)
        = some (booksOf (shopRun uuid5 T as).shared.base)
      ∧ ∀ as' : List (Action τ Call Choice),
        entriesOf (shopRun uuid5 T as').log = entriesOf (shopRun uuid5 T as).log →
        booksOf (shopRun uuid5 T as').shared.base = booksOf (shopRun uuid5 T as).shared.base := by
  have hexec := (booked_run uuid5 hT as).exec
  refine ⟨hexec, fun as' hsame => ?_⟩
  have hexec' := (booked_run uuid5 hT as').exec
  rw [hsame, hexec] at hexec'
  exact (Option.some.inj hexec').symm

/-- An order is placed against a reservation that is committed between its read and
its UPDATE, so that it has to try again; then its payment fails. -/
def lostRaceRun : List (Action Nat Call Choice) :=
  [.start 0 (.placeOrder ⟨Uuid.ofNat 7, tenStock.id, 3⟩), .step 0 {}, .step 0 {}, .step 0 {},
    .start 1 (.reserve ⟨tenStock.id, 2, 1⟩), .step 1 {}, .step 1 {}, .step 1 {}, .commit 1 {},
    .step 0 {}, .step 0 {}, .step 0 {}, .step 0 {}, .step 0 {}, .step 0 { uuid := Uuid.ofNat 2 },
    .step 0 { uuid := Uuid.ofNat 3 }, .step 0 {}, .step 0 {}, .step 0 {}, .commit 0 {},
    .start 2 (.deliver "payments.events" failedEvent), .step 2 {}, .step 2 {}, .step 2 {},
    .step 2 {}, .step 2 {}, .commit 2 {}]

theorem books_serial_lostRace :
    Books.machine.exec (booksOf tenTable)
        (entriesOf (shopRun (fun c => c) tenTable lostRaceRun).log)
      = some (booksOf (shopRun (fun c => c) tenTable lostRaceRun).shared.base) :=
  (books_serial tenTable_accepted lostRaceRun).1

/-- Ten pieces, less the two that stay reserved. -/
example : (booksOf (shopRun (fun c => c) tenTable lostRaceRun).shared.base).stock tenStock.id
    = some (8, 3) := by
  decide +kernel

/-- **Every piece in the database is accounted for.**  In every run of all services
at once, a stock row is less by what the committed calls have reserved and placed,
more by what they have released and by the orders whose payments they have been
told to have failed, as often as they were told; and its version has counted the
reservations. -/
theorem stock_accounted (hT : ∀ row ∈ T.rows, row.violation = .ok ())
    (as : List (Action τ Call Choice)) {s₀ : Stock}
    (hs : T.lookup (.stock s₀.id) = some (.stock s₀)) :
    ∃ s : Stock, (shopRun uuid5 T as).shared.base.lookup (.stock s₀.id) = some (.stock s)
      ∧ s.available = s₀.available
          - ((entriesOf (shopRun uuid5 T as).log).map (Books.drawn s₀.id)).sum
          + ((entriesOf (shopRun uuid5 T as).log).map
              ((booksOf (shopRun uuid5 T as).shared.base).returned s₀.id)).sum
      ∧ s.version = s₀.version
          + ((entriesOf (shopRun uuid5 T as).log).countP (Books.draws s₀.id) : Int) := by
  have haccount := (Books.stock_account (booked_run uuid5 hT as).exec s₀.id).stock
  rw [booksOf_stock_lookup hs, Option.map_some] at haccount
  have hshelf : shelfOf ((shopRun uuid5 T as).shared.base.lookup (.stock s₀.id)) = _ := haccount
  cases hrow : (shopRun uuid5 T as).shared.base.lookup (.stock s₀.id) with
  | none =>
      rw [hrow] at hshelf
      cases hshelf
  | some row =>
      rw [hrow] at hshelf
      cases row with
      | stock s =>
          obtain ⟨havailable, hversion⟩ := Prod.mk.inj (Option.some.inj hshelf)
          exact ⟨s, rfl, havailable, hversion⟩
      | order o => cases hshelf
      | payment p => cases hshelf
      | outbox e => cases hshelf

theorem stock_accounted_lostRace :
    ∃ s : Stock, (shopRun (fun c => c) tenTable lostRaceRun).shared.base.lookup
        (.stock tenStock.id) = some (.stock s)
      ∧ s.available = 10
          - ((entriesOf (shopRun (fun c => c) tenTable lostRaceRun).log).map
              (Books.drawn tenStock.id)).sum
          + ((entriesOf (shopRun (fun c => c) tenTable lostRaceRun).log).map
              ((booksOf (shopRun (fun c => c) tenTable lostRaceRun).shared.base).returned
                tenStock.id)).sum
      ∧ s.version = 1
          + ((entriesOf (shopRun (fun c => c) tenTable lostRaceRun).log).countP
              (Books.draws tenStock.id) : Int) :=
  have hrow : tenTable.lookup (.stock tenStock.id) = some (.stock tenStock) := rfl
  stock_accounted tenTable_accepted lostRaceRun hrow

end Run

end Nimbus
