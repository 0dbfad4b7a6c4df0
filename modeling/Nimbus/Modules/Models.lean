/-
  Nimbus.Modules.Models
  ─────────────────────
  **THE ROWS OF THE DATABASE.**

  `Stock`, `Order`, `Payment` and `OutboxEvent` with the columns that some
  modelled function reads or writes, their status enumerations, and what the
  database refuses to store (`violation`: the CHECK constraints and the ranges
  of the integer and string columns).  The four tables are one keyed table
  `Row`; the key of a row says which table it belongs to.

    • `allowedTransitions`   — `_ALLOWED_TRANSITIONS` of the payments module;
    • `Stock.reserve`, `Stock.release` — the two UPDATEs on a stock row;
    • `allowed_rank_lt`      — a payment never comes back to a status.
-/
import Nimbus.Core.Messaging
import Nimbus.Lib.Table

namespace Nimbus

open Lib (Keyed key)

/-! ## §1. Statuses. -/

/-- `OrderStatus`. -/
inductive OrderStatus where
  | pending | reserved | paid | failed | shipped
deriving DecidableEq

/-- The name of the member, as in `OrderStatus.PAID`. -/
def OrderStatus.memberName : OrderStatus → String
  | .pending => "PENDING"
  | .reserved => "RESERVED"
  | .paid => "PAID"
  | .failed => "FAILED"
  | .shipped => "SHIPPED"

/-- `PaymentStatus`. -/
inductive PaymentStatus where
  | pending | authorized | captured | settled | refunded | declined | failed
deriving DecidableEq

namespace PaymentStatus

/-- `PaymentStatus.value`. -/
def value : PaymentStatus → String
  | .pending => "pending"
  | .authorized => "authorized"
  | .captured => "captured"
  | .settled => "settled"
  | .refunded => "refunded"
  | .declined => "declined"
  | .failed => "failed"

/-- `_ALLOWED_TRANSITIONS`. -/
def allowedTransitions : PaymentStatus → List PaymentStatus
  | .pending => [.authorized, .failed, .declined]
  | .authorized => [.captured, .declined]
  | .captured => [.settled, .refunded]
  | _ => []

/-- The length of the longest path to a status. -/
def rank : PaymentStatus → Nat
  | .pending => 0
  | .authorized => 1
  | .captured => 2
  | .settled | .refunded | .declined | .failed => 3

/-- **A payment never comes back**: every transition raises the rank. -/
theorem allowed_rank_lt {a b : PaymentStatus} (h : b ∈ allowedTransitions a) :
    a.rank < b.rank := by
  cases a <;> cases b <;> first | decide | exact absurd h (by decide)

end PaymentStatus

/-! ## §2. Columns. -/

/-- The range of an INTEGER column. -/
def inInt4 (n : Int) : Bool := decide (-2147483648 ≤ n ∧ n ≤ 2147483647)

/-- The range of a BIGINT column. -/
def inInt8 (n : Int) : Bool := decide (-9223372036854775808 ≤ n ∧ n ≤ 9223372036854775807)

/-- A CHECK constraint. -/
def check (ok : Bool) (name : String) : Except Exn Unit :=
  if ok then .ok () else .error ⟨.integrityError, name, []⟩

/-- The range or length of a column. -/
def fits (ok : Bool) (column : String) : Except Exn Unit :=
  if ok then .ok () else .error ⟨.dataError, column, []⟩

/-- Constraints hold together when each of them does. -/
theorem constraints_ok {a : Except Exn Unit} {f : Unit → Except Exn Unit}
    (h : (a >>= f) = .ok ()) : a = .ok () ∧ f () = .ok () := by
  cases a with
  | error x => cases h
  | ok u => exact ⟨rfl, h⟩

theorem constraints_error {a : Except Exn Unit} {f : Unit → Except Exn Unit} {x : Exn}
    (h : (a >>= f) = .error x) : a = .error x ∨ f () = .error x := by
  cases a with
  | error y => exact Or.inl h
  | ok u => exact Or.inr h

theorem check_ok {ok : Bool} {name : String} (h : check ok name = .ok ()) : ok = true := by
  unfold check at h
  split at h
  next hok => exact hok
  next => cases h

theorem fits_error {ok : Bool} {column : String} {x : Exn} (h : fits ok column = .error x) :
    x.cls = .dataError := by
  unfold fits at h
  split at h
  next => cases h
  next =>
    obtain rfl := Except.error.inj h
    rfl

/-- A row of `inventory.stock`. -/
structure Stock where
  id : Uuid
  price_minor_units : Int
  currency : String
  available : Int
  version : Int
deriving DecidableEq

/-- A row of `orders.orders`. -/
structure Order where
  id : Uuid
  user_id : Uuid
  stock_id : Uuid
  quantity : Int
  expected_version : Int
  total_amount_minor_units : Int
  currency : String
  status : OrderStatus
deriving DecidableEq

/-- A row of `payments.payments`. -/
structure Payment where
  id : Uuid
  status : PaymentStatus
  amount_minor_units : Int
  currency : String
deriving DecidableEq

/-- A row of `payments.outbox_events`. -/
structure OutboxEvent where
  id : Uuid
  aggregate_type : String
  aggregate_id : String
  event_type : String
  topic : String
  payload : Json
  dedupe_id : String
  processed : Bool
  created_at : Int
  processed_at : Option Int
  attempt_count : Int
  failed : Bool
  last_error : Option String

namespace Stock

/-- The SET clause of `reserve`. -/
def reserve (s : Stock) (quantity : Int) : Stock :=
  { s with available := s.available - quantity, version := s.version + 1 }

/-- The SET clause of `release`. -/
def release (s : Stock) (quantity : Int) : Stock :=
  { s with available := s.available + quantity }

/-- What the table refuses. -/
def violation (s : Stock) : Except Exn Unit := do
  fits (inInt4 s.price_minor_units) "price_minor_units"
  fits (inInt4 s.available) "available"
  fits (inInt4 s.version) "version"
  fits (s.currency.length ≤ 3) "currency"
  check (0 ≤ s.available) "ck_stock_available_non_negative"
  check (0 ≤ s.price_minor_units) "ck_stock_price_non_negative"
  check (0 ≤ s.version) "ck_stock_version_non_negative"

/-- A stock row that the database accepts is not oversold. -/
theorem nonneg_of_violation {s : Stock} (h : s.violation = .ok ()) : 0 ≤ s.available := by
  unfold violation at h
  have hrest := (constraints_ok (constraints_ok (constraints_ok (constraints_ok h).2).2).2).2
  exact of_decide_eq_true (check_ok (constraints_ok hrest).1)

end Stock

namespace Order

/-- What the table refuses. -/
def violation (o : Order) : Except Exn Unit := do
  fits (inInt4 o.quantity) "quantity"
  fits (inInt4 o.expected_version) "expected_version"
  fits (inInt4 o.total_amount_minor_units) "total_amount_minor_units"
  fits (o.currency.length ≤ 3) "currency"
  check (0 < o.quantity) "ck_orders_quantity_positive"
  check (0 ≤ o.total_amount_minor_units) "ck_orders_total_non_negative"

end Order

namespace Payment

/-- What the table refuses. -/
def violation (p : Payment) : Except Exn Unit := do
  fits (inInt8 p.amount_minor_units) "amount_minor_units"
  fits (p.currency.length ≤ 3) "currency"
  check (0 ≤ p.amount_minor_units) "ck_payments_amount_non_negative"
  check (p.currency.length = 3) "ck_payments_currency_iso4217"

end Payment

namespace OutboxEvent

/-- What the table refuses. -/
def violation (e : OutboxEvent) : Except Exn Unit := do
  fits (e.aggregate_type.length ≤ 64) "aggregate_type"
  fits (e.aggregate_id.length ≤ 128) "aggregate_id"
  fits (e.event_type.length ≤ 255) "event_type"
  fits (e.topic.length ≤ 255) "topic"
  fits (inInt4 e.attempt_count) "attempt_count"

/-- What the table refuses, it refuses for the size of a value. -/
theorem violation_cls {e : OutboxEvent} {x : Exn} (h : e.violation = .error x) :
    x.cls = .dataError := by
  unfold violation at h
  rcases constraints_error h with h | h
  · exact fits_error h
  rcases constraints_error h with h | h
  · exact fits_error h
  rcases constraints_error h with h | h
  · exact fits_error h
  rcases constraints_error h with h | h
  · exact fits_error h
  exact fits_error h

end OutboxEvent

/-- `OutboxEvent(...)` as the services build it from an envelope; the columns
with a default get it, `created_at` at the flush. -/
def outboxRow (uuid5 : Uuid5) (envelope : EventEnvelope) (topic : String) :
    Except Exn OutboxEvent := do
  let payload ← envelope.modelDump
  let dedupe_id ← envelope.contentHash uuid5
  return {
    id := envelope.event_id
    aggregate_type := envelope.aggregate_type
    aggregate_id := envelope.aggregate_id
    event_type := envelope.event_type
    topic := topic
    payload := payload
    dedupe_id := dedupe_id
    processed := false
    created_at := 0
    processed_at := none
    attempt_count := 0
    failed := false
    last_error := none }

/-- What the row takes over from the envelope. -/
theorem outboxRow_ok {uuid5 : Uuid5} {envelope : EventEnvelope} {topic : String} {e : OutboxEvent}
    (h : outboxRow uuid5 envelope topic = .ok e) :
    e.id = envelope.event_id ∧ e.aggregate_id = envelope.aggregate_id
      ∧ e.event_type = envelope.event_type ∧ e.topic = topic
      ∧ envelope.modelDump = .ok e.payload ∧ envelope.contentHash uuid5 = .ok e.dedupe_id := by
  unfold outboxRow at h
  cases hp : envelope.modelDump with
  | error x => rw [hp] at h; cases h
  | ok payload =>
      cases hd : envelope.contentHash uuid5 with
      | error x => rw [hp, hd] at h; cases h
      | ok dedupe =>
          rw [hp, hd] at h
          obtain rfl := Except.ok.inj h
          exact ⟨rfl, rfl, rfl, rfl, rfl, rfl⟩

/-! ## §3. Rows and keys. -/

/-- A row of any of the tables. -/
inductive Row where
  | stock (s : Stock)
  | order (o : Order)
  | payment (p : Payment)
  | outbox (e : OutboxEvent)

/-- A primary key, or (`dedupe`) an entry of the unique index on `dedupe_id`. -/
inductive RowKey where
  | stock (id : Uuid)
  | order (id : Uuid)
  | payment (id : Uuid)
  | outbox (id : Uuid)
  | dedupe (id : String)
deriving DecidableEq

instance : Keyed Row RowKey where
  key
    | .stock s => .stock s.id
    | .order o => .order o.id
    | .payment p => .payment p.id
    | .outbox e => .outbox e.id

@[simp] theorem key_stock (s : Stock) : key (Row.stock s) = .stock s.id := rfl

@[simp] theorem key_order (o : Order) : key (Row.order o) = .order o.id := rfl

@[simp] theorem key_payment (p : Payment) : key (Row.payment p) = .payment p.id := rfl

@[simp] theorem key_outbox (e : OutboxEvent) : key (Row.outbox e) = .outbox e.id := rfl

/-- A row found under the key of a stock row is a stock row. -/
theorem stock_of_key {id : Uuid} {row : Row} (h : key row = .stock id) :
    ∃ s, row = .stock s ∧ s.id = id := by
  cases row with
  | stock s => exact ⟨s, rfl, RowKey.stock.inj h⟩
  | order o => cases h
  | payment p => cases h
  | outbox e => cases h

theorem order_of_key {id : Uuid} {row : Row} (h : key row = .order id) :
    ∃ o, row = .order o ∧ o.id = id := by
  cases row with
  | order o => exact ⟨o, rfl, RowKey.order.inj h⟩
  | stock s => cases h
  | payment p => cases h
  | outbox e => cases h

theorem payment_of_key {id : Uuid} {row : Row} (h : key row = .payment id) :
    ∃ p, row = .payment p ∧ p.id = id := by
  cases row with
  | payment p => exact ⟨p, rfl, RowKey.payment.inj h⟩
  | stock s => cases h
  | order o => cases h
  | outbox e => cases h

theorem stock_of_lookup {T : Lib.Table Row} {id : Uuid} {row : Row}
    (h : T.lookup (.stock id) = some row) : ∃ s, row = .stock s ∧ s.id = id :=
  stock_of_key (Lib.Table.key_of_lookup h)

/-- What the database refuses to store. -/
def Row.violation : Row → Except Exn Unit
  | .stock s => s.violation
  | .order o => o.violation
  | .payment p => p.violation
  | .outbox e => e.violation

/-- What a constraint answers with. -/
def Refusal (x : Exn) : Prop := x.cls = .dataError ∨ x.cls = .integrityError

theorem refusal_fits {ok : Bool} {column : String} {x : Exn} (h : fits ok column = .error x) :
    Refusal x := Or.inl (fits_error h)

theorem refusal_check {ok : Bool} {name : String} {x : Exn} (h : check ok name = .error x) :
    Refusal x := by
  unfold check at h
  split at h
  next => cases h
  next =>
    obtain rfl := Except.error.inj h
    exact Or.inr rfl

/-- Of two constraints, one has answered. -/
theorem refusal_bind {a : Except Exn Unit} {f : Unit → Except Exn Unit} {x : Exn}
    (ha : a = .error x → Refusal x) (hf : f () = .error x → Refusal x)
    (h : (a >>= f) = .error x) : Refusal x :=
  (constraints_error h).elim ha hf

/-- **What the database refuses, it refuses for a size or for a constraint.** -/
theorem Row.violation_cls {r : Row} {x : Exn} (h : r.violation = .error x) : Refusal x := by
  cases r with
  | stock s =>
      exact refusal_bind refusal_fits (refusal_bind refusal_fits (refusal_bind refusal_fits
        (refusal_bind refusal_fits (refusal_bind refusal_check
          (refusal_bind refusal_check refusal_check))))) h
  | order o =>
      exact refusal_bind refusal_fits (refusal_bind refusal_fits (refusal_bind refusal_fits
        (refusal_bind refusal_fits (refusal_bind refusal_check refusal_check)))) h
  | payment p =>
      exact refusal_bind refusal_fits (refusal_bind refusal_fits
        (refusal_bind refusal_check refusal_check)) h
  | outbox e => exact Or.inl (OutboxEvent.violation_cls h)

/-- No constraint speaks about a status. -/
theorem violation_order_status (o : Order) (status : OrderStatus) :
    (Row.order { o with status := status }).violation = (Row.order o).violation := rfl

theorem violation_payment_status (p : Payment) (status : PaymentStatus) :
    (Row.payment { p with status := status }).violation = (Row.payment p).violation := rfl

end Nimbus
