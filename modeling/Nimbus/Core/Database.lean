/-
  Nimbus.Core.Database
  ────────────────────
  **SESSIONS, STATEMENTS AND REDIS COMMANDS AS THE SERVICES USE THEM.**

  The shared state (`World`) is the row store of PostgreSQL under READ
  COMMITTED, the SQLAlchemy session of every open request, and Redis without
  expiry.  A service is a program over the operations `Op`; `exec` says what
  one operation does.

  What is taken from SQLAlchemy 2.0 (`autoflush=False`):
    • a SELECT returns the object already loaded in the session, unrefreshed;
    • assignments and `add` wait in the session until `flush` or `commit`;
    • an UPDATE statement also applies its SET clause to a loaded object that
      satisfies its WHERE clause.
  What is taken from PostgreSQL: an UPDATE, a flush and a SELECT … FOR UPDATE
  wait for the lock of a row they touch; a unique key held by an unfinished
  insert is waited for, a committed one is refused.

    • `World.select`, `World.updateStock`, `World.flush` — the statements;
    • `exec`, `commit`, `rollback`, `enter`             — the transition parts;
    • `Local`, `World.local`                            — a session's own part.
-/
import Nimbus.Lib.Prog
import Nimbus.Lib.TxStore
import Nimbus.Modules.Models

namespace Nimbus

open Lib

/-! ## §1. State. -/

/-- A change waiting in a session for the next flush. -/
inductive Pending where
  | orderStatus (id : Uuid) (status : OrderStatus)
  | paymentStatus (id : Uuid) (status : PaymentStatus)
  | insert (row : Row)

/-- A SQLAlchemy session: its identity map, and what is to be flushed, the
oldest first. -/
structure Session where
  objs : RowKey → Option Row
  pending : List Pending

/-- A session in which nothing has happened. -/
def Session.fresh : Session := ⟨fun _ => none, []⟩

/-- How far a request has come with the idempotency lock.  A record for the
proofs: no operation reads it. -/
inductive LockPhase where
  | idle
  | held (key token : String)
  | released (key : String)
deriving DecidableEq

/-- The request has acquired the lock on `key` and has not ended since. -/
def LockPhase.acquired (p : LockPhase) (key : String) : Bool :=
  match p with
  | .idle => false
  | .held k _ => k = key
  | .released k => k = key

@[simp] theorem LockPhase.acquired_held (key token : String) :
    (LockPhase.held key token).acquired key = true := decide_eq_true rfl

@[simp] theorem LockPhase.acquired_released (key : String) :
    (LockPhase.released key).acquired key = true := decide_eq_true rfl

/-- The shared state; `used` lists the UUIDs generated so far, with the session
that generated them. -/
structure World (τ : Type) where
  store : TxStore Row τ
  session : τ → Session
  redis : String → Option String
  lock : τ → LockPhase
  used : List (τ × Uuid)

namespace World

variable {τ : Type} [DecidableEq τ]

/-- No session open, no lock held. -/
def init (T : Table Row) : World τ where
  store := TxStore.ofTable T
  session := fun _ => Session.fresh
  redis := fun _ => none
  lock := fun _ => .idle
  used := []

/-- The committed rows. -/
def base (w : World τ) : Table Row := w.store.base

def setSession (w : World τ) (t : τ) (s : Session) : World τ :=
  { w with session := Function.update w.session t s }

def setLock (w : World τ) (t : τ) (p : LockPhase) : World τ :=
  { w with lock := Function.update w.lock t p }

@[simp] theorem setSession_self (w : World τ) (t : τ) (s : Session) :
    (w.setSession t s).session t = s := Function.update_self ..

theorem setSession_of_ne (w : World τ) {t u : τ} (s : Session) (h : u ≠ t) :
    (w.setSession t s).session u = w.session u := Function.update_of_ne h ..

@[simp] theorem setLock_self (w : World τ) (t : τ) (p : LockPhase) :
    (w.setLock t p).lock t = p := Function.update_self ..

theorem setLock_of_ne (w : World τ) {t u : τ} (p : LockPhase) (h : u ≠ t) :
    (w.setLock t p).lock u = w.lock u := Function.update_of_ne h ..

end World

/-! ## §2. Operations. -/

/-- An `update(Stock).where(Stock.id == id).where(cond).values(set)`. -/
structure StockUpdate where
  id : Uuid
  cond : Stock → Bool
  set : Stock → Stock
  keeps_id : ∀ s, (set s).id = s.id

theorem StockUpdate.key_set (u : StockUpdate) {s : Stock} (h : s.id = u.id) :
    key (Row.stock (u.set s)) = .stock u.id := by
  rw [key_stock, u.keeps_id, h]

/-- What a service asks of its session, of Redis, or of the platform. -/
inductive Op where
  /-- `SELECT … WHERE id = …`, possibly `FOR UPDATE`: the object, if any. -/
  | select (k : RowKey) (forUpdate : Bool)
  /-- Reading the attributes of an object loaded before. -/
  | loaded (k : RowKey)
  /-- An UPDATE of one stock row: the row count. -/
  | updateStock (u : StockUpdate)
  /-- `order.status = status`. -/
  | setOrderStatus (id : Uuid) (status : OrderStatus)
  /-- `payment.status = status`. -/
  | setPaymentStatus (id : Uuid) (status : PaymentStatus)
  /-- `session.add` of a new object. -/
  | add (row : Row)
  | flush
  /-- `SET LOCAL search_path TO …`. -/
  | setSearchPath (path : String)
  | uuid4
  /-- `datetime.now(UTC).isoformat()`. -/
  | nowIso
  /-- `SET key token NX EX ttl`, through the breaker. -/
  | redisSetNx (key token : String)
  /-- The script that deletes `key` if it holds `token`, through the breaker. -/
  | redisRelease (key token : String)

/-- What the operations answer. -/
def Ans : Op → Type
  | .select .. => Option Row
  | .loaded _ => Option Row
  | .updateStock _ => Nat
  | .setOrderStatus .. => Unit
  | .setPaymentStatus .. => Unit
  | .add _ => Unit
  | .flush => Unit
  | .setSearchPath _ => Unit
  | .uuid4 => Uuid
  | .nowIso => String
  | .redisSetNx .. => Bool
  | .redisRelease .. => Nat

/-- A service. -/
abbrev Svc (α : Type) := Prog Op Ans Exn α

namespace Svc

/-! The operations as services. -/

def select (k : RowKey) (forUpdate : Bool) : Svc (Option Row) := .call (.select k forUpdate) .ret
def loaded (k : RowKey) : Svc (Option Row) := .call (.loaded k) .ret
def updateStock (u : StockUpdate) : Svc Nat := .call (.updateStock u) .ret
def setOrderStatus (id : Uuid) (status : OrderStatus) : Svc Unit :=
  .call (.setOrderStatus id status) .ret
def setPaymentStatus (id : Uuid) (status : PaymentStatus) : Svc Unit :=
  .call (.setPaymentStatus id status) .ret
def add (row : Row) : Svc Unit := .call (.add row) .ret
def flush : Svc Unit := .call .flush .ret
def setSearchPath (path : String) : Svc Unit := .call (.setSearchPath path) .ret
def uuid4 : Svc Uuid := .call .uuid4 .ret
def nowIso : Svc String := .call .nowIso .ret
def redisSetNx (key token : String) : Svc Bool := .call (.redisSetNx key token) .ret
def redisRelease (key token : String) : Svc Nat := .call (.redisRelease key token) .ret

end Svc

/-- The environment's own failures: lost connections, timeouts, an open breaker. -/
inductive Fault where
  | operational (msg : String)
  | cacheUnavailable (msg : String)
  | foreign (name msg : String)

/-- The exception a failure surfaces as. -/
def Fault.exn : Fault → Exn
  | .operational msg => ⟨.operationalError, msg, []⟩
  | .cacheUnavailable msg => ⟨.cacheUnavailableError, msg, []⟩
  | .foreign name msg => ⟨.foreign name, msg, []⟩

/-- What the environment decides about one operation: whether it fails, whether
a Redis command whose reply is lost was executed, the UUID generated, the clock. -/
structure Choice where
  fault : Option Fault := none
  executed : Bool := false
  uuid : Uuid := Uuid.ofNat 0
  now : Int := 0
  iso : String := ""

namespace World

variable {τ : Type} [DecidableEq τ]

/-- A SELECT by primary key: `none` while another transaction holds the lock
that `FOR UPDATE` asks for. -/
def select (w : World τ) (t : τ) (k : RowKey) (forUpdate : Bool) :
    Option (Option Row × World τ) :=
  match w.store.view t k with
  | none => some (none, w)
  | some row =>
      let obj := ((w.session t).objs k).getD row
      let loaded := w.setSession t
        { w.session t with objs := Function.update (w.session t).objs k (some obj) }
      if forUpdate then
        (w.store.lock t k).map fun store => (some obj, { loaded with store := store })
      else some (some obj, loaded)

/-- The identity map after an UPDATE: the SET clause is applied to the loaded
object if that satisfies the WHERE clause. -/
def syncStock (objs : RowKey → Option Row) (u : StockUpdate) : RowKey → Option Row :=
  match objs (.stock u.id) with
  | some (.stock s) =>
      if u.cond s then Function.update objs (.stock u.id) (some (.stock (u.set s))) else objs
  | _ => objs

/-- The session after an UPDATE. -/
def synced (w : World τ) (t : τ) (u : StockUpdate) : World τ :=
  w.setSession t { w.session t with objs := syncStock (w.session t).objs u }

/-- An UPDATE of a stock row: `none` while another transaction holds the row. -/
def updateStock (w : World τ) (t : τ) (u : StockUpdate) : Option (Except Exn Nat × World τ) :=
  match w.store.view t (.stock u.id) with
  | some (.stock s) =>
      if u.cond s then
        (w.store.put t (.stock (u.set s))).map fun store =>
          match (u.set s).violation with
          | .ok () => (.ok 1, { w.synced t u with store := store })
          | .error e => (.error e, w)
      else some (.ok 0, w.synced t u)
  | _ => some (.ok 0, w.synced t u)

/-! ## §3. Flush, commit, rollback. -/

/-- The outbox row as the flush inserts it. -/
def stamp (now : Int) : Row → Row
  | .outbox e => .outbox { e with created_at := now }
  | r => r

/-- A visible outbox row has this `dedupe_id`. -/
def dedupeTaken (s : TxStore Row τ) (t : τ) (id : String) : Bool :=
  (s.base.upsertAll (s.writes t)).rows.any fun
    | .outbox e => e.dedupe_id = id
    | _ => false

/-- What the unique index on `dedupe_id` answers a taken value with. -/
def dedupeViolation : Exn := ⟨.integrityError, "outbox_events_dedupe_id_key", []⟩

/-- The unique index on `dedupe_id`: `none` while an unfinished transaction
has inserted the same value. -/
def reserveDedupe (s : TxStore Row τ) (t : τ) : Row → Option (Except Exn (TxStore Row τ))
  | .outbox e =>
      (s.lock t (.dedupe e.dedupe_id)).map fun s' =>
        if dedupeTaken s t e.dedupe_id then .error dedupeViolation else .ok s'
  | _ => some (.ok s)

/-- An INSERT. -/
def insertRow (s : TxStore Row τ) (t : τ) (row : Row) : Option (Except Exn (TxStore Row τ)) :=
  match row.violation with
  | .error e => some (.error e)
  | .ok () =>
      match s.view t (key row) with
      | some _ => some (.error ⟨.integrityError, "duplicate primary key", []⟩)
      | none =>
          match reserveDedupe s t row with
          | none => none
          | some (.error e) => some (.error e)
          | some (.ok s') => (s'.put t row).map .ok

/-- Flush one change. -/
def flushOne (now : Int) (s : TxStore Row τ) (t : τ) :
    Pending → Option (Except Exn (TxStore Row τ))
  | .orderStatus id status =>
      match s.view t (.order id) with
      | some (.order o) => (s.put t (.order { o with status := status })).map .ok
      | _ => some (.error ⟨.staleDataError, "UPDATE statement on table 'orders' matched 0 rows", []⟩)
  | .paymentStatus id status =>
      match s.view t (.payment id) with
      | some (.payment p) => (s.put t (.payment { p with status := status })).map .ok
      | _ =>
          some (.error ⟨.staleDataError, "UPDATE statement on table 'payments' matched 0 rows", []⟩)
  | .insert row => insertRow s t (stamp now row)

/-- Flush all changes in order. -/
def flushAll (now : Int) (s : TxStore Row τ) (t : τ) :
    List Pending → Option (Except Exn (TxStore Row τ))
  | [] => some (.ok s)
  | p :: ps =>
      match flushOne now s t p with
      | none => none
      | some (.error e) => some (.error e)
      | some (.ok s') => flushAll now s' t ps

/-- `session.flush()`. -/
def flush (now : Int) (w : World τ) (t : τ) : Option (Except Exn Unit × World τ) :=
  match flushAll now w.store t (w.session t).pending with
  | none => none
  | some (.error e) => some (.error e, w)
  | some (.ok store) =>
      some (.ok (), { w.setSession t { w.session t with pending := [] } with store := store })

/-- What is left of a request after its transaction. -/
def endSession (w : World τ) (t : τ) (store : TxStore Row τ) : World τ :=
  { (w.setSession t Session.fresh).setLock t .idle with store := store }

/-- The owner of the session rolls back, or is gone. -/
def rollback (w : World τ) (t : τ) : World τ := w.endSession t (w.store.rollback t)

/-- The owner of the session commits: flush, then COMMIT.  `none` when either
fails or has to wait. -/
def commit (w : World τ) (c : Choice) (t : τ) : Option (World τ) :=
  match c.fault with
  | some _ => none
  | none =>
      match flushAll c.now w.store t (w.session t).pending with
      | some (.ok store) => some (w.endSession t (store.commit t))
      | _ => none

/-- A new session opens. -/
def enter (w : World τ) (t : τ) : World τ := w.rollback t

/-! ## §4. Redis. -/

/-- `SET key token NX`: whether it was set. -/
def setNx (w : World τ) (key token : String) : Bool × World τ :=
  match w.redis key with
  | none => (true, { w with redis := Function.update w.redis key (some token) })
  | some _ => (false, w)

/-- The release script: how many keys it deleted. -/
def releaseKey (w : World τ) (key token : String) : Nat × World τ :=
  if w.redis key = some token then (1, { w with redis := Function.update w.redis key none })
  else (0, w)

end World

/-! ## §5. One operation. -/

/-- The identity map after `order.status = status`. -/
def setOrderObj (objs : RowKey → Option Row) (id : Uuid) (status : OrderStatus) :
    RowKey → Option Row :=
  match objs (.order id) with
  | some (.order o) =>
      Function.update objs (.order id) (some (.order { o with status := status }))
  | _ => objs

/-- The identity map after `payment.status = status`. -/
def setPaymentObj (objs : RowKey → Option Row) (id : Uuid) (status : PaymentStatus) :
    RowKey → Option Row :=
  match objs (.payment id) with
  | some (.payment p) =>
      Function.update objs (.payment id) (some (.payment { p with status := status }))
  | _ => objs

section Exec

variable {τ : Type} [DecidableEq τ]

/-- One operation of session `t`; `none` when it has to wait. -/
def exec (c : Choice) (t : τ) : (op : Op) → World τ → Option (Except Exn (Ans op) × World τ)
  | .select k forUpdate, w =>
      match c.fault with
      | some f => some (.error f.exn, w)
      | none => (w.select t k forUpdate).map fun rw => (.ok rw.1, rw.2)
  | .loaded k, w => some (.ok ((w.session t).objs k), w)
  | .updateStock u, w =>
      match c.fault with
      | some f => some (.error f.exn, w)
      | none => w.updateStock t u
  | .setOrderStatus id status, w =>
      let s := w.session t
      some (.ok (), w.setSession t
        ⟨setOrderObj s.objs id status, s.pending ++ [.orderStatus id status]⟩)
  | .setPaymentStatus id status, w =>
      let s := w.session t
      some (.ok (), w.setSession t
        ⟨setPaymentObj s.objs id status, s.pending ++ [.paymentStatus id status]⟩)
  | .add row, w =>
      let s := w.session t
      some (.ok (), w.setSession t ⟨s.objs, s.pending ++ [.insert row]⟩)
  | .flush, w =>
      match c.fault with
      | some f => some (.error f.exn, w)
      | none => w.flush c.now t
  | .setSearchPath _, w =>
      match c.fault with
      | some f => some (.error f.exn, w)
      | none => some (.ok (), w)
  | .uuid4, w =>
      -- a UUID is never generated twice
      if c.uuid ∈ w.used.map Prod.snd then none
      else some (.ok c.uuid, { w with used := (t, c.uuid) :: w.used })
  | .nowIso, w => some (.ok c.iso, w)
  | .redisSetNx key token, w =>
      match c.fault with
      | some f => some (.error f.exn, if c.executed then (w.setNx key token).2 else w)
      | none =>
          match w.setNx key token with
          | (true, w') => some (.ok true, w'.setLock t (.held key token))
          | (false, w') => some (.ok false, w')
  | .redisRelease key token, w =>
      match c.fault with
      | some f =>
          some (.error f.exn,
            (if c.executed then (w.releaseKey key token).2 else w).setLock t (.released key))
      | none =>
          some (.ok (w.releaseKey key token).1,
            (w.releaseKey key token).2.setLock t (.released key))

end Exec

/-! ## §6. The part of the state that is a session's own. -/

/-- What only session `t` can change: its part of the store, its session, its
way with the lock, the UUIDs it generated. -/
structure Local where
  part : TxPart Row RowKey
  session : Session
  lock : LockPhase
  mine : List Uuid

/-- The part of `t`. -/
def World.local {τ : Type} [DecidableEq τ] (w : World τ) (t : τ) : Local where
  part := w.store.part t
  session := w.session t
  lock := w.lock t
  mine := (w.used.filter (fun p => p.1 = t)).map Prod.snd

end Nimbus
