/-
  Nimbus.Saga.Orders
  ──────────────────
  **THE FIRST EVENT WINS.**

  Orders are placed and payment events are delivered in any order, any number
  of times, handlers running side by side.  Of all that, an order shows only
  the first committed event that names it: the three guards of
  `update_order_status`, applied under the row lock, make the status a
  register that is written once.

    • `sagaRun`        — a run of `place_order` calls and deliveries;
    • `committedEvents` — the committed events that name an order;
    • `FirstWins`      — history and status of an order against its events;
    • `order_history`  — **the committed history of every order.**
-/
import Nimbus.Saga.Shop

namespace Nimbus

open Lib Orders

/-! ## §1. Runs of the saga. -/

inductive SagaCall where
  | placeOrder (request : PlaceOrderRequest)
  | deliver (topic : String) (envelope : EventEnvelope)

def SagaCall.toCall : SagaCall → Call
  | .placeOrder request => .placeOrder request
  | .deliver topic envelope => .deliver topic envelope

section

variable {τ : Type} [DecidableEq τ]

/-- The platform when orders are placed and payment events delivered. -/
def sagaShop (uuid5 : Uuid5) : System SagaCall Op Ans Exn Reply (World τ) τ Choice :=
  (shop uuid5).comap SagaCall.toCall

/-- The state after the actions `as`, from committed rows `T`. -/
def sagaRun (uuid5 : Uuid5) (T : Table Row) (as : List (Action τ SagaCall Choice)) :
    Pool SagaCall Op Ans Exn Reply (World τ) τ :=
  (Pool.machine (sagaShop uuid5)).run (Pool.init (World.init T)) as

end

variable {τ : Type}

/-- The committed status of the order `id`. -/
def statusOf (id : Uuid) (T : Table Row) : Option OrderStatus :=
  match T.lookup (.order id) with
  | some (.order o) => some o.status
  | _ => none

/-- The status that a delivery which has returned has asked for the order `id`. -/
def askedFor (id : Uuid) (call : Call) (r : Except Exn Reply) : Option OrderStatus :=
  match call, r with
  | .deliver topic envelope, .ok _ =>
      match eventOf topic envelope with
      | some (status, order_id) => if order_id = id then some status else none
      | none => none
  | _, _ => none

/-- The status that a committed call has asked for the order `id`. -/
def eventFor (id : Uuid) (e : Entry τ SagaCall Exn Reply) : Option OrderStatus :=
  askedFor id e.call.toCall e.result

/-- The committed events that name the order `id`, in the order of their commits. -/
def committedEvents (id : Uuid) (log : List (Entry τ SagaCall Exn Reply)) : List OrderStatus :=
  log.filterMap (eventFor id)

/-! ## §2. What the effects do to an order. -/

theorem statusOf_lookup {T : Table Row} {o : Order} {id : Uuid}
    (h : T.lookup (.order id) = some (.order o)) : statusOf id T = some o.status := by
  unfold statusOf
  rw [h]

theorem statusOf_congr {T T' : Table Row} {id : Uuid}
    (h : T'.lookup (.order id) = T.lookup (.order id)) : statusOf id T' = statusOf id T := by
  unfold statusOf
  rw [h]

/-- The compensation touches no order. -/
theorem Compensates.order {J : Table Row → Prop} {o : Order} {status : OrderStatus}
    {T T₁ : Table Row} (hc : Compensates J o status T T₁) (id : Uuid) :
    T₁.lookup (.order id) = T.lookup (.order id) := by
  cases hc with
  | none _ => rfl
  | release _ _ => exact Table.lookup_upsert_ne fun h => RowKey.noConfusion h
  | missing _ _ _ _ => rfl

/-- A status change passes the guards or does not. -/
theorem setStatus_self {T : Table Row} {o : Order} {status : OrderStatus}
    (h : T.lookup (.order o.id) = some (.order o)) :
    (setStatus T o status).lookup (.order o.id)
      = some (.order { o with status := nextStatus o.status status }) := by
  unfold setStatus nextStatus
  split
  · exact Table.lookup_upsert_self rfl
  · exact h

theorem setStatus_other {T : Table Row} {o : Order} {status : OrderStatus} {id : Uuid}
    (h : id ≠ o.id) : (setStatus T o status).lookup (.order id) = T.lookup (.order id) := by
  unfold setStatus
  split
  · exact Table.lookup_upsert_ne fun hc => h (RowKey.order.inj hc)
  · rfl

/-- A status change is not one of the stock. -/
theorem setStatus_stock {T : Table Row} {o : Order} {status : OrderStatus} (i : Uuid) :
    (setStatus T o status).lookup (.stock i) = T.lookup (.stock i) := by
  unfold setStatus
  split
  · exact Table.lookup_upsert_ne fun hc => RowKey.noConfusion hc
  · rfl

/-- Events ask for PAID or for FAILED. -/
theorem eventOf_status {topic : String} {envelope : EventEnvelope} {status : OrderStatus}
    {order_id : Uuid} (h : eventOf topic envelope = some (status, order_id)) :
    status = .paid ∨ status = .failed := by
  unfold eventOf at h
  split at h
  next status' _ hs _ =>
    obtain ⟨rfl, -⟩ := Prod.mk.inj (Option.some.inj h)
    unfold requestedStatus at hs
    split_ifs at hs
    · exact Or.inl (Option.some.inj hs).symm
    · exact Or.inr (Option.some.inj hs).symm
  next => cases h

theorem askedFor_cases {id : Uuid} {call : Call} {r : Except Exn Reply} {status : OrderStatus}
    (h : askedFor id call r = some status) : status = .paid ∨ status = .failed := by
  unfold askedFor at h
  split at h
  next topic envelope _ _ _ =>
    split at h
    next status' order_id hev =>
      split at h
      next =>
        obtain rfl := Option.some.inj h
        exact eventOf_status hev
      next => cases h
    next => cases h
  next => cases h

/-- Rows of other tables leave the orders alone. -/
theorem lookup_order_upsert {T : Table Row} {row : Row} {id : Uuid} (h : ∀ i, key row ≠ .order i) :
    (T.upsert row).lookup (.order id) = T.lookup (.order id) :=
  Table.lookup_upsert_ne fun hc => h id hc.symm

theorem lookup_order_upsert_stock {T : Table Row} (s : Stock) (id : Uuid) :
    (T.upsert (.stock s)).lookup (.order id) = T.lookup (.order id) :=
  lookup_order_upsert fun _ hc => RowKey.noConfusion hc

/-- **A committed call either leaves an order alone, places it, or is an event
that the guards decide on.** -/
theorem Effect.order {J : Table Row → Prop} {uuid5 : Uuid5} {T T' : Table Row} {call : Call}
    {r : Except Exn Reply} (he : Effect J uuid5 call r T T') (id : Uuid) :
    (askedFor id call r = none ∧ T'.lookup (.order id) = T.lookup (.order id))
    ∨ (askedFor id call r = none ∧ T.lookup (.order id) = none
        ∧ ∃ o, T'.lookup (.order id) = some (.order o) ∧ o.status = .reserved)
    ∨ ∃ status o, askedFor id call r = some status ∧ T.lookup (.order id) = some (.order o)
        ∧ T'.lookup (.order id) = some (.order { o with status := nextStatus o.status status }) := by
  cases he with
  | reserved => exact Or.inl ⟨rfl, lookup_order_upsert fun _ hc => RowKey.noConfusion hc⟩
  | released => exact Or.inl ⟨rfl, lookup_order_upsert fun _ hc => RowKey.noConfusion hc⟩
  | releasedNothing => exact Or.inl ⟨rfl, rfl⟩
  | reserveRefused => exact Or.inl ⟨rfl, rfl⟩
  | releaseRefused => exact Or.inl ⟨rfl, rfl⟩
  | @placed request result _ s row hs hq ha horder hfree hfree' hkey =>
      have hrow : ∀ i, key row ≠ .order i := by
        rw [hkey]
        exact fun _ hc => RowKey.noConfusion hc
      by_cases hid : result.order.id = id
      · -- the order that is placed
        subst hid
        obtain ⟨rr, st, heq⟩ := horder
        refine Or.inr (Or.inl ⟨rfl, hfree, result.order, ?_, by rw [heq]; rfl⟩)
        rw [lookup_order_upsert hrow]
        exact Table.lookup_upsert_self rfl
      · refine Or.inl ⟨rfl, ?_⟩
        rw [lookup_order_upsert hrow, Table.lookup_upsert_ne fun hc => hid (RowKey.order.inj hc).symm,
          lookup_order_upsert fun _ hc => RowKey.noConfusion hc]
  | processed =>
      refine Or.inl ⟨rfl, ?_⟩
      rw [lookup_order_upsert fun _ hc => RowKey.noConfusion hc,
        lookup_order_upsert fun _ hc => RowKey.noConfusion hc]
  | ignored hev =>
      refine Or.inl ⟨?_, rfl⟩
      unfold askedFor
      simp only [hev]
  | @delivered _ _ status order_id o _ T₁ hev ho hc =>
      obtain rfl : o.id = order_id := RowKey.order.inj (Table.key_of_lookup ho)
      by_cases hid : o.id = id
      · subst hid
        refine Or.inr (Or.inr ⟨status, o, ?_, ho, ?_⟩)
        · unfold askedFor
          simp only [hev, if_pos]
        · exact setStatus_self ((hc.order _).trans ho)
      · refine Or.inl ⟨?_, ?_⟩
        · unfold askedFor
          simp only [hev, if_neg hid]
        · rw [setStatus_other fun h => hid h.symm]
          exact hc.order id

/-- The same, read off the status. -/
theorem Effect.orderStatus {J : Table Row → Prop} {uuid5 : Uuid5} {T T' : Table Row} {call : Call}
    {r : Except Exn Reply} (he : Effect J uuid5 call r T T') (id : Uuid) :
    (askedFor id call r = none ∧ statusOf id T' = statusOf id T)
    ∨ (askedFor id call r = none ∧ statusOf id T = none ∧ statusOf id T' = some .reserved)
    ∨ ∃ status current, askedFor id call r = some status ∧ statusOf id T = some current
        ∧ statusOf id T' = some (nextStatus current status) := by
  rcases he.order id with ⟨hask, hsame⟩ | ⟨hask, hnone, o, ho, hres⟩ | ⟨status, o, hask, ho, ho'⟩
  · exact Or.inl ⟨hask, statusOf_congr hsame⟩
  · refine Or.inr (Or.inl ⟨hask, ?_, hres ▸ statusOf_lookup ho⟩)
    unfold statusOf
    rw [hnone]
  · exact Or.inr (Or.inr ⟨status, o.status, hask, statusOf_lookup ho, statusOf_lookup ho'⟩)

/-! ## §3. The register that is written once. -/

/-- From RESERVED the guards let both events pass. -/
theorem nextStatus_reserved {status : OrderStatus} (h : status = .paid ∨ status = .failed) :
    nextStatus .reserved status = status := by
  rcases h with rfl | rfl
  · decide
  · decide

/-- From PAID and from FAILED they let none pass. -/
theorem nextStatus_final {current status : OrderStatus} (hc : current = .paid ∨ current = .failed)
    (h : status = .paid ∨ status = .failed) : nextStatus current status = current := by
  rcases hc with rfl | rfl
  · rcases h with rfl | rfl <;> decide
  · rcases h with rfl | rfl <;> decide

/-- An order not placed yet has no history and no committed event; a placed one
has RESERVED, then the first event that names it. -/
inductive FirstWins (id : Uuid) (h : List OrderStatus) (log : List (Entry τ SagaCall Exn Reply))
    (T : Table Row) : Prop where
  | absent : statusOf id T = none → h = [] → committedEvents id log = [] → FirstWins id h log T
  | placed : statusOf id T = some ((committedEvents id log).head?.getD .reserved) →
      h = .reserved :: (committedEvents id log).head?.toList → FirstWins id h log T

variable {id : Uuid} {h : List OrderStatus} {log : List (Entry τ SagaCall Exn Reply)}
  {T T' : Table Row}

theorem committedEvents_none {e : Entry τ SagaCall Exn Reply} (he : eventFor id e = none) :
    committedEvents id (log ++ [e]) = committedEvents id log := filterMap_snoc_none he

theorem committedEvents_some {e : Entry τ SagaCall Exn Reply} {status : OrderStatus}
    (he : eventFor id e = some status) :
    committedEvents id (log ++ [e]) = committedEvents id log ++ [status] := filterMap_snoc_some he

theorem committedEvents_mem {status : OrderStatus} (hs : status ∈ committedEvents id log) :
    status = .paid ∨ status = .failed := by
  obtain ⟨e, -, he⟩ := List.mem_filterMap.mp hs
  exact askedFor_cases he

/-- What is recorded last is the current status. -/
theorem FirstWins.getLast (hf : FirstWins id h log T) : h.getLast? = statusOf id T := by
  cases hf with
  | absent hs hh _ => rw [hs, hh]; rfl
  | placed hs hh =>
      rw [hs, hh]
      cases (committedEvents id log).head? with
      | none => rfl
      | some status => rfl

/-- **One committed call keeps the rule that the first event wins.** -/
theorem FirstWins.step {J : Table Row → Prop} {uuid5 : Uuid5} {e : Entry τ SagaCall Exn Reply}
    (hf : FirstWins id h log T) (he : Effect J uuid5 e.call.toCall e.result T T') :
    FirstWins id (Machine.record h (statusOf id T')) (log ++ [e]) T' := by
  have hlast := hf.getLast
  rcases he.orderStatus id with ⟨hev, hs⟩ | ⟨hev, hs, hs'⟩ | ⟨status, current, hev, hs, hs'⟩
  · -- the order is left alone
    have hevents : committedEvents id (log ++ [e]) = committedEvents id log :=
      committedEvents_none hev
    rw [hs, Machine.record_same hlast]
    cases hf with
    | absent hn hh hl => exact .absent (hs.trans hn) hh (hevents.trans hl)
    | placed hn hh => exact .placed (by rw [hs, hevents]; exact hn) (by rw [hevents]; exact hh)
  · -- the order is placed
    cases hf with
    | placed hn _ => rw [hs] at hn; cases hn
    | absent _ hh hl =>
        have hevents : committedEvents id (log ++ [e]) = [] := (committedEvents_none hev).trans hl
        refine .placed ?_ ?_
        · rw [hs', hevents]
          rfl
        · rw [hs', hevents, hh]
          rfl
  · -- an event names the order
    have hstatus := askedFor_cases hev
    have hevents : committedEvents id (log ++ [e]) = committedEvents id log ++ [status] :=
      committedEvents_some hev
    cases hf with
    | absent hn _ _ => rw [hs] at hn; cases hn
    | placed hn hh =>
        rw [hs] at hn
        cases hall : committedEvents id log with
        | nil =>
            -- it is the first
            rw [hall] at hn hh hevents
            obtain rfl : current = .reserved := Option.some.inj hn
            rw [nextStatus_reserved hstatus] at hs'
            refine .placed (by rw [hs', hevents]; rfl) ?_
            have hne : h.getLast? ≠ some status := by
              rw [hh]
              intro hc
              obtain rfl : OrderStatus.reserved = status := Option.some.inj hc
              rcases hstatus with hp | hp <;> cases hp
            rw [hs', Machine.record_new hne, hevents, hh]
            rfl
        | cons first rest =>
            rw [hall] at hn hh hevents
            obtain rfl : current = first := Option.some.inj hn
            have hfirst : current ∈ committedEvents id log := by rw [hall]; exact List.mem_cons_self
            rw [nextStatus_final (committedEvents_mem hfirst) hstatus] at hs'
            refine .placed (by rw [hs', hevents]; rfl) ?_
            rw [hs', Machine.record_same (hlast.trans hs), hevents]
            exact hh

/-! ## §4. Every run. -/

variable [DecidableEq τ]

/-- The committed status history of the order `id` in a run. -/
def statusHistory (uuid5 : Uuid5) (T : Table Row) (as : List (Action τ SagaCall Choice))
    (id : Uuid) : List OrderStatus :=
  Machine.history (fun P => statusOf id P.shared.base)
    ((Pool.machine (sagaShop uuid5)).trace (Pool.init (World.init T)) as)

variable {uuid5 : Uuid5}

/-- **In every run, history and status of an order are those of its first
committed event.** -/
theorem firstWins_run (uuid5 : Uuid5) (hT : ∀ r ∈ T.rows, r.violation = .ok ())
    (hnew : T.lookup (.order id) = none) (as : List (Action τ SagaCall Choice)) :
    FirstWins id (statusHistory uuid5 T as id) (sagaRun uuid5 T as).log
      (sagaRun uuid5 T as).shared.base := by
  let K := (shopContract anyRows uuid5 keeps_anyRows (τ := τ)).comap SagaCall.toCall
  let F := (shopEffects anyRows uuid5 keeps_anyRows (τ := τ)).comap SagaCall.toCall
  have hinit : K.Holds (Pool.init (World.init T)) := K.holds_init ⟨inv_init hT, trivial⟩
  have hnone : statusOf id T = none := by
    unfold statusOf
    rw [hnew]
  -- the invariant is about the history of the order and the log
  have hrun := (Pool.machine (sagaShop uuid5)).history_invariant
    (f := fun P => statusOf id P.shared.base)
    (I := fun h P => K.Holds P ∧ FirstWins id h P.log P.shared.base)
    (fun h P hI => hI.2.getLast) ?_ as (Pool.init (World.init T))
    ⟨hinit, .absent hnone (congrArg (Machine.record []) hnone) rfl⟩
  · exact hrun.2
  · rintro h P a P' ⟨hP, hf⟩ hact
    refine ⟨K.act_holds hP hact, ?_⟩
    rcases F.act_effect hP hact with ⟨hobs, hlog, -⟩ | ⟨t, c, call, r, -, -, hlog, -, he⟩
    · have hbase : P'.shared.base = P.shared.base := hobs
      rw [hbase, hlog, Machine.record_same hf.getLast]
      exact hf
    · rw [hlog]
      exact hf.step he

theorem sagaRun_append (as bs : List (Action τ SagaCall Choice)) :
    sagaRun uuid5 T (as ++ bs)
      = (Pool.machine (sagaShop uuid5)).run (sagaRun uuid5 T as) bs :=
  Machine.run_append _ _ _ _

/-- **The committed history of every order** is a prefix of RESERVED, PAID or of
RESERVED, FAILED; PAID and FAILED come from a committed event that asked for
them, and the first committed event fixes the status for good. -/
theorem order_history (hT : ∀ r ∈ T.rows, r.violation = .ok ())
    (hnew : ∀ o, Row.order o ∉ T.rows) (as : List (Action τ SagaCall Choice)) (id : Uuid) :
    (statusHistory uuid5 T as id <+: [.reserved, .paid]
      ∨ statusHistory uuid5 T as id <+: [.reserved, .failed])
    ∧ (statusOf id (sagaRun uuid5 T as).shared.base = some .paid →
        .paid ∈ committedEvents id (sagaRun uuid5 T as).log)
    ∧ (statusOf id (sagaRun uuid5 T as).shared.base = some .failed →
        .failed ∈ committedEvents id (sagaRun uuid5 T as).log)
    ∧ ∀ status, (committedEvents id (sagaRun uuid5 T as).log).head? = some status →
        ∀ bs, statusOf id (sagaRun uuid5 T (as ++ bs)).shared.base = some status := by
  have hfree : T.lookup (.order id) = none := by
    cases hrow : T.lookup (.order id) with
    | none => rfl
    | some row =>
        obtain ⟨o, rfl, -⟩ := order_of_key (Table.key_of_lookup hrow)
        exact absurd (Table.mem_of_lookup hrow) (hnew o)
  have hrun := firstWins_run uuid5 hT hfree as
  -- a status other than RESERVED is the first event's
  have hevent : ∀ status, status ≠ .reserved →
      statusOf id (sagaRun uuid5 T as).shared.base = some status →
      status ∈ committedEvents id (sagaRun uuid5 T as).log := by
    intro status hne hs
    cases hrun with
    | absent hn _ _ => rw [hn] at hs; cases hs
    | placed hn _ =>
        rw [hn] at hs
        cases hh : (committedEvents id (sagaRun uuid5 T as).log).head? with
        | none =>
            rw [hh] at hs
            exact absurd (Option.some.inj hs).symm hne
        | some first =>
            rw [hh] at hs
            obtain rfl : first = status := Option.some.inj hs
            exact List.mem_of_head? hh
  refine ⟨?_, hevent .paid (by decide), hevent .failed (by decide), ?_⟩
  · cases hrun with
    | absent _ hh _ => rw [hh]; exact Or.inl List.nil_prefix
    | placed _ hh =>
        rw [hh]
        cases hhead : (committedEvents id (sagaRun uuid5 T as).log).head? with
        | none => exact Or.inl ⟨[.paid], rfl⟩
        | some first =>
            rcases committedEvents_mem (List.mem_of_head? hhead) with rfl | rfl
            · exact Or.inl (List.prefix_refl _)
            · exact Or.inr (List.prefix_refl _)
  · intro status hhead bs
    have hlater := firstWins_run uuid5 hT hfree (as ++ bs)
    have hgrow : (sagaRun uuid5 T as).log <+: (sagaRun uuid5 T (as ++ bs)).log := by
      rw [sagaRun_append]
      exact Pool.log_prefix _ bs
    obtain ⟨more, hmore⟩ := hgrow
    have hfirst : (committedEvents id (sagaRun uuid5 T (as ++ bs)).log).head? = some status := by
      rw [← hmore, committedEvents, List.filterMap_append, List.head?_append]
      show (committedEvents id (sagaRun uuid5 T as).log).head?.or _ = some status
      rw [hhead]
      rfl
    cases hlater with
    | absent _ _ hnil => rw [hnil] at hfirst; cases hfirst
    | placed hs _ =>
        rw [hs, hfirst]
        rfl

/-- Ten pieces of one stock row, no orders. -/
def tenStock : Stock := ⟨Uuid.ofNat 1, 250, "EUR", 10, 1⟩

def tenTable : Table Row := ⟨[.stock tenStock], List.nodup_singleton _⟩

theorem tenTable_accepted : ∀ r ∈ tenTable.rows, r.violation = .ok () :=
  fun r hr => by rw [List.mem_singleton.mp hr]; rfl

theorem tenTable_no_orders : ∀ o, Row.order o ∉ tenTable.rows :=
  fun _ ho => nomatch List.mem_singleton.mp ho

theorem paymentFive_len : 1 ≤ (Uuid.ofNat 5).str.length ∧ (Uuid.ofNat 5).str.length ≤ 128 :=
  EventEnvelope.uuid_len _

/-- A payment event that names the order with the UUID 2. -/
def paymentEvent (event_type : String) (h : 1 ≤ event_type.length ∧ event_type.length ≤ 255) :
    EventEnvelope where
  event_id := Uuid.ofNat 9
  event_type := event_type
  schema_version := 1
  aggregate_type := "Payment"
  aggregate_id := (Uuid.ofNat 5).str
  payload := .dict [(.str "order_id", .str (Uuid.ofNat 2).str)]
  event_type_len := h
  schema_version_ge := EventEnvelope.firstVersion_ge
  aggregate_type_len := EventEnvelope.payment_len
  aggregate_id_len := paymentFive_len

def capturedEvent : EventEnvelope :=
  paymentEvent "payments.payment_captured" EventEnvelope.paymentCaptured_len

def failedEvent : EventEnvelope :=
  paymentEvent "payments.payment_failed" EventEnvelope.paymentFailed_len

/-- Session 0 orders three pieces; the order gets the UUID 2. -/
def placeThree : List (Action Nat SagaCall Choice) :=
  [.start 0 (.placeOrder ⟨Uuid.ofNat 7, tenStock.id, 3⟩), .step 0 {}, .step 0 {}, .step 0 {},
    .step 0 {}, .step 0 {}, .step 0 { uuid := Uuid.ofNat 2 }, .step 0 { uuid := Uuid.ofNat 3 },
    .step 0 {}, .step 0 {}, .step 0 {}, .commit 0 {}]

/-- Session `t` handles an event and commits. -/
def handleEvent (t : Nat) (envelope : EventEnvelope) : List (Action Nat SagaCall Choice) :=
  [.start t (.deliver "payments.events" envelope), .step t {}, .step t {}, .step t {}, .step t {},
    .step t {}, .commit t {}]

/-- The order is captured, then reported as failed. -/
def crossedRun : List (Action Nat SagaCall Choice) :=
  placeThree ++ handleEvent 1 capturedEvent ++ handleEvent 2 failedEvent

theorem order_history_crossed :
    (statusHistory (fun c => c) tenTable crossedRun (Uuid.ofNat 2) <+: [.reserved, .paid]
      ∨ statusHistory (fun c => c) tenTable crossedRun (Uuid.ofNat 2) <+: [.reserved, .failed])
    ∧ (statusOf (Uuid.ofNat 2) (sagaRun (fun c => c) tenTable crossedRun).shared.base = some .paid →
        .paid ∈ committedEvents (Uuid.ofNat 2) (sagaRun (fun c => c) tenTable crossedRun).log) :=
  have h := order_history tenTable_accepted tenTable_no_orders crossedRun (Uuid.ofNat 2)
  ⟨h.1, h.2.1⟩

/-- The later event has been handled and committed, and has changed nothing. -/
example : statusHistory (fun c => c) tenTable crossedRun (Uuid.ofNat 2) = [.reserved, .paid]
    ∧ committedEvents (Uuid.ofNat 2) (sagaRun (fun c => c) tenTable crossedRun).log
      = [.paid, .failed] := by
  decide +kernel

end Nimbus
