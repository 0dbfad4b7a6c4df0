/-
  Nimbus.Saga.Pipeline
  ────────────────────
  **FROM A PAYMENT TO ITS ORDER.**

  The services, the relays, the topics and the order consumers as one system.  A
  commit of a service that inserts outbox rows hands them to the relays; a relay
  that publishes a row adds a record to its topic, also where the acknowledgement
  is lost; and a consumer may be handed any record of a topic, any number of
  times and in any order, whatever its offsets and its dedupe keys are.  A
  handler is started in no other way.

    • `State`, `step`     — the system;
    • `Parts`             — the services and the relays run as they do alone;
    • `Told`              — what committed rows have to do with committed calls;
    • `Carried`           — where everything on its way comes from;
    • `order_accounted`   — **an order is PAID or FAILED by a request that has
                            captured or failed a payment for it;**
    • `events_carried`    — **nothing is lost and nothing made up on the way.**
-/
import Nimbus.Saga.Books
import Nimbus.Saga.PaymentPayload
import Nimbus.Workers.RelayRuns

namespace Nimbus.Pipeline

open Lib Lib.Prog Inventory Orders Payments
open OutboxRelay (Settings Tick New Locked Settles outcome)

/-! ## §1. The system. -/

/-- A message of a topic. -/
structure Record where
  topic : String
  value : Json

/-- The services on the database, the relays, and the messages the broker has. -/
structure State (τ ρ : Type) where
  shop : Pool Call Op Ans Exn Reply (World τ) τ
  relay : OutboxRelay.State ρ
  records : List Record

inductive Step (τ ρ : Type) where
  /-- A session of the services moves. -/
  | serve (a : Action τ Call Choice)
  /-- A relay moves; `stored` says whether a message whose acknowledgement is
  lost has reached the broker. -/
  | relay (a : OutboxRelay.Action ρ) (stored : Bool)
  /-- A consumer hands a record to the handlers, in a new session. -/
  | deliver (t : τ) (offset : Nat) (fresh : Uuid)

/-- From the committed rows `T`, with no event on its way. -/
def init {τ ρ : Type} (T : Table Row) : State τ ρ :=
  ⟨Pool.init (World.init T), OutboxRelay.State.init Table.empty, []⟩

/-- The outbox rows of `T'` that `T` has not. -/
def inserted (T T' : Table Row) : List OutboxEvent :=
  T'.rows.filterMap fun
    | .outbox e => if (T.lookup (.outbox e.id)).isNone then some e else none
    | _ => none

/-- The message of a row, as `KafkaProducer.publish` sends it. -/
def message (fresh : Uuid) (row : OutboxEvent) : Except Exn Record := do
  let envelope ← EventEnvelope.modelValidate fresh row.payload
  let value ← envelope.toBytes
  return ⟨row.topic, value⟩

/-- What the broker has got when a relay has moved. -/
def sent {ρ : Type} (settings : Settings) (R : OutboxRelay.State ρ) (stored : Bool) :
    OutboxRelay.Action ρ → List Record
  | .publish t answer =>
      match (R.tick t).bind (Tick.next settings) with
      | none => []
      | some row =>
          -- a row without attempts left is not sent
          if (settings.outbox_relay_max_attempts : Int) ≤ row.attempt_count then []
          else if stored ∨ (outcome settings row answer).isAcked then
            (message answer.fresh row).toOption.toList
          else []
  | _ => []

/-- The move starts a handler. -/
def startsHandler {τ : Type} : Action τ Call Choice → Bool
  | .start _ (.deliver _ _) => true
  | _ => false

section

variable {τ ρ : Type} [DecidableEq τ] [DecidableEq ρ] (settings : Settings) (uuid5 : Uuid5)

/-- One step; `none` when it is not possible. -/
def step (S : State τ ρ) : Step τ ρ → Option (State τ ρ)
  | .serve a =>
      if startsHandler a then none
      else (Pool.act (shop uuid5) S.shop a).map fun P => { S with
        shop := P
        relay := (OutboxRelay.machine settings).run S.relay
          ((inserted S.shop.shared.base P.shared.base).map .produce) }
  -- a row is inserted by a service only
  | .relay (.produce _) _ => none
  | .relay a stored =>
      (OutboxRelay.step settings S.relay a).map fun R => { S with
        relay := R
        records := S.records ++ sent settings S.relay stored a }
  | .deliver t offset fresh =>
      match S.records[offset]? with
      | none => none
      | some record =>
          match EventEnvelope.fromBytes fresh record.value with
          | .error _ => none
          | .ok envelope =>
              (Pool.act (shop uuid5) S.shop (.start t (.deliver record.topic envelope))).map fun P =>
                { S with shop := P }

/-- The system as a machine. -/
def machine : Machine (State τ ρ) (Step τ ρ) := ⟨step settings uuid5⟩

/-- The state after the steps `xs`. -/
def pipelineRun (T : Table Row) (xs : List (Step τ ρ)) : State τ ρ :=
  (machine settings uuid5).run (init T) xs

end

variable {τ ρ : Type} [DecidableEq τ] [DecidableEq ρ] {settings : Settings} {uuid5 : Uuid5}

/-- **What each step changes.** -/
theorem step_cases {S S' : State τ ρ} {x : Step τ ρ} (h : step settings uuid5 S x = some S') :
    (∃ a P, x = .serve a ∧ startsHandler a = false ∧ Pool.act (shop uuid5) S.shop a = some P
      ∧ S' = { S with
        shop := P
        relay := (OutboxRelay.machine settings).run S.relay
          ((inserted S.shop.shared.base P.shared.base).map .produce) })
    ∨ (∃ a stored R, x = .relay a stored ∧ (∀ e, a ≠ .produce e)
      ∧ OutboxRelay.step settings S.relay a = some R
      ∧ S' = { S with relay := R, records := S.records ++ sent settings S.relay stored a })
    ∨ ∃ t offset fresh record envelope P, x = .deliver t offset fresh ∧ record ∈ S.records
      ∧ EventEnvelope.fromBytes fresh record.value = .ok envelope
      ∧ Pool.act (shop uuid5) S.shop (.start t (.deliver record.topic envelope)) = some P
      ∧ S' = { S with shop := P } := by
  cases x with
  | serve a =>
      simp only [step] at h
      split at h
      next => cases h
      next hstart =>
        obtain ⟨P, hP, rfl⟩ := Option.map_eq_some_iff.mp h
        exact Or.inl ⟨a, P, rfl, eq_false_of_ne_true hstart, hP, rfl⟩
  | relay a stored =>
      have hmoved : (∀ e, a ≠ .produce e) ∧ (OutboxRelay.step settings S.relay a).map (fun R =>
          { S with relay := R, records := S.records ++ sent settings S.relay stored a })
          = some S' := by
        cases a with
        | produce e => cases h
        | _ => exact ⟨fun _ hc => (nomatch hc), h⟩
      obtain ⟨R, hR, rfl⟩ := Option.map_eq_some_iff.mp hmoved.2
      exact Or.inr (Or.inl ⟨a, stored, R, rfl, hmoved.1, hR, rfl⟩)
  | deliver t offset fresh =>
      simp only [step] at h
      split at h
      next => cases h
      next record hrecord =>
        split at h
        next => cases h
        next envelope henvelope =>
          obtain ⟨P, hP, rfl⟩ := Option.map_eq_some_iff.mp h
          exact Or.inr (Or.inr ⟨t, offset, fresh, record, envelope, P, rfl,
            List.mem_of_getElem? hrecord, henvelope, hP, rfl⟩)

/-! ## §2. The parts of a run. -/

theorem shopRun_snoc {T : Table Row} {as : List (Action τ Call Choice)} {a : Action τ Call Choice}
    {P : Pool Call Op Ans Exn Reply (World τ) τ}
    (h : Pool.act (shop uuid5) (shopRun uuid5 T as) a = some P) :
    P = shopRun uuid5 T (as ++ [a]) := by
  unfold shopRun
  rw [Machine.run_append]
  exact ((Pool.machine (shop uuid5)).next_of_step h).symm

/-- **The parts run as they do alone**: the services as if handlers were started at
will, the relays beside producers. -/
structure Parts (settings : Settings) (uuid5 : Uuid5) (T : Table Row) (S : State τ ρ) : Prop where
  shop : ∃ as, S.shop = shopRun uuid5 T as
  relay : ∃ bs, S.relay = OutboxRelay.relayRun settings Table.empty bs

theorem Parts.step {T : Table Row} {S S' : State τ ρ} {x : Step τ ρ}
    (hS : Parts settings uuid5 T S) (h : Pipeline.step settings uuid5 S x = some S') :
    Parts settings uuid5 T S' := by
  obtain ⟨as, has⟩ := hS.shop
  obtain ⟨bs, hbs⟩ := hS.relay
  rcases step_cases h with ⟨a, P, -, -, hP, rfl⟩ | ⟨a, stored, R, -, -, hR, rfl⟩ |
    ⟨t, offset, fresh, record, envelope, P, -, -, -, hP, rfl⟩
  · rw [has] at hP
    refine ⟨⟨as ++ [a], shopRun_snoc hP⟩,
      ⟨bs ++ (inserted S.shop.shared.base P.shared.base).map .produce, ?_⟩⟩
    show (OutboxRelay.machine settings).run S.relay _ = _
    rw [hbs]
    exact (Machine.run_append _ _ _ _).symm
  · refine ⟨⟨as, has⟩, ⟨bs ++ [a], ?_⟩⟩
    rw [hbs] at hR
    unfold OutboxRelay.relayRun
    rw [Machine.run_append]
    exact ((OutboxRelay.machine settings).next_of_step hR).symm
  · rw [has] at hP
    exact ⟨⟨_, shopRun_snoc hP⟩, ⟨bs, hbs⟩⟩

/-! ## §3. What a committed call writes. -/

/-- A row that a committed call has written over the committed rows `T`. -/
inductive Wrote (call : Call) (T : Table Row) : Row → Prop where
  | stock (s : Stock) : Wrote call T (.stock s)
  | order (o : Order) : Wrote call T (.order o)
  | payment {request : ProcessPaymentRequest} {p : Payment} :
      call = .processPayment request → T.lookup (.payment p.id) = some (.payment p) →
      Follows p.status request.new_status →
      Wrote call T (.payment { p with status := request.new_status })
  | outbox {row : Row} {id : Uuid} :
      (∃ request, call = .placeOrder request) ∨ (∃ request, call = .processPayment request) →
      key row = .outbox id → T.lookup (.outbox id) = none → Wrote call T row

variable {T U U' : Table Row} {J : Table Row → Prop} {call : Call} {r : Except Exn Reply}

theorem setStatus_wrote (T₁ : Table Row) (o : Order) (status : OrderStatus) :
    ∃ rows, setStatus T₁ o status = T₁.upsertAll rows ∧ ∀ row ∈ rows, Wrote call T row := by
  unfold setStatus
  split
  · refine ⟨[.order { o with status := status }], rfl, fun row hrow => ?_⟩
    rw [List.mem_singleton.mp hrow]
    exact .order _
  · exact ⟨[], rfl, fun _ hrow => nomatch hrow⟩

/-- **A committed call writes rows of stock and orders, the payment it moves on,
and outbox rows that are new.** -/
theorem wrote (he : Effect J uuid5 call r T U) :
    ∃ rows, U = T.upsertAll rows ∧ ∀ row ∈ rows, Wrote call T row := by
  have hone : ∀ {row : Row}, Wrote call T row → ∀ row' ∈ [row], Wrote call T row' := by
    intro row h row' hrow'
    rw [List.mem_singleton.mp hrow']
    exact h
  cases he with
  | reserved => exact ⟨[_], rfl, hone (.stock _)⟩
  | released => exact ⟨[_], rfl, hone (.stock _)⟩
  | releasedNothing => exact ⟨[], rfl, fun _ hrow => nomatch hrow⟩
  | reserveRefused => exact ⟨[], rfl, fun _ hrow => nomatch hrow⟩
  | releaseRefused => exact ⟨[], rfl, fun _ hrow => nomatch hrow⟩
  | ignored => exact ⟨[], rfl, fun _ hrow => nomatch hrow⟩
  | @placed request result _ s row hs hq ha ho hfree hfree' hkey =>
      refine ⟨[row, .order result.order, .stock (s.reserve request.quantity)], rfl, ?_⟩
      intro row' hrow'
      rcases List.mem_cons.mp hrow' with rfl | hrow'
      · exact .outbox (Or.inl ⟨request, rfl⟩) hkey (hkey ▸ hfree')
      · rcases List.mem_cons.mp hrow' with rfl | hrow'
        · exact .order _
        · exact hone (.stock _) row' hrow'
  | @processed request result _ p now hp hallowed hevent hfree hdedupe =>
      have hid : p.id = request.payment_id := RowKey.payment.inj (Table.key_of_lookup hp)
      refine ⟨[.outbox { result.outbox_event with created_at := now },
        .payment { p with status := request.new_status }], rfl, ?_⟩
      intro row' hrow'
      rcases List.mem_cons.mp hrow' with rfl | hrow'
      · exact .outbox (Or.inr ⟨request, rfl⟩) rfl hfree
      · exact hone (.payment rfl (hid ▸ hp) hallowed) row' hrow'
  | @delivered topic envelope status _ o _ T₁ _ _ hc =>
      obtain ⟨rows, hrows, hwrote⟩ :=
        @setStatus_wrote T (Call.deliver topic envelope) T₁ o status
      rw [hrows]
      cases hc with
      | none => exact ⟨rows, rfl, hwrote⟩
      | missing => exact ⟨rows, rfl, hwrote⟩
      | @release _ s _ _ =>
          -- the stock row is written first
          refine ⟨rows ++ [.stock (s.release o.quantity)], ?_, fun row hrow => ?_⟩
          · unfold Table.upsertAll
            rw [List.foldr_append]
            rfl
          · rcases List.mem_append.mp hrow with hrow | hrow
            · exact hwrote row hrow
            · exact hone (.stock _) row hrow

/-- **Outbox rows stay as they are inserted.** -/
theorem outbox_kept (he : Effect J uuid5 call r T U) {e : OutboxEvent}
    (h : Row.outbox e ∈ T.rows) : Row.outbox e ∈ U.rows := by
  obtain ⟨rows, rfl, hwrote⟩ := wrote he
  have hlookup : T.lookup (.outbox e.id) = some (.outbox e) := Table.lookup_some_iff.mpr ⟨h, rfl⟩
  refine Table.mem_of_lookup (k := .outbox e.id) ?_
  rw [Table.lookup_upsertAll]
  cases hfind : rows.find? (fun row => key row = .outbox e.id) with
  | none => exact hlookup
  | some row =>
      have hsome := List.find?_some hfind
      have hkey : key row = .outbox e.id := of_decide_eq_true hsome
      cases hwrote row (List.mem_of_find?_eq_some hfind) with
      | stock s => cases hkey
      | order o => cases hkey
      | payment => cases hkey
      | outbox _ hid hfree =>
          obtain rfl := RowKey.outbox.inj (hid.symm.trans hkey)
          rw [hfree] at hlookup
          cases hlookup

/-- Only placing an order and moving a payment inserts one. -/
theorem outbox_call (he : Effect J uuid5 call r T U) {e : OutboxEvent}
    (h : Row.outbox e ∈ U.rows) :
    Row.outbox e ∈ T.rows
      ∨ (∃ request, call = .placeOrder request) ∨ ∃ request, call = .processPayment request := by
  obtain ⟨rows, rfl, hwrote⟩ := wrote he
  have hlookup : (T.upsertAll rows).lookup (.outbox e.id) = some (.outbox e) :=
    Table.lookup_some_iff.mpr ⟨h, rfl⟩
  rw [Table.lookup_upsertAll] at hlookup
  cases hfind : rows.find? (fun row => key row = .outbox e.id) with
  | none =>
      rw [hfind] at hlookup
      exact Or.inl (Table.mem_of_lookup hlookup)
  | some row =>
      have hsome := List.find?_some hfind
      have hkey : key row = .outbox e.id := of_decide_eq_true hsome
      cases hwrote row (List.mem_of_find?_eq_some hfind) with
      | stock s => cases hkey
      | order o => cases hkey
      | payment => cases hkey
      | outbox hcall _ _ => exact Or.inr hcall

/-- **A payment only moves on**, by a transition that is allowed. -/
theorem payment_moves (he : Effect J uuid5 call r T U) {id : Uuid} {p : Payment}
    (h : T.lookup (.payment id) = some (.payment p)) :
    ∃ q, U.lookup (.payment id) = some (.payment q)
      ∧ Relation.ReflTransGen Follows p.status q.status := by
  obtain ⟨rows, rfl, hwrote⟩ := wrote he
  rw [Table.lookup_upsertAll]
  cases hfind : rows.find? (fun row => key row = .payment id) with
  | none => exact ⟨p, h, .refl⟩
  | some row =>
      have hsome := List.find?_some hfind
      have hkey : key row = .payment id := of_decide_eq_true hsome
      cases hwrote row (List.mem_of_find?_eq_some hfind) with
      | stock s => cases hkey
      | order o => cases hkey
      | @payment request q hcall hq hfollows =>
          obtain rfl : q.id = id := RowKey.payment.inj hkey
          rw [h] at hq
          obtain rfl := Row.payment.inj (Option.some.inj hq)
          exact ⟨_, rfl, .single hfollows⟩
      | outbox _ hid hfree =>
          rw [hid] at hkey
          cases hkey

/-! ## §4. Committed rows and committed calls. -/

/-- The committed call `x` has inserted the outbox row: it is the event that the
call has built, with the time of the insertion. -/
inductive Inserts (uuid5 : Uuid5) (x : Entry τ Call Exn Reply) : OutboxEvent → Prop where
  | order {request : PlaceOrderRequest} {result : PlaceOrderResult} (now : Int) :
      x.call = .placeOrder request → x.result = .ok (.placed result) →
      PlacedEvent result →
      Inserts uuid5 x { result.outbox_event with created_at := now }
  | payment {request : ProcessPaymentRequest} {result : ProcessPaymentResult} {p : Payment}
      (now : Int) : x.call = .processPayment request → x.result = .ok (.processed result) →
      EventOf uuid5 request p result →
      Inserts uuid5 x { result.outbox_event with created_at := now }

/-- Where the outbox rows of a commit come from. -/
theorem outbox_of_commit {t : τ} {c : Choice} {w w' : World τ} (hi : Inv w)
    (hpost : post J uuid5 call r (w.local t)) (hmay : mayCommit call r = true)
    (hyields : ∀ out, r = .ok out → PlacesEvent call out) (h : w.commit c t = some w')
    {e : OutboxEvent} (hrow : Row.outbox e ∈ w'.base.rows) :
    Row.outbox e ∈ w.base.rows ∨ Inserts uuid5 (⟨t, call, r⟩ : Entry τ Call Exn Reply) e := by
  have he := commit_effect hi hpost hmay h
  rcases outbox_call he hrow with hold | ⟨request, rfl⟩ | ⟨request, rfl⟩
  · exact Or.inl hold
  · obtain ⟨x, rfl, hx⟩ := hpost
    cases x with
    | error exc => cases hmay
    | ok result =>
        obtain ⟨s, now, hp⟩ := hx
        rw [commit_of_flushed hi h hp.pending, hp.writes] at hrow
        -- the last row written is the event, the others are none
        rcases Table.mem_upsert.mp hrow with hnew | ⟨hrow, -⟩
        · obtain rfl := Row.outbox.inj hnew
          exact Or.inr (.order now rfl rfl (hyields _ rfl))
        · rcases Table.mem_upsert.mp hrow with hnew | ⟨hrow, -⟩
          · cases hnew
          · rcases Table.mem_upsert.mp hrow with hnew | ⟨hrow, -⟩
            · cases hnew
            · exact Or.inl hrow
  · generalize w'.base = U at he hrow
    cases he with
    | @processed _ result _ q now _ _ hevent _ _ =>
        rcases Table.mem_upsert.mp hrow with hnew | ⟨hrow, -⟩
        · obtain rfl := Row.outbox.inj hnew
          exact Or.inr (.payment now rfl rfl hevent)
        · rcases Table.mem_upsert.mp hrow with hnew | ⟨hrow, -⟩
          · cases hnew
          · exact Or.inl hrow

/-- **What the committed rows `U` have to do with the committed calls**: every
outbox row was inserted by one; a status was there before, is that of a new order
or was asked for by a delivery; and a payment is where its requests have moved it,
or further. -/
structure Told (uuid5 : Uuid5) (T : Table Row) (log : List (Entry τ Call Exn Reply))
    (U : Table Row) : Prop where
  outbox : ∀ e, Row.outbox e ∈ U.rows → ∃ x ∈ log, Inserts uuid5 x e
  status : ∀ id status, statusOf id U = some status →
    statusOf id T = some status ∨ status = .reserved
      ∨ ∃ x ∈ log, askedFor id x.call x.result = some status
  payment : ∀ x ∈ log, ∀ request result, x.call = .processPayment request →
    x.result = .ok (.processed result) → ∃ p : Payment,
      U.lookup (.payment request.payment_id) = some (.payment p)
        ∧ Relation.ReflTransGen Follows request.new_status p.status

/-- **One committed call more.** -/
theorem Told.commit {τ : Type} {log : List (Entry τ Call Exn Reply)} {x : Entry τ Call Exn Reply}
    (h : Told uuid5 T log U) (he : Effect J uuid5 x.call x.result U U')
    (hout : ∀ e, Row.outbox e ∈ U'.rows → Row.outbox e ∈ U.rows ∨ Inserts uuid5 x e) :
    Told uuid5 T (log ++ [x]) U' := by
  have hold : ∀ y ∈ log, y ∈ log ++ [x] := fun y hy => List.mem_append_left _ hy
  have hnew : x ∈ log ++ [x] := List.mem_append_right _ (List.mem_singleton.mpr rfl)
  refine ⟨fun e hrow => ?_, fun id status hstatus => ?_, fun y hy request result hcall hres => ?_⟩
  · rcases hout e hrow with hrow | hins
    · obtain ⟨y, hy, hins⟩ := h.outbox e hrow
      exact ⟨y, hold y hy, hins⟩
    · exact ⟨x, hnew, hins⟩
  · have hbefore : ∀ current, statusOf id U = some current → statusOf id T = some current
        ∨ current = .reserved ∨ ∃ y ∈ log ++ [x], askedFor id y.call y.result = some current := by
      intro current hcurrent
      rcases h.status id current hcurrent with hT | hres | ⟨y, hy, hask⟩
      · exact Or.inl hT
      · exact Or.inr (Or.inl hres)
      · exact Or.inr (Or.inr ⟨y, hold y hy, hask⟩)
    rcases he.orderStatus id with ⟨-, hsame⟩ | ⟨-, -, hres⟩ | ⟨asked, current, hask, hU, hU'⟩
    · exact hbefore status (hsame ▸ hstatus)
    · exact Or.inr (Or.inl (Option.some.inj (hstatus.symm.trans hres)))
    · -- the guards have let the delivery pass, or not
      obtain rfl := Option.some.inj (hstatus.symm.trans hU')
      unfold nextStatus
      split
      · exact Or.inr (Or.inr ⟨x, hnew, hask⟩)
      · exact hbefore current hU
  · rcases List.mem_append.mp hy with hy | hy
    · obtain ⟨p, hp, hfollows⟩ := h.payment y hy request result hcall hres
      obtain ⟨q, hq, hmoved⟩ := payment_moves he hp
      exact ⟨q, hq, hfollows.trans hmoved⟩
    · obtain rfl := List.mem_singleton.mp hy
      rw [hcall] at he
      obtain ⟨p, e, hid, ht, -⟩ := he.transition
      refine ⟨{ p with status := request.new_status }, ?_, .refl⟩
      rw [← hid, ht.lookup_payment]
      exact if_pos rfl

/-- **In every run of the services.** -/
theorem told_run (hT : ∀ row ∈ T.rows, row.violation = .ok ()) (hno : ∀ e, Row.outbox e ∉ T.rows)
    (as : List (Action τ Call Choice)) :
    Told uuid5 T (shopRun uuid5 T as).log (shopRun uuid5 T as).shared.base := by
  let K := shopContract anyRows uuid5 keeps_anyRows (τ := τ)
  let F := shopEffects anyRows uuid5 keeps_anyRows (τ := τ)
  have hinit : Told uuid5 T ([] : List (Entry τ Call Exn Reply)) T :=
    ⟨fun e he => absurd he (hno e), fun _ _ h => Or.inl h, fun _ hx => (nomatch hx)⟩
  have hrun := (Pool.machine (shop uuid5)).run_invariant
    (I := fun P => K.Holds P ∧ Pool.Yielding PlacesEvent P ∧ Told uuid5 T P.log P.shared.base) ?_ as
    (Pool.init (World.init T)) ⟨K.holds_init ⟨inv_init hT, trivial⟩, Pool.yielding_init, hinit⟩
  · exact hrun.2.2
  · intro P a P' hP hstep
    obtain ⟨hK, hY, htold⟩ := hP
    refine ⟨K.act_holds hK hstep, Pool.act_yielding (body_yields uuid5) hY hstep, ?_⟩
    rcases Pool.act_cases hstep with ⟨t, call, -, -, rfl⟩ | ⟨t, c, call, op, k, r, s', -, -, he, rfl⟩ |
      ⟨t, c, call, r, s', -, ht, hmay, hc, rfl⟩ | ⟨t, th, -, -, rfl⟩
    · exact htold
    · have hbase : s'.base = P.shared.base := F.exec_obs hK.inv he
      show Told uuid5 T P.log s'.base
      rw [hbase]
      exact htold
    · have hpost := Contract.Holds.post K hK ht
      refine htold.commit (commit_effect hK.inv.1 hpost hmay hc) fun e he => ?_
      refine outbox_of_commit hK.inv.1 hpost hmay (fun out hout => ?_) hc he
      have hret := hY.thread t _ ht
      rw [hout] at hret
      exact hret
    · exact htold

/-- What is inserted is new to the relays. -/
theorem Inserts.isNew {τ : Type} {x : Entry τ Call Exn Reply} {e : OutboxEvent} (h : Inserts uuid5 x e) :
    New e := by
  cases h with
  | order now _ _ hevent => exact hevent.waiting
  | @payment request result p now _ _ hevent =>
      have hnew : New result.outbox_event := outboxRow_waiting hevent.outbox
      exact hnew

/-! ## §5. Rows and messages on their way. -/

/-- The row of a relay is the committed row `e`, with the relays' own marks. -/
def Carries (row e : OutboxEvent) : Prop :=
  row.id = e.id ∧ row.topic = e.topic ∧ row.payload = e.payload

theorem Carries.trans {a b c : OutboxEvent} (h : Carries a b) (h' : Carries b c) : Carries a c :=
  ⟨h.1.trans h'.1, h.2.1.trans h'.2.1, h.2.2.trans h'.2.2⟩

theorem Carries.message {row e : OutboxEvent} (h : Carries row e) (fresh : Uuid) :
    message fresh row = message fresh e := by
  unfold Pipeline.message
  rw [h.2.1, h.2.2]

/-- The relays change no row but for their marks. -/
theorem carries_assign (o : OutboxRelay.Outcome) (row : OutboxEvent) : Carries (o.assign row) row := by
  cases o <;> exact ⟨rfl, rfl, rfl⟩

theorem carries_settles {x : OutboxEvent × OutboxRelay.Answer} {row : OutboxEvent}
    (h : Settles settings x row) : Carries row x.1 := by
  have hassigned : Carries (OutboxRelay.assigned settings x) x.1 := carries_assign _ _
  rcases h.row with rfl | ⟨-, now, rfl⟩
  · exact hassigned
  · exact hassigned

section Relay

variable {R R' : OutboxRelay.State ρ} {a : OutboxRelay.Action ρ}

/-- **A relay's move**: its rows are those before. -/
theorem relay_rows (hL : Locked R) (hno : ∀ e, a ≠ .produce e)
    (h : OutboxRelay.step settings R a = some R') (id : Uuid) :
    R'.table.lookup id = R.table.lookup id
      ∨ ∃ row row', R.table.lookup id = some row ∧ R'.table.lookup id = some row'
        ∧ Carries row' row := by
  rcases OutboxRelay.row_step hL h id with hsame | ⟨e, ha, -⟩ |
    ⟨t, now, k, x, row, -, -, -, -, rfl, hold, hsettles, hnew⟩
  · exact Or.inl hsame
  · exact absurd ha (hno e)
  · exact Or.inr ⟨x.1, row, hold, hnew, carries_settles hsettles⟩

theorem next_produce (R : OutboxRelay.State ρ) (e : OutboxEvent) :
    ((OutboxRelay.machine settings).next R (.produce e)).table
      = if New e ∧ (R.table.lookup e.id).isNone then R.table.upsert e else R.table := by
  show ((if New e ∧ (R.table.lookup e.id).isNone then some { R with table := R.table.upsert e }
    else none : Option (OutboxRelay.State ρ)).getD R).table = _
  split
  · rfl
  · rfl

/-- **What the relays get when rows are inserted**: the new ones whose id they have
not. -/
theorem produced_rows (es : List OutboxEvent) : ∀ (R : OutboxRelay.State ρ) (id : Uuid),
    ((OutboxRelay.machine settings).run R (es.map .produce)).table.lookup id
      = (R.table.lookup id).or (es.find? fun e => decide (e.id = id ∧ New e)) := by
  induction es with
  | nil =>
      intro R id
      exact (Option.or_none).symm
  | cons e es ih =>
      intro R id
      rw [List.map_cons, Machine.run_cons, ih, next_produce, List.find?_cons]
      by_cases hid : e.id = id
      · subst hid
        by_cases hnew : New e
        · -- the row is inserted, or its id is taken
          rw [decide_eq_true ⟨rfl, hnew⟩]
          cases hrow : R.table.lookup e.id with
          | none =>
              have hself : (R.table.upsert e).lookup e.id = some e := Table.lookup_upsert_self rfl
              rw [if_pos ⟨hnew, rfl⟩, hself]
              rfl
          | some row =>
              rw [if_neg fun hc => nomatch hc.2]
              show (R.table.lookup e.id).or _ = some row
              rw [hrow]
              rfl
        · rw [if_neg fun hc => hnew hc.1, decide_eq_false fun hc => hnew hc.2]
      · rw [decide_eq_false fun hc => hid hc.1]
        split
        · rw [Table.lookup_upsert_ne (x := e) fun hc => hid hc.symm]
        · rfl

/-- A message that is sent is that of a row of the table. -/
theorem sent_rows {ρ : Type} {R : OutboxRelay.State ρ} {a : OutboxRelay.Action ρ} (hL : Locked R)
    {stored : Bool} {record : Record}
    (h : record ∈ sent settings R stored a) :
    ∃ row fresh, R.table.lookup row.id = some row ∧ message fresh row = .ok record := by
  cases a with
  | publish t answer =>
      simp only [sent] at h
      split at h
      next => cases h
      next row hrow =>
        obtain ⟨k, hk, hnext⟩ := Option.bind_eq_some_iff.mp hrow
        have hmem : row ∈ k.rows := by
          unfold Tick.next at hnext
          split at hnext
          next => cases hnext
          next => exact List.mem_of_getElem? hnext
        refine ⟨row, answer.fresh, (hL.rows t k hk row hmem).2.1, ?_⟩
        split_ifs at h
        · cases h
        · cases hm : message answer.fresh row with
          | error e =>
              rw [hm] at h
              cases h
          | ok r =>
              rw [hm] at h
              rw [List.mem_singleton.mp h]
        · cases h
  | _ => cases h

end Relay

theorem inserted_mem {T U : Table Row} {e : OutboxEvent} :
    e ∈ inserted T U ↔ Row.outbox e ∈ U.rows ∧ T.lookup (.outbox e.id) = none := by
  unfold inserted
  rw [List.mem_filterMap]
  constructor
  · intro h
    obtain ⟨row, hrow, he⟩ := h
    cases row with
    | outbox e' =>
        simp only at he
        split at he
        next hnone =>
          obtain rfl := Option.some.inj he
          exact ⟨hrow, Option.isNone_iff_eq_none.mp hnone⟩
        next => cases he
    | _ => cases he
  · intro h
    exact ⟨.outbox e, h.1, if_pos (Option.isNone_iff_eq_none.mpr h.2)⟩

/-- What a handler needs before it: its envelope is that of an outbox row, relayed,
which a committed call has inserted. -/
def Caused (uuid5 : Uuid5) (log : List (Entry τ Call Exn Reply)) : Call → Prop
  | .deliver topic envelope => ∃ x ∈ log, ∃ e, Inserts uuid5 x e
      ∧ ∃ fresh fresh', relayed fresh fresh' e = .ok (topic, envelope)
  | _ => True

theorem Caused.snoc {τ : Type} {log : List (Entry τ Call Exn Reply)}
    (h : Caused uuid5 log call) (x : Entry τ Call Exn Reply) : Caused uuid5 (log ++ [x]) call := by
  cases call with
  | deliver topic envelope =>
      obtain ⟨y, hy, hcause⟩ := h
      exact ⟨y, List.mem_append_left _ hy, hcause⟩
  | _ => trivial

/-- What the relay has sent and the consumer reads is the relayed row. -/
theorem relayed_of_message {fresh fresh' : Uuid} {e : OutboxEvent} {record : Record}
    {envelope : EventEnvelope} (h : message fresh e = .ok record)
    (hread : EventEnvelope.fromBytes fresh' record.value = .ok envelope) :
    relayed fresh fresh' e = .ok (record.topic, envelope) := by
  unfold message at h
  cases hfirst : EventEnvelope.modelValidate fresh e.payload with
  | error exc =>
      rw [hfirst] at h
      cases h
  | ok first =>
      cases hbytes : first.toBytes with
      | error exc =>
          simp only [hfirst, hbytes, bind, Except.bind] at h
          cases h
      | ok value =>
          simp only [hfirst, hbytes, bind, Except.bind, pure, Except.pure, Except.ok.injEq] at h
          subst h
          exact relayed_ok hfirst hbytes hread

/-- **Where everything on its way comes from**: the relays have the committed outbox
rows, the messages are theirs, and a handler comes after the call whose event it is
given. -/
structure Carried (uuid5 : Uuid5) (S : State τ ρ) : Prop where
  table : ∀ id, (∀ row, S.relay.table.lookup id = some row →
      ∃ e, S.shop.shared.base.lookup (.outbox id) = some (.outbox e) ∧ Carries row e)
    ∧ ∀ e, S.shop.shared.base.lookup (.outbox id) = some (.outbox e) →
      ∃ row, S.relay.table.lookup id = some row
  records : ∀ record ∈ S.records, ∃ e fresh, Row.outbox e ∈ S.shop.shared.base.rows
    ∧ message fresh e = .ok record
  calls : S.shop.After (Caused uuid5)

theorem lookup_outbox {U : Table Row} {e : OutboxEvent} :
    U.lookup (.outbox e.id) = some (.outbox e) ↔ Row.outbox e ∈ U.rows :=
  Table.lookup_some_iff.trans (and_iff_left rfl)

/-- **A move of the services** keeps the outbox rows there are. -/
theorem base_act {as : List (Action τ Call Choice)} {a : Action τ Call Choice}
    {P : Pool Call Op Ans Exn Reply (World τ) τ} (hT : ∀ row ∈ T.rows, row.violation = .ok ())
    (h : Pool.act (shop uuid5) (shopRun uuid5 T as) a = some P) {e : OutboxEvent}
    (he : Row.outbox e ∈ (shopRun uuid5 T as).shared.base.rows) :
    Row.outbox e ∈ P.shared.base.rows := by
  let K := shopContract anyRows uuid5 keeps_anyRows (τ := τ)
  let F := shopEffects anyRows uuid5 keeps_anyRows (τ := τ)
  have hK : K.Holds (shopRun uuid5 T as) := K.reachable ⟨inv_init hT, trivial⟩ as
  rcases F.act_effect hK h with ⟨hsame, -, -⟩ | ⟨t, c, call, r, -, -, -, -, heffect⟩
  · have hbase : P.shared.base = (shopRun uuid5 T as).shared.base := hsame
    rw [hbase]
    exact he
  · exact outbox_kept heffect he

/-- A start of the services is of no handler. -/
theorem caused_serve {τ : Type} {a : Action τ Call Choice} (h : startsHandler a = false)
    (log : List (Entry τ Call Exn Reply)) : ∀ t call, a = .start t call → Caused uuid5 log call := by
  intro t call ha
  subst ha
  cases call with
  | deliver topic envelope => cases h
  | _ => trivial

/-- A new session has committed nothing yet. -/
theorem base_start {P P' : Pool Call Op Ans Exn Reply (World τ) τ} {t : τ} {call : Call}
    (h : Pool.act (shop uuid5) P (.start t call) = some P') : P'.shared.base = P.shared.base := by
  simp only [Pool.act] at h
  split at h
  next =>
    obtain rfl := Option.some.inj h
    rfl
  next => cases h

section Carry

variable {τ ρ : Type} {S : State τ ρ}

/-- A service moves: what it inserts goes to the relays. -/
theorem Carried.serve [DecidableEq ρ] {P : Pool Call Op Ans Exn Reply (World τ) τ}
    (hS : Carried uuid5 S)
    (hkept : ∀ e, Row.outbox e ∈ S.shop.shared.base.rows → Row.outbox e ∈ P.shared.base.rows)
    (hnew : ∀ e, Row.outbox e ∈ P.shared.base.rows → New e)
    (hcalls : P.After (Caused uuid5)) :
    Carried uuid5 { S with
      shop := P
      relay := (OutboxRelay.machine settings).run S.relay
        ((inserted S.shop.shared.base P.shared.base).map .produce) } := by
  refine ⟨fun id => ?_, fun record hrecord => ?_, hcalls⟩
  · show (∀ row, ((OutboxRelay.machine settings).run S.relay _).table.lookup id = some row →
        ∃ e, P.shared.base.lookup (.outbox id) = some (.outbox e) ∧ Carries row e)
      ∧ ∀ e, P.shared.base.lookup (.outbox id) = some (.outbox e) →
        ∃ row, ((OutboxRelay.machine settings).run S.relay _).table.lookup id = some row
    rw [produced_rows]
    refine ⟨fun row hrow => ?_, fun e he => ?_⟩
    · cases hold : S.relay.table.lookup id with
      | some row' =>
          rw [hold] at hrow
          obtain rfl := Option.some.inj hrow
          obtain ⟨e, he, hcarries⟩ := (hS.table id).1 row' hold
          have hid : e.id = id := RowKey.outbox.inj (Table.key_of_lookup he)
          subst hid
          exact ⟨e, lookup_outbox.mpr (hkept e (lookup_outbox.mp he)), hcarries⟩
      | none =>
          rw [hold, Option.none_or] at hrow
          have hmem := List.mem_of_find?_eq_some hrow
          have hsome := List.find?_some hrow
          obtain ⟨rfl, -⟩ := of_decide_eq_true hsome
          exact ⟨row, lookup_outbox.mpr (inserted_mem.mp hmem).1, rfl, rfl, rfl⟩
    · have hid : e.id = id := RowKey.outbox.inj (Table.key_of_lookup he)
      subst hid
      have hrow := lookup_outbox.mp he
      cases hold : S.relay.table.lookup e.id with
      | some row => exact ⟨row, rfl⟩
      | none =>
          -- the relays have not had it, so it is inserted now
          have hbefore : S.shop.shared.base.lookup (.outbox e.id) = none := by
            cases hbefore : S.shop.shared.base.lookup (.outbox e.id) with
            | none => rfl
            | some row =>
                have hkey := Table.key_of_lookup hbefore
                cases row with
                | outbox e' =>
                    obtain ⟨row, hrow'⟩ := (hS.table e.id).2 e' hbefore
                    rw [hold] at hrow'
                    cases hrow'
                | _ => cases hkey
          have hfound : ((inserted S.shop.shared.base P.shared.base).find? fun e' =>
              decide (e'.id = e.id ∧ New e')).isSome = true :=
            List.find?_isSome.mpr
              ⟨e, inserted_mem.mpr ⟨hrow, hbefore⟩, decide_eq_true ⟨rfl, hnew e hrow⟩⟩
          rw [Option.none_or]
          exact Option.isSome_iff_exists.mp hfound
  · obtain ⟨e, fresh, he, hmessage⟩ := hS.records record hrecord
    exact ⟨e, fresh, hkept e he, hmessage⟩

/-- A relay moves: what it sends are messages of its rows. -/
theorem Carried.relay [DecidableEq ρ] {a : OutboxRelay.Action ρ} {R : OutboxRelay.State ρ}
    (hS : Carried uuid5 S) (hL : Locked S.relay) (hno : ∀ e, a ≠ .produce e)
    (h : OutboxRelay.step settings S.relay a = some R) (stored : Bool) :
    Carried uuid5 { S with relay := R, records := S.records ++ sent settings S.relay stored a } := by
  refine ⟨fun id => ?_, fun record hrecord => ?_, hS.calls⟩
  · rcases relay_rows hL hno h id with hsame | ⟨row, row', hold, hnew, hcarries⟩
    · show (∀ row, R.table.lookup id = some row → _) ∧ ∀ e, _ → ∃ row, R.table.lookup id = some row
      rw [hsame]
      exact hS.table id
    · refine ⟨fun row'' hrow'' => ?_, fun _ _ => ⟨row', hnew⟩⟩
      obtain rfl := Option.some.inj (hnew.symm.trans hrow'')
      obtain ⟨e, he, hcarried⟩ := (hS.table id).1 row hold
      exact ⟨e, he, hcarries.trans hcarried⟩
  · rcases List.mem_append.mp hrecord with hrecord | hrecord
    · exact hS.records record hrecord
    · obtain ⟨row, fresh, hrow, hmessage⟩ := sent_rows hL hrecord
      obtain ⟨e, he, hcarries⟩ := (hS.table row.id).1 row hrow
      exact ⟨e, fresh, Table.mem_of_lookup he, (hcarries.message fresh) ▸ hmessage⟩

/-- A consumer is handed a record. -/
theorem Carried.deliver [DecidableEq τ] {P : Pool Call Op Ans Exn Reply (World τ) τ} {t : τ}
    {record : Record} {fresh : Uuid} {envelope : EventEnvelope} (hS : Carried uuid5 S)
    (htold : Told uuid5 T S.shop.log S.shop.shared.base) (hrecord : record ∈ S.records)
    (hread : EventEnvelope.fromBytes fresh record.value = .ok envelope)
    (h : Pool.act (shop uuid5) S.shop (.start t (.deliver record.topic envelope)) = some P) :
    Carried uuid5 { S with shop := P } := by
  have hbase := base_start h
  refine ⟨?_, ?_, ?_⟩
  · show ∀ id, (∀ row, _ → ∃ e, P.shared.base.lookup (.outbox id) = some (.outbox e) ∧ _)
      ∧ ∀ e, P.shared.base.lookup (.outbox id) = some (.outbox e) → _
    rw [hbase]
    exact hS.table
  · show ∀ record ∈ S.records, ∃ e fresh, Row.outbox e ∈ P.shared.base.rows ∧ _
    rw [hbase]
    exact hS.records
  · refine Pool.act_after (fun _ x _ hcaused => hcaused.snoc x) hS.calls (fun t' call hstart => ?_) h
    obtain ⟨-, rfl⟩ := Action.start.inj hstart
    -- the record is the message of a row, and a committed call has inserted the row
    obtain ⟨e, fresh₀, he, hmessage⟩ := hS.records record hrecord
    obtain ⟨x, hx, hinserts⟩ := htold.outbox e he
    exact ⟨x, hx, e, hinserts, fresh₀, fresh, relayed_of_message hmessage hread⟩

end Carry

/-- **Every run carries what is committed, and nothing else.** -/
theorem carried_run (hT : ∀ row ∈ T.rows, row.violation = .ok ())
    (hno : ∀ e, Row.outbox e ∉ T.rows) (xs : List (Step τ ρ)) :
    Parts settings uuid5 T (pipelineRun settings uuid5 T xs)
      ∧ Carried uuid5 (pipelineRun settings uuid5 T xs) := by
  have hinit : Carried uuid5 (init T : State τ ρ) := by
    refine ⟨fun id => ⟨fun row hrow => (nomatch hrow), fun e he => ?_⟩,
      fun _ hrecord => (nomatch hrecord), Pool.after_init⟩
    exact absurd (Table.mem_of_lookup he) (hno e)
  refine (machine settings uuid5).run_invariant
    (I := fun S : State τ ρ => Parts settings uuid5 T S ∧ Carried uuid5 S) (fun S x S' hS h => ?_) xs _
    ⟨⟨⟨[], rfl⟩, ⟨[], rfl⟩⟩, hinit⟩
  obtain ⟨hparts, hcarried⟩ := hS
  have hparts' := hparts.step h
  refine ⟨hparts', ?_⟩
  obtain ⟨as, has⟩ := hparts.shop
  obtain ⟨bs, hbs⟩ := hparts.relay
  obtain ⟨as', has'⟩ := hparts'.shop
  have htold : Told uuid5 T S.shop.log S.shop.shared.base := has ▸ told_run hT hno as
  have htold' : Told uuid5 T S'.shop.log S'.shop.shared.base := has' ▸ told_run hT hno as'
  rcases step_cases h with ⟨a, P, -, hstart, hP, rfl⟩ | ⟨a, stored, R, -, hproduce, hR, rfl⟩ |
    ⟨t, offset, fresh, record, envelope, P, -, hrecord, hread, hP, rfl⟩
  · refine hcarried.serve (fun e he => ?_) (fun e he => ?_)
      (Pool.act_after (fun _ x _ hcaused => hcaused.snoc x) hcarried.calls
        (caused_serve hstart S.shop.log) hP)
    · rw [has] at he hP
      exact base_act hT hP he
    · obtain ⟨x, -, hinserts⟩ := htold'.outbox e he
      exact hinserts.isNew
  · exact hcarried.relay (hbs ▸ OutboxRelay.locked_run settings Table.empty bs) hproduce hR stored
  · exact hcarried.deliver htold hrecord hread hP

/-! ## §6. Orders and payments. -/

/-- The request's `extra_payload` names the order `id`. -/
def NamesThe (id : Uuid) (request : ProcessPaymentRequest) : Prop :=
  ∃ s, (extraItem request.extra_payload "order_id").bind PyVal.dump = some (.str s)
    ∧ Uuid.parse s = some id

/-- **What a consumer reads of a payment's event**: its topic and type, and no order
but the one that the request has named. -/
theorem received_names {request : ProcessPaymentRequest} {p : Payment}
    {res : ProcessPaymentResult} (h : EventOf uuid5 request p res) {now : Int} {fresh fresh' : Uuid}
    {received : String × EventEnvelope}
    (hr : relayed fresh fresh' { res.outbox_event with created_at := now } = .ok received) :
    received.1 = "payments.events"
      ∧ received.2.event_type = paymentEventType request.new_status
      ∧ ∀ id, orderIdOf received.2.payload = .ok (some id) → NamesThe id request := by
  obtain ⟨occurred_at, hpayload⟩ := h.payload
  obtain ⟨-, htype, htopic, hsame, -, -⟩ := h.fields
  obtain ⟨-, -, -, -, hdump, -⟩ := outboxRow_ok h.outbox
  obtain ⟨hstr, hnodup⟩ := paymentPayload_keys res.payment occurred_at request.extra_payload
  obtain ⟨pj, hpj, -⟩ := EventEnvelope.fromBytes_toBytes fresh hdump
  obtain ⟨pj', hpj'⟩ := Option.isSome_iff_exists.mp pj.dump_toPy_isSome
  have hrelayed : relayed fresh fresh' { res.outbox_event with created_at := now }
      = .ok (res.outbox_event.topic, { res.envelope with payload := pj'.toPy }) :=
    relayed_dump fresh fresh' hdump hpj hpj'
  obtain rfl := Except.ok.inj (hrelayed.symm.trans hr)
  refine ⟨htopic, hsame.trans htype, fun id hid => ?_⟩
  -- the payload is written and read twice
  rw [hpayload] at hpj
  obtain ⟨items, hitems, hstr', hnodup', hget⟩ := get?_toPy_dump hstr hnodup hpj
  rw [hitems] at hpj'
  obtain ⟨final, hfinal, -, -, hlast⟩ := get?_toPy_dump hstr' hnodup' hpj'
  have harrived : dictGet final (.str "order_id")
      = ((((extraItem request.extra_payload "order_id").bind PyVal.dump).map Json.toPy).bind
          PyVal.dump).map Json.toPy := by
    rw [hlast "order_id", hget "order_id", paymentPayload_orderId]
  have hid' : orderIdOf (.dict final) = .ok (some id) := hfinal ▸ hid
  obtain ⟨s, id', hs, hparse⟩ := (orderIdOf_written harrived).mp ⟨id, hid'⟩
  -- the string that arrives is the one that was sent
  have hread : orderIdOf (.dict final) = .ok (Uuid.parse s) := by
    have hfound : (PyVal.dict final).get? "order_id" = some (.str s) := by
      show some ((dictGet final (.str "order_id")).getD .none) = _
      rw [harrived, hs]
      rfl
    unfold orderIdOf
    rw [hfound]
  refine ⟨s, ?_, Except.ok.inj (hread.symm.trans hid')⟩
  cases hextra : (extraItem request.extra_payload "order_id").bind PyVal.dump with
  | none =>
      rw [hextra] at hs
      cases hs
  | some j =>
      rw [hextra] at hs
      rw [Json.dump_toPy_str.mp hs]

/-- A relayed row keeps its topic. -/
theorem relayed_topic {fresh fresh' : Uuid} {e : OutboxEvent} {received : String × EventEnvelope}
    (h : relayed fresh fresh' e = .ok received) : received.1 = e.topic := by
  unfold relayed at h
  cases hfirst : EventEnvelope.modelValidate fresh e.payload with
  | error exc =>
      rw [hfirst] at h
      cases h
  | ok first =>
      cases hbytes : first.toBytes with
      | error exc =>
          simp only [hfirst, hbytes, bind, Except.bind] at h
          cases h
      | ok value =>
          cases hread : EventEnvelope.fromBytes fresh' value with
          | error exc =>
              simp only [hfirst, hbytes, hread, bind, Except.bind] at h
              cases h
          | ok envelope =>
              simp only [hfirst, hbytes, hread, bind, Except.bind, pure, Except.pure,
                Except.ok.injEq] at h
              rw [← h]

/-- Only a delivery asks for a status, with the event that it is given. -/
theorem asked_by {id : Uuid} {status : OrderStatus} (h : askedFor id call r = some status) :
    ∃ topic envelope, call = .deliver topic envelope
      ∧ requestedStatus topic envelope.event_type = some status
      ∧ orderIdOf envelope.payload = .ok (some id) := by
  unfold askedFor at h
  split at h
  next topic envelope out =>
    refine ⟨topic, envelope, rfl, ?_⟩
    unfold eventOf at h
    cases hs : requestedStatus topic envelope.event_type with
    | none =>
        rw [hs] at h
        cases h
    | some asked =>
        cases hid : orderIdOf envelope.payload with
        | error exc =>
            rw [hs, hid] at h
            cases h
        | ok named =>
            cases named with
            | none =>
                rw [hs, hid] at h
                cases h
            | some order_id =>
                rw [hs, hid] at h
                simp only at h
                split at h
                next hsame => exact ⟨h, congrArg (fun i => Except.ok (some i)) hsame⟩
                next => cases h
  next => cases h

/-- **What a status of the order `id` goes back to**: a committed request that has
named the order, and was committed before the delivery that has asked for the
status; its payment is now `p`. -/
structure GoesBack (log : List (Entry τ Call Exn Reply)) (U : Table Row) (id : Uuid)
    (status : OrderStatus) (request : ProcessPaymentRequest) (p : Payment) : Prop where
  committed : ∃ earlier x later, log = earlier ++ x :: later
    ∧ askedFor id x.call x.result = some status
    ∧ ∃ y ∈ earlier, y.call = .processPayment request
      ∧ ∃ result, y.result = .ok (.processed result)
  names : NamesThe id request
  payment : U.lookup (.payment request.payment_id) = some (.payment p)
  event : requestedStatus "payments.events" (paymentEventType request.new_status) = some status
  moved : Relation.ReflTransGen Follows request.new_status p.status

theorem goesBack {τ : Type} {id : Uuid} {status : OrderStatus}
    {P : Pool Call Op Ans Exn Reply (World τ) τ}
    (htold : Told uuid5 T P.log P.shared.base) (hcalls : P.After (Caused uuid5))
    (h : statusOf id P.shared.base = some status) (hreserved : status ≠ .reserved)
    (hT : statusOf id T ≠ some status) :
    ∃ request p, GoesBack P.log P.shared.base id status request p := by
  rcases htold.status id status h with hold | hres | ⟨x, hx, hask⟩
  · exact absurd hold hT
  · exact absurd hres hreserved
  obtain ⟨topic, envelope, hcall, hstatus, hid⟩ := asked_by hask
  obtain ⟨earlier, later, hlog⟩ := List.append_of_mem hx
  have hcaused := hcalls.log earlier x later hlog
  rw [hcall] at hcaused
  obtain ⟨y, hy, e, hinserts, fresh, fresh', hrelayed⟩ := hcaused
  cases hinserts with
  | order now _ _ hevent =>
      -- an event of the orders' topic asks for nothing
      have htopic : topic = "orders.events" := (relayed_topic hrelayed).trans hevent.topic
      rw [htopic] at hstatus
      have hnone : requestedStatus "orders.events" envelope.event_type = none := by
        unfold requestedStatus
        rw [if_neg fun hc => absurd hc.1 (by decide), if_neg fun hc => absurd hc.1 (by decide)]
      rw [hnone] at hstatus
      cases hstatus
  | @payment request result p now hrequest hresult hevent =>
      obtain ⟨htopic, htype, hnames⟩ := received_names hevent hrelayed
      have hy' : y ∈ P.log := by
        rw [hlog]
        exact List.mem_append_left _ hy
      obtain ⟨q, hq, hmoved⟩ := htold.payment y hy' request result hrequest hresult
      refine ⟨request, q, ⟨earlier, x, later, hlog, hask, y, hy, hrequest, result, hresult⟩,
        hnames id hid, hq, ?_, hmoved⟩
      rw [← htype, ← htopic]
      exact hstatus

/-- A captured payment can be settled or refunded, and nothing else. -/
theorem captured_onward {q : PaymentStatus} (h : Relation.ReflTransGen Follows .captured q) :
    q = .captured ∨ q = .settled ∨ q = .refunded := by
  induction h with
  | refl => exact Or.inl rfl
  | @tail b c _ hbc ih =>
      have hc : c ∈ b.allowedTransitions := hbc
      rcases ih with rfl | rfl | rfl
      · simp only [PaymentStatus.allowedTransitions, List.mem_cons, List.not_mem_nil, or_false] at hc
        exact Or.inr hc
      · cases hc
      · cases hc

/-- A failed payment stays failed. -/
theorem failed_onward {q : PaymentStatus} (h : Relation.ReflTransGen Follows .failed q) :
    q = .failed := by
  induction h with
  | refl => rfl
  | tail _ hbc ih =>
      subst ih
      cases hbc

/-- Which event asks for which status. -/
theorem requested_paid {status : PaymentStatus}
    (h : requestedStatus "payments.events" (paymentEventType status) = some .paid) :
    status = .captured := by
  cases status <;> first | rfl | exact absurd h (by decide)

theorem requested_failed {status : PaymentStatus}
    (h : requestedStatus "payments.events" (paymentEventType status) = some .failed) :
    status = .failed := by
  cases status <;> first | rfl | exact absurd h (by decide)

/-- **Orders follow their payments.**  In every run of services, relays and
consumers, with lost commits, lost acknowledgements and messages handed out again
and again: an order that has become PAID goes back to a committed request that has
named it and has captured a payment, which is captured, settled or refunded now; one
that has become FAILED to a request that has named it and a payment that is failed. -/
theorem order_accounted (hT : ∀ row ∈ T.rows, row.violation = .ok ())
    (hno : ∀ e, Row.outbox e ∉ T.rows) (xs : List (Step τ ρ)) (id : Uuid) :
    (statusOf id (pipelineRun settings uuid5 T xs).shop.shared.base = some .paid →
      statusOf id T ≠ some .paid → ∃ request p,
        GoesBack (pipelineRun settings uuid5 T xs).shop.log
            (pipelineRun settings uuid5 T xs).shop.shared.base id .paid request p
          ∧ request.new_status = .captured
          ∧ (p.status = .captured ∨ p.status = .settled ∨ p.status = .refunded))
    ∧ (statusOf id (pipelineRun settings uuid5 T xs).shop.shared.base = some .failed →
      statusOf id T ≠ some .failed → ∃ request p,
        GoesBack (pipelineRun settings uuid5 T xs).shop.log
            (pipelineRun settings uuid5 T xs).shop.shared.base id .failed request p
          ∧ request.new_status = .failed ∧ p.status = .failed) := by
  obtain ⟨⟨⟨as, has⟩, -⟩, hcarried⟩ : Parts settings uuid5 T (pipelineRun settings uuid5 T xs) ∧ _ :=
    carried_run hT hno xs
  have htold : Told uuid5 T (pipelineRun settings uuid5 T xs).shop.log
      (pipelineRun settings uuid5 T xs).shop.shared.base := has ▸ told_run hT hno as
  constructor
  · intro hpaid hbefore
    obtain ⟨request, p, hback⟩ :=
      goesBack htold hcarried.calls hpaid (fun hc => OrderStatus.noConfusion hc) hbefore
    have hnew := requested_paid hback.event
    have hmoved := hback.moved
    rw [hnew] at hmoved
    exact ⟨request, p, hback, hnew, captured_onward hmoved⟩
  · intro hfailed hbefore
    obtain ⟨request, p, hback⟩ :=
      goesBack htold hcarried.calls hfailed (fun hc => OrderStatus.noConfusion hc) hbefore
    have hnew := requested_failed hback.event
    have hmoved := hback.moved
    rw [hnew] at hmoved
    exact ⟨request, p, hback, hnew, failed_onward hmoved⟩

/-- An order that holds three pieces of the stock; its payment is authorized. -/
def heldTable : Table Row :=
  ⟨[.stock dueStock, .order dueOrder, .payment { duePayment with status := .authorized }],
    by decide +kernel⟩

theorem heldTable_accepted : ∀ row ∈ heldTable.rows, row.violation = .ok () := by
  intro row hrow
  rcases List.mem_cons.mp hrow with rfl | hrow
  · rfl
  · rcases List.mem_cons.mp hrow with rfl | hrow
    · rfl
    · rw [List.mem_singleton.mp hrow]
      rfl

theorem heldTable_no_outbox : ∀ e, Row.outbox e ∉ heldTable.rows := by
  intro e he
  simp [heldTable] at he

/-- The capture of the payment, for the order. -/
def captureOrder : ProcessPaymentRequest :=
  ⟨duePayment.id, "k", .captured, some [("order_id", .str dueOrder.id.str)]⟩

/-- Session `t` runs the handler of the record at `offset` and commits. -/
def handleRecord (t offset : Nat) : List (Step Nat Nat) :=
  [.deliver t offset (Uuid.ofNat 0), .serve (.step t {}), .serve (.step t {}), .serve (.step t {}),
    .serve (.step t {}), .serve (.commit t {})]

/-- The payment is captured.  The acknowledgement of its event is lost, another
relay sends it again, and both messages are handled. -/
def sentTwice : List (Step Nat Nat) :=
  [.serve (.start 0 (.processPayment captureOrder)), .serve (.step 0 { uuid := Uuid.ofNat 10 }),
    .serve (.step 0 {}), .serve (.step 0 {}), .serve (.step 0 {}), .serve (.step 0 {}),
    .serve (.step 0 { uuid := Uuid.ofNat 11 }), .serve (.step 0 {}), .serve (.step 0 {}),
    .serve (.commit 0 {}),
    .relay (.claim 0 [Uuid.ofNat 11]) false, .relay (.publish 0 OutboxRelay.unreachable) true,
    .relay (.rollback 0) false, .relay (.claim 1 [Uuid.ofNat 11]) false,
    .relay (.publish 1 OutboxRelay.acknowledged) true, .relay (.commit 1 5) false]
  ++ handleRecord 1 0 ++ handleRecord 2 1

theorem order_accounted_twice : ∃ request p,
    GoesBack (pipelineRun OutboxRelay.relaySettings (fun c => c) heldTable sentTwice).shop.log
        (pipelineRun OutboxRelay.relaySettings (fun c => c) heldTable sentTwice).shop.shared.base
        dueOrder.id .paid request p
      ∧ request.new_status = .captured
      ∧ (p.status = .captured ∨ p.status = .settled ∨ p.status = .refunded) :=
  (order_accounted heldTable_accepted heldTable_no_outbox sentTwice dueOrder.id).1
    (by decide +kernel) (by decide +kernel)

/-- **Nothing is lost and nothing made up between a commit and a handler.**  In
every run the relays have exactly the committed outbox rows; every message of the
broker is that of a committed row; and every handler that has committed was given
the relayed row of a call that was committed before it. -/
theorem events_carried (hT : ∀ row ∈ T.rows, row.violation = .ok ())
    (hno : ∀ e, Row.outbox e ∉ T.rows) (xs : List (Step τ ρ)) :
    (∀ id, (∀ row, (pipelineRun settings uuid5 T xs).relay.table.lookup id = some row →
          ∃ e, Row.outbox e ∈ (pipelineRun settings uuid5 T xs).shop.shared.base.rows
            ∧ e.id = id ∧ Carries row e)
        ∧ ∀ e, Row.outbox e ∈ (pipelineRun settings uuid5 T xs).shop.shared.base.rows →
          e.id = id →
          ∃ row, (pipelineRun settings uuid5 T xs).relay.table.lookup id = some row
            ∧ Carries row e)
    ∧ (∀ record ∈ (pipelineRun settings uuid5 T xs).records, ∃ e fresh,
        Row.outbox e ∈ (pipelineRun settings uuid5 T xs).shop.shared.base.rows
          ∧ message fresh e = .ok record)
    ∧ ∀ earlier x later topic envelope,
        (pipelineRun settings uuid5 T xs).shop.log = earlier ++ x :: later →
        x.call = .deliver topic envelope →
        ∃ y ∈ earlier, ∃ e, Inserts uuid5 y e
          ∧ ∃ fresh fresh', relayed fresh fresh' e = .ok (topic, envelope) := by
  obtain ⟨-, hcarried⟩ : Parts settings uuid5 T (pipelineRun settings uuid5 T xs) ∧ _ :=
    carried_run hT hno xs
  refine ⟨fun id => ⟨fun row hrow => ?_, fun e he hid => ?_⟩, hcarried.records,
    fun earlier x later topic envelope hlog hcall => ?_⟩
  · obtain ⟨e, he, hcarries⟩ := (hcarried.table id).1 row hrow
    exact ⟨e, Table.mem_of_lookup he, RowKey.outbox.inj (Table.key_of_lookup he), hcarries⟩
  · subst hid
    have hlookup := lookup_outbox.mpr he
    obtain ⟨row, hrow⟩ := (hcarried.table e.id).2 e hlookup
    obtain ⟨e', he', hcarries⟩ := (hcarried.table e.id).1 row hrow
    obtain rfl := Row.outbox.inj (Option.some.inj (hlookup.symm.trans he'))
    exact ⟨row, hrow, hcarries⟩
  · have hcaused := hcarried.calls.log earlier x later hlog
    rw [hcall] at hcaused
    exact hcaused

theorem events_carried_twice :
    (pipelineRun OutboxRelay.relaySettings (fun c => c) heldTable sentTwice).records.length = 2
    ∧ ∀ record ∈ (pipelineRun OutboxRelay.relaySettings (fun c => c) heldTable sentTwice).records,
      ∃ e fresh, Row.outbox e ∈ (pipelineRun OutboxRelay.relaySettings (fun c => c) heldTable
          sentTwice).shop.shared.base.rows ∧ message fresh e = .ok record :=
  ⟨by decide +kernel, (events_carried heldTable_accepted heldTable_no_outbox sentTwice).2.1⟩

end Nimbus.Pipeline
