/-
  Nimbus.Saga.PayloadShapes
  ─────────────────────────
  **WHAT THE PAYMENT HANDLERS MAKE OF A PAYLOAD.**

  The payload of an envelope is any JSON value, `null` for a marker event.  The
  handlers of `OrderConsumer` ask it for "order_id" and skip the event unless a
  UUID is found there; but they ask with `.get`, which only an object has.

    • `CarriesOrderId`  — what the handlers look for;
    • `Tolerates`       — a payload without an order id is skipped, and what is
                          raised is an order that is missing or the database's;
    • `runs_updateOrderStatus`, `runs_releaseOrder` — the errors of either part;
    • `payloads_iff`    — **the handlers tolerate exactly the objects.**
-/
import Nimbus.Core.Steps
import Nimbus.Modules.Orders

namespace Nimbus

open Lib Lib.Prog Orders Inventory

/-! ## §1. What is asked of the handlers. -/

/-- The payload has a UUID string under "order_id". -/
def CarriesOrderId (payload : PyVal) (order_id : Uuid) : Prop :=
  ∃ s, payload.get? "order_id" = some (.str s) ∧ Uuid.parse s = some order_id

section

variable {τ : Type} [DecidableEq τ]

/-- A statement of the session has failed with `e`. -/
def RaisedByDatabase (t : τ) (ms : Moves τ) (e : Exn) : Prop :=
  ∃ m ∈ ms, ∃ op w, exec m.choice t op m.state = some (.error e, w)

/-- The order was looked for, and there was none. -/
def OrderMissing (t : τ) (ms : Moves τ) (order_id : Uuid) (e : Exn) : Prop :=
  e = orderNotFound order_id ∧ ∃ m ∈ ms, m.state.store.view t (.order order_id) = none

/-- The database holds only rows it accepts, whenever the session looks at it. -/
def Constrained (ms : Moves τ) : Prop := ∀ m ∈ ms, StoreInv m.state.store

end

/-- **The handler of an envelope tolerates its payload.** -/
structure Tolerates (topic : String) (envelope : EventEnvelope) : Prop where
  /-- Without an order id it returns, and has done nothing. -/
  skips : (¬ ∃ order_id, CarriesOrderId envelope.payload order_id) →
    dispatch topic envelope = .ret (.ok ())
  /-- What a new session raises is about a well-formed order id. -/
  raises : ∀ {τ : Type} [DecidableEq τ] {t : τ} {w w' : World τ} {ms : Moves τ} {e : Exn},
    Runs t (dispatch topic envelope) w ms (.error e) w' → w.session t = Session.fresh →
    Constrained ms →
    ∃ order_id, CarriesOrderId envelope.payload order_id
      ∧ (OrderMissing t ms order_id e ∨ RaisedByDatabase t ms e)

/-! ## §2. The order id. -/

theorem orderIdOf_cases (payload : PyVal) :
    (payload.get? "order_id" = none ∧ ∃ e, orderIdOf payload = .error e)
      ∨ (∃ order_id, CarriesOrderId payload order_id ∧ orderIdOf payload = .ok (some order_id))
      ∨ ((¬ ∃ order_id, CarriesOrderId payload order_id) ∧ orderIdOf payload = .ok none) := by
  unfold orderIdOf CarriesOrderId
  cases hget : payload.get? "order_id" with
  | none => exact Or.inl ⟨rfl, _, rfl⟩
  | some v =>
      cases v with
      | str s =>
          cases hparse : Uuid.parse s with
          | some order_id => exact Or.inr (Or.inl ⟨order_id, ⟨s, rfl, hparse⟩, congrArg Except.ok hparse⟩)
          | none =>
              refine Or.inr (Or.inr ⟨?_, congrArg Except.ok hparse⟩)
              rintro ⟨order_id, s', hs', hid⟩
              obtain rfl := PyVal.str.inj (Option.some.inj hs')
              rw [hparse] at hid
              cases hid
      | _ =>
          refine Or.inr (Or.inr ⟨?_, rfl⟩)
          rintro ⟨order_id, s', hs', -⟩
          cases Option.some.inj hs'

/-- Only an object has `.get`. -/
theorem get?_isSome_iff (payload : PyVal) (k : String) :
    (payload.get? k).isSome = true ↔ ∃ items, payload = .dict items := by
  unfold PyVal.get?
  cases payload with
  | dict items => exact iff_of_true rfl ⟨items, rfl⟩
  | _ =>
      refine iff_of_false Bool.false_ne_true ?_
      rintro ⟨items, hc⟩
      cases hc

/-! ## §3. The two parts of a handler. -/

variable {τ : Type} [DecidableEq τ] {t : τ} {w w' : World τ} {ms : Moves τ}

theorem RaisedByDatabase.mono {ms' : Moves τ} {e : Exn} (h : RaisedByDatabase t ms e)
    (hms : ms ⊆ ms') : RaisedByDatabase t ms' e := by
  obtain ⟨m, hm, hop⟩ := h
  exact ⟨m, hms hm, hop⟩

/-- A new session finds the row itself. -/
theorem found_of_fresh {τ : Type} {t : τ} {w : World τ} {k : RowKey} {obj : Row}
    (hfresh : (w.session t).objs k = none) (h : w.found t k = some obj) :
    w.store.view t k = some obj := by
  obtain ⟨row, hview, hrow⟩ := Option.map_eq_some_iff.mp h
  rw [hfresh] at hrow
  exact hview.trans (congrArg some hrow)

/-- An order that the database accepts has a positive quantity. -/
theorem quantity_pos {o : Order} (h : (Row.order o).violation = .ok ()) : 0 < o.quantity := by
  have hrest := (constraints_ok (constraints_ok (constraints_ok (constraints_ok h).2).2).2).2
  exact of_decide_eq_true (check_ok (constraints_ok hrest).1)

/-- **`update_order_status` in a new session**: it raises for an order that is
missing or when the database does, and leaves the order loaded. -/
theorem runs_updateOrderStatus {order_id : Uuid} {new_status : OrderStatus} {r : Except Exn Order}
    (hstatus : new_status = .paid ∨ new_status = .failed)
    (h : Runs t (updateOrderStatus order_id new_status) w ms r w')
    (hfresh : w.session t = Session.fresh) (hc : Constrained ms) :
    (∃ e, r = .error e ∧ (OrderMissing t ms order_id e ∨ RaisedByDatabase t ms e))
      ∨ ∃ order loaded : Order, r = .ok order ∧ 0 < loaded.quantity
        ∧ (w'.session t).objs (.order order_id) = some (.order loaded) := by
  unfold updateOrderStatus at h
  rw [if_neg (not_not.mpr hstatus)] at h
  obtain ⟨m, rest, r₀, w₁, rfl, ho, he, hnext⟩ := runs_next h
  have hobjs : (m.state.session t).objs (.order order_id) = none := by
    rw [session_of_local ho, hfresh]
    rfl
  rcases hnext with ⟨row, rfl, h⟩ | ⟨e, rfl, rfl, rfl, rfl⟩
  · rcases exec_select he with ⟨f, -, hr, -⟩ | ⟨-, hnone, hr, -⟩ | ⟨obj, -, hfound, hr, hsession⟩
    · cases hr
    · obtain rfl := Except.ok.inj hr
      obtain ⟨rfl, rfl, rfl⟩ := runs_ret h
      exact Or.inl ⟨_, rfl, Or.inl ⟨rfl, m, List.mem_cons_self, Option.map_eq_none_iff.mp hnone⟩⟩
    · obtain rfl := Except.ok.inj hr
      have hview := found_of_fresh hobjs hfound
      obtain ⟨hok, hkey⟩ := (hc m List.mem_cons_self).view hview
      obtain ⟨o, rfl, -⟩ := order_of_key hkey
      have hload : (w₁.session t).objs (.order order_id) = some (.order o) := by
        rw [hsession]
        exact Function.update_self ..
      refine Or.inr ?_
      change Runs t (if applies o.status new_status then _ else _) w₁ rest r w' at h
      split at h
      next =>
        obtain ⟨m', rest', r₁, w₂, rfl, ho', he', hset⟩ := runs_next h
        obtain ⟨rfl, rfl⟩ := Prod.mk.inj (Option.some.inj he')
        rcases hset with ⟨-, -, h⟩ | ⟨e, hx, -⟩
        · obtain ⟨rfl, rfl, rfl⟩ := runs_ret h
          refine ⟨_, { o with status := new_status }, rfl, quantity_pos hok, ?_⟩
          -- the status is assigned to the object that is loaded
          rw [World.setSession_self]
          show setOrderObj (m'.state.session t).objs order_id new_status (.order order_id) = _
          unfold setOrderObj
          rw [session_of_local ho', hload]
          exact Function.update_self ..
        · cases hx
      next =>
        obtain ⟨rfl, rfl, rfl⟩ := runs_ret h
        exact ⟨o, o, rfl, quantity_pos hok, hload⟩
  · exact Or.inl ⟨e, rfl, Or.inr ⟨m, List.mem_cons_self, _, _, he⟩⟩

/-- **The compensation** raises only what a statement raises, where the order
loaded has a positive quantity. -/
theorem runs_releaseOrder {order_id : Uuid} {loaded : Order} {e : Exn}
    (hobj : (w.session t).objs (.order order_id) = some (.order loaded))
    (hpos : 0 < loaded.quantity) (h : Runs t (releaseOrder order_id) w ms (.error e) w') :
    RaisedByDatabase t ms e := by
  obtain ⟨m, rest, r₀, w₁, rfl, ho, he, hnext⟩ := runs_next h
  rcases hnext with ⟨row, rfl, h⟩ | ⟨e', rfl, rfl, he', rfl⟩
  · rcases exec_select he with ⟨f, -, hr, -⟩ | ⟨-, -, hr, -⟩ | ⟨obj, -, hfound, hr, -⟩
    · cases hr
    · -- no such order: nothing to release
      obtain rfl := Except.ok.inj hr
      cases (runs_ret h).2.1
    · obtain rfl := Except.ok.inj hr
      obtain ⟨row, -, hrow⟩ := Option.map_eq_some_iff.mp hfound
      rw [session_of_local ho, hobj] at hrow
      obtain rfl : obj = .order loaded := hrow.symm
      change Runs t (release ⟨loaded.stock_id, loaded.quantity, loaded.expected_version⟩ >>= _)
        w₁ rest (.error e) w' at h
      rcases runs_bind h with ⟨ms₁, ms₂, n, w₂, rfl, -, h₂⟩ | ⟨e', he', h₁⟩
      · cases (runs_ret h₂).2.1
      · obtain rfl := Except.error.inj he'
        unfold release at h₁
        rw [if_neg (Int.not_le.mpr hpos)] at h₁
        obtain ⟨u, rest', r₁, w₂, rfl, -, heu, hupdate⟩ := runs_next h₁
        rcases hupdate with ⟨rowcount, -, h₂⟩ | ⟨x, rfl, rfl, hx, rfl⟩
        · -- an UPDATE that has been executed returns
          split at h₂
          · cases (runs_ret h₂).2.1
          · cases (runs_ret h₂).2.1
        · obtain rfl := Except.error.inj hx
          exact ⟨u, by simp, _, _, heu⟩
  · obtain rfl := Except.error.inj he'
    exact ⟨m, List.mem_cons_self, _, _, he⟩

/-- The search path is set before the body. -/
theorem runs_withSchemas {α : Type} {body : Svc α} {e : Exn}
    (h : Runs t (withSchemas ["orders", "inventory"] body) w ms (.error e) w') :
    RaisedByDatabase t ms e ∨ ∃ m rest w₁, ms = m :: rest ∧ w₁.local t = w.local t
      ∧ Runs t body w₁ rest (.error e) w' := by
  rw [withSchemas_eq] at h
  obtain ⟨m, rest, r₀, w₁, rfl, ho, he, hnext⟩ := runs_next h
  rcases hnext with ⟨u, rfl, h⟩ | ⟨e', rfl, rfl, he', rfl⟩
  · simp only [exec] at he
    split at he
    next => cases (Prod.mk.inj (Option.some.inj he)).1
    next =>
      obtain ⟨-, rfl⟩ := Prod.mk.inj (Option.some.inj he)
      exact Or.inr ⟨m, rest, m.state, rfl, ho, h⟩
  · obtain rfl := Except.error.inj he'
    exact Or.inl ⟨m, List.mem_cons_self, _, _, he⟩

/-! ## §4. Every payload. -/

/-- **What the handlers raise once they have an order id.** -/
theorem runs_dispatch {topic : String} {envelope : EventEnvelope} {order_id : Uuid} {e : Exn}
    (hid : orderIdOf envelope.payload = .ok (some order_id))
    (h : Runs t (dispatch topic envelope) w ms (.error e) w')
    (hfresh : w.session t = Session.fresh) (hc : Constrained ms) :
    OrderMissing t ms order_id e ∨ RaisedByDatabase t ms e := by
  have hbody : ∀ body : Uuid → Svc Unit, withOrderId envelope body = body order_id := by
    intro body
    unfold withOrderId
    rw [hid]
    rfl
  unfold dispatch at h
  rcases handlers_cases topic envelope.event_type with ⟨hh, -⟩ | ⟨hh, -⟩ | ⟨hh, -⟩
  · -- payment_captured: the status is all there is to do
    rw [hh] at h
    change Runs t (withOrderId envelope _) w ms (.error e) w' at h
    rw [hbody] at h
    rcases runs_bind h with ⟨ms₁, ms₂, order, w₁, rfl, -, h₂⟩ | ⟨e', he', h₁⟩
    · cases (runs_ret h₂).2.1
    · obtain rfl := Except.error.inj he'
      rcases runs_updateOrderStatus (Or.inl rfl) h₁ hfresh hc with
        ⟨x, hx, hraised⟩ | ⟨order, loaded, hx, -⟩
      · obtain rfl := Except.error.inj hx
        exact hraised
      · cases hx
  · -- payment_failed: what the order holds is released after the status
    rw [hh] at h
    change Runs t (withOrderId envelope _) w ms (.error e) w' at h
    rw [hbody] at h
    rcases runs_bind h with ⟨ms₁, ms₂, order, w₁, rfl, h₁, h₂⟩ | ⟨e', he', h₁⟩
    · have hc₁ : Constrained ms₁ := fun m hm => hc m (List.mem_append_left _ hm)
      rcases runs_updateOrderStatus (Or.inr rfl) h₁ hfresh hc₁ with
        ⟨x, hx, -⟩ | ⟨order', loaded, -, hpos, hobj⟩
      · cases hx
      · refine Or.inr (RaisedByDatabase.mono ?_ (List.subset_append_right ms₁ ms₂))
        rcases runs_withSchemas h₂ with hraised | ⟨m, rest, w₂, rfl, ho, h₃⟩
        · exact hraised
        · rw [← session_of_local ho] at hobj
          exact (runs_releaseOrder hobj hpos h₃).mono (List.subset_cons_self m rest)
    · obtain rfl := Except.error.inj he'
      rcases runs_updateOrderStatus (Or.inr rfl) h₁ hfresh hc with
        ⟨x, hx, hraised⟩ | ⟨order, loaded, hx, -⟩
      · obtain rfl := Except.error.inj hx
        exact hraised
      · cases hx
  · -- no handler
    rw [hh] at h
    cases (runs_ret h).2.1

/-- A handler of payment events looks for the order id first. -/
theorem dispatch_withOrderId {topic : String} {envelope : EventEnvelope} {status : OrderStatus}
    (hstatus : requestedStatus topic envelope.event_type = some status) :
    ∃ body : Uuid → Svc Unit, dispatch topic envelope = withOrderId envelope body := by
  unfold dispatch
  rcases handlers_cases topic envelope.event_type with ⟨hh, -⟩ | ⟨hh, -⟩ | ⟨-, hs⟩
  · rw [hh]
    exact ⟨_, rfl⟩
  · rw [hh]
    exact ⟨_, rfl⟩
  · rw [hstatus] at hs
    cases hs

/-- The payload of a message is an object where it has one under "payload". -/
theorem payload_dict_iff {fresh : Uuid} {j : Json} {envelope : EventEnvelope}
    (h : EventEnvelope.fromBytes fresh j = .ok envelope) :
    (∃ items, envelope.payload = .dict items) ↔ ∃ fields, j.field? "payload" = some (.obj fields) := by
  rw [EventEnvelope.modelValidate_payload h]
  cases hpayload : j.field? "payload" with
  | none =>
      constructor
      · rintro ⟨items, hc⟩
        cases hc
      · rintro ⟨fields, hc⟩
        cases hc
  | some p =>
      cases p with
      | obj fields => exact iff_of_true ⟨_, rfl⟩ ⟨fields, rfl⟩
      | _ =>
          constructor
          · rintro ⟨items, hc⟩
            cases hc
          · rintro ⟨fields, hc⟩
            cases hc

/-- A handler of payment events tolerates exactly the dicts. -/
theorem tolerates_iff {envelope : EventEnvelope} {status : OrderStatus}
    (hstatus : requestedStatus "payments.events" envelope.event_type = some status) :
    Tolerates "payments.events" envelope ↔ ∃ items, envelope.payload = .dict items := by
  obtain ⟨body, hbody⟩ := dispatch_withOrderId hstatus
  rw [← get?_isSome_iff envelope.payload "order_id"]
  constructor
  · intro htol
    rcases orderIdOf_cases envelope.payload with ⟨hget, e, he⟩ | ⟨order_id, ⟨s, hget, -⟩, -⟩ | ⟨hno, hid⟩
    · -- the handler raises where it should have skipped
      have hskips := htol.skips (by rintro ⟨_, s, hs, -⟩; rw [hget] at hs; cases hs)
      rw [hbody] at hskips
      unfold withOrderId at hskips
      rw [he] at hskips
      cases hskips
    · rw [hget]
      rfl
    · cases hget : envelope.payload.get? "order_id" with
      | some v => rfl
      | none =>
          unfold orderIdOf at hid
          rw [hget] at hid
          cases hid
  · intro hobject
    obtain ⟨v, hget⟩ := Option.isSome_iff_exists.mp hobject
    rcases orderIdOf_cases envelope.payload with ⟨hnone, -⟩ | ⟨order_id, hcarries, hid⟩ | ⟨hno, hid⟩
    · rw [hget] at hnone
      cases hnone
    · refine ⟨fun hno => absurd ⟨order_id, hcarries⟩ hno, ?_⟩
      intro τ _ t w w' ms e h hfresh hc
      exact ⟨order_id, hcarries, runs_dispatch hid h hfresh hc⟩
    · have hskips : dispatch "payments.events" envelope = .ret (.ok ()) := by
        rw [hbody]
        unfold withOrderId
        rw [hid]
        rfl
      refine ⟨fun _ => hskips, ?_⟩
      intro τ _ t w w' ms e h hfresh hc
      rw [hskips] at h
      cases (runs_ret h).2.1

/-- **Which payloads the payment handlers tolerate.**  For every message that
`from_bytes` accepts and a handler takes, the handler tolerates the payload
exactly when the message has a JSON object for it. -/
theorem payloads_iff {fresh : Uuid} {j : Json} {envelope : EventEnvelope} {status : OrderStatus}
    (hread : EventEnvelope.fromBytes fresh j = .ok envelope)
    (hstatus : requestedStatus "payments.events" envelope.event_type = some status) :
    Tolerates "payments.events" envelope ↔ ∃ fields, j.field? "payload" = some (.obj fields) := by
  rw [tolerates_iff hstatus, payload_dict_iff hread]

/-- A captured payment as the bus carries it, with the given payload. -/
def capturedMessage (payload : Json) : Json :=
  .obj [("event_id", .str "00000000-0000-0000-0000-00000000000b"),
    ("event_type", .str "payments.payment_captured"), ("schema_version", .int 1),
    ("aggregate_type", .str "Payment"),
    ("aggregate_id", .str "00000000-0000-0000-0000-000000000001"), ("payload", payload)]

def capturedWith (payload : PyVal) : EventEnvelope where
  event_id := Uuid.ofNat 11
  event_type := "payments.payment_captured"
  schema_version := 1
  aggregate_type := "Payment"
  aggregate_id := "00000000-0000-0000-0000-000000000001"
  payload := payload
  event_type_len := EventEnvelope.paymentCaptured_len
  schema_version_ge := EventEnvelope.firstVersion_ge
  aggregate_type_len := EventEnvelope.payment_len
  aggregate_id_len := EventEnvelope.uuidText_len

/-- An empty object is skipped. -/
theorem payloads_iff_empty :
    Tolerates "payments.events" (capturedWith (.dict []))
      ↔ ∃ fields, (capturedMessage (.obj [])).field? "payload" = some (.obj fields) :=
  have hread : EventEnvelope.fromBytes (Uuid.ofNat 0) (capturedMessage (.obj []))
      = .ok (capturedWith (.dict [])) := rfl
  payloads_iff hread rfl

/-- `null` is accepted, and not tolerated. -/
theorem payloads_null :
    ¬ ∀ (fresh : Uuid) (j : Json) (envelope : EventEnvelope) (status : OrderStatus),
        EventEnvelope.fromBytes fresh j = .ok envelope →
        requestedStatus "payments.events" envelope.event_type = some status →
        Tolerates "payments.events" envelope := by
  intro h
  have htol := h (Uuid.ofNat 0) (capturedMessage .null) (capturedWith .none) .paid rfl rfl
  have hskips := htol.skips (fun ⟨_, _, hs, _⟩ => nomatch hs)
  obtain ⟨body, hbody⟩ := dispatch_withOrderId
    (show requestedStatus "payments.events" (capturedWith .none).event_type = some .paid from rfl)
  have hraises : withOrderId (capturedWith .none) body
      = .ret (.error ⟨.attributeError, "object has no attribute 'get'", []⟩) := rfl
  rw [hbody, hraises] at hskips
  cases hskips

end Nimbus
