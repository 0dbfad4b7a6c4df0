/-
  Nimbus.Saga.Shop
  ────────────────
  **THE SERVICES RUN TOGETHER.**

  All requests of the platform over one database and one Redis: reserving and
  releasing stock, placing orders, processing payments, and deliveries to
  `OrderConsumer`'s handlers, interleaved operation by operation, each in a
  session of its own that its owner commits after a normal return or rolls
  back.  What a committed call makes of the committed rows is stated once, as
  a sequential specification (`Effect`), and every interleaving is shown to be
  equivalent to its committed calls in the order of their commits.

    • `Call`, `Reply`, `shop`  — the system;
    • `shopContract`           — every service among all the others;
    • `Effect`                 — the sequential specification;
    • `shopEffects`            — **commits have exactly these effects.**
-/
import Nimbus.Modules.Orders
import Nimbus.Modules.Payments
import Nimbus.Lib.Pool

namespace Nimbus

open Lib Lib.Prog Inventory Orders Payments

/-! ## §1. The system. -/

/-- A request, or the delivery of an envelope to the order consumer. -/
inductive Call where
  | reserve (request : ReserveRequest)
  | release (request : ReleaseRequest)
  | placeOrder (request : PlaceOrderRequest)
  | processPayment (request : ProcessPaymentRequest)
  | deliver (topic : String) (envelope : EventEnvelope)

/-- What the calls return. -/
inductive Reply where
  | reserved (result : ReserveResult)
  | released (result : Int)
  | placed (result : PlaceOrderResult)
  | processed (result : ProcessPaymentResult)
  | handled

/-- The program of a call. -/
def body (uuid5 : Uuid5) : Call → Svc Reply
  | .reserve request => (reserve request).map .reserved
  | .release request => (release request).map .released
  | .placeOrder request => (placeOrder uuid5 request).map .placed
  | .processPayment request => (processPayment uuid5 request).map .processed
  | .deliver topic envelope => (dispatch topic envelope).map fun _ => .handled

/-- The owner of a session commits after a normal return; after an exception
only where the call is a plain stock operation, which has then written nothing. -/
def mayCommit (call : Call) (r : Except Exn Reply) : Bool :=
  match call, r with
  | .reserve _, _ => true
  | .release _, _ => true
  | _, .ok _ => true
  | _, .error _ => false

variable {τ : Type} [DecidableEq τ]

/-- The services as one system. -/
def shop (uuid5 : Uuid5) : System Call Op Ans Exn Reply (World τ) τ Choice where
  body := body uuid5
  exec := fun c t op w => exec c t op w
  enter := fun t w => w.enter t
  mayCommit := mayCommit
  commit := fun c t w => w.commit c t
  rollback := fun t w => w.rollback t

/-! ## §2. The sequential specification. -/

/-- The rows after `update_order_status` on the order `o`. -/
def setStatus (T : Table Row) (o : Order) (status : OrderStatus) : Table Row :=
  if applies o.status status then T.upsert (.order { o with status := status }) else T

/-- What the handler of `status` does before the status change is flushed: for a
failed payment the release, unless the stock row was missing from committed
rows `T₀` that had the order. -/
inductive Compensates (J : Table Row → Prop) (o : Order) :
    OrderStatus → Table Row → Table Row → Prop where
  | none {status T} : status ≠ .failed → Compensates J o status T T
  | release {T s} : 0 < o.quantity → T.lookup (.stock o.stock_id) = some (.stock s) →
      Compensates J o .failed T (T.upsert (.stock (s.release o.quantity)))
  | missing {T T₀} : 0 < o.quantity → J T₀ → T₀.lookup (.order o.id) = some (.order o) →
      T₀.lookup (.stock o.stock_id) = Option.none → Compensates J o .failed T T

/-- **What a committed call makes of the committed rows.** -/
inductive Effect (J : Table Row → Prop) (uuid5 : Uuid5) :
    Call → Except Exn Reply → Table Row → Table Row → Prop where
  | reserved {request result T s} : T.lookup (.stock request.stock_id) = some (.stock s) →
      0 < request.quantity → s.version = request.expected_version →
      request.quantity ≤ s.available →
      Effect J uuid5 (.reserve request) (.ok (.reserved result)) T
        (T.upsert (.stock (s.reserve request.quantity)))
  | released {request result T s} : T.lookup (.stock request.stock_id) = some (.stock s) →
      0 < request.quantity →
      Effect J uuid5 (.release request) (.ok (.released result)) T
        (T.upsert (.stock (s.release request.quantity)))
  | releasedNothing {request result T T₀} : 0 < request.quantity → J T₀ →
      T₀.lookup (.stock request.stock_id) = none →
      Effect J uuid5 (.release request) (.ok (.released result)) T T
  | reserveRefused {request e T} : Effect J uuid5 (.reserve request) (.error e) T T
  | releaseRefused {request e T} : Effect J uuid5 (.release request) (.error e) T T
  | placed {request result T s row} : T.lookup (.stock request.stock_id) = some (.stock s) →
      0 < request.quantity → request.quantity ≤ s.available →
      (∃ rr st, result.order = newOrder request st rr result.order.id) →
      T.lookup (.order result.order.id) = none → T.lookup (key row) = none →
      key row = .outbox result.outbox_event.id →
      Effect J uuid5 (.placeOrder request) (.ok (.placed result)) T
        (((T.upsert (.stock (s.reserve request.quantity))).upsert (.order result.order)).upsert row)
  | processed {request result T p now} :
      T.lookup (.payment request.payment_id) = some (.payment p) →
      request.new_status ∈ p.status.allowedTransitions → EventOf uuid5 request p result →
      T.lookup (.outbox result.outbox_event.id) = none →
      (∀ e, Row.outbox e ∈ T.rows → e.dedupe_id ≠ result.outbox_event.dedupe_id) →
      Effect J uuid5 (.processPayment request) (.ok (.processed result)) T
        ((T.upsert (.payment { p with status := request.new_status })).upsert
          (.outbox { result.outbox_event with created_at := now }))
  | ignored {topic envelope T} : eventOf topic envelope = none →
      Effect J uuid5 (.deliver topic envelope) (.ok .handled) T T
  | delivered {topic envelope status order_id o T T₁} :
      eventOf topic envelope = some (status, order_id) →
      T.lookup (.order order_id) = some (.order o) → Compensates J o status T T₁ →
      Effect J uuid5 (.deliver topic envelope) (.ok .handled) T (setStatus T₁ o status)

/-- Less may be known of the committed rows. -/
theorem Compensates.mono {J J' : Table Row → Prop} (hJ : ∀ U, J U → J' U) {o : Order}
    {status : OrderStatus} {T T₁ : Table Row} (h : Compensates J o status T T₁) :
    Compensates J' o status T T₁ := by
  cases h with
  | none hs => exact .none hs
  | release hq hs => exact .release hq hs
  | missing hq h₀ ho hs => exact .missing hq (hJ _ h₀) ho hs

theorem Effect.mono {J J' : Table Row → Prop} (hJ : ∀ U, J U → J' U) {uuid5 : Uuid5} {call : Call}
    {r : Except Exn Reply} {T T' : Table Row} (h : Effect J uuid5 call r T T') :
    Effect J' uuid5 call r T T' := by
  cases h with
  | reserved hs hq hv ha => exact .reserved hs hq hv ha
  | released hs hq => exact .released hs hq
  | releasedNothing hq h₀ hs => exact .releasedNothing hq (hJ _ h₀) hs
  | reserveRefused => exact .reserveRefused
  | releaseRefused => exact .releaseRefused
  | placed hs hq ha ho hfree hfree' hkey => exact .placed hs hq ha ho hfree hfree' hkey
  | processed hp ha he hfree hd => exact .processed hp ha he hfree hd
  | ignored hev => exact .ignored hev
  | delivered hev ho hc => exact .delivered hev ho (hc.mono hJ)

/-! ## §3. What is shown of each call. -/

/-- What holds at every point of a call. -/
def along : Call → Local → Prop
  | .processPayment request => UnderLock request
  | _ => anywhere

/-- The postcondition of a call. -/
def post (J : Table Row → Prop) (uuid5 : Uuid5) (call : Call) (r : Except Exn Reply) (l : Local) :
    Prop :=
  match call with
  | .reserve request => ∃ x, r = x.map .reserved ∧ reservePost request x l
  | .release request => ∃ x mine, r = x.map .released ∧
      releasePost J request ⟨TxPart.empty, Session.fresh, .idle, mine⟩ x l
  | .placeOrder request => ∃ x, r = x.map .placed ∧ placeOrderPost request x l
  | .processPayment request => ∃ x, r = x.map .processed ∧ processPaymentPost uuid5 request x l
  | .deliver topic envelope => ∃ x, r = Except.map (fun _ => .handled) x
      ∧ dispatchPost J topic envelope x l

/-- **Every call meets its contract in a new session.** -/
theorem body_wlp (J : Table Row → Prop) (uuid5 : Uuid5) (t : τ) (call : Call) (mine : List Uuid) :
    wlp (setting J t) (along call) (post J uuid5 call) (body uuid5 call)
      ⟨TxPart.empty, Session.fresh, .idle, mine⟩ := by
  have hl : (⟨TxPart.empty, Session.fresh, .idle, mine⟩ : Local).Untouched := ⟨rfl, rfl⟩
  cases call with
  | reserve request => exact wlp_map (reserve_wlp request hl)
  | release request =>
      refine wlp_mono ?_ (wlp_map (release_wlp request hl.1))
      rintro r l ⟨x, hr, hx⟩
      exact ⟨x, mine, hr, hx⟩
  | placeOrder request => exact wlp_map (placeOrder_wlp uuid5 request hl)
  | processPayment request => exact wlp_map (processPayment_wlp uuid5 request rfl hl rfl)
  | deliver topic envelope => exact wlp_map (dispatch_wlp topic envelope hl fun _ => rfl)

/-! ## §4. What a commit publishes. -/

variable {t : τ} {J : Table Row → Prop} {uuid5 : Uuid5}

/-- A commit publishes the writes of the session and of the flush. -/
theorem commit_base {c : Choice} {w w' : World τ} (hi : Inv w) (h : w.commit c t = some w') :
    ∃ store, World.flushAll c.now w.store t (w.session t).pending = some (.ok store)
      ∧ w'.base = w.base.upsertAll (store.part t).writes := by
  obtain ⟨store, hf, rfl⟩ := commit_eq_some h
  refine ⟨store, hf, ?_⟩
  show store.base.upsertAll (store.writes t) = _
  rw [(flushAll_acts hi.store hf).base]
  rfl

/-- Nothing waiting to be flushed: the session's writes are published. -/
theorem commit_of_flushed {c : Choice} {w w' : World τ} (hi : Inv w)
    (h : w.commit c t = some w') (hp : (w.local t).session.pending = []) :
    w'.base = w.base.upsertAll (w.local t).part.writes := by
  obtain ⟨store, hf, hbase⟩ := commit_base hi h
  have hnil : (w.session t).pending = [] := hp
  rw [hnil] at hf
  obtain rfl := flushAll_nil hf
  exact hbase

theorem commit_untouched {c : Choice} {w w' : World τ} (hi : Inv w)
    (h : w.commit c t = some w') (hl : (w.local t).Untouched) : w'.base = w.base := by
  rw [commit_of_flushed hi h hl.2, hl.1]
  rfl

/-- A locked row is committed as the session found it. -/
theorem lookup_of_locked {w : World τ} {k : RowKey} {b : Option Row}
    (h : (w.local t).part.locked k = some b) : w.base.lookup k = b :=
  (TxStore.part_locked h).2

/-- A status change of the locked order `o` is flushed on top of the session's
other writes. -/
theorem commit_orderStatus {c : Choice} {w w' : World τ} {o : Order} {status : OrderStatus}
    (hi : Inv w) (h : w.commit c t = some w')
    (hlocked : (w.local t).part.locked (.order o.id) = some (some (.order o)))
    (hpend : (w.local t).session.pending
      = if applies o.status status then [.orderStatus o.id status] else [])
    (hown : ∀ r ∈ (w.local t).part.writes, key r ≠ .order o.id) :
    w'.base = setStatus (w.base.upsertAll (w.local t).part.writes) o status := by
  unfold setStatus
  split
  next happ =>
    rw [if_pos happ] at hpend
    obtain ⟨store, hf, hbase⟩ := commit_base hi h
    have hone : (w.session t).pending = [.orderStatus o.id status] := hpend
    rw [hone] at hf
    obtain ⟨s₁, h₁, hf⟩ := flushAll_cons hf
    obtain rfl := flushAll_nil hf
    obtain ⟨o', hview, hput⟩ := flushOne_order h₁
    -- the order is locked and not written, so the flush sees it as it was locked
    have hfind : (w.local t).part.writes.find? (fun r => key r = .order o.id) = none := by
      rw [List.find?_eq_none]
      intro r hr
      simpa using hown r hr
    rw [TxStore.view_of_locked hlocked] at hview
    have hwrites : (w.store.part t).writes = (w.local t).part.writes := rfl
    rw [hwrites, hfind, Option.none_or] at hview
    obtain rfl := Row.order.inj (Option.some.inj hview)
    rw [hbase, TxStore.part_put hput, TxPart.put_writes, Table.upsertAll_cons]
    rfl
  next happ =>
    rw [if_neg happ] at hpend
    exact commit_of_flushed hi h hpend

/-- What a commit of `process_payment` publishes. -/
theorem commit_processed {c : Choice} {w w' : World τ} {request : ProcessPaymentRequest}
    {p : Payment} {result : ProcessPaymentResult} (hi : Inv w) (h : w.commit c t = some w')
    (hp : Processed uuid5 request p result (w.local t)) :
    Effect J uuid5 (.processPayment request) (.ok (.processed result)) w.base w'.base := by
  obtain ⟨store, hf, hbase⟩ := commit_base hi h
  have hpend : (w.session t).pending = [.paymentStatus request.payment_id request.new_status,
    .insert (.outbox result.outbox_event)] := hp.pending
  have hnil : (w.store.part t).writes = [] := hp.writes
  rw [hpend] at hf
  obtain ⟨s₁, h₁, hf⟩ := flushAll_cons hf
  obtain ⟨s₂, h₂, hf⟩ := flushAll_cons hf
  obtain rfl := flushAll_nil hf
  -- the payment row that is flushed over is the one the session has locked
  obtain ⟨p', hview, hput⟩ := flushOne_payment h₁
  rw [TxStore.view_of_locked hp.locked, hnil] at hview
  obtain rfl := Row.payment.inj (Option.some.inj hview)
  have hs₁ : (s₁.part t).writes = [.payment { p with status := request.new_status }] := by
    rw [TxStore.part_put hput, TxPart.put_writes, hnil]
  have hb₁ : s₁.base = w.base := TxStore.put_base hput
  obtain ⟨s₃, -, -, hd, -⟩ := flushOne_insert h₂
  have hfresh := reserveDedupe_fresh hd
  obtain ⟨hfree, -, q, hq, hqw, -⟩ := flushOne_insert_part h₂
  rw [hb₁] at hfree hfresh
  have hpay : w.base.lookup (.payment request.payment_id) = some (.payment p) :=
    lookup_of_locked hp.locked
  rw [hbase, hq, TxPart.put_writes, hqw, hs₁]
  refine Effect.processed hpay hp.allowed hp.event hfree fun e he => ?_
  refine hfresh e ?_
  rw [hs₁, Table.upsertAll_cons, Table.mem_upsert]
  exact Or.inr ⟨he, fun hc => RowKey.noConfusion hc⟩

/-- What a commit of `place_order` publishes. -/
theorem commit_placed {c : Choice} {w w' : World τ} {request : PlaceOrderRequest} {s : Stock}
    {now : Int} {result : PlaceOrderResult} (hi : Inv w) (h : w.commit c t = some w')
    (hp : Placed request result s (World.stamp now (.outbox result.outbox_event)) (w.local t)) :
    Effect J uuid5 (.placeOrder request) (.ok (.placed result)) w.base w'.base := by
  rw [commit_of_flushed hi h hp.pending, hp.writes]
  exact Effect.placed (lookup_of_locked hp.stock) hp.positive hp.available hp.order_eq
    (lookup_of_locked hp.order) (lookup_of_locked hp.outbox) hp.outbox_key

/-- What a commit of a delivery publishes. -/
theorem commit_delivered {c : Choice} {w w' : World τ} {topic : String}
    {envelope : EventEnvelope} (hi : Inv w) (h : w.commit c t = some w')
    (hp : dispatchPost J topic envelope (.ok ()) (w.local t)) :
    Effect J uuid5 (.deliver topic envelope) (.ok .handled) w.base w'.base := by
  unfold dispatchPost at hp
  cases hev : eventOf topic envelope with
  | none =>
      simp only [hev] at hp
      rw [commit_untouched hi h hp]
      exact Effect.ignored hev
  | some ev =>
      obtain ⟨status, order_id⟩ := ev
      simp only [hev] at hp
      obtain ⟨o, rfl, hlocked, hpend, hcomp⟩ := hp
      have hrow := lookup_of_locked hlocked
      by_cases hs : status = .failed
      · subst hs
        rw [if_pos rfl] at hcomp
        obtain ⟨hq, ⟨hw, T₀, hJ, ho, hnone⟩ | ⟨s, hid, hstock, hw⟩⟩ := hcomp
        · -- the stock row was missing: only the status changes
          rw [commit_orderStatus hi h hlocked hpend (by rw [hw]; intro _ hr; cases hr), hw]
          exact Effect.delivered hev hrow (Compensates.missing hq hJ ho hnone)
        · have hown : ∀ r ∈ (w.local t).part.writes, key r ≠ .order o.id := by
            intro r hr
            rw [hw] at hr
            rw [List.mem_singleton.mp hr]
            exact fun hc => RowKey.noConfusion hc
          rw [commit_orderStatus hi h hlocked hpend hown, hw]
          exact Effect.delivered hev hrow (Compensates.release hq (lookup_of_locked hstock))
      · rw [if_neg hs] at hcomp
        rw [commit_orderStatus hi h hlocked hpend (by rw [hcomp]; intro _ hr; cases hr),
          hcomp]
        exact Effect.delivered hev hrow (Compensates.none hs)

/-- **A commit makes of the committed rows what the specification says.** -/
theorem commit_effect {c : Choice} {w w' : World τ} {call : Call} {r : Except Exn Reply}
    (hi : Inv w) (hpost : post J uuid5 call r (w.local t)) (hmay : mayCommit call r = true)
    (h : w.commit c t = some w') : Effect J uuid5 call r w.base w'.base := by
  cases call with
  | reserve request =>
      obtain ⟨x, rfl, hx⟩ := hpost
      cases x with
      | error e =>
          -- a call that has written nothing may be committed after an exception
          rw [commit_untouched hi h hx]
          exact Effect.reserveRefused
      | ok result =>
          obtain ⟨s, hs⟩ := hx
          rw [commit_of_flushed hi h hs.pending, hs.writes]
          exact Effect.reserved (lookup_of_locked hs.locked) hs.positive hs.version hs.available
  | release request =>
      obtain ⟨x, mine, rfl, hx⟩ := hpost
      cases x with
      | error e =>
          rw [commit_untouched hi h hx]
          exact Effect.releaseRefused
      | ok result =>
          rw [commit_of_flushed hi h hx.pending]
          rcases hx.writes with ⟨hw, T₀, hJ, -, hnone⟩ | ⟨s, -, hlocked, hw⟩
          · rw [hw]
            exact Effect.releasedNothing hx.positive hJ hnone
          · rw [hw]
            exact Effect.released (lookup_of_locked hlocked) hx.positive
  | placeOrder request =>
      obtain ⟨x, rfl, hx⟩ := hpost
      cases x with
      -- the others are committed only when they return
      | error e => cases hmay
      | ok result =>
          obtain ⟨s, now, hp⟩ := hx
          exact commit_placed hi h hp
  | processPayment request =>
      obtain ⟨x, rfl, hx⟩ := hpost
      cases x with
      | error e => cases hmay
      | ok result =>
          obtain ⟨p, hp⟩ := hx
          exact commit_processed hi h hp
  | deliver topic envelope =>
      obtain ⟨x, rfl, hx⟩ := hpost
      cases x with
      | error e => cases hmay
      | ok _ => exact commit_delivered hi h hx

/-! ## §5. The contract of the system. -/

/-- Every call keeps `J`. -/
def Keeps (J : Table Row → Prop) (uuid5 : Uuid5) : Prop :=
  ∀ {call r T T'}, J T → Effect J uuid5 call r T T' → J T'

/-- **Every service among all the others.** -/
def shopContract (J : Table Row → Prop) (uuid5 : Uuid5) (hJ : Keeps J uuid5) :
    Contract (shop uuid5 : System Call Op Ans Exn Reply (World τ) τ Choice) Local where
  view := fun t w => w.local t
  inv := fun w => Inv w ∧ J w.base
  allowed := allowed
  along := along
  post := post J uuid5
  enter_inv := fun h => ⟨rollback_inv h.1, h.2⟩
  enter_view := fun hu _ => rollback_local_of_ne hu
  body_wlp := by
    intro t w call _
    show wlp (setting J t) (along call) (post J uuid5 call) (body uuid5 call) ((w.enter t).local t)
    rw [enter_local]
    exact body_wlp J uuid5 t call _
  exec_inv := by
    intro t w c op r w' h ha he
    refine ⟨exec_inv h.1 ha he, ?_⟩
    rw [exec_base h.1.store he]
    exact h.2
  exec_view := fun hu h he => exec_local_of_ne hu h.1 he
  commit_inv := fun h hpost hmay hc => ⟨commit_inv h.1 hc, hJ h.2 (commit_effect h.1 hpost hmay hc)⟩
  commit_view := fun hu h hc => commit_local_of_ne hu h.1 hc
  rollback_inv := fun h => ⟨rollback_inv h.1, h.2⟩
  rollback_view := fun hu _ => rollback_local_of_ne hu

/-- **The committed rows change by the specified effects, and in commits only.** -/
def shopEffects (J : Table Row → Prop) (uuid5 : Uuid5) (hJ : Keeps J uuid5) :
    Effects (shopContract J uuid5 hJ (τ := τ)) (Table Row) where
  obs := World.base
  effect := Effect J uuid5
  enter_obs := fun _ _ => rfl
  exec_obs := fun h he => exec_base h.1.store he
  rollback_obs := fun _ _ => rfl
  commit_obs := fun h hpost hmay hc => commit_effect h.1 hpost hmay hc

/-! ## §6. Rows are never deleted. -/

theorem isSome_upsert {T : Table Row} {row : Row} {k : RowKey} (h : (T.lookup k).isSome) :
    ((T.upsert row).lookup k).isSome := by
  rw [Table.lookup_upsert]
  split
  · rfl
  · exact h

theorem Compensates.isSome {o : Order} {status : OrderStatus} {T T₁ : Table Row} {k : RowKey}
    (hc : Compensates J o status T T₁) (h : (T.lookup k).isSome) : (T₁.lookup k).isSome := by
  cases hc with
  | none _ => exact h
  | release _ _ => exact isSome_upsert h
  | missing _ _ _ _ => exact h

theorem setStatus_isSome {T : Table Row} {o : Order} {status : OrderStatus} {k : RowKey}
    (h : (T.lookup k).isSome) : ((setStatus T o status).lookup k).isSome := by
  unfold setStatus
  split
  · exact isSome_upsert h
  · exact h

/-- **No call deletes a row.** -/
theorem Effect.isSome {call : Call} {r : Except Exn Reply} {T T' : Table Row} {k : RowKey}
    (he : Effect J uuid5 call r T T') (h : (T.lookup k).isSome) : (T'.lookup k).isSome := by
  cases he with
  | reserved => exact isSome_upsert h
  | released => exact isSome_upsert h
  | releasedNothing => exact h
  | reserveRefused => exact h
  | releaseRefused => exact h
  | placed => exact isSome_upsert (isSome_upsert (isSome_upsert h))
  | processed => exact isSome_upsert (isSome_upsert h)
  | ignored => exact h
  | delivered _ _ hc => exact setStatus_isSome (hc.isSome h)

/-- A row that is committed once stays. -/
theorem keeps_isSome (k : RowKey) : Keeps (fun T => (T.lookup k).isSome = true) uuid5 :=
  fun h he => he.isSome h

/-- Nothing is known of the committed rows. -/
def anyRows : Table Row → Prop := fun _ => True

theorem keeps_anyRows : Keeps anyRows uuid5 := fun _ _ => trivial

end Nimbus
