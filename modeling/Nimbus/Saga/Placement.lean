/-
  Nimbus.Saga.Placement
  ─────────────────────
  **`place_order` IS ALL OR NOTHING.**

  Among any other calls of the platform, `place_order` reads the stock row,
  tries to reserve, and starts over when it has lost a race, up to three times.
  A lost attempt has changed nothing but the loaded object; the one that wins
  is followed by the order and its event, flushed together.  What is priced is
  the loaded object, which may be out of date: no call changes a price, so its
  price is the one the reserved row has.

    • `SamePrices`   — stock rows have the prices they had at the start;
    • `Complete`     — one reservation, one order, one outbox row;
    • `Refused`      — the exceptions that come before the flush;
    • `place_order_all_or_nothing` — **every reachable state.**
-/
import Nimbus.Saga.Orders

namespace Nimbus

open Lib Lib.Prog Inventory Orders

variable {τ : Type} [DecidableEq τ]

/-! ## §1. Prices. -/

/-- The stock row `id` of `T₀` has this price. -/
def Priced (T₀ : Table Row) (id : Uuid) (price : Int) : Prop :=
  ∃ s₀, T₀.lookup (.stock id) = some (.stock s₀) ∧ price = s₀.price_minor_units

/-- The stock rows of `T` are rows of `T₀`, at the same prices. -/
def SamePrices (T₀ T : Table Row) : Prop :=
  ∀ id s, T.lookup (.stock id) = some (.stock s) → Priced T₀ id s.price_minor_units

theorem SamePrices.refl (T : Table Row) : SamePrices T T := fun _ s hs => ⟨s, hs, rfl⟩

/-- A change of a stock row that leaves its price alone. -/
theorem SamePrices.upsert_stock {T₀ T : Table Row} (h : SamePrices T₀ T) {s : Stock} {i : Uuid}
    (hs : T.lookup (.stock i) = some (.stock s)) (s' : Stock) (hid : s'.id = s.id)
    (hprice : s'.price_minor_units = s.price_minor_units) :
    SamePrices T₀ (T.upsert (.stock s')) := by
  have hi : s.id = i := RowKey.stock.inj (Table.key_of_lookup hs)
  intro id x hx
  by_cases hkey : id = i
  · subst hkey
    rw [Table.lookup_upsert_self (by rw [key_stock, hid, hi])] at hx
    obtain rfl := Row.stock.inj (Option.some.inj hx)
    rw [hprice]
    exact h id s hs
  · have hne : RowKey.stock id ≠ key (Row.stock s') := by
      rw [key_stock, hid, hi]
      exact fun hc => hkey (RowKey.stock.inj hc)
    rw [Table.lookup_upsert_ne hne] at hx
    exact h id x hx

/-- A row of another table. -/
theorem SamePrices.upsert {T₀ T : Table Row} (h : SamePrices T₀ T) {row : Row}
    (hrow : ∀ i, key row ≠ .stock i) : SamePrices T₀ (T.upsert row) := by
  intro id x hx
  rw [Table.lookup_upsert_ne fun hc => hrow id hc.symm] at hx
  exact h id x hx

theorem SamePrices.setStatus {T₀ T : Table Row} (h : SamePrices T₀ T) (o : Order)
    (status : OrderStatus) : SamePrices T₀ (setStatus T o status) := by
  unfold Nimbus.setStatus
  split
  · exact h.upsert fun _ hc => RowKey.noConfusion hc
  · exact h

/-- **No call changes a price.** -/
theorem keeps_samePrices {uuid5 : Uuid5} (T₀ : Table Row) : Keeps (SamePrices T₀) uuid5 := by
  intro call r T T' h he
  cases he with
  | reserved hs => exact h.upsert_stock hs _ rfl rfl
  | released hs => exact h.upsert_stock hs _ rfl rfl
  | releasedNothing => exact h
  | reserveRefused => exact h
  | releaseRefused => exact h
  | @placed request _ _ s row hs _ _ _ _ _ hkey =>
      have hstock := h.upsert_stock hs (s.reserve request.quantity) rfl rfl
      refine (hstock.upsert fun _ hc => RowKey.noConfusion hc).upsert fun _ hc => ?_
      rw [hkey] at hc
      cases hc
  | processed =>
      refine (h.upsert ?_).upsert ?_
      · exact fun _ hc => RowKey.noConfusion hc
      · exact fun _ hc => RowKey.noConfusion hc
  | ignored => exact h
  | @delivered _ _ status _ o _ _ _ _ hc =>
      cases hc with
      | none _ => exact h.setStatus o status
      | @release _ s _ hs =>
          have hstock := h.upsert_stock hs (s.release o.quantity) rfl rfl
          exact hstock.setStatus o .failed
      | missing => exact h.setStatus o .failed

/-! ## §2. What `place_order` returns, and when it raises. -/

/-- The stock object the session has loaded, if any, has the price of the row. -/
def PricedObj (T₀ : Table Row) (id : Uuid) (l : Local) : Prop :=
  ∀ x, l.session.objs (.stock id) = some (.stock x) → Priced T₀ id x.price_minor_units

/-- Order, envelope and outbox row belong together. -/
structure Told (uuid5 : Uuid5) (request : PlaceOrderRequest) (price : Int)
    (res : PlaceOrderResult) : Prop where
  total : res.order.total_amount_minor_units = price * request.quantity
  envelope : EventEnvelope.mk? res.envelope.event_id "orders.order_created" 1 "Order"
    res.order.id.str (orderCreated res.order) = .ok res.envelope
  outbox : outboxRow uuid5 res.envelope "orders.events" = .ok res.outbox_event

/-- The session has come to its final flush, with the order and its event. -/
def AtFlush (l : Local) : Prop :=
  ∃ order outbox, l.session.pending = [.insert (.order order), .insert (.outbox outbox)]

/-- What `place_order` has told when it returns; when it raises, whether that is
in the final flush. -/
def toldPost (T₀ : Table Row) (uuid5 : Uuid5) (request : PlaceOrderRequest)
    (r : Except Exn PlaceOrderResult) (l : Local) : Prop :=
  match r with
  | .ok res => ∃ price, Priced T₀ request.stock_id price ∧ Told uuid5 request price res
  | .error e => l.Untouched ∨ (FlushError e ∧ AtFlush l)

section Wlp

variable {T₀ : Table Row} {t : τ} {l : Local}

/-- A read answers with an object of the right price. -/
theorem readStock_priced (stock_id : Uuid) (hw : l.Untouched) (hp : PricedObj T₀ stock_id l) :
    wlp (setting (SamePrices T₀) t) anywhere
      (fun r l' => l'.Untouched ∧ PricedObj T₀ stock_id l'
        ∧ ∀ stock, r = .ok (some stock) → Priced T₀ stock_id stock.price_minor_units)
      (readStock stock_id) l := by
  refine wlp_select_committed trivial hw.1 (fun _ => ⟨hw, hp, fun _ hc => nomatch hc⟩)
    ⟨trivial, hw, hp, fun _ hc => nomatch hc⟩ fun T row hJ hrow => ?_
  obtain ⟨s, rfl, -⟩ := stock_of_lookup hrow
  -- an object that is loaded has the price its row had, which never changes
  have hobject : ∀ x, l.object (.stock stock_id) (.stock s) = .stock x →
      Priced T₀ stock_id x.price_minor_units := by
    intro x hx
    unfold Local.object at hx
    cases hobj : l.session.objs (.stock stock_id) with
    | none =>
        rw [hobj] at hx
        obtain rfl := Row.stock.inj hx
        exact hJ stock_id s hrow
    | some y =>
        rw [hobj] at hx
        obtain rfl : y = .stock x := hx
        exact hp x hobj
  refine ⟨trivial, hw, fun x hx => hobject x ?_, fun x hx => hobject x ?_⟩
  · have hself : Function.update l.session.objs (.stock stock_id)
        (some (l.object (.stock stock_id) (.stock s))) (.stock stock_id) = some (.stock x) := hx
    rw [Function.update_self] at hself
    exact Option.some.inj hself
  · have hfound : asStock (some (l.object (.stock stock_id) (.stock s))) = some x :=
      Except.ok.inj hx
    exact asStock_some hfound

theorem getStock_priced (stock_id : Uuid) (hw : l.Untouched) (hp : PricedObj T₀ stock_id l) :
    wlp (setting (SamePrices T₀) t) anywhere
      (fun r l' => l'.Untouched ∧ PricedObj T₀ stock_id l'
        ∧ ∀ stock, r = .ok stock → Priced T₀ stock_id stock.price_minor_units)
      (getStock stock_id) l := by
  refine wlp_bind (readStock_priced stock_id hw hp) ?_ fun found l' _ hl' => ?_
  · exact fun e l' hl' => ⟨hl'.1, hl'.2.1, fun _ hc => nomatch hc⟩
  · cases found with
    | none => exact ⟨trivial, hl'.1, hl'.2.1, fun _ hc => nomatch hc⟩
    | some stock =>
        refine ⟨trivial, hl'.1, hl'.2.1, fun x hx => ?_⟩
        obtain rfl : stock = x := Except.ok.inj hx
        exact hl'.2.2 stock rfl

/-- The UPDATE of `reserve` leaves the price of the loaded object alone, whether
or not it matched a row. -/
theorem syncStock_priced {request : ReserveRequest} (hp : PricedObj T₀ request.stock_id l) :
    PricedObj T₀ request.stock_id (l.sync (reserveUpdate request)) := by
  intro x hx
  have hsync : World.syncStock l.session.objs (reserveUpdate request) (.stock request.stock_id)
      = some (.stock x) := hx
  have hid : (reserveUpdate request).id = request.stock_id := rfl
  unfold World.syncStock at hsync
  rw [hid] at hsync
  cases hobj : l.session.objs (.stock request.stock_id) with
  | none =>
      rw [hobj] at hsync
      exact hp x hsync
  | some row =>
      rw [hobj] at hsync
      cases row with
      | stock s =>
          -- the SET clause is applied to the object, or it is not
          by_cases hc : (reserveUpdate request).cond s = true
          · simp only [hc, if_true, Function.update_self] at hsync
            obtain rfl := Row.stock.inj (Option.some.inj hsync)
            exact hp s hobj
          · simp only [hc] at hsync
            exact hp x hsync
      | order o => exact hp x hsync
      | payment p => exact hp x hsync
      | outbox e => exact hp x hsync

/-- Whatever comes of an attempt to reserve, the loaded object keeps its price. -/
theorem reserve_priced (request : ReserveRequest) (hw : l.Untouched)
    (hp : PricedObj T₀ request.stock_id l) :
    wlp (setting (SamePrices T₀) t) anywhere
      (fun _ l' => PricedObj T₀ request.stock_id l') (reserve request) l := by
  unfold reserve
  split
  next => exact ⟨trivial, hp⟩
  next =>
    refine wlp_bind (readStock_priced request.stock_id hw hp) (fun _ _ h => h.2.1)
      fun found l' _ hl' => ?_
    obtain ⟨hw', hp', -⟩ := hl'
    cases found with
    | none => exact ⟨trivial, hp'⟩
    | some stock =>
        show wlp _ _ _ (if _ then _ else if _ then _ else _) l'
        split_ifs
        · exact ⟨trivial, hp'⟩
        · exact ⟨trivial, hp'⟩
        · refine wlp_updateStock trivial hw'.1 (fun _ => hp') ?_ fun s _ _ => ?_
          · intro _ _ _ _
            exact ⟨trivial, syncStock_priced hp'⟩
          · exact wlp_loaded trivial ⟨trivial, syncStock_priced hp'⟩

/-- The event of an order is within the bounds of an envelope. -/
theorem orderEnvelope_ok (event_id : Uuid) (order : Order) :
    ∃ envelope, EventEnvelope.mk? event_id "orders.order_created" 1 "Order" order.id.str
      (orderCreated order) = .ok envelope := by
  have hid : 1 ≤ order.id.str.length ∧ order.id.str.length ≤ 128 := by
    rw [Uuid.length_str]
    omega
  unfold EventEnvelope.mk?
  rw [dif_pos (by decide), dif_pos (by omega), dif_pos (by decide), dif_pos hid]
  exact ⟨_, rfl⟩

/-- Its payload is written by pydantic and by `json.dumps`. -/
theorem orderCreated_written (order : Order) :
    (∃ j, (orderCreated order).dump = some j) ∧ ∃ text, dumpsChars (orderCreated order) = some text := by
  refine ⟨⟨_, rfl⟩, ?_⟩
  simp [orderCreated, dumpsChars, dumpsItems, objectText, sortable]

/-- So its outbox row can be built. -/
theorem orderOutbox_ok (uuid5 : Uuid5) {event_id : Uuid} {order : Order} {envelope : EventEnvelope}
    (h : EventEnvelope.mk? event_id "orders.order_created" 1 "Order" order.id.str
      (orderCreated order) = .ok envelope) :
    ∃ outbox, outboxRow uuid5 envelope "orders.events" = .ok outbox := by
  obtain ⟨-, -, -, -, -, hpayload⟩ := EventEnvelope.mk?_fields h
  obtain ⟨⟨j, hj⟩, text, htext⟩ := orderCreated_written order
  have hdump : envelope.modelDump = .ok (.obj (envelope.dumpFields j)) := by
    unfold EventEnvelope.modelDump
    rw [hpayload, hj]
  have hhash : ∃ id, envelope.contentHash uuid5 = .ok id := by
    unfold EventEnvelope.contentHash dumps
    rw [EventEnvelope.dumpsChars_hashed, hpayload, htext]
    exact ⟨_, rfl⟩
  obtain ⟨id, hid⟩ := hhash
  unfold outboxRow
  rw [hdump, hid]
  exact ⟨_, rfl⟩

/-- **After a reservation only the flush can fail**, and what is flushed is the
order and the event that tells of it. -/
theorem recordOrder_told (uuid5 : Uuid5) (request : PlaceOrderRequest) (stock : Stock)
    (rr : ReserveResult) (hprice : Priced T₀ request.stock_id stock.price_minor_units)
    (hpend : l.session.pending = []) :
    wlp (setting (SamePrices T₀) t) anywhere (toldPost T₀ uuid5 request)
      (recordOrder uuid5 request stock rr) l := by
  refine wlp_uuid4 trivial fun order_id => ?_
  refine wlp_uuid4 trivial fun event_id => ?_
  cases orderEnvelope_ok event_id (newOrder request stock rr order_id) with
  | intro envelope hmade =>
      cases orderOutbox_ok uuid5 hmade with
      | intro outbox hbuilt =>
          rw [hmade]
          show wlp _ _ _ (lift (outboxRow uuid5 envelope "orders.events") >>= _) _
          rw [hbuilt]
          -- the order and the outbox row wait for one flush
          refine wlp_add trivial (wlp_add trivial (wlp_flush trivial ?_ ?_))
          · intro e he
            refine Or.inr ⟨he, newOrder request stock rr order_id, outbox, ?_⟩
            show (l.session.pending ++ _) ++ _ = _
            rw [hpend]
            rfl
          · intro now d d' _ _ _
            refine ⟨trivial, stock.price_minor_units, hprice, rfl, ?_, hbuilt⟩
            have hid : envelope.event_id = event_id := (EventEnvelope.mk?_fields hmade).1
            show EventEnvelope.mk? envelope.event_id _ _ _ _ _ = _
            rw [hid]
            exact hmade

/-- An attempt that has lost the race leaves nothing behind. -/
theorem attempts_told (uuid5 : Uuid5) (request : PlaceOrderRequest) : ∀ (n : Nat)
    (last_exc : Option Exn) {l : Local}, l.Untouched → PricedObj T₀ request.stock_id l →
    wlp (setting (SamePrices T₀) t) anywhere (toldPost T₀ uuid5 request)
      (attempts uuid5 request n last_exc) l := by
  intro n
  induction n with
  | zero =>
      intro last_exc l hl _
      cases last_exc with
      | none => exact ⟨trivial, Or.inl hl⟩
      | some e => exact ⟨trivial, Or.inl hl⟩
  | succ n ih =>
      intro last_exc l hl hp
      refine wlp_bind (getStock_priced request.stock_id hl hp) (fun _ _ h => Or.inl h.1) ?_
      intro stock l₁ _ h₁
      obtain ⟨hl₁, hp₁, hstock⟩ := h₁
      refine wlp_handle (fun r l₂ _ hr => ?_) (wlp_and (reserve_wlp _ hl₁) (reserve_priced _ hl₁ hp₁))
      obtain ⟨hr, hp₂⟩ := hr
      cases r with
      | ok rr =>
          obtain ⟨s, hs⟩ := hr
          exact recordOrder_told uuid5 request stock rr (hstock stock rfl) hs.pending
      | error exc =>
          -- a lost race is tried again, anything else is raised
          show wlp _ _ _ (if _ then _ else _) l₂
          split
          · exact ih (some exc) hr hp₂
          · exact ⟨trivial, Or.inl hr⟩

/-- **What `place_order` tells, or that it has left nothing behind.** -/
theorem placeOrder_told (uuid5 : Uuid5) (request : PlaceOrderRequest) (hl : l.Untouched)
    (hobj : l.session.objs (.stock request.stock_id) = none) :
    wlp (setting (SamePrices T₀) t) anywhere (toldPost T₀ uuid5 request)
      (placeOrder uuid5 request) l := by
  have hp : PricedObj T₀ request.stock_id l := by
    intro x hx
    rw [hobj] at hx
    cases hx
  unfold placeOrder
  split
  · exact ⟨trivial, Or.inl hl⟩
  · exact withSchemas_wlp (fun _ => Or.inl hl) (attempts_told uuid5 request _ none hl hp)

end Wlp

/-! ## §3. Every reachable state. -/

variable {uuid5 : Uuid5} {T : Table Row}

/-- The state after the actions `as`, from committed rows `T`. -/
def shopRun (uuid5 : Uuid5) (T : Table Row) (as : List (Action τ Call Choice)) :
    Pool Call Op Ans Exn Reply (World τ) τ :=
  (Pool.machine (shop uuid5)).run (Pool.init (World.init T)) as

/-- What `place_order` has told, next to what its contract already says. -/
def toldReply (T : Table Row) (uuid5 : Uuid5) (call : Call) (r : Except Exn Reply) (l : Local) :
    Prop :=
  match call with
  | .placeOrder request => ∃ x, r = x.map .placed ∧ toldPost T uuid5 request x l
  | _ => True

/-- Every call among the others, with what `place_order` tells. -/
def placementContract (uuid5 : Uuid5) (T : Table Row) :
    Contract (shop uuid5 : System Call Op Ans Exn Reply (World τ) τ Choice) Local :=
  (shopContract (SamePrices T) uuid5 (keeps_samePrices T)).also (toldReply T uuid5) (by
    intro t w call _
    show wlp (setting (SamePrices T) t) (along call) (toldReply T uuid5 call) (body uuid5 call)
      ((w.enter t).local t)
    rw [enter_local]
    have hbody := body_wlp (SamePrices T) uuid5 t call (w.local t).mine
    cases call with
    | placeOrder request => exact wlp_map (placeOrder_told uuid5 request ⟨rfl, rfl⟩ rfl)
    | reserve request => exact wlp_mono (fun _ _ _ => trivial) hbody
    | release request => exact wlp_mono (fun _ _ _ => trivial) hbody
    | processPayment request => exact wlp_mono (fun _ _ _ => trivial) hbody
    | deliver topic envelope => exact wlp_mono (fun _ _ _ => trivial) hbody)

/-- The exceptions that `place_order` raises before its final flush. -/
def Refused (e : Exn) : Prop :=
  e.isA .valueError = true ∨ e.isA .stockNotFoundError = true ∨ e.isA .outOfStockError = true
    ∨ e.isA .concurrentUpdateError = true

/-- A flush raises none of them. -/
theorem not_refused_of_flush {e : Exn} (h : FlushError e) : ¬ Refused e := by
  have hcls : ∀ cls : ExnClass, (cls = .operationalError ∨ cls = .cacheUnavailableError
      ∨ (∃ name, cls = .foreign name) ∨ cls = .dataError ∨ cls = .integrityError
      ∨ cls = .staleDataError) →
      cls.isSubclass .valueError = false ∧ cls.isSubclass .stockNotFoundError = false
        ∧ cls.isSubclass .outOfStockError = false
        ∧ cls.isSubclass .concurrentUpdateError = false := by
    intro cls hc
    rcases hc with rfl | rfl | ⟨name, rfl⟩ | rfl | rfl | rfl <;> exact ⟨rfl, rfl, rfl, rfl⟩
  -- what a flush raises
  have hkind : e.cls = .operationalError ∨ e.cls = .cacheUnavailableError
      ∨ (∃ name, e.cls = .foreign name) ∨ e.cls = .dataError ∨ e.cls = .integrityError
      ∨ e.cls = .staleDataError := by
    rcases h with ⟨f, rfl⟩ | hd | hi | hs
    · cases f with
      | operational msg => exact Or.inl rfl
      | cacheUnavailable msg => exact Or.inr (Or.inl rfl)
      | foreign name msg => exact Or.inr (Or.inr (Or.inl ⟨name, rfl⟩))
    · exact Or.inr (Or.inr (Or.inr (Or.inl hd)))
    · exact Or.inr (Or.inr (Or.inr (Or.inr (Or.inl hi))))
    · exact Or.inr (Or.inr (Or.inr (Or.inr (Or.inr hs))))
  obtain ⟨hv, hn, ho, hc⟩ := hcls e.cls hkind
  rintro (h | h | h | h)
  · exact absurd (h.symm.trans hv) (by decide)
  · exact absurd (h.symm.trans hn) (by decide)
  · exact absurd (h.symm.trans ho) (by decide)
  · exact absurd (h.symm.trans hc) (by decide)

/-- The transaction of a `place_order` that has returned, on committed rows `U`:
one reservation of the row `s`, one order and one outbox row, both new. -/
structure Complete (uuid5 : Uuid5) (request : PlaceOrderRequest) (U : Table Row)
    (res : PlaceOrderResult) (s : Stock) (now : Int) (l : Local) : Prop where
  stock : U.lookup (.stock request.stock_id) = some (.stock s)
  new_order : U.lookup (.order res.order.id) = none
  new_outbox : U.lookup (.outbox res.outbox_event.id) = none
  writes : l.part.writes = [.outbox { res.outbox_event with created_at := now },
    .order res.order, .stock (s.reserve request.quantity)]
  pending : l.session.pending = []
  status : res.order.status = .reserved
  stock_id : res.order.stock_id = request.stock_id
  quantity : res.order.quantity = request.quantity
  total : res.order.total_amount_minor_units = s.price_minor_units * request.quantity
  outbox_id : res.outbox_event.id = res.envelope.event_id
  aggregate_id : res.outbox_event.aggregate_id = res.envelope.aggregate_id
  dedupe_id : res.envelope.contentHash uuid5 = .ok res.outbox_event.dedupe_id
  payload : res.envelope.modelDump = .ok res.outbox_event.payload
  names : res.envelope.aggregate_id = res.order.id.str
  names_payload : orderIdOf res.envelope.payload = .ok (some res.order.id)

/-- The session's transaction contains no write: a commit changes nothing. -/
def NothingWritten (w : World τ) (t : τ) : Prop :=
  (w.local t).Untouched ∧ ∀ c w', w.commit c t = some w' → w'.base = w.base

/-- The event of an order names it. -/
theorem orderIdOf_orderCreated (order : Order) :
    orderIdOf (orderCreated order) = .ok (some order.id) := by
  show Except.ok (Uuid.parse order.id.str) = _
  rw [Uuid.parse_str]

/-- What is written and what is told, put together. -/
theorem complete_of_told {request : PlaceOrderRequest} {res : PlaceOrderResult} {s : Stock}
    {now price : Int} {w : World τ} {t : τ} (hprices : SamePrices T w.base)
    (hp : Placed request res s (World.stamp now (.outbox res.outbox_event)) (w.local t))
    (hprice : Priced T request.stock_id price) (ht : Told uuid5 request price res) :
    Complete uuid5 request w.base res s now (w.local t) := by
  have hstock := lookup_of_locked hp.stock
  -- the row that was reserved has the price that was charged
  have hsame : price = s.price_minor_units := by
    obtain ⟨s₀, h₀, rfl⟩ := hprice
    obtain ⟨s₁, h₁, hs₁⟩ := hprices request.stock_id s hstock
    rw [h₀] at h₁
    rw [hs₁, Row.stock.inj (Option.some.inj h₁)]
  obtain ⟨hid, hagg, -, -, hdump, hhash⟩ := outboxRow_ok ht.outbox
  obtain ⟨-, -, -, -, hnames, hpayload⟩ := EventEnvelope.mk?_fields ht.envelope
  obtain ⟨rr, st, heq⟩ := hp.order_eq
  refine ⟨hstock, lookup_of_locked hp.order, ?_, hp.writes, hp.pending, ?_, ?_, ?_, ?_, hid, hagg,
    hhash, hdump, hnames, ?_⟩
  · rw [← hp.outbox_key]
    exact lookup_of_locked hp.outbox
  · rw [heq]
    rfl
  · rw [heq]
    rfl
  · rw [heq]
    rfl
  · rw [ht.total, hsame]
  · rw [hpayload]
    exact orderIdOf_orderCreated res.order

/-- **`place_order` is all or nothing.**  In every state that any interleaving
of the platform's calls reaches: a `place_order` that has returned holds one
reservation, one RESERVED order at the row's price and the outbox row of the
returned envelope, and a commit publishes just these; one that has raised holds
no write at all, unless it raised in its final flush, which raises none of the
exceptions for a bad quantity, a missing stock row, too little stock or three
lost attempts. -/
theorem place_order_all_or_nothing (hT : ∀ r ∈ T.rows, r.violation = .ok ())
    (as : List (Action τ Call Choice)) (t : τ) (request : PlaceOrderRequest) :
    (∀ res, (shopRun uuid5 T as).thread t = some ⟨.placeOrder request, .ret (.ok (.placed res))⟩ →
      ∃ s now, Complete uuid5 request (shopRun uuid5 T as).shared.base res s now
          ((shopRun uuid5 T as).shared.local t)
        ∧ ∀ c w', (shopRun uuid5 T as).shared.commit c t = some w' →
            w'.base = (((shopRun uuid5 T as).shared.base.upsert
                (.stock (s.reserve request.quantity))).upsert (.order res.order)).upsert
              (.outbox { res.outbox_event with created_at := now }))
    ∧ ∀ e, (shopRun uuid5 T as).thread t = some ⟨.placeOrder request, .ret (.error e)⟩ →
        (NothingWritten (shopRun uuid5 T as).shared t
          ∨ (FlushError e ∧ AtFlush ((shopRun uuid5 T as).shared.local t)))
        ∧ (Refused e → NothingWritten (shopRun uuid5 T as).shared t) := by
  have hreach : (placementContract uuid5 T).Holds (shopRun uuid5 T as) :=
    (placementContract uuid5 T).reachable ⟨inv_init hT, SamePrices.refl T⟩ as
  have hinv : Inv (shopRun uuid5 T as).shared := hreach.inv.1
  refine ⟨fun res ht => ?_, fun e ht => ?_⟩
  · obtain ⟨⟨x, hx, hplaced⟩, ⟨y, hy, htold⟩⟩ :=
      Contract.Holds.post (placementContract uuid5 T) hreach ht
    cases x with
    | error e => cases hx
    | ok rx =>
        cases y with
        | error e => cases hy
        | ok ry =>
            obtain rfl := Reply.placed.inj (Except.ok.inj hx)
            obtain rfl := Reply.placed.inj (Except.ok.inj hy)
            obtain ⟨s, now, hp⟩ := hplaced
            obtain ⟨price, hprice, htold⟩ := htold
            -- both contracts speak of the same result
            have hcomplete := complete_of_told hreach.inv.2 hp hprice htold
            refine ⟨s, now, hcomplete, fun c w' hc => ?_⟩
            rw [commit_of_flushed hinv hc hcomplete.pending, hcomplete.writes]
            rfl
  · obtain ⟨-, ⟨y, hy, htold⟩⟩ := Contract.Holds.post (placementContract uuid5 T) hreach ht
    cases y with
    | ok ry => cases hy
    | error e' =>
        obtain rfl := Except.error.inj hy
        have hnothing : ((shopRun uuid5 T as).shared.local t).Untouched →
            NothingWritten (shopRun uuid5 T as).shared t :=
          fun hl => ⟨hl, fun c w' hc => commit_untouched hinv hc hl⟩
        -- raised before the flush, or in it
        rcases htold with hl | hflush
        · exact ⟨Or.inl (hnothing hl), fun _ => hnothing hl⟩
        · exact ⟨Or.inr hflush, fun hr => absurd hr (not_refused_of_flush hflush.1)⟩

/-- Session 0 orders eleven of ten pieces. -/
def elevenRun : List (Action Nat Call Choice) :=
  [.start 0 (.placeOrder ⟨Uuid.ofNat 7, tenStock.id, 11⟩), .step 0 {}, .step 0 {}, .step 0 {}]

/-- Session 0 orders three of ten pieces; between its read and its UPDATE
session 1 reserves two, so the first attempt is lost. -/
def retriedRun : List (Action Nat Call Choice) :=
  [.start 0 (.placeOrder ⟨Uuid.ofNat 7, tenStock.id, 3⟩), .step 0 {}, .step 0 {}, .step 0 {},
    .start 1 (.reserve ⟨tenStock.id, 2, 1⟩), .step 1 {}, .step 1 {}, .step 1 {}, .commit 1 {},
    .step 0 {}, .step 0 {}, .step 0 {}, .step 0 {}, .step 0 {},
    .step 0 { uuid := Uuid.ofNat 2 }, .step 0 { uuid := Uuid.ofNat 3 }, .step 0 {}, .step 0 {},
    .step 0 {}]

theorem retriedRun_returns : ∃ res, (shopRun (fun c => c) tenTable retriedRun).thread 0
    = some ⟨.placeOrder ⟨Uuid.ofNat 7, tenStock.id, 3⟩, .ret (.ok (.placed res))⟩ := ⟨_, rfl⟩

/-- The second attempt is counted once, on the eight pieces that are left; the order
of eleven leaves nothing. -/
theorem place_order_all_or_nothing_retried :
    (∃ res s now, Complete (fun c => c) ⟨Uuid.ofNat 7, tenStock.id, 3⟩
        (shopRun (fun c => c) tenTable retriedRun).shared.base res s now
        ((shopRun (fun c => c) tenTable retriedRun).shared.local 0)
      ∧ s.available = 8 ∧ s.version = 2)
    ∧ NothingWritten (shopRun (fun c => c) tenTable elevenRun).shared 0 := by
  obtain ⟨res, hres⟩ := retriedRun_returns
  obtain ⟨s, now, hcomplete, -⟩ :=
    (place_order_all_or_nothing tenTable_accepted retriedRun 0 _).1 res hres
  have hrow : (shopRun (fun c => c) tenTable retriedRun).shared.base.lookup (.stock tenStock.id)
      = some (.stock { tenStock with available := 8, version := 2 }) := rfl
  obtain rfl := Row.stock.inj (Option.some.inj (hrow.symm.trans hcomplete.stock))
  exact ⟨⟨res, _, now, hcomplete, rfl, rfl⟩,
    ((place_order_all_or_nothing tenTable_accepted elevenRun 0
      ⟨Uuid.ofNat 7, tenStock.id, 11⟩).2 (insufficientStock ⟨tenStock.id, 11, 1⟩ 10) rfl).2
      (Or.inr (Or.inr (Or.inl (by decide))))⟩

/-- Of eight pieces five are left. -/
example : (((shopRun (fun c => c) tenTable retriedRun).shared.local 0).part.writes.map
    fun | .stock s => (s.available, s.version) | _ => (0, 0)) = [(0, 0), (0, 0), (5, 3)] := by
  decide +kernel

end Nimbus
