/-
  Nimbus.Saga.Conservation
  ────────────────────────
  **STOCK CONSERVATION ACROSS THE SAGA, AND WHERE IT BREAKS.**

  What an order has reserved is either still on the order, or back in the
  stock.  The handler of a failed payment gives the quantity back whether or
  not `update_order_status` has changed the order: delivered for an order that
  is already PAID or FAILED it gives back what was given back, or sold, before.

    • `share`            — available stock plus what orders hold of it;
    • `Linked`           — every order is for a stock row that is there;
    • `Effect.share`     — **each call of the saga keeps the share, the release
                           for a settled order apart**;
    • `conservation_iff` — **a run conserves stock exactly when it commits no
                           such release.**
-/
import Nimbus.Saga.Orders

namespace Nimbus

open Lib Orders

variable {τ : Type} [DecidableEq τ]

/-! ## §1. Shares. -/

def availability : Row → Int
  | .stock s => s.available
  | _ => 0

/-- What an order that is not FAILED holds of the stock row `id`. -/
def held (id : Uuid) : Row → Int
  | .order o => if o.stock_id = id ∧ o.status ≠ .failed then o.quantity else 0
  | _ => 0

/-- What is available of the stock row `id`, and what its orders hold. -/
def share (id : Uuid) (T : Table Row) : Int :=
  T.weight availability (.stock id) + T.sum (held id)

/-- For every stock row of `T₀`: available plus the quantities of its orders
that are not FAILED is what was available in `T₀`. -/
def Conserved (T₀ T : Table Row) : Prop :=
  ∀ s₀, T₀.lookup (.stock s₀.id) = some (.stock s₀) →
    ∃ s, T.lookup (.stock s₀.id) = some (.stock s)
      ∧ s.available + T.sum (held s₀.id) = s₀.available

theorem share_of_lookup {T : Table Row} {id : Uuid} {s : Stock}
    (h : T.lookup (.stock id) = some (.stock s)) :
    share id T = s.available + T.sum (held id) := by
  unfold share
  rw [Table.weight_of_lookup h]
  rfl

/-- Only the key of an order holds anything. -/
theorem weight_held {T : Table Row} {k : RowKey} (id : Uuid) (h : ∀ i, k ≠ .order i) :
    T.weight (held id) k = 0 := by
  cases hrow : T.lookup k with
  | none => exact Table.weight_of_none hrow
  | some row =>
      have hkey := Table.key_of_lookup hrow
      rw [Table.weight_of_lookup hrow]
      cases row with
      | order o => exact absurd hkey.symm (h o.id)
      | stock s => rfl
      | payment p => rfl
      | outbox e => rfl

theorem share_upsert_stock (T : Table Row) (s : Stock) (id : Uuid) :
    share id (T.upsert (.stock s))
      = (if s.id = id then s.available else T.weight availability (.stock id))
        + T.sum (held id) := by
  unfold share
  rw [Table.sum_upsert, weight_held id (fun _ hc => RowKey.noConfusion hc), Table.weight_upsert]
  show (if RowKey.stock id = .stock s.id then s.available else _) + (_ - 0 + 0) = _
  by_cases h : s.id = id
  · subst h
    rw [if_pos rfl, if_pos rfl]
    ring
  · rw [if_neg (fun hc => h (RowKey.stock.inj hc).symm), if_neg h]
    ring

theorem share_upsert_order (T : Table Row) (o : Order) (id : Uuid) :
    share id (T.upsert (.order o))
      = share id T - T.weight (held id) (.order o.id) + held id (.order o) := by
  unfold share
  rw [Table.sum_upsert, Table.weight_upsert_ne fun hc => RowKey.noConfusion hc]
  show _ + (_ - T.weight (held id) (.order o.id) + _) = _
  ring

theorem share_upsert_outbox (T : Table Row) {row : Row} {i : Uuid} (h : key row = .outbox i)
    (id : Uuid) : share id (T.upsert row) = share id T := by
  have hrow : held id row = 0 := by
    cases row with
    | outbox e => rfl
    | stock s => cases h
    | order o => cases h
    | payment p => cases h
  unfold share
  rw [Table.sum_upsert, hrow, h, weight_held id (fun _ hc => RowKey.noConfusion hc),
    Table.weight_upsert_ne (h ▸ fun hc => RowKey.noConfusion hc)]
  ring

/-! ## §2. Every order is for a stock row that is there. -/

/-- The stock rows are those of `T₀`, and the orders are for them. -/
structure Linked (T₀ T : Table Row) : Prop where
  stock : ∀ id, (T.lookup (.stock id)).isSome = (T₀.lookup (.stock id)).isSome
  order : ∀ o, Row.order o ∈ T.rows → (T₀.lookup (.stock o.stock_id)).isSome = true

/-- A write that is neither an order nor a new stock row. -/
theorem Linked.upsert {T₀ T : Table Row} (h : Linked T₀ T) {row : Row} (ho : ∀ o, row ≠ .order o)
    (hs : ∀ s, row = .stock s → (T.lookup (.stock s.id)).isSome = true) :
    Linked T₀ (T.upsert row) := by
  refine ⟨fun id => ?_, fun o hmem => ?_⟩
  · rw [← h.stock id]
    by_cases hid : RowKey.stock id = key row
    · obtain ⟨s, rfl, rfl⟩ := stock_of_key hid.symm
      rw [Table.lookup_upsert_self (key_stock s), hs s rfl]
      rfl
    · rw [Table.lookup_upsert_ne hid]
  · rcases Table.mem_upsert.mp hmem with hrow | ⟨hmem, -⟩
    · exact absurd hrow.symm (ho o)
    · exact h.order o hmem

/-- An order for a stock row that is there. -/
theorem Linked.upsert_order {T₀ T : Table Row} (h : Linked T₀ T) {o : Order}
    (ho : (T₀.lookup (.stock o.stock_id)).isSome = true) : Linked T₀ (T.upsert (.order o)) := by
  refine ⟨fun id => ?_, fun o' hmem => ?_⟩
  · rw [← h.stock id, Table.lookup_upsert_ne fun hc => RowKey.noConfusion hc]
  · rcases Table.mem_upsert.mp hmem with hrow | ⟨hmem, -⟩
    · obtain rfl := Row.order.inj hrow
      exact ho
    · exact h.order o' hmem

theorem Linked.upsert_stock {T₀ T : Table Row} (h : Linked T₀ T) {s : Stock} {i : Uuid}
    (hs : T.lookup (.stock i) = some (.stock s)) (s' : Stock) (hid : s'.id = s.id) :
    Linked T₀ (T.upsert (.stock s')) := by
  refine h.upsert (fun o hc => nomatch hc) fun s'' hs'' => ?_
  obtain rfl := Row.stock.inj hs''
  have hkey : s.id = i := RowKey.stock.inj (Table.key_of_lookup hs)
  rw [hid, hkey, hs]
  rfl

/-- Every call keeps the links. -/
theorem keeps_linked {uuid5 : Uuid5} (T₀ : Table Row) : Keeps (Linked T₀) uuid5 := by
  intro call r T T' h he
  cases he with
  | reserved hs => exact h.upsert_stock hs _ rfl
  | released hs => exact h.upsert_stock hs _ rfl
  | releasedNothing => exact h
  | reserveRefused => exact h
  | releaseRefused => exact h
  | @placed request result _ s row hs _ _ horder _ _ hkey =>
      -- the new order names the stock row it has reserved from
      have hstock : (T₀.lookup (.stock result.order.stock_id)).isSome = true := by
        obtain ⟨rr, st, heq⟩ := horder
        have hsid : result.order.stock_id = request.stock_id := by rw [heq]; rfl
        rw [hsid, ← h.stock, hs]
        rfl
      have hplaced := (h.upsert_stock hs (s.reserve request.quantity) rfl).upsert_order hstock
      refine hplaced.upsert ?_ ?_
      · rintro o rfl
        cases hkey
      · rintro s' rfl
        cases hkey
  | processed =>
      -- a payment and an outbox row are neither orders nor stock
      refine (h.upsert ?_ ?_).upsert ?_ ?_
      · exact fun o hc => nomatch hc
      · exact fun s hc => nomatch hc
      · exact fun o hc => nomatch hc
      · exact fun s hc => nomatch hc
  | ignored => exact h
  | @delivered _ _ status order_id o _ T₁ hev ho hc =>
      have horder := h.order o (Table.mem_of_lookup ho)
      have h₁ : Linked T₀ T₁ := by
        cases hc with
        | none _ => exact h
        | release _ hs => exact h.upsert_stock hs _ rfl
        | missing => exact h
      unfold setStatus
      split
      · exact h₁.upsert_order (o := { o with status := status }) horder
      · exact h₁

/-! ## §3. What the calls do to the share. -/

/-- The guards let FAILED pass exactly from PENDING and RESERVED. -/
theorem applies_failed (current : OrderStatus) :
    applies current .failed = true ↔ current = .pending ∨ current = .reserved := by
  cases current <;> decide

/-- They let PAID pass from RESERVED only. -/
theorem applies_paid {current : OrderStatus} (h : applies current .paid = true) :
    current = .reserved := by
  cases current <;> first | rfl | exact absurd h (by decide)

/-- A delivery that names an order which is neither PENDING nor RESERVED any
more, and reports that its payment has failed. -/
def FailsSettled (topic : String) (envelope : EventEnvelope) (o : Order) (T : Table Row) : Prop :=
  eventOf topic envelope = some (.failed, o.id) ∧ T.lookup (.order o.id) = some (.order o)
    ∧ ¬ (o.status = .pending ∨ o.status = .reserved)

/-- A status change moves what a failed order held. -/
theorem share_setStatus {T : Table Row} {o : Order} {status : OrderStatus}
    (ho : T.lookup (.order o.id) = some (.order o)) (id : Uuid) :
    share id (setStatus T o status)
      = share id T - (if applies o.status status = true
          then held id (.order o) - held id (.order { o with status := status }) else 0) := by
  unfold setStatus
  by_cases happ : applies o.status status = true
  · rw [if_pos happ, if_pos happ, share_upsert_order, Table.weight_of_lookup ho]
    ring
  · rw [if_neg happ, if_neg happ]
    ring

/-- A release gives the quantity to the order's stock row. -/
theorem share_release {T : Table Row} {o : Order} {s : Stock}
    (hs : T.lookup (.stock o.stock_id) = some (.stock s)) (id : Uuid) :
    share id (T.upsert (.stock (s.release o.quantity)))
      = share id T + (if o.stock_id = id then o.quantity else 0) := by
  have hsid : s.id = o.stock_id := RowKey.stock.inj (Table.key_of_lookup hs)
  rw [share_upsert_stock]
  show (if s.id = id then s.available + o.quantity else _) + _ = _
  by_cases hid : o.stock_id = id
  · subst hid
    rw [if_pos hsid, if_pos rfl, share_of_lookup hs]
    ring
  · rw [if_neg (fun hc => hid (hsid.symm.trans hc)), if_neg hid]
    unfold share
    ring

/-- A release for an open order gives back what the order held; for any other
order it adds to the share. -/
theorem share_failed {T : Table Row} {o : Order} {s : Stock}
    (ho : T.lookup (.order o.id) = some (.order o))
    (hs : T.lookup (.stock o.stock_id) = some (.stock s)) (id : Uuid) :
    share id (setStatus (T.upsert (.stock (s.release o.quantity))) o .failed)
      = share id T + (if o.status = .pending ∨ o.status = .reserved then 0
          else if o.stock_id = id then o.quantity else 0) := by
  have ho₁ : (T.upsert (.stock (s.release o.quantity))).lookup (.order o.id)
      = some (.order o) := (lookup_order_upsert_stock _ _).trans ho
  rw [share_setStatus ho₁, share_release hs]
  by_cases hopen : o.status = .pending ∨ o.status = .reserved
  · have hne : o.status ≠ .failed := by
      rcases hopen with hp | hp <;> (rw [hp]; decide)
    -- a failed order holds nothing
    have hafter : held id (.order { o with status := .failed }) = 0 :=
      if_neg fun hc => hc.2 rfl
    have hbefore : held id (.order o) = if o.stock_id = id then o.quantity else 0 := by
      simp [held, hne]
    rw [if_pos ((applies_failed o.status).mpr hopen), if_pos hopen, hafter, hbefore]
    ring
  · -- a settled order keeps its status
    have happ : ¬ applies o.status .failed = true :=
      fun h => hopen ((applies_failed o.status).mp h)
    rw [if_neg happ, if_neg hopen]
    ring

/-- What an order placed just now holds was available before. -/
theorem share_placed {T : Table Row} {s : Stock} {o : Order} {row : Row} {i : Uuid}
    (hs : T.lookup (.stock o.stock_id) = some (.stock s))
    (hfree : T.lookup (.order o.id) = none) (hstatus : o.status = .reserved)
    (hkey : key row = .outbox i) (id : Uuid) :
    share id (((T.upsert (.stock (s.reserve o.quantity))).upsert (.order o)).upsert row)
      = share id T := by
  have hsid : s.id = o.stock_id := RowKey.stock.inj (Table.key_of_lookup hs)
  have hnone : (T.upsert (.stock (s.reserve o.quantity))).lookup (.order o.id) = none :=
    (lookup_order_upsert_stock _ _).trans hfree
  rw [share_upsert_outbox _ hkey, share_upsert_order, Table.weight_of_none hnone,
    share_upsert_stock]
  show (if s.id = id then s.available - o.quantity else _) + _ - 0
    + (if o.stock_id = id ∧ o.status ≠ .failed then o.quantity else 0) = _
  by_cases hid : o.stock_id = id
  · -- what leaves the row is what the order holds
    subst hid
    have hne : o.status ≠ .failed := by
      rw [hstatus]
      decide
    rw [if_pos hsid, if_pos ⟨rfl, hne⟩, share_of_lookup hs]
    ring
  · rw [if_neg (fun hc => hid (hsid.symm.trans hc)), if_neg (fun hc => hid hc.1)]
    unfold share
    ring

/-- **What a committed call of the saga does to every share**: nothing, unless it
is the release for an order that is settled already. -/
theorem Effect.share {T₀ T T' : Table Row} {uuid5 : Uuid5} {call : SagaCall}
    {r : Except Exn Reply} (he : Effect (Linked T₀) uuid5 call.toCall r T T') :
    ((∀ topic envelope o, call = .deliver topic envelope → ¬ FailsSettled topic envelope o T)
        ∧ ∀ id, share id T' = share id T)
    ∨ ∃ topic envelope o, call = .deliver topic envelope ∧ FailsSettled topic envelope o T
        ∧ 0 < o.quantity
        ∧ ∀ id, share id T' = share id T + (if o.stock_id = id then o.quantity else 0) := by
  cases call with
  | placeOrder request =>
      change Effect (Linked T₀) uuid5 (.placeOrder request) r T T' at he
      cases he with
      | @placed _ result _ s row hs hq ha horder hfree hfree' hkey =>
          obtain ⟨rr, st, heq⟩ := horder
          have hstock : result.order.stock_id = request.stock_id := by rw [heq]; rfl
          have hquantity : result.order.quantity = request.quantity := by rw [heq]; rfl
          have hstatus : result.order.status = .reserved := by rw [heq]; rfl
          refine Or.inl ⟨fun _ _ _ hc => (nomatch hc), fun id => ?_⟩
          rw [← hquantity]
          exact share_placed (hstock ▸ hs) hfree hstatus hkey id
  | deliver topic envelope =>
      change Effect (Linked T₀) uuid5 (.deliver topic envelope) r T T' at he
      cases he with
      | ignored hev =>
          refine Or.inl ⟨?_, fun _ => rfl⟩
          rintro _ _ o hc ⟨hev', -⟩
          obtain ⟨rfl, rfl⟩ := SagaCall.deliver.inj hc
          rw [hev] at hev'
          cases hev'
      | @delivered _ _ status order_id o _ T₁ hev ho hc =>
          obtain rfl : o.id = order_id := RowKey.order.inj (Table.key_of_lookup ho)
          cases hc with
          | none hne =>
              -- PAID: a RESERVED order holds what it held
              obtain rfl : status = .paid := (eventOf_status hev).resolve_right hne
              refine Or.inl ⟨?_, fun id => ?_⟩
              · rintro _ _ o' hc ⟨hev', -⟩
                obtain ⟨rfl, rfl⟩ := SagaCall.deliver.inj hc
                rw [hev] at hev'
                cases hev'
              · rw [share_setStatus ho]
                split
                next happ =>
                  have hres := applies_paid happ
                  have hsame : held id (.order o) = held id (.order { o with status := .paid }) := by
                    unfold held
                    simp [hres]
                  rw [hsame]
                  ring
                next => ring
          | missing hq hJ ho' hnone =>
              have hsome := hJ.order o (Table.mem_of_lookup ho')
              rw [← hJ.stock, hnone] at hsome
              cases hsome
          | @release _ s hq hs =>
              by_cases hopen : o.status = .pending ∨ o.status = .reserved
              · -- what the order held goes back
                refine Or.inl ⟨?_, fun id => ?_⟩
                · rintro _ _ o' hc ⟨hev', ho', hno⟩
                  obtain ⟨rfl, rfl⟩ := SagaCall.deliver.inj hc
                  rw [hev] at hev'
                  have hid : o.id = o'.id := congrArg Prod.snd (Option.some.inj hev')
                  rw [← hid, ho] at ho'
                  obtain rfl := Row.order.inj (Option.some.inj ho')
                  exact hno hopen
                · rw [share_failed ho hs, if_pos hopen, add_zero]
              · -- the order holds nothing that could go back
                refine Or.inr ⟨topic, envelope, o, rfl, ⟨hev, ho, hopen⟩, hq, fun id => ?_⟩
                rw [share_failed ho hs, if_neg hopen]

/-! ## §4. Every run. -/

/-- The action commits the release for a settled order: a delivery of a failed
payment's event whose handler has returned. -/
def ReleasesAgain (uuid5 : Uuid5) (P : Pool SagaCall Op Ans Exn Reply (World τ) τ)
    (a : Action τ SagaCall Choice) : Prop :=
  ∃ t c topic envelope reply o, a = .commit t c
    ∧ P.thread t = some ⟨.deliver topic envelope, .ret (.ok reply)⟩
    ∧ FailsSettled topic envelope o P.shared.base ∧ Pool.act (sagaShop uuid5) P a ≠ none

variable {T : Table Row} {uuid5 : Uuid5}

/-- Conservation, read off the shares. -/
theorem conserved_iff {U : Table Row} (hU : Linked T U) :
    Conserved T U ↔ ∀ s₀, T.lookup (.stock s₀.id) = some (.stock s₀) →
      share s₀.id U = s₀.available := by
  constructor
  · intro h s₀ h₀
    obtain ⟨s, hs, hsum⟩ := h s₀ h₀
    rw [share_of_lookup hs]
    exact hsum
  · intro h s₀ h₀
    have hsome := hU.stock s₀.id
    rw [h₀] at hsome
    obtain ⟨row, hrow⟩ := Option.isSome_iff_exists.mp hsome
    obtain ⟨s, rfl, -⟩ := stock_of_lookup hrow
    refine ⟨s, hrow, ?_⟩
    rw [← share_of_lookup hrow]
    exact h s₀ h₀

/-- Without orders everything is available. -/
theorem linked_init (hnew : ∀ o, Row.order o ∉ T.rows) : Linked T T :=
  ⟨fun _ => rfl, fun o ho => absurd ho (hnew o)⟩

theorem conserved_init (hnew : ∀ o, Row.order o ∉ T.rows) : Conserved T T := by
  intro s₀ h₀
  have hsum : T.sum (held s₀.id) = 0 := by
    refine Table.sum_eq_zero fun row hrow => ?_
    cases row with
    | order o => exact absurd hrow (hnew o)
    | stock s => rfl
    | payment p => rfl
    | outbox e => rfl
  refine ⟨s₀, h₀, ?_⟩
  rw [hsum]
  omega

/-- The system, where every order is known to be linked. -/
def sagaContract (uuid5 : Uuid5) (T : Table Row) :
    Contract (sagaShop uuid5 (τ := τ)) Local :=
  (shopContract (Linked T) uuid5 (keeps_linked T)).comap SagaCall.toCall

def sagaEffects (uuid5 : Uuid5) (T : Table Row) :
    Effects (sagaContract uuid5 T (τ := τ)) (Table Row) :=
  (shopEffects (Linked T) uuid5 (keeps_linked T)).comap SagaCall.toCall

/-- **A step keeps conservation exactly when it commits no release for a settled
order.** -/
theorem conserved_step {P : Pool SagaCall Op Ans Exn Reply (World τ) τ}
    {a : Action τ SagaCall Choice} (hP : (sagaContract uuid5 T).Holds P)
    (hgood : Conserved T P.shared.base) :
    Conserved T ((Pool.machine (sagaShop uuid5)).next P a).shared.base
      ↔ ¬ ReleasesAgain uuid5 P a := by
  rcases (Pool.machine (sagaShop uuid5)).next_cases P a with ⟨P', hact, hnext⟩ | ⟨hact, hnext⟩
  · rw [hnext]
    have hP' := (sagaContract uuid5 T).act_holds hP hact
    rcases (sagaEffects uuid5 T).act_effect hP hact with ⟨hobs, -, hno⟩ |
      ⟨t, c, call, r, rfl, ht, -, hpost, he⟩
    · have hbase : P'.shared.base = P.shared.base := hobs
      rw [hbase]
      refine ⟨fun _ => ?_, fun _ => hgood⟩
      rintro ⟨t, c, _, _, _, _, ha, -⟩
      exact hno t c ha
    · have hshares := (conserved_iff hP.inv.2).mp hgood
      rcases Effect.share he with ⟨hopen, hsame⟩ | ⟨topic, envelope, o, rfl, hset, hq, hmore⟩
      · refine ⟨fun _ => ?_, fun _ => ?_⟩
        · rintro ⟨t', c', topic, envelope, reply, o, ha, ht', hset, -⟩
          obtain ⟨rfl, rfl⟩ := Action.commit.inj ha
          rw [ht] at ht'
          exact hopen topic envelope o (congrArg Thread.call (Option.some.inj ht')) hset
        · refine (conserved_iff hP'.inv.2).mpr fun s₀ h₀ => ?_
          exact (hsame s₀.id).trans (hshares s₀ h₀)
      · -- the stock row of the order is one of the initial ones
        have hlinked := hP.inv.2.order o (Table.mem_of_lookup hset.2.1)
        obtain ⟨row, hrow⟩ := Option.isSome_iff_exists.mp hlinked
        obtain ⟨s₀, rfl, hid⟩ := stock_of_lookup hrow
        refine ⟨fun h => ?_, fun h => ?_⟩
        · have h₀ : T.lookup (.stock s₀.id) = some (.stock s₀) := by
            rw [hid]
            exact hrow
          have hafter := (conserved_iff hP'.inv.2).mp h s₀ h₀
          have hbefore := hshares s₀ h₀
          have hchange : share s₀.id P'.shared.base = share s₀.id P.shared.base
              + (if o.stock_id = s₀.id then o.quantity else 0) := hmore s₀.id
          rw [if_pos hid.symm] at hchange
          omega
        · exfalso
          refine h ⟨t, c, topic, envelope, .handled, o, rfl, ?_, hset, ?_⟩
          · obtain ⟨x, rfl, -⟩ := hpost
            cases x with
            | ok u => exact ht
            | error e => cases he
          · have hsome : Pool.act (sagaShop uuid5) P (.commit t c) = some P' := hact
            rw [hsome]
            exact fun hc => nomatch hc
  · rw [hnext]
    refine ⟨fun _ => ?_, fun _ => hgood⟩
    rintro ⟨_, _, _, _, _, _, _, -, -, hsome⟩
    exact hsome hact

/-- **A run conserves stock exactly when it commits no release for an order that
is neither PENDING nor RESERVED any more.** -/
theorem conservation_iff (hT : ∀ r ∈ T.rows, r.violation = .ok ())
    (hnew : ∀ o, Row.order o ∉ T.rows) (as : List (Action τ SagaCall Choice)) :
    (∀ P ∈ (Pool.machine (sagaShop uuid5)).trace (Pool.init (World.init T)) as,
        Conserved T P.shared.base)
      ↔ (Pool.machine (sagaShop uuid5)).Along (fun P a => ¬ ReleasesAgain uuid5 P a)
          (Pool.init (World.init T)) as := by
  let K : Contract (sagaShop uuid5 (τ := τ)) Local := sagaContract uuid5 T
  have hinit : K.Holds (Pool.init (World.init T)) :=
    K.holds_init ⟨inv_init hT, linked_init hnew⟩
  exact (Pool.machine (sagaShop uuid5)).trace_forall_iff_along
    (I := fun P => K.Holds P) (G := fun P => Conserved T P.shared.base)
    (fun P a P' hP hact => K.act_holds hP hact) (fun P a hP hgood => conserved_step hP hgood)
    as _ hinit (conserved_init hnew)

/-- The same failure is delivered, handled and committed twice. -/
def failedTwiceRun : List (Action Nat SagaCall Choice) :=
  placeThree ++ handleEvent 1 failedEvent ++ handleEvent 2 failedEvent

/-- Of ten pieces, three ordered and given back twice, thirteen are available. -/
theorem conservation_fails_failedTwice :
    ¬ ∀ P ∈ (Pool.machine (sagaShop (fun c => c))).trace (Pool.init (World.init tenTable))
        failedTwiceRun, Conserved tenTable P.shared.base := by
  intro h
  have hend := h _ (Machine.run_mem_trace _ _ failedTwiceRun)
  obtain ⟨s, hs, hsum⟩ := hend tenStock rfl
  rw [← share_of_lookup hs] at hsum
  have hshare : share tenStock.id
      ((Pool.machine (sagaShop (fun c => c))).run (Pool.init (World.init tenTable))
        failedTwiceRun).shared.base = 13 := by
    decide +kernel
  rw [hshare] at hsum
  exact absurd hsum (by decide)

theorem conservation_iff_failedTwice :
    (∀ P ∈ (Pool.machine (sagaShop (fun c => c))).trace (Pool.init (World.init tenTable))
        failedTwiceRun, Conserved tenTable P.shared.base)
      ↔ (Pool.machine (sagaShop (fun c => c))).Along (fun P a => ¬ ReleasesAgain (fun c => c) P a)
          (Pool.init (World.init tenTable)) failedTwiceRun :=
  conservation_iff tenTable_accepted tenTable_no_orders failedTwiceRun

end Nimbus
