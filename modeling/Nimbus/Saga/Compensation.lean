/-
  Nimbus.Saga.Compensation
  ────────────────────────
  **WHEN A FAILED PAYMENT GIVES THE RIGHT STOCK BACK.**

  The handler of a failed payment calls `update_order_status` and then releases
  the order's quantity, whether or not the status has changed.  So a delivery
  does what it should exactly when the order was still PENDING or RESERVED, and
  a second delivery of the same envelope releases once more.

    • `MovedToFailed`     — this very delivery has failed the order;
    • `ReleasedExactly`   — the stock has grown by what was moved;
    • `Effect.failed`     — one committed delivery;
    • `compensation_iff`  — **a delivery releases exactly what it should when
                            the order was open, or nothing is there to release
                            to; twice is once only in the latter case.**
-/
import Nimbus.Saga.Placement
import Nimbus.Saga.Conservation

namespace Nimbus

open Lib Orders

variable {τ : Type} [DecidableEq τ]

/-! ## §1. What a delivery should do. -/

/-- The order was not FAILED before, and is now. -/
def MovedToFailed (id : Uuid) (T T' : Table Row) : Prop :=
  statusOf id T ≠ some .failed ∧ statusOf id T' = some .failed

/-- The stock row of the order has grown by its quantity if the order has just
failed, and is as available as before if not. -/
def ReleasedExactly (o : Order) (T T' : Table Row) : Prop :=
  ∀ s, T.lookup (.stock o.stock_id) = some (.stock s) →
    ∃ s', T'.lookup (.stock o.stock_id) = some (.stock s')
      ∧ (MovedToFailed o.id T T' → s'.available = s.available + o.quantity)
      ∧ (¬ MovedToFailed o.id T T' → s'.available = s.available)

/-- The order can still fail. -/
def Open (o : Order) : Prop := o.status = .pending ∨ o.status = .reserved

/-- The committed rows have the keys of `T₀`, and no stock row besides. -/
structure SameStocks (T₀ T : Table Row) : Prop where
  prices : SamePrices T₀ T
  keys : ∀ k, (T₀.lookup k).isSome = true → (T.lookup k).isSome = true

theorem keeps_sameStocks {uuid5 : Uuid5} (T₀ : Table Row) : Keeps (SameStocks T₀) uuid5 := by
  intro call r T T' h he
  have hprices : SamePrices T₀ T' :=
    keeps_samePrices T₀ h.prices (he.mono fun U hU => hU.prices)
  exact ⟨hprices, fun k hk => he.isSome (h.keys k hk)⟩

/-- A stock row that was missing once is missing. -/
theorem SameStocks.missing {T₀ U T : Table Row} (hU : SameStocks T₀ U) (hT : SameStocks T₀ T)
    {id : Uuid} (h : U.lookup (.stock id) = none) : T.lookup (.stock id) = none := by
  cases hrow : T.lookup (.stock id) with
  | none => rfl
  | some row =>
      obtain ⟨s, rfl, -⟩ := stock_of_lookup hrow
      obtain ⟨s₀, h₀, -⟩ := hT.prices id s hrow
      have hsome := hU.keys (.stock id) (by rw [h₀]; rfl)
      rw [h] at hsome
      cases hsome

/-! ## §2. One committed delivery. -/

/-- What a committed delivery of a failed payment's event makes of the rows: the
release, if there is a stock row, and the status change, if the guards let it
pass. -/
theorem Effect.failed {T₀ T T' : Table Row} {uuid5 : Uuid5} {topic : String}
    {envelope : EventEnvelope} {r : Except Exn Reply} {id : Uuid} (hJ : SameStocks T₀ T)
    (he : Effect (SameStocks T₀) uuid5 (.deliver topic envelope) r T T')
    (hev : eventOf topic envelope = some (.failed, id)) :
    ∃ o, o.id = id ∧ T.lookup (.order id) = some (.order o) ∧ 0 < o.quantity
      ∧ ((T.lookup (.stock o.stock_id) = none ∧ T' = setStatus T o .failed)
        ∨ ∃ s, T.lookup (.stock o.stock_id) = some (.stock s)
          ∧ T' = setStatus (T.upsert (.stock (s.release o.quantity))) o .failed) := by
  cases he with
  | ignored hev' =>
      rw [hev'] at hev
      cases hev
  | @delivered _ _ status order_id o _ T₁ hev' ho hc =>
      obtain ⟨rfl, rfl⟩ := Prod.mk.inj (Option.some.inj (hev'.symm.trans hev))
      have hid : o.id = order_id := RowKey.order.inj (Table.key_of_lookup ho)
      cases hc with
      | none hne => exact absurd rfl hne
      | @release _ s hq hs => exact ⟨o, hid, ho, hq, Or.inr ⟨s, hs, rfl⟩⟩
      | missing hq h₀ _ hnone => exact ⟨o, hid, ho, hq, Or.inl ⟨h₀.missing hJ hnone, rfl⟩⟩

/-- The order of a settled status stays as it is. -/
theorem setStatus_settled {T : Table Row} {o : Order} (h : ¬ Open o) :
    setStatus T o .failed = T := by
  unfold setStatus
  exact if_neg fun happ => h ((applies_failed o.status).mp happ)

/-- What a delivery that releases leaves of the stock. -/
theorem setStatus_released {T : Table Row} {o : Order} {s : Stock}
    (hs : T.lookup (.stock o.stock_id) = some (.stock s)) :
    (setStatus (T.upsert (.stock (s.release o.quantity))) o .failed).lookup (.stock o.stock_id)
      = some (.stock (s.release o.quantity)) := by
  have hsid : s.id = o.stock_id := RowKey.stock.inj (Table.key_of_lookup hs)
  rw [setStatus_stock]
  exact Table.lookup_upsert_self (congrArg RowKey.stock hsid)

/-- The delivery moves the order into FAILED exactly when it was open. -/
theorem moved_iff {T T₁ : Table Row} {o : Order} (ho : T.lookup (.order o.id) = some (.order o))
    (ho₁ : T₁.lookup (.order o.id) = some (.order o)) :
    MovedToFailed o.id T (setStatus T₁ o .failed) ↔ Open o := by
  have hafter : statusOf o.id (setStatus T₁ o .failed) = some (nextStatus o.status .failed) :=
    statusOf_lookup (setStatus_self ho₁)
  unfold MovedToFailed Open
  rw [statusOf_lookup ho, hafter]
  cases o.status <;> decide

/-- **One delivery releases exactly what it should** when the order was open, or
there is no stock row. -/
theorem releasedExactly_iff {T₀ T T' : Table Row} {uuid5 : Uuid5} {topic : String}
    {envelope : EventEnvelope} {r : Except Exn Reply} {id : Uuid} (hJ : SameStocks T₀ T)
    (he : Effect (SameStocks T₀) uuid5 (.deliver topic envelope) r T T')
    (hev : eventOf topic envelope = some (.failed, id)) :
    ∃ o, T.lookup (.order id) = some (.order o)
      ∧ (ReleasedExactly o T T' ↔ Open o ∨ T.lookup (.stock o.stock_id) = none) := by
  obtain ⟨o, rfl, ho, hq, ⟨hnone, rfl⟩ | ⟨s, hs, rfl⟩⟩ := he.failed hJ hev
  · refine ⟨o, ho, fun _ => Or.inr hnone, fun _ s hs => ?_⟩
    rw [hnone] at hs
    cases hs
  · refine ⟨o, ho, ?_⟩
    have ho₁ : (T.upsert (.stock (s.release o.quantity))).lookup (.order o.id)
        = some (.order o) := (lookup_order_upsert_stock _ _).trans ho
    have hafter := setStatus_released hs
    have hmoved := moved_iff ho ho₁
    constructor
    · intro h
      by_contra hno
      -- the order was settled, and still its quantity has been released
      obtain ⟨s', hs', -, hsame⟩ := h s hs
      obtain rfl := Row.stock.inj (Option.some.inj (hafter.symm.trans hs'))
      have havail : s.available + o.quantity = s.available :=
        hsame fun hm => hno (Or.inl (hmoved.mp hm))
      omega
    · intro h x hx
      obtain rfl := Row.stock.inj (Option.some.inj (hs.symm.trans hx))
      have hopen : Open o := h.resolve_right fun hnone => by
        rw [hs] at hnone
        cases hnone
      exact ⟨_, hafter, fun _ => rfl, fun hno => absurd (hmoved.mpr hopen) hno⟩

/-- **Twice is once only where there is no stock row.** -/
theorem twice_iff {T₀ T T' T'' : Table Row} {uuid5 : Uuid5} {topic : String}
    {envelope : EventEnvelope} {r r' : Except Exn Reply} {id : Uuid} (hJ : SameStocks T₀ T)
    (hJ' : SameStocks T₀ T') (he : Effect (SameStocks T₀) uuid5 (.deliver topic envelope) r T T')
    (he' : Effect (SameStocks T₀) uuid5 (.deliver topic envelope) r' T' T'')
    (hev : eventOf topic envelope = some (.failed, id)) :
    ∃ o, T.lookup (.order id) = some (.order o)
      ∧ (T'' = T' ↔ T.lookup (.stock o.stock_id) = none) := by
  obtain ⟨o, rfl, ho, -, hfirst⟩ := he.failed hJ hev
  obtain ⟨o', hid, ho', hq', hsecond⟩ := he'.failed hJ' hev
  -- after the first delivery the order is settled, on the same stock row
  have hkeep : ∀ U, U.lookup (.order o.id) = some (.order o) →
      (setStatus U o .failed).lookup (.order o.id) = some (.order o') →
      ¬ Open o' ∧ o'.stock_id = o.stock_id := by
    intro U hU hrow
    rw [setStatus_self hU] at hrow
    obtain rfl := Row.order.inj (Option.some.inj hrow)
    refine ⟨?_, rfl⟩
    show ¬ (nextStatus o.status .failed = .pending ∨ nextStatus o.status .failed = .reserved)
    cases o.status <;> decide
  refine ⟨o, ho, ?_⟩
  rcases hfirst with ⟨hnone, rfl⟩ | ⟨s, hs, rfl⟩
  · obtain ⟨hsettled, hstock⟩ := hkeep T ho ho'
    refine ⟨fun _ => hnone, fun _ => ?_⟩
    rcases hsecond with ⟨-, rfl⟩ | ⟨s', hs', -⟩
    · exact setStatus_settled hsettled
    · rw [hstock, setStatus_stock, hnone] at hs'
      cases hs'
  · have hsid : s.id = o.stock_id := RowKey.stock.inj (Table.key_of_lookup hs)
    have ho₁ : (T.upsert (.stock (s.release o.quantity))).lookup (.order o.id)
        = some (.order o) := (lookup_order_upsert_stock _ _).trans ho
    obtain ⟨hsettled, hstock⟩ := hkeep _ ho₁ ho'
    have hafter := setStatus_released hs
    constructor
    · intro hsame
      exfalso
      rcases hsecond with ⟨hnone, -⟩ | ⟨s', hs', rfl⟩
      · rw [hstock, hafter] at hnone
        cases hnone
      · rw [hstock, hafter] at hs'
        obtain rfl := Row.stock.inj (Option.some.inj hs')
        rw [setStatus_settled hsettled] at hsame
        -- the same row with two different quantities
        have hrow := congrArg (fun U => U.lookup (.stock o.stock_id)) hsame
        have hself : ((setStatus (T.upsert (.stock (s.release o.quantity))) o .failed).upsert
            (.stock ((s.release o.quantity).release o'.quantity))).lookup (.stock o.stock_id)
            = some (.stock ((s.release o.quantity).release o'.quantity)) :=
          Table.lookup_upsert_self (congrArg RowKey.stock hsid)
        have hboth := (hself.symm.trans hrow).trans hafter
        have havail : (s.release o.quantity).available + o'.quantity
            = (s.release o.quantity).available :=
          congrArg Stock.available (Row.stock.inj (Option.some.inj hboth))
        omega
    · intro hnone
      rw [hs] at hnone
      cases hnone

/-! ## §3. Every reachable state. -/

variable {uuid5 : Uuid5} {T : Table Row}

/-- **What the handler of a failed payment gives back, exactly.**  Whatever has
happened before: a delivery that commits releases what it should if and only if
the order was PENDING or RESERVED, or its stock row does not exist; and where
the same envelope is delivered again, with no commit in between, the rows stay
as they are if and only if there is no stock row. -/
theorem compensation_iff (hT : ∀ r ∈ T.rows, r.violation = .ok ())
    (as : List (Action τ Call Choice)) {t : τ} {c : Choice} {topic : String}
    {envelope : EventEnvelope} {reply : Reply} {id : Uuid}
    {P' : Pool Call Op Ans Exn Reply (World τ) τ}
    (ht : (shopRun uuid5 T as).thread t = some ⟨.deliver topic envelope, .ret (.ok reply)⟩)
    (hev : eventOf topic envelope = some (.failed, id))
    (hact : Pool.act (shop uuid5) (shopRun uuid5 T as) (.commit t c) = some P') :
    ∃ o, (shopRun uuid5 T as).shared.base.lookup (.order id) = some (.order o)
      ∧ (ReleasedExactly o (shopRun uuid5 T as).shared.base P'.shared.base
          ↔ Open o ∨ (shopRun uuid5 T as).shared.base.lookup (.stock o.stock_id) = none)
      ∧ ∀ bs u d reply' Q',
          ((Pool.machine (shop uuid5)).run P' bs).shared.base = P'.shared.base →
          ((Pool.machine (shop uuid5)).run P' bs).thread u
            = some ⟨.deliver topic envelope, .ret (.ok reply')⟩ →
          Pool.act (shop uuid5) ((Pool.machine (shop uuid5)).run P' bs) (.commit u d) = some Q' →
          (Q'.shared.base = P'.shared.base
            ↔ (shopRun uuid5 T as).shared.base.lookup (.stock o.stock_id) = none) := by
  let K := shopContract (SameStocks T) uuid5 (keeps_sameStocks T) (τ := τ)
  let F := shopEffects (SameStocks T) uuid5 (keeps_sameStocks T) (τ := τ)
  have hreach : K.Holds (shopRun uuid5 T as) :=
    K.reachable ⟨inv_init hT, SamePrices.refl T, fun _ h => h⟩ as
  have hnext : K.Holds P' := K.act_holds hreach hact
  -- the first commit
  have he := F.effect_of_commit hreach ht hact
  obtain ⟨o, ho, hiff⟩ := releasedExactly_iff hreach.inv.2 he hev
  refine ⟨o, ho, hiff, fun bs u d reply' Q' hsame hu hact' => ?_⟩
  have hlater : K.Holds ((Pool.machine (shop uuid5)).run P' bs) :=
    (Pool.machine (shop uuid5)).run_invariant (fun _ _ _ hP hstep => K.act_holds hP hstep) bs P'
      hnext
  -- a later commit of the same event, on the table that the first one left
  have he' := F.effect_of_commit hlater hu hact'
  have hbase : F.obs ((Pool.machine (shop uuid5)).run P' bs).shared = F.obs P'.shared := hsame
  rw [hbase] at he'
  obtain ⟨o', ho', htwice⟩ := twice_iff hreach.inv.2 hnext.inv.2 he he' hev
  obtain rfl := Row.order.inj (Option.some.inj (ho.symm.trans ho'))
  exact htwice

/-- Ten pieces of a stock row, and an order of three that has failed already. -/
def failedOrder : Order := ⟨Uuid.ofNat 2, Uuid.ofNat 7, tenStock.id, 3, 1, 750, "EUR", .failed⟩

def failedTable : Table Row := ⟨[.stock tenStock, .order failedOrder], by decide +kernel⟩

theorem failedTable_accepted : ∀ r ∈ failedTable.rows, r.violation = .ok () := by
  intro r hr
  rcases List.mem_cons.mp hr with rfl | hr
  · rfl
  · rw [List.mem_singleton.mp hr]
    rfl

/-- The failure is delivered once more. -/
def failedAgain : List (Action Nat Call Choice) :=
  [.start 1 (.deliver "payments.events" failedEvent), .step 1 {}, .step 1 {}, .step 1 {},
    .step 1 {}, .step 1 {}]

/-- The order does not move, and three pieces that nobody has given back are
available. -/
theorem compensation_fails :
    ¬ ReleasedExactly failedOrder (shopRun (fun c => c) failedTable failedAgain).shared.base
        (shopRun (fun c => c) failedTable (failedAgain ++ [.commit 1 {}])).shared.base := by
  intro h
  obtain ⟨s, hs, -, hsame⟩ := h tenStock rfl
  have hthirteen : Row.stock s = .stock { tenStock with available := 13 } :=
    (Option.some.inj hs).symm
  obtain rfl := Row.stock.inj hthirteen
  have hstays : ({ tenStock with available := 13 } : Stock).available = tenStock.available :=
    hsame fun hm => hm.1 rfl
  exact absurd hstays (by decide)

theorem compensation_iff_failedAgain :
    ∃ o, (shopRun (fun c => c) failedTable failedAgain).shared.base.lookup (.order (Uuid.ofNat 2))
        = some (.order o)
      ∧ (ReleasedExactly o (shopRun (fun c => c) failedTable failedAgain).shared.base
          (shopRun (fun c => c) failedTable (failedAgain ++ [.commit 1 {}])).shared.base
        ↔ Open o ∨ (shopRun (fun c => c) failedTable failedAgain).shared.base.lookup
            (.stock o.stock_id) = none) := by
  have ht : (shopRun (fun c => c) failedTable failedAgain).thread 1
      = some ⟨.deliver "payments.events" failedEvent, .ret (.ok .handled)⟩ := rfl
  have hev : eventOf "payments.events" failedEvent = some (.failed, Uuid.ofNat 2) := rfl
  have hact : Pool.act (shop fun c => c) (shopRun (fun c => c) failedTable failedAgain)
      (.commit 1 {})
      = some (shopRun (fun c => c) failedTable (failedAgain ++ [.commit 1 {}])) := rfl
  obtain ⟨o, ho, hiff, -⟩ := compensation_iff failedTable_accepted failedAgain ht hev hact
  exact ⟨o, ho, hiff⟩

end Nimbus
