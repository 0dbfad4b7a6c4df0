/-
  Nimbus.Saga.PaymentEvents
  ─────────────────────────
  **THE OUTBOX TELLS THE STORY OF EVERY PAYMENT.**

  Any number of `process_payment` calls on any payments run side by side.  A
  commit writes the new status and the outbox row together, under the row lock,
  so the committed outbox rows of a payment are, in order, the statuses it has
  gone through.  Every allowed transition raises the rank of the status: no
  status comes back, no two rows tell the same step, and the content hash of a
  new step is none that is there already.

    • `paymentRun`      — a run of `process_payment` calls only;
    • `Narrated`        — the outbox rows of a payment against its history;
    • `Known`           — where every outbox row comes from;
    • `outbox_complete` — **history, outbox and unique constraint in every
                          reachable state.**
-/
import Nimbus.Saga.Shop
import Mathlib.Data.List.Chain

namespace Nimbus

open Lib Payments

variable {τ : Type} [DecidableEq τ]

/-! ## §1. Runs of payment requests. -/

/-- The platform when payments are processed only. -/
def paymentShop (uuid5 : Uuid5) :
    System ProcessPaymentRequest Op Ans Exn Reply (World τ) τ Choice :=
  (shop uuid5).comap Call.processPayment

/-- The state after the actions `as`, from committed rows `T`. -/
def paymentRun (uuid5 : Uuid5) (T : Table Row)
    (as : List (Action τ ProcessPaymentRequest Choice)) :
    Pool ProcessPaymentRequest Op Ans Exn Reply (World τ) τ :=
  (Pool.machine (paymentShop uuid5)).run (Pool.init (World.init T)) as

/-- The committed status of the payment `id`. -/
def paymentStatusOf (id : Uuid) (T : Table Row) : Option PaymentStatus :=
  match T.lookup (.payment id) with
  | some (.payment p) => some p.status
  | _ => none

/-- An outbox row of the payment `id`. -/
def outboxEventOf (id : Uuid) : Row → Option OutboxEvent
  | .outbox e => if e.aggregate_id = id.str then some e else none
  | _ => none

theorem outboxEventOf_self {id : Uuid} {e : OutboxEvent} (h : e.aggregate_id = id.str) :
    outboxEventOf id (.outbox e) = some e := by
  simp only [outboxEventOf, h, ↓reduceIte]

theorem outboxEventOf_other {id : Uuid} {e : OutboxEvent} (h : e.aggregate_id ≠ id.str) :
    outboxEventOf id (.outbox e) = none := by
  simp only [outboxEventOf, h, ↓reduceIte]

/-- The outbox rows of the payment `id`, in the order they were inserted. -/
def outboxOf (id : Uuid) (T : Table Row) : List OutboxEvent := T.rows.filterMap (outboxEventOf id)

/-- The committed status history of the payment `id` in a run. -/
def paymentHistory (uuid5 : Uuid5) (T : Table Row)
    (as : List (Action τ ProcessPaymentRequest Choice)) (id : Uuid) : List PaymentStatus :=
  Machine.history (fun P => paymentStatusOf id P.shared.base)
    ((Pool.machine (paymentShop uuid5)).trace (Pool.init (World.init T)) as)

/-- One status may follow another. -/
def Follows (a b : PaymentStatus) : Prop := b ∈ a.allowedTransitions

/-- **On a path of allowed transitions no status occurs twice.** -/
theorem nodup_of_follows {path : List PaymentStatus} (h : path.IsChain Follows) : path.Nodup := by
  have hranks : (path.map PaymentStatus.rank).IsChain (· < ·) :=
    List.isChain_map_of_isChain _ (fun _ _ hab => PaymentStatus.allowed_rank_lt hab) h
  have hpair : (path.map PaymentStatus.rank).Pairwise (· < ·) := List.isChain_iff_pairwise.mp hranks
  exact List.Nodup.of_map _ (hpair.imp Nat.ne_of_lt)

theorem paymentEventType_injective : Function.Injective paymentEventType := by
  intro a b h
  cases a <;> cases b <;> first | rfl | exact absurd h (by decide)

/-! ## §2. What one committed request does. -/

theorem paymentStatusOf_lookup {T : Table Row} {p : Payment} {id : Uuid}
    (h : T.lookup (.payment id) = some (.payment p)) : paymentStatusOf id T = some p.status := by
  unfold paymentStatusOf
  rw [h]

theorem paymentStatusOf_congr {T T' : Table Row} {id : Uuid}
    (h : T'.lookup (.payment id) = T.lookup (.payment id)) :
    paymentStatusOf id T' = paymentStatusOf id T := by
  unfold paymentStatusOf
  rw [h]

/-- The event of a transition names the payment and the new status. -/
theorem Payments.EventOf.fields {uuid5 : Uuid5} {request : ProcessPaymentRequest} {p : Payment}
    {result : ProcessPaymentResult} (h : EventOf uuid5 request p result) :
    result.outbox_event.aggregate_id = p.id.str
      ∧ result.outbox_event.event_type = paymentEventType request.new_status
      ∧ result.outbox_event.topic = "payments.events"
      ∧ result.envelope.event_type = result.outbox_event.event_type
      ∧ result.envelope.aggregate_id = result.outbox_event.aggregate_id
      ∧ result.envelope.contentHash uuid5 = .ok result.outbox_event.dedupe_id := by
  obtain ⟨occurred_at, event_id, hbuilt⟩ := h.envelope
  obtain ⟨-, htype, -, -, haggregate, -⟩ := EventEnvelope.mk?_fields hbuilt
  obtain ⟨-, hagg, hevent, htopic, -, hhash⟩ := outboxRow_ok h.outbox
  refine ⟨?_, ?_, htopic, hevent.symm, hagg.symm, hhash⟩
  · rw [hagg, haggregate, h.payment]
  · rw [hevent, htype]

/-- Everything a committed `process_payment` does to the rows. -/
structure Transition (uuid5 : Uuid5) (T T' : Table Row) (p : Payment) (status : PaymentStatus)
    (e : OutboxEvent) : Prop where
  row : T.lookup (.payment p.id) = some (.payment p)
  allowed : Follows p.status status
  rows : T' = (T.upsert (.payment { p with status := status })).upsert (.outbox e)
  fresh : T.lookup (.outbox e.id) = none
  aggregate : e.aggregate_id = p.id.str
  event_type : e.event_type = paymentEventType status
  topic : e.topic = "payments.events"
  hash : ∃ envelope : EventEnvelope, envelope.event_type = e.event_type
    ∧ envelope.aggregate_id = e.aggregate_id ∧ envelope.contentHash uuid5 = .ok e.dedupe_id

/-- **A committed `process_payment` is one transition** of the payment it was
asked for, with the event it has built. -/
theorem Effect.transition {J : Table Row → Prop} {uuid5 : Uuid5} {T T' : Table Row}
    {request : ProcessPaymentRequest} {r : Except Exn Reply}
    (he : Effect J uuid5 (.processPayment request) r T T') :
    ∃ p e, p.id = request.payment_id ∧ Transition uuid5 T T' p request.new_status e
      ∧ ∃ result now, EventOf uuid5 request p result
        ∧ e = { result.outbox_event with created_at := now } := by
  cases he with
  | @processed _ result _ p now hp hallowed hevent hfree hdedupe =>
      obtain ⟨hagg, htype, htopic, hetype, heagg, hhash⟩ := hevent.fields
      have hid : p.id = request.payment_id := RowKey.payment.inj (Table.key_of_lookup hp)
      refine ⟨p, _, hid, ?_, result, now, hevent, rfl⟩
      exact ⟨hid ▸ hp, hallowed, rfl, hfree, hagg, htype, htopic,
        result.envelope, hetype, heagg, hhash⟩

section Step

variable {uuid5 : Uuid5} {T T' : Table Row} {p : Payment} {status : PaymentStatus} {e : OutboxEvent}

theorem Transition.lookup_payment (ht : Transition uuid5 T T' p status e) (id : Uuid) :
    T'.lookup (.payment id) = if id = p.id then some (.payment { p with status := status })
      else T.lookup (.payment id) := by
  rw [ht.rows, Table.lookup_upsert_ne fun hc => RowKey.noConfusion hc, Table.lookup_upsert]
  by_cases hid : id = p.id
  · subst hid
    rw [if_pos rfl]
    exact if_pos rfl
  · rw [if_neg hid]
    exact if_neg fun hc => hid (RowKey.payment.inj hc)

/-- The new outbox row goes to the end of the table. -/
theorem Transition.outboxOf (ht : Transition uuid5 T T' p status e) (id : Uuid) :
    Nimbus.outboxOf id T' = Nimbus.outboxOf id T ++ if id = p.id then [e] else [] := by
  have hnone : (T.upsert (.payment { p with status := status })).lookup (.outbox e.id) = none := by
    rw [Table.lookup_upsert_ne fun hc => RowKey.noConfusion hc]
    exact ht.fresh
  -- the payment's own row is no outbox row
  have hpayment := Table.filterMap_upsert_same (T := T) (f := outboxEventOf id)
    (x := Row.payment { p with status := status }) ht.row rfl
  have hevent : [Row.outbox e].filterMap (outboxEventOf id) = if id = p.id then [e] else [] := by
    by_cases hid : id = p.id
    · subst hid
      rw [List.filterMap_cons, outboxEventOf_self ht.aggregate, if_pos rfl]
      rfl
    · have hne : e.aggregate_id ≠ id.str := by
        rw [ht.aggregate]
        exact fun hc => hid (Uuid.str_injective hc).symm
      rw [List.filterMap_cons, outboxEventOf_other hne, if_neg hid]
      rfl
  show T'.rows.filterMap (outboxEventOf id) = T.rows.filterMap (outboxEventOf id) ++ _
  rw [ht.rows, Table.rows_upsert_new hnone, List.filterMap_append, hpayment, hevent]

theorem Transition.mem_outbox (ht : Transition uuid5 T T' p status e) {e' : OutboxEvent}
    (h : Row.outbox e' ∈ T'.rows) : e' = e ∨ Row.outbox e' ∈ T.rows := by
  rw [ht.rows] at h
  rcases Table.mem_upsert.mp h with hrow | ⟨h, -⟩
  · exact Or.inl (Row.outbox.inj hrow)
  · rcases Table.mem_upsert.mp h with hrow | ⟨h, -⟩
    · cases hrow
    · exact Or.inr h

end Step

/-! ## §3. The invariant. -/

/-- The history `h` of the payment `id` is a path of allowed transitions to its
current status, and its outbox rows are the steps of that path. -/
structure Narrated (id : Uuid) (h : List PaymentStatus) (T : Table Row) : Prop where
  status : h.getLast? = paymentStatusOf id T
  path : h.IsChain Follows
  events : (outboxOf id T).map (·.event_type) = h.tail.map paymentEventType

/-- Every outbox row is a step of a payment that has gone as far, under the
content hash of its event. -/
def Known (uuid5 : Uuid5) (T : Table Row) : Prop :=
  ∀ e, Row.outbox e ∈ T.rows → ∃ p status, T.lookup (.payment p.id) = some (.payment p)
    ∧ e.aggregate_id = p.id.str ∧ e.event_type = paymentEventType status
    ∧ status.rank ≤ p.status.rank
    ∧ ∃ envelope : EventEnvelope, envelope.event_type = e.event_type
        ∧ envelope.aggregate_id = e.aggregate_id ∧ envelope.contentHash uuid5 = .ok e.dedupe_id

variable {uuid5 : Uuid5} {T T' : Table Row} {p : Payment} {status : PaymentStatus} {e : OutboxEvent}

theorem Transition.status_after (ht : Transition uuid5 T T' p status e) :
    paymentStatusOf p.id T' = some status := by
  refine paymentStatusOf_lookup (p := { p with status := status }) ?_
  rw [ht.lookup_payment, if_pos rfl]

/-- A transition is recorded: the new status is not the last one. -/
theorem Narrated.record {h : List PaymentStatus} (hn : Narrated p.id h T)
    (ht : Transition uuid5 T T' p status e) :
    Machine.record h (paymentStatusOf p.id T') = h ++ [status] := by
  have hlast : h.getLast? = some p.status := hn.status.trans (paymentStatusOf_lookup ht.row)
  rw [ht.status_after]
  refine Machine.record_new fun hc => ?_
  have hrank := PaymentStatus.allowed_rank_lt ht.allowed
  rw [Option.some.inj (hlast.symm.trans hc)] at hrank
  exact Nat.lt_irrefl _ hrank

theorem Narrated.ne_nil {h : List PaymentStatus} (hn : Narrated p.id h T)
    (ht : Transition uuid5 T T' p status e) : h ≠ [] := by
  rintro rfl
  have hlast : none = some p.status := hn.status.trans (paymentStatusOf_lookup ht.row)
  cases hlast

/-- **One transition is one more step of the path, and one more outbox row.** -/
theorem Narrated.step {id : Uuid} {h : List PaymentStatus} (hn : Narrated id h T)
    (ht : Transition uuid5 T T' p status e) :
    Narrated id (Machine.record h (paymentStatusOf id T')) T' := by
  by_cases hid : id = p.id
  · subst hid
    have hlast : h.getLast? = some p.status := hn.status.trans (paymentStatusOf_lookup ht.row)
    -- the payment itself: its history and its outbox rows grow by one
    rw [hn.record ht]
    refine ⟨?_, ?_, ?_⟩
    · rw [ht.status_after, List.getLast?_append]
      rfl
    · refine List.isChain_append.mpr ⟨hn.path, List.isChain_singleton _, ?_⟩
      intro a ha b hb
      rw [hlast] at ha
      obtain rfl := Option.some.inj ha
      obtain rfl := Option.some.inj hb
      exact ht.allowed
    · rw [ht.outboxOf, if_pos rfl, List.map_append, hn.events,
        List.tail_append_of_ne_nil (hn.ne_nil ht), List.map_append]
      show _ ++ [e.event_type] = _ ++ [paymentEventType status]
      rw [ht.event_type]
  · -- any other payment
    have hsame : paymentStatusOf id T' = paymentStatusOf id T := by
      refine paymentStatusOf_congr ?_
      rw [ht.lookup_payment, if_neg hid]
    rw [hsame, Machine.record_same hn.status]
    refine ⟨hn.status.trans hsame.symm, hn.path, ?_⟩
    rw [ht.outboxOf, if_neg hid, List.append_nil]
    exact hn.events

theorem Known.step (hk : Known uuid5 T) (ht : Transition uuid5 T T' p status e) :
    Known uuid5 T' := by
  intro e' he'
  rcases ht.mem_outbox he' with rfl | he'
  · refine ⟨{ p with status := status }, status, ?_, ht.aggregate, ht.event_type,
      Nat.le_refl _, ht.hash⟩
    rw [ht.lookup_payment]
    exact if_pos rfl
  · obtain ⟨q, status', hq, hagg, htype, hrank, hhash⟩ := hk e' he'
    by_cases hid : q.id = p.id
    · -- the payment of the row has gone one step further
      rw [hid, ht.row] at hq
      obtain rfl := Row.payment.inj (Option.some.inj hq)
      refine ⟨{ p with status := status }, status', ?_, hagg, htype, ?_, hhash⟩
      · rw [ht.lookup_payment]
        exact if_pos rfl
      · have hlt := PaymentStatus.allowed_rank_lt ht.allowed
        show status'.rank ≤ status.rank
        omega
    · refine ⟨q, status', ?_, hagg, htype, hrank, hhash⟩
      rw [ht.lookup_payment, if_neg hid]
      exact hq

/-- **The content hash of an allowed transition is none of those in the outbox.** -/
theorem Known.fresh_hash (huuid : Function.Injective uuid5) (hk : Known uuid5 T)
    {request : ProcessPaymentRequest} {result : ProcessPaymentResult}
    (hp : T.lookup (.payment p.id) = some (.payment p))
    (hallowed : request.new_status ∈ p.status.allowedTransitions)
    (hevent : EventOf uuid5 request p result) (he : Row.outbox e ∈ T.rows) :
    e.dedupe_id ≠ result.outbox_event.dedupe_id := by
  intro hsame
  obtain ⟨hagg, htype, -, hetype, heagg, hhash⟩ := hevent.fields
  obtain ⟨q, status, hq, hqagg, hqtype, hrank, envelope, hvtype, hvagg, hvhash⟩ := hk e he
  rw [← hsame] at hhash
  -- equal hashes are hashes of the same canonical text
  unfold EventEnvelope.contentHash at hhash hvhash
  split at hhash
  next c hc =>
    split at hvhash
    next c' hc' =>
      have htext : c = c' :=
        huuid ((Except.ok.inj hhash).trans (Except.ok.inj hvhash).symm)
      subst htext
      obtain ⟨hevent_type, -, haggregate⟩ := EventEnvelope.canonical_inj hc hc'
      have hid : q.id = p.id := by
        refine Uuid.str_injective ?_
        rw [← hqagg, ← hvagg, ← haggregate, heagg, hagg]
      have hstatus : status = request.new_status := by
        refine paymentEventType_injective ?_
        rw [← hqtype, ← hvtype, ← hevent_type, hetype, htype]
      rw [hid, hp] at hq
      obtain rfl := Row.payment.inj (Option.some.inj hq)
      have hlt := PaymentStatus.allowed_rank_lt hallowed
      rw [hstatus] at hrank
      omega
    next => cases hvhash
  next => cases hhash

/-! ## §4. The unique constraint. -/

/-- **The flush of a processed payment is not refused by the unique constraint**
where no committed row has the new `dedupe_id`. -/
theorem flush_not_refused {w : World τ} {t : τ} {request : ProcessPaymentRequest}
    {result : ProcessPaymentResult} (hp : Processed uuid5 request p result (w.local t))
    (hfresh : ∀ e, Row.outbox e ∈ w.base.rows → e.dedupe_id ≠ result.outbox_event.dedupe_id)
    (now : Int) :
    World.flushAll now w.store t (w.session t).pending ≠ some (.error World.dedupeViolation) := by
  intro h
  have hpend : (w.session t).pending = [.paymentStatus request.payment_id request.new_status,
    .insert (.outbox result.outbox_event)] := hp.pending
  rw [hpend] at h
  simp only [World.flushAll] at h
  split at h
  next => cases h
  next x hx =>
    -- the status change can only find its row gone
    obtain rfl := Except.error.inj (Option.some.inj h)
    simp only [World.flushOne] at hx
    split at hx
    next =>
      obtain ⟨s, -, hok⟩ := Option.map_eq_some_iff.mp hx
      cases hok
    next => exact absurd (congrArg Exn.msg (Except.error.inj (Option.some.inj hx))) (by decide)
  next s₁ h₁ =>
    split at h
    next => cases h
    next x hx =>
      obtain rfl := Except.error.inj (Option.some.inj h)
      obtain ⟨e, he, hid⟩ := insertRow_dedupe hx
      obtain ⟨p', -, hput⟩ := flushOne_payment h₁
      have hnil : (w.store.part t).writes = [] := hp.writes
      rw [TxStore.put_base hput, TxStore.part_put hput, TxPart.put_writes, hnil,
        Table.upsertAll_cons, Table.upsertAll_nil] at he
      rcases Table.mem_upsert.mp he with hrow | ⟨he, -⟩
      · cases hrow
      · exact hfresh e he hid
    next s₂ h₂ => cases h

/-! ## §5. Every reachable state. -/

/-- The payment requests among each other. -/
def paymentContract (uuid5 : Uuid5) : Contract (paymentShop uuid5 (τ := τ)) Local :=
  (shopContract anyRows uuid5 keeps_anyRows).comap Call.processPayment

def paymentEffects (uuid5 : Uuid5) : Effects (paymentContract uuid5 (τ := τ)) (Table Row) :=
  (shopEffects anyRows uuid5 keeps_anyRows).comap Call.processPayment

theorem narrated_init {id : Uuid} (hno : ∀ e, Row.outbox e ∉ T.rows) :
    Narrated id (Machine.record [] (paymentStatusOf id T)) T := by
  have hnone : outboxOf id T = [] := by
    unfold outboxOf
    refine List.filterMap_eq_nil_iff.mpr fun row hrow => ?_
    cases row with
    | outbox e => exact absurd hrow (hno e)
    | stock s => rfl
    | order o => rfl
    | payment p => rfl
  cases hs : paymentStatusOf id T with
  | none => exact ⟨hs.symm, List.isChain_nil, congrArg (List.map _) hnone⟩
  | some status => exact ⟨hs.symm, List.isChain_singleton _, congrArg (List.map _) hnone⟩

/-- **In every run the outbox rows of a payment are the steps of its history.** -/
theorem narrated_run (uuid5 : Uuid5) (hT : ∀ r ∈ T.rows, r.violation = .ok ())
    (hno : ∀ e, Row.outbox e ∉ T.rows) (as : List (Action τ ProcessPaymentRequest Choice))
    (id : Uuid) :
    (paymentContract uuid5).Holds (paymentRun uuid5 T as)
      ∧ Narrated id (paymentHistory uuid5 T as id) (paymentRun uuid5 T as).shared.base
      ∧ Known uuid5 (paymentRun uuid5 T as).shared.base := by
  have hinit : (paymentContract uuid5 (τ := τ)).Holds (Pool.init (World.init T)) :=
    (paymentContract uuid5).holds_init ⟨inv_init hT, trivial⟩
  refine (Pool.machine (paymentShop uuid5)).history_invariant
    (f := fun P => paymentStatusOf id P.shared.base)
    (I := fun h P => (paymentContract uuid5).Holds P ∧ Narrated id h P.shared.base
      ∧ Known uuid5 P.shared.base)
    (fun h P hI => hI.2.1.status) ?_ as (Pool.init (World.init T))
    ⟨hinit, narrated_init hno, fun e he => absurd he (hno e)⟩
  intro h P a P' hI hact
  obtain ⟨hP, hn, hk⟩ := hI
  refine ⟨(paymentContract uuid5).act_holds hP hact, ?_⟩
  rcases (paymentEffects uuid5).act_effect hP hact with ⟨hobs, -, -⟩ | ⟨t, c, request, r, -, -, -, -, he⟩
  · have hbase : P'.shared.base = P.shared.base := hobs
    rw [hbase, Machine.record_same hn.status]
    exact ⟨hn, hk⟩
  · obtain ⟨p, e, -, ht, -⟩ := Effect.transition he
    exact ⟨hn.step ht, hk.step ht⟩

/-- Where the outbox rows of every payment are steps of its history, no two of
them share event type and aggregate. -/
theorem unique_of_narrated {U : Table Row} (hk : Known uuid5 U)
    (hn : ∀ id, ∃ h, Narrated id h U) {e e' : OutboxEvent} (he : Row.outbox e ∈ U.rows)
    (he' : Row.outbox e' ∈ U.rows) (htype : e.event_type = e'.event_type)
    (hagg : e.aggregate_id = e'.aggregate_id) : e = e' := by
  obtain ⟨p, -, -, hpagg, -⟩ := hk e he
  obtain ⟨h, hn⟩ := hn p.id
  have hnodup : ((outboxOf p.id U).map (·.event_type)).Nodup := by
    rw [hn.events]
    exact ((nodup_of_follows hn.path).sublist (List.tail_sublist _)).map paymentEventType_injective
  have hmem : ∀ x, Row.outbox x ∈ U.rows → x.aggregate_id = p.id.str → x ∈ outboxOf p.id U :=
    fun x hx hxagg => List.mem_filterMap.mpr ⟨Row.outbox x, hx, outboxEventOf_self hxagg⟩
  exact List.inj_on_of_nodup_map hnodup (hmem e he hpagg) (hmem e' he' (hagg ▸ hpagg)) htype

/-- Where every outbox row is known, the flush of a request that has returned is
not refused. -/
theorem flush_accepted (huuid : Function.Injective uuid5) {w : World τ} {t : τ}
    {request : ProcessPaymentRequest} {result : ProcessPaymentResult} (hk : Known uuid5 w.base)
    (hpost : post anyRows uuid5 (.processPayment request) (.ok (.processed result)) (w.local t))
    (now : Int) :
    World.flushAll now w.store t (w.session t).pending ≠ some (.error World.dedupeViolation) := by
  obtain ⟨x, hx, hx'⟩ := hpost
  cases x with
  | error e => cases hx
  | ok result' =>
      obtain rfl : result = result' := Reply.processed.inj (Except.ok.inj hx)
      obtain ⟨p, hp⟩ := hx'
      have hrow := lookup_of_locked hp.locked
      rw [← hp.id] at hrow
      exact flush_not_refused hp (fun e he => hk.fresh_hash huuid hrow hp.allowed hp.event he) now

/-- **Transactional outbox completeness.**  In every reachable state the outbox
rows of a payment are the statuses it has gone through, in order, along allowed
transitions; none occurs twice, no two committed rows share event type and
aggregate, and the flush of a request that has returned is never refused by the
unique constraint on `dedupe_id`. -/
theorem outbox_complete (huuid : Function.Injective uuid5)
    (hT : ∀ r ∈ T.rows, r.violation = .ok ()) (hno : ∀ e, Row.outbox e ∉ T.rows)
    (as : List (Action τ ProcessPaymentRequest Choice)) :
    (∀ p₀, T.lookup (.payment p₀.id) = some (.payment p₀) →
      ∃ path, paymentHistory uuid5 T as p₀.id = p₀.status :: path
        ∧ (p₀.status :: path).IsChain Follows
        ∧ (p₀.status :: path).Nodup
        ∧ paymentStatusOf p₀.id (paymentRun uuid5 T as).shared.base
            = (p₀.status :: path).getLast?
        ∧ (outboxOf p₀.id (paymentRun uuid5 T as).shared.base).map (·.event_type)
            = path.map paymentEventType)
    ∧ (∀ e e', Row.outbox e ∈ (paymentRun uuid5 T as).shared.base.rows →
        Row.outbox e' ∈ (paymentRun uuid5 T as).shared.base.rows →
        e.event_type = e'.event_type → e.aggregate_id = e'.aggregate_id → e = e')
    ∧ ∀ t request result now,
        (paymentRun uuid5 T as).thread t = some ⟨request, .ret (.ok (.processed result))⟩ →
        World.flushAll now (paymentRun uuid5 T as).shared.store t
            ((paymentRun uuid5 T as).shared.session t).pending
          ≠ some (.error World.dedupeViolation) := by
  have hrun := narrated_run uuid5 hT hno as
  obtain ⟨hP, -, hk⟩ := hrun (Uuid.ofNat 0)
  refine ⟨fun p₀ h₀ => ?_, fun e e' he he' htype hagg => ?_, fun t request result now ht => ?_⟩
  · obtain ⟨-, hn, -⟩ := hrun p₀.id
    -- a history begins with the status at the start
    obtain ⟨path, hpath⟩ := Machine.history_start (Pool.machine (paymentShop uuid5))
      (f := fun P => paymentStatusOf p₀.id P.shared.base) (Pool.init (World.init T))
      (paymentStatusOf_lookup h₀) as
    have hhist : paymentHistory uuid5 T as p₀.id = p₀.status :: path := hpath
    rw [hhist] at hn
    exact ⟨path, hhist, hn.path, nodup_of_follows hn.path, hn.status.symm, hn.events⟩
  · exact unique_of_narrated hk (fun id => ⟨_, (hrun id).2.1⟩) he he' htype hagg
  · exact flush_accepted huuid hk (Contract.Holds.post (paymentContract uuid5) hP ht) now

/-- A payment that is due, and requests on it. -/
def duePayment : Payment := ⟨Uuid.ofNat 5, .pending, 1000, "EUR"⟩

theorem duePayment_id_len : 1 ≤ duePayment.id.str.length ∧ duePayment.id.str.length ≤ 128 :=
  EventEnvelope.uuid_len _

def dueTable : Table Row := ⟨[.payment duePayment], List.nodup_singleton _⟩

theorem dueTable_accepted : ∀ r ∈ dueTable.rows, r.violation = .ok () :=
  fun r hr => by rw [List.mem_singleton.mp hr]; rfl

theorem dueTable_no_outbox : ∀ e, Row.outbox e ∉ dueTable.rows :=
  fun _ he => nomatch List.mem_singleton.mp he

def askFor (idempotency_key : String) (new_status : PaymentStatus) : ProcessPaymentRequest :=
  ⟨duePayment.id, idempotency_key, new_status, none⟩

/-- Session `t` runs `process_payment` up to the release of the lock, with the
given UUIDs for its token and its event. -/
def runRequest (t : Nat) (request : ProcessPaymentRequest) (token event_id : Nat) :
    List (Action Nat ProcessPaymentRequest Choice) :=
  [.start t request, .step t { uuid := Uuid.ofNat token }, .step t {}, .step t {}, .step t {},
    .step t {}, .step t { uuid := Uuid.ofNat event_id }, .step t {}, .step t {}]

/-- The payment is authorized, cannot be settled yet, and is captured. -/
def captureRun : List (Action Nat ProcessPaymentRequest Choice) :=
  runRequest 0 (askFor "a" .authorized) 10 11 ++ [.commit 0 {}]
  ++ runRequest 1 (askFor "b" .settled) 12 13 ++ [.rollback 1]
  ++ runRequest 2 (askFor "c" .captured) 14 15 ++ [.commit 2 {}]

theorem outbox_complete_capture :
    ∃ path, paymentHistory (fun c => c) dueTable captureRun duePayment.id = .pending :: path
      ∧ (PaymentStatus.pending :: path).IsChain Follows
      ∧ (PaymentStatus.pending :: path).Nodup
      ∧ paymentStatusOf duePayment.id (paymentRun (fun c => c) dueTable captureRun).shared.base
          = (PaymentStatus.pending :: path).getLast?
      ∧ (outboxOf duePayment.id (paymentRun (fun c => c) dueTable captureRun).shared.base).map
          (·.event_type) = path.map paymentEventType :=
  (outbox_complete (fun _ _ h => h) dueTable_accepted dueTable_no_outbox captureRun).1
    duePayment rfl

/-- The refused request has left no trace. -/
example : paymentHistory (fun c => c) dueTable (captureRun.take 20) duePayment.id
    = [.pending, .authorized] := by
  decide +kernel

end Nimbus
