/-
  Nimbus.Saga.StatusChecks
  ────────────────────────
  **WHICH STATUS THE TRANSITION CHECKS LOOK AT.**

  `process_payment` and `update_order_status` lock the row with SELECT … FOR
  UPDATE and check the status of the object they are answered with.  A session
  that has loaded the row before, in an earlier transaction (commits expire
  nothing), is answered with its old object: the lock is on the row as it is,
  the check on the row as it was.

    • `StatusCall`, `statusSystem` — the services and plain reads, in sessions
                                     that live on after a commit;
    • `Locks`, `Checked`           — a lock that is granted, and that the check
                                     after it looks at the row's status;
    • `Lawful`                     — statuses change by allowed transitions;
    • `LockCurrent`                — the session's copy has the row's status;
    • `status_checks`              — **checks look at the row, and committed
                                     statuses change lawfully, exactly in the
                                     runs whose locks meet current copies.**
-/
import Nimbus.Core.Steps
import Nimbus.Saga.PaymentEvents

namespace Nimbus

open Lib Lib.Prog Orders Payments

variable {τ : Type} [DecidableEq τ]

/-! ## §1. Sessions that live on. -/

namespace World

/-- A new transaction in the session `t`, which keeps what it has loaded. -/
def reopen (w : World τ) (t : τ) : World τ :=
  (w.rollback t).setSession t ⟨(w.session t).objs, []⟩

/-- The owner of the session commits, with `expire_on_commit=False`. -/
def commitKeeping (w : World τ) (c : Choice) (t : τ) : Option (World τ) :=
  (w.commit c t).map fun w' => w'.setSession t ⟨(w.session t).objs, []⟩

end World

section Keeping

variable {t u : τ} {w w' : World τ} {c : Choice}

theorem setSession_inv {s : Session} (hi : Inv w) : Inv (w.setSession t s) :=
  ⟨hi.store, hi.held, hi.used⟩

theorem setSession_local_of_ne {s : Session} (htu : t ≠ u) :
    (w.setSession u s).local t = w.local t := by
  show (⟨_, (w.setSession u s).session t, _, _⟩ : Local) = _
  rw [World.setSession_of_ne _ _ htu]
  rfl

/-- A session that is opened again has written and locked nothing. -/
theorem reopen_local (t : τ) (w : World τ) : (w.reopen t).local t
    = ⟨TxPart.empty, ⟨(w.session t).objs, []⟩, .idle, (w.local t).mine⟩ := by
  have hroll := enter_local t w
  have hsession : (w.reopen t).session t = ⟨(w.session t).objs, []⟩ := World.setSession_self _ _ _
  show (⟨((w.enter t).local t).part, (w.reopen t).session t, ((w.enter t).local t).lock,
    ((w.enter t).local t).mine⟩ : Local) = _
  rw [hroll, hsession]

theorem commitKeeping_eq_some (h : w.commitKeeping c t = some w') :
    ∃ w₁, w.commit c t = some w₁ ∧ w' = w₁.setSession t ⟨(w.session t).objs, []⟩ := by
  obtain ⟨w₁, h₁, rfl⟩ := Option.map_eq_some_iff.mp h
  exact ⟨w₁, h₁, rfl⟩

end Keeping

/-! ## §2. The system. -/

/-- The two services, and reading a row. -/
inductive StatusCall where
  | processPayment (request : ProcessPaymentRequest)
  | updateOrderStatus (order_id : Uuid) (new_status : OrderStatus)
  | read (k : RowKey)

inductive StatusReply where
  | processed (result : ProcessPaymentResult)
  | updated (order : Order)
  | read (row : Option Row)

/-- The program of a call. -/
def statusBody (uuid5 : Uuid5) : StatusCall → Svc StatusReply
  | .processPayment request => (processPayment uuid5 request).map .processed
  | .updateOrderStatus order_id new_status =>
      (updateOrderStatus order_id new_status).map .updated
  | .read k => do
      let row ← Svc.select k false
      return .read row

/-- The services in sessions that live on: the owner may commit whatever the
outcome; after a rollback everything is loaded anew. -/
def statusSystem (uuid5 : Uuid5) :
    System StatusCall Op Ans Exn StatusReply (World τ) τ Choice where
  body := statusBody uuid5
  exec := fun c t op w => exec c t op w
  enter := fun t w => w.reopen t
  mayCommit := fun _ _ => true
  commit := fun c t w => w.commitKeeping c t
  rollback := fun t w => w.rollback t

/-- The pool of the system. -/
abbrev StatusPool (τ : Type) := Pool StatusCall Op Ans Exn StatusReply (World τ) τ

/-! ## §3. What is checked, and what is committed. -/

/-- Two payments, or two orders, with the same status; the other rows have none. -/
def Row.sameStatus : Row → Row → Bool
  | .payment p, .payment q => p.status = q.status
  | .order o, .order q => o.status = q.status
  | _, _ => true

@[simp] theorem Row.sameStatus_self (row : Row) : row.sameStatus row = true := by
  cases row with
  | payment p => exact decide_eq_true rfl
  | order o => exact decide_eq_true rfl
  | stock s => rfl
  | outbox e => rfl

/-- The next operation of `t` is a SELECT … FOR UPDATE that locks the row `k`
and answers with `obj`. -/
def Locks (P : StatusPool τ) (t : τ) (c : Choice) (k : RowKey) (obj : Row) : Prop :=
  (∃ call cont, P.thread t = some ⟨call, .call (.select k true) cont⟩)
    ∧ ∃ w', exec c t (.select k true) P.shared = some (.ok (some obj), w')

/-- A step that locks a row is answered with its status. -/
def Checked (P : StatusPool τ) (a : Action τ StatusCall Choice) : Prop :=
  ∀ t c k obj row, a = .step t c → Locks P t c k obj →
    P.shared.store.view t k = some row → obj.sameStatus row = true

/-- A step that locks a row meets no copy of it in the session, or one that has
its status. -/
def LockCurrent (P : StatusPool τ) (a : Action τ StatusCall Choice) : Prop :=
  ∀ t c k obj copy row, a = .step t c → Locks P t c k obj →
    (P.shared.session t).objs k = some copy → P.shared.store.view t k = some row →
    copy.sameStatus row = true

/-- Every status stays, or changes by an allowed transition. -/
structure Lawful (T T' : Table Row) : Prop where
  payment : ∀ id p, T.lookup (.payment id) = some (.payment p) →
    ∃ p', T'.lookup (.payment id) = some (.payment p')
      ∧ (p'.status = p.status ∨ p'.status ∈ p.status.allowedTransitions)
  order : ∀ id o, T.lookup (.order id) = some (.order o) →
    ∃ o', T'.lookup (.order id) = some (.order o')
      ∧ (o'.status = o.status ∨ applies o.status o'.status = true)

/-- A step after which the committed statuses are lawful. -/
def LawfulStep (uuid5 : Uuid5) (P : StatusPool τ) (a : Action τ StatusCall Choice) : Prop :=
  Lawful P.shared.base ((Pool.machine (statusSystem uuid5)).next P a).shared.base

theorem Lawful.refl (T : Table Row) : Lawful T T :=
  ⟨fun _ p hp => ⟨p, hp, Or.inl rfl⟩, fun _ o ho => ⟨o, ho, Or.inl rfl⟩⟩

/-- A new row of another kind. -/
theorem Lawful.upsert {T T' : Table Row} (h : Lawful T T') {row : Row}
    (hpayment : ∀ id, .payment id ≠ key row) (horder : ∀ id, .order id ≠ key row) :
    Lawful T (T'.upsert row) := by
  constructor
  · intro id p hp
    obtain ⟨p', hp', hs⟩ := h.payment id p hp
    exact ⟨p', (Table.lookup_upsert_ne (hpayment id)).trans hp', hs⟩
  · intro id o ho
    obtain ⟨o', ho', hs⟩ := h.order id o ho
    exact ⟨o', (Table.lookup_upsert_ne (horder id)).trans ho', hs⟩

theorem lawful_payment {T : Table Row} {p : Payment} {s : PaymentStatus}
    (hp : T.lookup (.payment p.id) = some (.payment p)) (hs : s ∈ p.status.allowedTransitions) :
    Lawful T (T.upsert (.payment { p with status := s })) := by
  constructor
  · intro id q hq
    -- the payment itself, or another one
    by_cases hid : id = p.id
    · subst hid
      obtain rfl := Row.payment.inj (Option.some.inj (hp.symm.trans hq))
      exact ⟨_, Table.lookup_upsert_self rfl, Or.inr hs⟩
    · have hne : RowKey.payment id ≠ key (Row.payment { p with status := s }) :=
        fun hc => hid (RowKey.payment.inj hc)
      exact ⟨q, (Table.lookup_upsert_ne hne).trans hq, Or.inl rfl⟩
  · intro id o ho
    have hne : RowKey.order id ≠ key (Row.payment { p with status := s }) :=
      fun hc => RowKey.noConfusion hc
    exact ⟨o, (Table.lookup_upsert_ne hne).trans ho, Or.inl rfl⟩

theorem lawful_setStatus {T : Table Row} {o : Order} {s : OrderStatus}
    (ho : T.lookup (.order o.id) = some (.order o)) : Lawful T (setStatus T o s) := by
  unfold setStatus
  split
  next happ =>
    -- the status applies, and the one order changes
    constructor
    · intro id p hp
      have hne : RowKey.payment id ≠ key (Row.order { o with status := s }) :=
        fun hc => RowKey.noConfusion hc
      exact ⟨p, (Table.lookup_upsert_ne hne).trans hp, Or.inl rfl⟩
    · intro id q hq
      by_cases hid : id = o.id
      · subst hid
        obtain rfl := Row.order.inj (Option.some.inj (ho.symm.trans hq))
        exact ⟨_, Table.lookup_upsert_self rfl, Or.inr happ⟩
      · have hne : RowKey.order id ≠ key (Row.order { o with status := s }) :=
          fun hc => hid (RowKey.order.inj hc)
        exact ⟨q, (Table.lookup_upsert_ne hne).trans hq, Or.inl rfl⟩
  next => exact Lawful.refl T

/-! ## §4. What a session may have waiting. -/

/-- Nothing has been written, and what waits is nothing, or one allowed status
change of a row that the session has locked, possibly with an outbox row. -/
structure Safe (l : Local) : Prop where
  writes : l.part.writes = []
  pending : l.session.pending = []
    ∨ (∃ p s, l.part.locked (.payment p.id) = some (some (.payment p))
        ∧ s ∈ p.status.allowedTransitions
        ∧ ∃ rest, l.session.pending = .paymentStatus p.id s :: rest
          ∧ (rest = [] ∨ ∃ e, rest = [.insert (.outbox e)]))
    ∨ ∃ o s, l.part.locked (.order o.id) = some (some (.order o))
        ∧ l.session.pending = if applies o.status s then [.orderStatus o.id s] else []

theorem Local.Untouched.safe {l : Local} (h : l.Untouched) : Safe l := ⟨h.1, Or.inl h.2⟩

/-- Only the part of the store and the session count. -/
theorem Safe.congr {l l' : Local} (h : Safe l) (hpart : l'.part = l.part)
    (hsession : l'.session = l.session) : Safe l' := by
  obtain ⟨hw, hp⟩ := h
  rw [← hpart] at hw
  rw [← hpart, ← hsession] at hp
  exact ⟨hw, hp⟩

section Commit

variable {t : τ} {w w' : World τ} {c : Choice}

/-- A status change of the locked payment `p`, flushed alone or with an outbox
row. -/
theorem commit_paymentStatus {p : Payment} {s : PaymentStatus} {rest : List Pending} (hi : Inv w)
    (h : w.commit c t = some w')
    (hlocked : (w.local t).part.locked (.payment p.id) = some (some (.payment p)))
    (hnil : (w.local t).part.writes = [])
    (hpend : (w.local t).session.pending = .paymentStatus p.id s :: rest)
    (hrest : rest = [] ∨ ∃ e, rest = [.insert (.outbox e)]) :
    w'.base = w.base.upsert (.payment { p with status := s })
      ∨ ∃ e, w'.base = (w.base.upsert (.payment { p with status := s })).upsert (.outbox e) := by
  obtain ⟨store, hf, hbase⟩ := commit_base hi h
  have hone : (w.session t).pending = .paymentStatus p.id s :: rest := hpend
  have hwrites : (w.store.part t).writes = [] := hnil
  rw [hone] at hf
  obtain ⟨s₁, h₁, hf⟩ := flushAll_cons hf
  obtain ⟨p', hview, hput⟩ := flushOne_payment h₁
  -- the flush finds the row as it was locked
  rw [TxStore.view_of_locked hlocked, hwrites] at hview
  obtain rfl := Row.payment.inj (Option.some.inj hview)
  have hs₁ : (s₁.part t).writes = [.payment { p with status := s }] := by
    rw [TxStore.part_put hput, TxPart.put_writes, hwrites]
  rcases hrest with rfl | ⟨e, rfl⟩
  · obtain rfl := flushAll_nil hf
    refine Or.inl ?_
    rw [hbase, hs₁]
    rfl
  · obtain ⟨s₂, h₂, hf⟩ := flushAll_cons hf
    obtain rfl := flushAll_nil hf
    obtain ⟨-, -, q, hq, hqw, -⟩ := flushOne_insert_part h₂
    refine Or.inr ⟨{ e with created_at := c.now }, ?_⟩
    rw [hbase, hq, TxPart.put_writes, hqw, hs₁]
    rfl

/-- **What a safe session commits is lawful.** -/
theorem Safe.commit (hs : Safe (w.local t)) (hi : Inv w) (h : w.commit c t = some w') :
    Lawful w.base w'.base := by
  rcases hs.pending with hnil | ⟨p, s, hlocked, hallowed, rest, hpend, hrest⟩ | ⟨o, s, hlocked, hpend⟩
  · rw [commit_untouched hi h ⟨hs.writes, hnil⟩]
    exact Lawful.refl _
  · -- an outbox row beside the payment changes no status
    have hpay := lawful_payment (lookup_of_locked hlocked) hallowed
    rcases commit_paymentStatus hi h hlocked hs.writes hpend hrest with hbase | ⟨e, hbase⟩
    · rw [hbase]
      exact hpay
    · rw [hbase]
      exact hpay.upsert (fun _ hc => RowKey.noConfusion hc) (fun _ hc => RowKey.noConfusion hc)
  · rw [commit_orderStatus hi h hlocked hpend (by rw [hs.writes]; exact fun _ hr => nomatch hr),
      hs.writes]
    exact lawful_setStatus (lookup_of_locked hlocked)

end Commit

/-! ## §5. The services, where locks meet current copies. -/

/-- The copy that the session `t` has of the row `k`, if any, has its status. -/
def World.copyCurrent (w : World τ) (t : τ) (k : RowKey) : Bool :=
  match (w.session t).objs k, w.store.view t k with
  | some copy, some row => copy.sameStatus row
  | _, _ => true

/-- A SELECT … FOR UPDATE that succeeds meets a current copy. -/
def lockGuard (c : Choice) (t : τ) : Op → World τ → Bool
  | .select k true, w => c.fault.isSome || w.copyCurrent t k
  | _, _ => true

theorem guarded_exec {c : Choice} {t : τ} {op : Op} {w : World τ}
    {x : Except Exn (Ans op) × World τ}
    (h : (if lockGuard c t op w then exec c t op w else none) = some x) :
    exec c t op w = some x := by
  split at h
  next => exact h
  next => cases h

/-- What the services are verified against. -/
def guardedSetting (t : τ) : Setting Op Ans Exn (World τ) Choice Local :=
  (setting anyRows t).restrict fun c op w => lockGuard c t op w

variable {t : τ} {l : Local}

section Rules

variable {α : Type} {Q : Except Exn α → Local → Prop}

/-- The rule of a SELECT … FOR UPDATE, with what the guard says. -/
theorem wlp_guardedSelect {k : RowKey} {f : Option Row → Svc α} (hw : l.part.writes = [])
    (herr : ∀ e, Q (.error e) l) (hnone : wlp (guardedSetting t) anywhere Q (f none) l)
    (hsome : ∀ row, key row = k →
      (∀ copy, l.session.objs k = some copy → copy.sameStatus row = true) →
      wlp (guardedSetting t) anywhere Q (f (some (l.object k row)))
        ((l.load k row).lockRow k (some row))) :
    wlp (guardedSetting t) anywhere Q (Svc.select k true >>= f) l := by
  refine ⟨trivial, trivial, fun c w r w' hi hv h => ?_⟩
  subst hv
  obtain ⟨hguard, h⟩ := Setting.restrict_exec _ h
  rcases exec_selectForUpdate hi.1 hw h with ⟨e, rfl, rfl⟩ | ⟨rfl, rfl⟩ |
    ⟨row, hf, hk, hview, rfl, hafter⟩
  · exact ⟨trivial, herr e⟩
  · exact hnone
  · show wlp (guardedSetting t) anywhere Q (f (some ((w.local t).object k row))) (w'.local t)
    rw [hafter]
    refine hsome row hk fun copy hcopy => ?_
    -- the guard holds of every SELECT that does not fail
    have hcurrent : w.copyCurrent t k = true := by
      have hor : (c.fault.isSome || w.copyCurrent t k) = true := hguard
      rw [hf] at hor
      exact hor
    unfold World.copyCurrent at hcurrent
    rw [show (w.session t).objs k = some copy from hcopy, hview] at hcurrent
    exact hcurrent

end Rules

/-- The object that a guarded SELECT answers with has the status of the row. -/
theorem object_status {k : RowKey} {row : Row}
    (h : ∀ copy, l.session.objs k = some copy → copy.sameStatus row = true) :
    (l.object k row).sameStatus row = true := by
  unfold Local.object
  cases hcopy : l.session.objs k with
  | none => exact Row.sameStatus_self row
  | some copy => exact h copy hcopy

/-- What holds anywhere of a session holds under the guard. -/
theorem guarded_of_wlp {α : Type} {L : Local → Prop} {Q : Except Exn α → Local → Prop}
    {p : Svc α} (h : wlp (setting anyRows t) L Q p l) : wlp (guardedSetting t) anywhere Q p l :=
  wlp_restrict _ (wlp_mono_along (fun _ _ => trivial) h)

/-- Acquiring the lock neither writes nor changes objects. -/
theorem acquire_keeps (idempotency_key : String) (ttl_seconds : Option Int) :
    wlp (setting anyRows t) anywhere (fun _ l' => l'.part = l.part ∧ l'.session = l.session)
      (acquireIdempotencyLock idempotency_key ttl_seconds) l := by
  unfold acquireIdempotencyLock
  split
  · exact ⟨trivial, rfl, rfl⟩
  · refine wlp_uuid4 trivial fun token => ?_
    split
    · exact ⟨trivial, rfl, rfl⟩
    · exact wlp_redisSetNx trivial ⟨token, List.mem_cons_self, rfl⟩ (fun _ => ⟨rfl, rfl⟩)
        ⟨trivial, rfl, rfl⟩ ⟨trivial, rfl, rfl⟩

/-- The event joins the status change. -/
theorem emitEvent_safe (uuid5 : Uuid5) (request : ProcessPaymentRequest) (obj p : Payment)
    (hw : l.part.writes = []) (hlocked : l.part.locked (.payment p.id) = some (some (.payment p)))
    (hallowed : request.new_status ∈ p.status.allowedTransitions)
    (hp : l.session.pending = [.paymentStatus p.id request.new_status]) :
    wlp (setting anyRows t) anywhere (fun _ l' => l'.lock = l.lock ∧ Safe l')
      (emitEvent uuid5 request obj) l := by
  -- the status is set already, and the lock is held
  have hsafe : Safe l :=
    ⟨hw, Or.inr (Or.inl ⟨p, _, hlocked, hallowed, [], hp, Or.inl rfl⟩)⟩
  refine wlp_nowIso trivial fun occurred_at => wlp_uuid4 trivial fun event_id => ?_
  show wlp _ _ _ (lift (buildPaymentEvent obj (paymentEventType request.new_status)
    request.extra_payload occurred_at event_id) >>= _) _
  cases buildPaymentEvent obj (paymentEventType request.new_status) request.extra_payload
      occurred_at event_id with
  | error e => exact ⟨trivial, rfl, hsafe.congr rfl rfl⟩
  | ok envelope =>
      show wlp _ _ _ (lift (buildOutboxEvent uuid5 envelope "payments.events") >>= _) _
      cases buildOutboxEvent uuid5 envelope "payments.events" with
      | error e => exact ⟨trivial, rfl, hsafe.congr rfl rfl⟩
      | ok outbox =>
          refine wlp_add trivial ⟨trivial, rfl, hw, Or.inr (Or.inl ⟨p, _, hlocked, hallowed,
            [.insert (.outbox outbox)], ?_, Or.inr ⟨outbox, rfl⟩⟩)⟩
          show l.session.pending ++ _ = _
          rw [hp]
          rfl

/-- **The body of `process_payment` decides on the status of the locked row.** -/
theorem processLocked_safe (uuid5 : Uuid5) (request : ProcessPaymentRequest)
    (hl : l.Untouched) :
    wlp (guardedSetting t) anywhere (fun _ l' => l'.lock = l.lock ∧ Safe l')
      (processLocked uuid5 request) l := by
  refine wlp_guardedSelect hl.1 (fun _ => ⟨rfl, hl.safe⟩) ⟨trivial, rfl, hl.safe⟩ ?_
  intro row hrow hcopy
  have hstatus := object_status hcopy
  have hafter : ((l.load (.payment request.payment_id) row).lockRow (.payment request.payment_id)
      (some row)).Untouched := hl
  cases hobj : l.object (.payment request.payment_id) row with
  | payment obj =>
      obtain ⟨p, rfl, hid⟩ := payment_of_key hrow
      rw [hobj] at hstatus
      -- the object may be an old one, but its status is the row's
      have hsame : obj.status = p.status := of_decide_eq_true hstatus
      show wlp _ _ _ (lift (validateTransition obj.status request.new_status) >>= _) _
      unfold validateTransition
      split
      next hallowed =>
        rw [hsame] at hallowed
        rw [← hid]
        refine guarded_of_wlp (L := anywhere) (wlp_setPaymentStatus trivial ?_)
        refine emitEvent_safe uuid5 request _ p hl.1 (TxPart.lock_locked _ _ _) hallowed ?_
        show l.session.pending ++ _ = _
        rw [hl.2]
        rfl
      next => exact ⟨trivial, rfl, hafter.safe⟩
  | _ => exact ⟨trivial, rfl, hafter.safe⟩

/-- `process_payment` leaves a safe session, whatever its outcome. -/
theorem processPayment_safe (uuid5 : Uuid5) (request : ProcessPaymentRequest)
    (hidle : l.lock = .idle) (hl : l.Untouched) :
    wlp (guardedSetting t) anywhere (fun _ l' => Safe l') (processPayment uuid5 request) l := by
  have hacquire := wlp_and
    (wlp_mono_along (fun _ _ => trivial) (acquire_wlp request none (Or.inl ⟨hidle, hl⟩)))
    (acquire_keeps (t := t) (l := l) request.idempotency_key none)
  refine wlp_bind (guarded_of_wlp hacquire) ?_ ?_
  · rintro e l' ⟨-, hpart, hsession⟩
    exact hl.safe.congr hpart hsession
  · rintro lock l₁ - ⟨⟨token, rfl, rfl⟩, -⟩
    refine wlp_finally (processLocked_safe uuid5 request hl) (fun r l' _ hr =>
      guarded_of_wlp (releaseLock_wlp request hr.1)) ?_ ?_
    · rintro r l₁ _ l₂ hr rfl
      exact hr.2.congr rfl rfl
    · rintro r l₁ _ l₂ hr rfl
      exact hr.2.congr rfl rfl

/-- **So does `update_order_status`.** -/
theorem updateOrderStatus_safe (order_id : Uuid) (new_status : OrderStatus) (hl : l.Untouched) :
    wlp (guardedSetting t) anywhere (fun _ l' => Safe l') (updateOrderStatus order_id new_status)
      l := by
  unfold updateOrderStatus
  split
  · exact ⟨trivial, hl.safe⟩
  · refine wlp_guardedSelect hl.1 (fun _ => hl.safe) ⟨trivial, hl.safe⟩ fun row hrow hcopy => ?_
    have hstatus := object_status hcopy
    have hafter : ((l.load (.order order_id) row).lockRow (.order order_id)
        (some row)).Untouched := hl
    cases hobj : l.object (.order order_id) row with
    | order obj =>
        obtain ⟨o, rfl, hid⟩ := order_of_key hrow
        rw [hobj] at hstatus
        -- the object was checked under the status of the locked row
        have hsame : obj.status = o.status := of_decide_eq_true hstatus
        show wlp _ _ _ (if applies obj.status new_status then _ else _) _
        split
        next happ =>
          rw [hsame] at happ
          rw [← hid]
          refine guarded_of_wlp (L := anywhere) (wlp_setOrderStatus trivial ⟨trivial, hl.1, ?_⟩)
          refine Or.inr (Or.inr ⟨o, new_status, TxPart.lock_locked _ _ _, ?_⟩)
          show l.session.pending ++ _ = _
          rw [hl.2, if_pos happ]
          rfl
        next => exact ⟨trivial, hafter.safe⟩
    | _ => exact ⟨trivial, hafter.safe⟩

/-- **Every call leaves a safe session**, whatever it had loaded. -/
theorem statusBody_safe (uuid5 : Uuid5) (call : StatusCall) (hidle : l.lock = .idle)
    (hl : l.Untouched) :
    wlp (guardedSetting t) anywhere (fun _ l' => Safe l') (statusBody uuid5 call) l := by
  cases call with
  | processPayment request =>
      refine wlp_mono ?_ (wlp_map (processPayment_safe uuid5 request hidle hl))
      rintro r l' ⟨x, -, hs⟩
      exact hs
  | updateOrderStatus order_id new_status =>
      refine wlp_mono ?_ (wlp_map (updateOrderStatus_safe order_id new_status hl))
      rintro r l' ⟨x, -, hs⟩
      exact hs
  | read k =>
      refine guarded_of_wlp (L := anywhere) (wlp_select trivial (fun _ => hl.safe)
        ⟨trivial, hl.safe⟩ fun row _ => ⟨trivial, ?_⟩)
      exact (Local.load_untouched hl).safe

/-! ## §6. Every run. -/

/-- The system in which locks meet current copies. -/
abbrev guardedSystem (uuid5 : Uuid5) :
    System StatusCall Op Ans Exn StatusReply (World τ) τ Choice :=
  (statusSystem uuid5).restrict lockGuard

/-- Its calls among all the others. -/
def guardedContract (uuid5 : Uuid5) :
    Contract (guardedSystem uuid5 : System StatusCall Op Ans Exn StatusReply (World τ) τ Choice)
      Local where
  view := fun t w => w.local t
  inv := fun w => Inv w ∧ anyRows w.base
  allowed := allowed
  along := fun _ => anywhere
  post := fun _ _ l => Safe l
  enter_inv := fun h => ⟨setSession_inv (rollback_inv h.1), trivial⟩
  enter_view := fun hu _ => (setSession_local_of_ne hu).trans (rollback_local_of_ne hu)
  body_wlp := by
    intro t w call _
    show wlp (guardedSetting t) anywhere _ (statusBody uuid5 call) ((w.reopen t).local t)
    rw [reopen_local]
    exact statusBody_safe uuid5 call rfl ⟨rfl, rfl⟩
  exec_inv := fun h ha he => ⟨exec_inv h.1 ha (guarded_exec he), trivial⟩
  exec_view := fun hu h he => exec_local_of_ne hu h.1 (guarded_exec he)
  commit_inv := by
    intro t w c call r w' h _ _ hc
    obtain ⟨w₁, h₁, rfl⟩ := commitKeeping_eq_some hc
    exact ⟨setSession_inv (commit_inv h.1 h₁), trivial⟩
  commit_view := by
    intro t u w c w' hu h hc
    obtain ⟨w₁, h₁, rfl⟩ := commitKeeping_eq_some hc
    exact (setSession_local_of_ne hu).trans (commit_local_of_ne hu h.1 h₁)
  rollback_inv := fun h => ⟨rollback_inv h.1, trivial⟩
  rollback_view := fun hu _ => rollback_local_of_ne hu

/-- Its commits change statuses lawfully, and nothing else does. -/
def guardedEffects (uuid5 : Uuid5) :
    Effects (guardedContract uuid5 (τ := τ)) (Table Row) where
  obs := World.base
  effect := fun _ _ T T' => Lawful T T'
  enter_obs := fun _ _ => rfl
  exec_obs := fun h he => exec_base h.1.store (guarded_exec he)
  rollback_obs := fun _ _ => rfl
  commit_obs := by
    intro t w c call r w' h hs _ hc
    obtain ⟨w₁, h₁, rfl⟩ := commitKeeping_eq_some hc
    have hlawful := Safe.commit hs h.1 h₁
    exact hlawful

variable {uuid5 : Uuid5} {P P' : StatusPool τ} {a : Action τ StatusCall Choice}

/-- A lock is answered with the copy, if there is one, and else with the row. -/
theorem Locks.found {c : Choice} {k : RowKey} {obj : Row} (h : Locks P t c k obj) :
    P.shared.found t k = some obj := by
  obtain ⟨-, w', he⟩ := h
  rcases exec_select he with ⟨f, -, hr, -⟩ | ⟨-, -, hr, -⟩ | ⟨obj', -, hfound, hr, -⟩
  · cases hr
  · cases Except.ok.inj hr
  · rw [hfound, ← Except.ok.inj hr]

/-- **The check looks at the row's status exactly when the copy is current.** -/
theorem checked_iff_lockCurrent : Checked P a ↔ LockCurrent P a := by
  -- a SELECT answers with the copy, and without one with the row
  have hanswer : ∀ {t c k obj row}, Locks P t c k obj → P.shared.store.view t k = some row →
      obj = ((P.shared.session t).objs k).getD row := by
    intro t c k obj row hlocks hview
    have hfound := hlocks.found
    unfold World.found at hfound
    rw [hview] at hfound
    exact (Option.some.inj hfound).symm
  constructor
  · intro h t c k obj copy row ha hlocks hcopy hview
    have hobj := hanswer hlocks hview
    rw [hcopy] at hobj
    obtain rfl : obj = copy := hobj
    exact h t c k obj row ha hlocks hview
  · intro h t c k obj row ha hlocks hview
    have hobj := hanswer hlocks hview
    cases hcopy : (P.shared.session t).objs k with
    | none =>
        rw [hcopy] at hobj
        obtain rfl : obj = row := hobj
        exact Row.sameStatus_self obj
    | some copy =>
        rw [hcopy] at hobj
        obtain rfl : obj = copy := hobj
        exact h t c k obj obj row ha hlocks hcopy hview

/-- A move that meets the condition meets the guard. -/
theorem guard_of_lockCurrent (hcur : LockCurrent P a) {c : Choice} {call : StatusCall} {op : Op}
    {k : Except Exn (Ans op) → Svc StatusReply} {x : Except Exn (Ans op) × World τ}
    (ha : a = .step t c) (ht : P.thread t = some ⟨call, .call op k⟩)
    (he : exec c t op P.shared = some x) : lockGuard c t op P.shared = true := by
  -- the guard asks something of the locking SELECTs only
  cases op with
  | select key forUpdate =>
      cases forUpdate with
      | false => rfl
      | true =>
          show (c.fault.isSome || P.shared.copyCurrent t key) = true
          obtain ⟨r, w'⟩ := x
          unfold World.copyCurrent
          split
          next copy row hcopy hview =>
            rcases exec_select he with ⟨f, hf, -, -⟩ | ⟨-, hnone, -, -⟩ | ⟨obj, -, -, rfl, -⟩
            · rw [hf]
              rfl
            · unfold World.found at hnone
              rw [hview] at hnone
              cases hnone
            · have hsame := hcur t c key obj copy row ha ⟨⟨call, k, ht⟩, w', he⟩ hcopy hview
              rw [hsame, Bool.or_true]
          next => exact Bool.or_true _
  | _ => rfl

/-- **The checks look at the locked rows' statuses, and committed statuses
change lawfully, exactly in the runs whose locks meet current copies.** -/
theorem status_checks {T : Table Row} (hT : ∀ r ∈ T.rows, r.violation = .ok ())
    (as : List (Action τ StatusCall Choice)) :
    (Pool.machine (statusSystem uuid5)).Along
        (fun P a => Checked P a ∧ LawfulStep uuid5 P a) (Pool.init (World.init T)) as
      ↔ (Pool.machine (statusSystem uuid5)).Along LockCurrent (Pool.init (World.init T)) as := by
  let K := guardedContract uuid5 (τ := τ)
  -- a step that meets the condition is one of the guarded system
  have hguarded : ∀ {P P' : StatusPool τ} {a}, LockCurrent P a →
      Pool.act (statusSystem uuid5) P a = some P' →
      Pool.act (guardedSystem uuid5) P a = some P' := by
    intro P P' a hcur hstep
    exact Pool.act_restrict hstep fun t c call op k x ha ht he => guard_of_lockCurrent hcur ha ht he
  constructor
  · exact Machine.Along.mono _ fun P a h => checked_iff_lockCurrent.mp h.1
  · refine Machine.Along.of_invariant _ (I := K.Holds) ?_ ?_ (K.holds_init ⟨inv_init hT, trivial⟩)
    · intro P a P' hP hcur hstep
      exact K.act_holds hP (hguarded hcur hstep)
    · intro P a hP hcur
      refine ⟨checked_iff_lockCurrent.mpr hcur, ?_⟩
      unfold LawfulStep
      rcases (Pool.machine (statusSystem uuid5)).next_cases P a with ⟨P', hstep, hn⟩ | ⟨-, hn⟩
      · -- only a commit changes the committed rows
        rw [hn]
        rcases (guardedEffects uuid5).act_effect hP (hguarded hcur hstep) with
          ⟨hsame, -, -⟩ | ⟨t, c, call, r, -, -, -, -, hlawful⟩
        · have hbase : P'.shared.base = P.shared.base := hsame
          rw [hbase]
          exact Lawful.refl _
        · exact hlawful
      · -- an action that is not possible leaves everything
        rw [hn]
        exact Lawful.refl _

/-! ## §7. A stale copy. -/

/-- Session `t` calls `process_payment`, with the given UUIDs. -/
def callPayment (t : Nat) (request : ProcessPaymentRequest) (token event_id : Nat) :
    List (Action Nat StatusCall Choice) :=
  [.start t (.processPayment request), .step t { uuid := Uuid.ofNat token }, .step t {},
    .step t {}, .step t {}, .step t {}, .step t { uuid := Uuid.ofNat event_id }, .step t {},
    .step t {}]

/-- Session 0 has read the pending payment in an earlier transaction; session 1
fails the payment; then session 0 authorizes it. -/
def staleRun : List (Action Nat StatusCall Choice) :=
  [.start 0 (.read (.payment duePayment.id)), .step 0 {}, .commit 0 {}]
  ++ callPayment 1 (askFor "a" .failed) 10 11 ++ [.commit 1 {}]
  ++ callPayment 0 (askFor "b" .authorized) 12 13

theorem staleRun_commits :
    paymentStatusOf duePayment.id ((Pool.machine (statusSystem fun c => c)).run
        (Pool.init (World.init dueTable)) staleRun).shared.base = some .failed
      ∧ paymentStatusOf duePayment.id ((Pool.machine (statusSystem fun c => c)).next
          ((Pool.machine (statusSystem fun c => c)).run (Pool.init (World.init dueTable)) staleRun)
          (.commit 0 {})).shared.base = some .authorized :=
  ⟨by decide +kernel, by decide +kernel⟩

theorem lookup_of_paymentStatusOf {id : Uuid} {T : Table Row} {status : PaymentStatus}
    (h : paymentStatusOf id T = some status) :
    ∃ p, T.lookup (.payment id) = some (.payment p) ∧ p.status = status := by
  unfold paymentStatusOf at h
  split at h
  next p hp => exact ⟨p, hp, Option.some.inj h⟩
  next => cases h

/-- **A failed payment becomes authorized.** -/
theorem status_checks_stale :
    ¬ ∀ as : List (Action Nat StatusCall Choice), (Pool.machine (statusSystem fun c => c)).Along
        (fun P a => Checked P a ∧ LawfulStep (fun c => c) P a) (Pool.init (World.init dueTable))
        as := by
  intro h
  have hlast := ((Machine.along_append _).mp (h (staleRun ++ [.commit 0 {}]))).2.1.2
  obtain ⟨hfailed, hauthorized⟩ := staleRun_commits
  obtain ⟨p, hp, hstatus⟩ := lookup_of_paymentStatusOf hfailed
  obtain ⟨p', hp', hchange⟩ := hlast.payment duePayment.id p hp
  obtain ⟨q, hq, hqstatus⟩ := lookup_of_paymentStatusOf hauthorized
  obtain rfl := Row.payment.inj (Option.some.inj (hp'.symm.trans hq))
  rw [hqstatus, hstatus] at hchange
  exact absurd hchange (by decide)

theorem status_checks_staleRun :
    (Pool.machine (statusSystem fun c => c)).Along
        (fun P a => Checked P a ∧ LawfulStep (fun c => c) P a) (Pool.init (World.init dueTable))
        staleRun
      ↔ (Pool.machine (statusSystem fun c => c)).Along LockCurrent (Pool.init (World.init dueTable))
        staleRun :=
  status_checks dueTable_accepted staleRun

end Nimbus
