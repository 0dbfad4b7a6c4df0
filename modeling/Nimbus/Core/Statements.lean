/-
  Nimbus.Core.Statements
  ──────────────────────
  **ONE RULE FOR EACH OPERATION.**

  A service is verified on the part of the state that is its session's own
  (`Local`).  For each operation of `Nimbus.Core.Database` one rule says what
  it does to that part, whatever the other sessions do; the proofs about the
  services use these rules and never unfold `exec`.

    • `Local.load`, `Local.lockRow`, `Local.put`, … — what operations do to a
                                                    session's own part;
    • `wlp_select`, `wlp_selectForUpdate`, `wlp_updateStock`, `wlp_flush`, … —
                                                    the rules;
    • `flushOne_order`, `flushOne_payment`, `flushOne_insert` — what a flush
                                                    writes.
-/
import Nimbus.Core.DatabaseLaws

namespace Nimbus

open Lib Lib.Prog

/-! ## §1. Changes of a session's own part. -/

namespace Local

/-- The object a SELECT answers with when it finds `row`. -/
def object (l : Local) (k : RowKey) (row : Row) : Row := (l.session.objs k).getD row

/-- The session after a SELECT that found `row`. -/
def load (l : Local) (k : RowKey) (row : Row) : Local :=
  { l with session := { l.session with
      objs := Function.update l.session.objs k (some (l.object k row)) } }

/-- A row has been locked; `b` is committed there. -/
def lockRow (l : Local) (k : RowKey) (b : Option Row) : Local := { l with part := l.part.lock k b }

/-- A row has been written over `b`. -/
def put (l : Local) (row : Row) (b : Option Row) : Local := { l with part := l.part.put row b }

/-- The session after an UPDATE of a stock row. -/
def sync (l : Local) (u : StockUpdate) : Local :=
  { l with session := { l.session with objs := World.syncStock l.session.objs u } }

/-- One more change to be flushed. -/
def push (l : Local) (objs : RowKey → Option Row) (p : Pending) : Local :=
  { l with session := ⟨objs, l.session.pending ++ [p]⟩ }

/-- The rows the session has locked are in `T` as it found them. -/
def SeenIn (l : Local) (T : Table Row) : Prop :=
  ∀ k b, l.part.locked k = some b → T.lookup k = b

/-- The session has neither written nor is about to. -/
def Untouched (l : Local) : Prop := l.part.writes = [] ∧ l.session.pending = []

theorem load_untouched {l : Local} {k : RowKey} {row : Row} (h : l.Untouched) :
    (l.load k row).Untouched := h

theorem sync_untouched {l : Local} {u : StockUpdate} (h : l.Untouched) : (l.sync u).Untouched := h

end Local

/-- What a request in session `t` is verified against, where `J` is known of the
committed rows at every moment. -/
def setting {τ : Type} [DecidableEq τ] (J : Table Row → Prop) (t : τ) :
    Setting Op Ans Exn (World τ) Choice Local :=
  ⟨fun c op w => exec c t op w, fun w => Inv w ∧ J w.base, fun w => w.local t, allowed⟩

/-- No condition along the way. -/
def anywhere : Local → Prop := fun _ => True

variable {τ : Type} [DecidableEq τ] {t : τ} {J : Table Row → Prop}

/-! ## §2. What a flush writes. -/

/-- The unique index refuses only a `dedupe_id` that a visible row has. -/
theorem insertRow_dedupe {s : TxStore Row τ} {e : OutboxEvent}
    (h : World.insertRow s t (.outbox e) = some (.error World.dedupeViolation)) :
    ∃ e', Row.outbox e' ∈ (s.base.upsertAll (s.part t).writes).rows
      ∧ e'.dedupe_id = e.dedupe_id := by
  have htaken : World.dedupeTaken s t e.dedupe_id = true := by
    unfold World.insertRow at h
    split at h
    next x hx =>
      -- a value out of bounds is another error
      have hcls := OutboxEvent.violation_cls hx
      rw [Except.error.inj (Option.some.inj h)] at hcls
      cases hcls
    next =>
      split at h
      next => exact absurd (congrArg Exn.msg (Except.error.inj (Option.some.inj h))) (by decide)
      next =>
        split at h
        next => cases h
        next x hx =>
          obtain ⟨s₁, -, hok⟩ := Option.map_eq_some_iff.mp hx
          split at hok
          next htaken => exact htaken
          next => cases hok
        next =>
          obtain ⟨s₁, -, hok⟩ := Option.map_eq_some_iff.mp h
          cases hok
  obtain ⟨row, hrow, hid⟩ := List.any_eq_true.mp htaken
  split at hid
  next e' => exact ⟨e', hrow, of_decide_eq_true hid⟩
  next => cases hid

/-- **What an insert does to the session's part**: the row is written where
nothing was committed. -/
theorem flushOne_insert_part {now : Int} {s s' : TxStore Row τ} {row : Row}
    (h : World.flushOne now s t (.insert row) = some (.ok s')) :
    s.base.lookup (key (World.stamp now row)) = none ∧ s'.base = s.base
      ∧ ∃ p : TxPart Row RowKey, s'.part t = p.put (World.stamp now row) none ∧ p.writes = (s.part t).writes
        ∧ ∀ k, (∀ d, k ≠ .dedupe d) → p.locked k = (s.part t).locked k := by
  obtain ⟨s₁, -, hv, hd, hp⟩ := flushOne_insert h
  have hbase : s.base.lookup (key (World.stamp now row)) = none := (Option.or_eq_none_iff.mp hv).2
  have hput := TxStore.part_put hp
  obtain ⟨-, rfl⟩ := TxStore.put_eq_some hp
  rcases reserveDedupe_ok hd with rfl | ⟨e, -, -, hl⟩
  · rw [hbase] at hput
    exact ⟨hbase, rfl, _, hput, rfl, fun _ _ => rfl⟩
  · have hpart := TxStore.part_lock hl
    obtain ⟨-, rfl⟩ := TxStore.lock_eq_some hl
    rw [show ({ s with owner := _ } : TxStore Row τ).base.lookup _ = none from hbase, hpart] at hput
    exact ⟨hbase, rfl, _, hput, rfl, fun k hk => TxPart.lock_locked_ne _ _ (hk _)⟩

theorem flushAll_cons {now : Int} {s s' : TxStore Row τ} {p : Pending} {ps : List Pending}
    (h : World.flushAll now s t (p :: ps) = some (.ok s')) :
    ∃ s₁, World.flushOne now s t p = some (.ok s₁) ∧ World.flushAll now s₁ t ps = some (.ok s') := by
  simp only [World.flushAll] at h
  split at h
  next => cases h
  next => cases h
  next s₁ h₁ => exact ⟨s₁, h₁, h⟩

theorem flushAll_nil {now : Int} {s s' : TxStore Row τ}
    (h : World.flushAll now s t [] = some (.ok s')) : s' = s :=
  (Except.ok.inj (Option.some.inj h)).symm

/-- What a flush can raise: what the environment raises, or what the database
answers a row with that it refuses or does not find. -/
def FlushError (e : Exn) : Prop :=
  (∃ f : Fault, e = f.exn)
    ∨ e.cls = .dataError ∨ e.cls = .integrityError ∨ e.cls = .staleDataError

theorem reserveDedupe_error {s : TxStore Row τ} {row : Row} {e : Exn}
    (h : World.reserveDedupe s t row = some (.error e)) : e.cls = .integrityError := by
  unfold World.reserveDedupe at h
  split at h
  next =>
    obtain ⟨s₁, -, hok⟩ := Option.map_eq_some_iff.mp h
    split at hok
    next =>
      obtain rfl := Except.error.inj hok
      rfl
    next => cases hok
  next => cases h

/-- A value out of bounds, a key that is taken, or a `dedupe_id` that is. -/
theorem insertRow_error {s : TxStore Row τ} {row : Row} {e : Exn}
    (h : World.insertRow s t row = some (.error e)) :
    e.cls = .dataError ∨ e.cls = .integrityError := by
  unfold World.insertRow at h
  split at h
  next x hx =>
    obtain rfl := Except.error.inj (Option.some.inj h)
    exact Row.violation_cls hx
  next =>
    split at h
    next =>
      obtain rfl := Except.error.inj (Option.some.inj h)
      exact Or.inr rfl
    next =>
      split at h
      next => cases h
      next x hx =>
        obtain rfl := Except.error.inj (Option.some.inj h)
        exact Or.inr (reserveDedupe_error hx)
      next =>
        obtain ⟨s₁, -, hok⟩ := Option.map_eq_some_iff.mp h
        cases hok

theorem flushOne_error {now : Int} {s : TxStore Row τ} {p : Pending} {e : Exn}
    (h : World.flushOne now s t p = some (.error e)) : FlushError e := by
  cases p with
  | orderStatus id status =>
      simp only [World.flushOne] at h
      split at h
      next =>
        obtain ⟨s₁, -, hok⟩ := Option.map_eq_some_iff.mp h
        cases hok
      next =>
        obtain rfl := Except.error.inj (Option.some.inj h)
        exact Or.inr (Or.inr (Or.inr rfl))
  | paymentStatus id status =>
      simp only [World.flushOne] at h
      split at h
      next =>
        obtain ⟨s₁, -, hok⟩ := Option.map_eq_some_iff.mp h
        cases hok
      next =>
        obtain rfl := Except.error.inj (Option.some.inj h)
        exact Or.inr (Or.inr (Or.inr rfl))
  | insert row =>
      have hinsert : World.insertRow s t (World.stamp now row) = some (.error e) := h
      exact Or.inr ((insertRow_error hinsert).imp_right Or.inl)

theorem flushAll_error {now : Int} {s : TxStore Row τ} {ps : List Pending} {e : Exn}
    (h : World.flushAll now s t ps = some (.error e)) : FlushError e := by
  induction ps generalizing s with
  | nil => cases h
  | cons p ps ih =>
      simp only [World.flushAll] at h
      split at h
      next => cases h
      next x hx =>
        obtain rfl := Except.error.inj (Option.some.inj h)
        exact flushOne_error hx
      next => exact ih h

/-! ## §3. The rules. -/

/-- The own part after a change of the session and the store. -/
theorem local_setSession (w : World τ) (s : Session) (store : TxStore Row τ) :
    ({ w.setSession t s with store := store } : World τ).local t
      = ⟨store.part t, s, w.lock t, (w.local t).mine⟩ := by
  show (⟨store.part t, (w.setSession t s).session t, w.lock t, (w.local t).mine⟩ : Local) = _
  rw [World.setSession_self]

section Rules

variable {α : Type} {L : Local → Prop} {Q : Except Exn α → Local → Prop} {l : Local}

/-- A SELECT, told by what the session sees. -/
theorem wlp_select_view {k : RowKey} {f : Option Row → Svc α} (hl : L l)
    (herr : ∀ e, Q (.error e) l)
    (hnone : ∀ w : World τ, w.local t = l → w.store.view t k = none →
      wlp (setting J t) L Q (f none) l)
    (hsome : ∀ (w : World τ) row, Inv w → J w.base → w.local t = l →
      w.store.view t k = some row →
      wlp (setting J t) L Q (f (some (l.object k row))) (l.load k row)) :
    wlp (setting J t) L Q (Svc.select k false >>= f) l := by
  refine ⟨hl, trivial, fun c w r w' hi hv h => ?_⟩
  simp only [setting, exec] at h
  split at h
  next fl _ =>
    obtain ⟨rfl, rfl⟩ := Prod.mk.inj (Option.some.inj h)
    exact hv ▸ ⟨hl, herr _⟩
  next =>
    obtain ⟨⟨r₁, w₁⟩, h₁, hr⟩ := Option.map_eq_some_iff.mp h
    obtain ⟨rfl, rfl⟩ := Prod.mk.inj hr
    rcases select_cases h₁ with ⟨hview, rfl, rfl⟩ | ⟨row, store, hview, rfl, hs, rfl⟩
    · exact hv ▸ hnone _ hv hview
    · obtain rfl : store = w.store := hs
      -- the row is put into the identity map, unless it is there already
      have hlocal := local_setSession (t := t) w { w.session t with
        objs := Function.update (w.session t).objs k (some (((w.session t).objs k).getD row)) }
        w.store
      have hfound := hsome w row hi.1 hi.2 hv hview
      subst hv
      show wlp (setting J t) L Q (f (some ((w.local t).object k row))) (World.local _ t)
      rw [hlocal]
      exact hfound

/-- A SELECT. -/
theorem wlp_select {k : RowKey} {f : Option Row → Svc α} (hl : L l)
    (herr : ∀ e, Q (.error e) l) (hnone : wlp (setting J t) L Q (f none) l)
    (hsome : ∀ row, key row = k →
      wlp (setting J t) L Q (f (some (l.object k row))) (l.load k row)) :
    wlp (setting J t) L Q (Svc.select k false >>= f) l :=
  wlp_select_view hl herr (fun _ _ _ => hnone) fun _ row hi _ _ hview =>
    hsome row (hi.store.view hview).2

/-- A SELECT in a session that has written nothing: the row found is committed. -/
theorem wlp_select_committed {k : RowKey} {f : Option Row → Svc α} (hl : L l)
    (hw : l.part.writes = []) (herr : ∀ e, Q (.error e) l)
    (hnone : wlp (setting J t) L Q (f none) l)
    (hsome : ∀ T row, J T → T.lookup k = some row →
      wlp (setting J t) L Q (f (some (l.object k row))) (l.load k row)) :
    wlp (setting J t) L Q (Svc.select k false >>= f) l := by
  refine wlp_select_view hl herr (fun _ _ _ => hnone) fun w row _ hJ hv hview => ?_
  refine hsome w.base row hJ ?_
  have hnil : (w.store.part t).writes = [] := (congrArg (fun l => l.part.writes) hv).trans hw
  exact (TxStore.view_of_no_writes hnil k).symm.trans hview

/-- A SELECT of a row the session has locked and not written. -/
theorem wlp_select_locked {k : RowKey} {row : Row} {f : Option Row → Svc α} (hl : L l)
    (hw : l.part.writes = []) (hk : l.part.locked k = some (some row)) (herr : ∀ e, Q (.error e) l)
    (hsome : wlp (setting J t) L Q (f (some (l.object k row))) (l.load k row)) :
    wlp (setting J t) L Q (Svc.select k false >>= f) l := by
  have hsees : ∀ w : World τ, w.local t = l → w.store.view t k = some row := by
    intro w hv
    subst hv
    rw [TxStore.view_of_locked hk]
    have hnil : (w.store.part t).writes = [] := hw
    rw [hnil]
    rfl
  refine wlp_select_view hl herr (fun w hv hview => ?_) fun w row' _ _ hv hview => ?_
  · rw [hsees w hv] at hview
    cases hview
  · obtain rfl := Option.some.inj ((hsees w hv).symm.trans hview)
    exact hsome

/-- **A SELECT … FOR UPDATE of a row the session has not written**: it fails,
finds nothing, or locks the committed row, whatever it answers with. -/
theorem exec_selectForUpdate {c : Choice} {k : RowKey} {w w' : World τ}
    {r : Except Exn (Option Row)} (hi : Inv w) (hw : (w.local t).part.writes = [])
    (h : exec c t (.select k true) w = some (r, w')) :
    (∃ e, r = .error e ∧ w' = w) ∨ (r = .ok none ∧ w' = w)
      ∨ ∃ row, c.fault = none ∧ key row = k ∧ w.store.view t k = some row
        ∧ r = .ok (some ((w.local t).object k row))
        ∧ w'.local t = ((w.local t).load k row).lockRow k (some row) := by
  simp only [exec] at h
  split at h
  next fl _ =>
    obtain ⟨rfl, rfl⟩ := Prod.mk.inj (Option.some.inj h)
    exact Or.inl ⟨_, rfl, rfl⟩
  next hf =>
    obtain ⟨⟨r₁, w₁⟩, h₁, hr⟩ := Option.map_eq_some_iff.mp h
    obtain ⟨rfl, rfl⟩ := Prod.mk.inj hr
    rcases select_cases h₁ with ⟨-, rfl, rfl⟩ | ⟨row, store, hview, rfl, hs, rfl⟩
    · exact Or.inr (Or.inl ⟨rfl, rfl⟩)
    · refine Or.inr (Or.inr ⟨row, hf, (hi.store.view hview).2, hview, rfl, ?_⟩)
      have hbase : w.store.base.lookup k = some row :=
        (TxStore.view_of_no_writes hw k).symm.trans hview
      rw [local_setSession, TxStore.part_lock hs, hbase]
      rfl

/-- A SELECT … FOR UPDATE of a row the session has not written: the committed
row is locked. -/
theorem wlp_selectForUpdate {k : RowKey} {f : Option Row → Svc α} (hl : L l)
    (hw : l.part.writes = []) (herr : ∀ e, Q (.error e) l)
    (hnone : wlp (setting J t) L Q (f none) l)
    (hsome : ∀ row, key row = k →
      wlp (setting J t) L Q (f (some (l.object k row))) ((l.load k row).lockRow k (some row))) :
    wlp (setting J t) L Q (Svc.select k true >>= f) l := by
  refine ⟨hl, trivial, fun c w r w' hi hv h => ?_⟩
  subst hv
  rcases exec_selectForUpdate hi.1 hw h with ⟨e, rfl, rfl⟩ | ⟨rfl, rfl⟩ | ⟨row, -, hk, -, rfl, hafter⟩
  · exact ⟨hl, herr e⟩
  · exact hnone
  · show wlp (setting J t) L Q (f (some ((w.local t).object k row))) (w'.local t)
    rw [hafter]
    exact hsome row hk

/-- An UPDATE of a stock row that the session has not written: nothing in the
committed rows `T` matches, or the committed row does and is locked and written. -/
theorem wlp_updateStock {u : StockUpdate} {f : Nat → Svc α} (hl : L l)
    (hw : l.part.writes = []) (herr : ∀ e, Q (.error e) l)
    (hzero : ∀ T, J T → l.SeenIn T →
      (∀ s, T.lookup (.stock u.id) = some (.stock s) → u.cond s = false) →
      wlp (setting J t) L Q (f 0) (l.sync u))
    (hone : ∀ s, s.id = u.id → u.cond s = true →
      wlp (setting J t) L Q (f 1) ((l.sync u).put (.stock (u.set s)) (some (.stock s)))) :
    wlp (setting J t) L Q (Svc.updateStock u >>= f) l := by
  refine ⟨hl, trivial, fun c w r w' hi hv h => ?_⟩
  subst hv
  simp only [setting, exec] at h
  split at h
  next fl _ =>
    obtain ⟨rfl, rfl⟩ := Prod.mk.inj (Option.some.inj h)
    exact ⟨hl, herr _⟩
  next =>
    have hsync := local_setSession (t := t) w
      { w.session t with objs := World.syncStock (w.session t).objs u }
    rcases updateStock_cases h with ⟨rfl, hno, rfl⟩ | ⟨e, rfl, rfl⟩ |
      ⟨s, store, hview, hc, -, hp, rfl, rfl⟩
    · -- no row matches
      show wlp (setting J t) L Q (f 0) (World.local _ t)
      rw [show (w.synced t u).local t = _ from hsync w.store]
      refine hzero w.base hi.2 (fun k b hk => (TxStore.part_locked hk).2) fun s hs => ?_
      exact hno s ((TxStore.view_of_no_writes hw _).trans hs)
    · -- the row that would be written is refused
      exact ⟨hl, herr e⟩
    · obtain ⟨s', hs', hid⟩ := stock_of_key (hi.1.store.view hview).2
      obtain rfl := Row.stock.inj hs'
      -- a session that has written nothing updates the committed row
      have hbase : w.store.base.lookup (.stock u.id) = some (.stock s) :=
        (TxStore.view_of_no_writes hw _).symm.trans hview
      have hkey : key (Row.stock (u.set s)) = .stock u.id := by
        rw [key_stock, u.keeps_id, hid]
      show wlp (setting J t) L Q (f 1) (World.local _ t)
      rw [show ({ w.synced t u with store := store } : World τ).local t = _ from hsync store,
        TxStore.part_put hp, hkey, hbase]
      exact hone s hid hc

/-- Reading a loaded object. -/
theorem wlp_loaded {k : RowKey} {f : Option Row → Svc α} (hl : L l)
    (h : wlp (setting J t) L Q (f (l.session.objs k)) l) :
    wlp (setting J t) L Q (Svc.loaded k >>= f) l := by
  refine ⟨hl, trivial, fun c w r w' _ hv he => ?_⟩
  subst hv
  obtain ⟨rfl, rfl⟩ := Prod.mk.inj (Option.some.inj he)
  exact h

/-- `order.status = status`. -/
theorem wlp_setOrderStatus {id : Uuid} {status : OrderStatus} {f : Unit → Svc α} (hl : L l)
    (h : wlp (setting J t) L Q (f ())
      (l.push (setOrderObj l.session.objs id status) (.orderStatus id status))) :
    wlp (setting J t) L Q (Svc.setOrderStatus id status >>= f) l := by
  refine ⟨hl, trivial, fun c w r w' _ hv he => ?_⟩
  subst hv
  obtain ⟨rfl, rfl⟩ := Prod.mk.inj (Option.some.inj he)
  have hlocal := local_setSession (t := t) w
    ⟨setOrderObj (w.session t).objs id status, (w.session t).pending ++ [.orderStatus id status]⟩
    w.store
  show wlp (setting J t) L Q (f ()) (World.local _ t)
  exact hlocal ▸ h

/-- `payment.status = status`. -/
theorem wlp_setPaymentStatus {id : Uuid} {status : PaymentStatus} {f : Unit → Svc α} (hl : L l)
    (h : wlp (setting J t) L Q (f ())
      (l.push (setPaymentObj l.session.objs id status) (.paymentStatus id status))) :
    wlp (setting J t) L Q (Svc.setPaymentStatus id status >>= f) l := by
  refine ⟨hl, trivial, fun c w r w' _ hv he => ?_⟩
  subst hv
  obtain ⟨rfl, rfl⟩ := Prod.mk.inj (Option.some.inj he)
  have hlocal := local_setSession (t := t) w
    ⟨setPaymentObj (w.session t).objs id status,
      (w.session t).pending ++ [.paymentStatus id status]⟩ w.store
  show wlp (setting J t) L Q (f ()) (World.local _ t)
  exact hlocal ▸ h

/-- `session.add` of a new object. -/
theorem wlp_add {row : Row} {f : Unit → Svc α} (hl : L l)
    (h : wlp (setting J t) L Q (f ()) (l.push l.session.objs (.insert row))) :
    wlp (setting J t) L Q (Svc.add row >>= f) l := by
  refine ⟨hl, trivial, fun c w r w' _ hv he => ?_⟩
  subst hv
  obtain ⟨rfl, rfl⟩ := Prod.mk.inj (Option.some.inj he)
  have hlocal := local_setSession (t := t) w
    ⟨(w.session t).objs, (w.session t).pending ++ [.insert row]⟩ w.store
  show wlp (setting J t) L Q (f ()) (World.local _ t)
  exact hlocal ▸ h

/-- A flush. -/
theorem wlp_flush {f : Unit → Svc α} (hl : L l) (herr : ∀ e, FlushError e → Q (.error e) l)
    (hok : ∀ (now : Int) (s s' : TxStore Row τ), StoreInv s → s.part t = l.part →
      World.flushAll now s t l.session.pending = some (.ok s') →
      wlp (setting J t) L Q (f ()) { l with part := s'.part t, session := ⟨l.session.objs, []⟩ }) :
    wlp (setting J t) L Q (Svc.flush >>= f) l := by
  refine ⟨hl, trivial, fun c w r w' hi hv h => ?_⟩
  subst hv
  simp only [setting, exec] at h
  split at h
  next fl _ =>
    obtain ⟨rfl, rfl⟩ := Prod.mk.inj (Option.some.inj h)
    exact ⟨hl, herr _ (Or.inl ⟨fl, rfl⟩)⟩
  next =>
    rcases flush_cases h with ⟨e, hf, rfl, rfl⟩ | ⟨store, hf, rfl, rfl⟩
    · exact ⟨hl, herr e (flushAll_error hf)⟩
    · have hlocal := local_setSession (t := t) w { w.session t with pending := [] } store
      show wlp (setting J t) L Q (f ()) (World.local _ t)
      rw [hlocal]
      exact hok c.now w.store store hi.1.store rfl hf

/-- `SET LOCAL search_path`. -/
theorem wlp_setSearchPath {path : String} {f : Unit → Svc α} (hl : L l)
    (herr : ∀ e, Q (.error e) l) (h : wlp (setting J t) L Q (f ()) l) :
    wlp (setting J t) L Q (Svc.setSearchPath path >>= f) l := by
  refine ⟨hl, trivial, fun c w r w' _ hv he => ?_⟩
  subst hv
  simp only [setting, exec] at he
  split at he
  next fl _ =>
    obtain ⟨rfl, rfl⟩ := Prod.mk.inj (Option.some.inj he)
    exact ⟨hl, herr _⟩
  next =>
    obtain ⟨rfl, rfl⟩ := Prod.mk.inj (Option.some.inj he)
    exact h

/-- A new UUID. -/
theorem wlp_uuid4 {f : Uuid → Svc α} (hl : L l)
    (h : ∀ u, wlp (setting J t) L Q (f u) { l with mine := u :: l.mine }) :
    wlp (setting J t) L Q (Svc.uuid4 >>= f) l := by
  refine ⟨hl, trivial, fun c w r w' _ hv he => ?_⟩
  subst hv
  simp only [setting, exec] at he
  split at he
  next => cases he
  next =>
    obtain ⟨rfl, rfl⟩ := Prod.mk.inj (Option.some.inj he)
    have hlocal : (setting J t).view { w with used := (t, c.uuid) :: w.used }
        = { w.local t with mine := c.uuid :: (w.local t).mine } := by
      simp [setting, World.local]
    show wlp (setting J t) L Q (f c.uuid) _
    rw [hlocal]
    exact h c.uuid

/-- The clock. -/
theorem wlp_nowIso {f : String → Svc α} (hl : L l) (h : ∀ iso, wlp (setting J t) L Q (f iso) l) :
    wlp (setting J t) L Q (Svc.nowIso >>= f) l := by
  refine ⟨hl, trivial, fun c w r w' _ hv he => ?_⟩
  subst hv
  obtain ⟨rfl, rfl⟩ := Prod.mk.inj (Option.some.inj he)
  exact h c.iso

/-- What a lock command leaves of the session's own part. -/
theorem local_setLock (w : World τ) (t : τ) (p : LockPhase) :
    (w.setLock t p).local t = { w.local t with lock := p } := by
  show (⟨_, _, (w.setLock t p).lock t, _⟩ : Local) = _
  rw [World.setLock_self]
  rfl

/-- `SET … NX`: the token must be one of the session's own. -/
theorem wlp_redisSetNx {key token : String} {f : Bool → Svc α} (hl : L l)
    (hmine : ∃ u ∈ l.mine, token = u.hex) (herr : ∀ e, Q (.error e) l)
    (hbusy : wlp (setting J t) L Q (f false) l)
    (hset : wlp (setting J t) L Q (f true) { l with lock := .held key token }) :
    wlp (setting J t) L Q (Svc.redisSetNx key token >>= f) l := by
  refine ⟨hl, hmine, fun c w r w' _ hv he => ?_⟩
  subst hv
  have hsame : (w.setNx key token).2.local t = w.local t := by
    unfold World.setNx
    split <;> rfl
  simp only [setting, exec] at he
  split at he
  next fl _ =>
    obtain ⟨rfl, rfl⟩ := Prod.mk.inj (Option.some.inj he)
    -- the answer is lost; the phase of the lock stays as it is
    show wlp (setting J t) L Q (.ret (.error fl.exn)) (World.local _ t)
    split
    · rw [hsame]; exact ⟨hl, herr _⟩
    · exact ⟨hl, herr _⟩
  next =>
    split at he
    next w₁ hw =>
      obtain ⟨rfl, rfl⟩ := Prod.mk.inj (Option.some.inj he)
      rw [hw] at hsame
      show wlp (setting J t) L Q (f true) (World.local _ t)
      rw [local_setLock, hsame]
      exact hset
    next w₁ hw =>
      obtain ⟨rfl, rfl⟩ := Prod.mk.inj (Option.some.inj he)
      rw [hw] at hsame
      show wlp (setting J t) L Q (f false) (World.local _ t)
      exact hsame ▸ hbusy

/-- The release script, on every outcome. -/
theorem wlp_redisRelease {key token : String} {f : Except Exn Nat → Svc α} (hl : L l)
    (hlock : l.lock = .held key token)
    (h : ∀ r, wlp (setting J t) L Q (f r) { l with lock := .released key }) :
    wlp (setting J t) L Q ((Svc.redisRelease key token).handle f) l := by
  refine ⟨hl, hlock, fun c w r w' _ hv he => ?_⟩
  subst hv
  have hlocal : ∀ w₁ : World τ, w₁.local t = w.local t →
      (w₁.setLock t (.released key)).local t = { w.local t with lock := .released key } := by
    intro w₁ h₁
    rw [local_setLock, h₁]
  have hscript : (w.releaseKey key token).2.local t = w.local t := by
    unfold World.releaseKey
    split <;> rfl
  simp only [setting, exec] at he
  split at he
  next fl _ =>
    obtain ⟨rfl, rfl⟩ := Prod.mk.inj (Option.some.inj he)
    -- the answer is lost, whether or not the script has run
    show wlp (setting J t) L Q (f _) (World.local _ t)
    rw [hlocal]
    · exact h _
    · split
      · exact hscript
      · rfl
  next =>
    obtain ⟨rfl, rfl⟩ := Prod.mk.inj (Option.some.inj he)
    show wlp (setting J t) L Q (f _) (World.local _ t)
    rw [hlocal _ hscript]
    exact h _

end Rules

end Nimbus
